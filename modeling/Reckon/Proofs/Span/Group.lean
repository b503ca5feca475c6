import Reckon.Proofs.Span.Separated

/-!
A group in a span: a balanced inside between an opening and a closing bracket, with tokens before
and behind it. A cut at a token outside all brackets leaves the group whole on one side, brackets
around the span are the group's own or stand around it, and the tokens outside all brackets do not
depend on what is inside the group.
-/

namespace Reckon.Span

variable {bracket last token : Token} {span inside before behind left right : List Token}
  {depth : Nat}

theorem not_balanced_of_open (opens : bracket.kind = .opening)
    (balanced : Balanced (left ++ right)) : ¬ Balanced (before ++ bracket :: left) := by
  intro closed
  rw [Balanced, depthAfter_append] at balanced closed
  obtain ⟨reached, front, -⟩ := Option.bind_eq_some_iff.mp balanced
  obtain ⟨depth, -, behind⟩ := Option.bind_eq_some_iff.mp closed
  have deeper := depthAfter_add (depth + 1) front
  rw [depthAfter_opening opens] at behind
  rw [Nat.zero_add, behind] at deeper
  have same := Option.some.inj deeper
  omega

theorem not_balanced_of_closing (closes : last.kind = .closing) (balanced : Balanced inside) :
    ¬ Balanced (inside ++ last :: behind) := by
  intro closed
  rw [balanced.append_iff, Balanced, depthAfter_closing_zero closes] at closed
  contradiction

theorem group_of_cut (opens : bracket.kind = .opening) (closes : last.kind = .closing)
    (plain : token.Plain) (balanced : Balanced left) (inner : Balanced inside)
    (whole : left ++ token :: right = before ++ bracket :: (inside ++ last :: behind)) :
    (∃ between, left = before ++ bracket :: (inside ++ last :: between) ∧
      behind = between ++ token :: right) ∨
    ∃ between, before = left ++ token :: between ∧
      right = between ++ bracket :: (inside ++ last :: behind) := by
  have notOpening : token ≠ bracket := fun same => plain.1 (same ▸ opens)
  have notClosing : token ≠ last := fun same => plain.2 (same ▸ closes)
  rcases List.append_eq_append_iff.mp whole with ⟨middle, rfl, tail⟩ | ⟨middle, rfl, tail⟩
  · right
    cases middle with
    | nil => exact absurd (List.cons.inj tail).1 notOpening
    | cons first between =>
      obtain ⟨rfl, rfl⟩ := List.cons.inj tail
      exact ⟨between, rfl, rfl⟩
  · left
    cases middle with
    | nil => exact absurd (List.cons.inj tail).1.symm notOpening
    | cons first middle =>
      obtain ⟨rfl, inward⟩ := List.cons.inj tail
      rcases List.append_eq_append_iff.mp inward with ⟨between, rfl, ends⟩ | ⟨between, rfl, ends⟩
      · cases between with
        | nil => exact absurd (List.cons.inj ends).1.symm notClosing
        | cons first between =>
          obtain ⟨rfl, rfl⟩ := List.cons.inj ends
          exact ⟨between, rfl, rfl⟩
      · exact absurd balanced (not_balanced_of_open opens inner)

theorem group_of_enclosed {close : Token} (opens : bracket.kind = .opening)
    (balanced : Balanced span) (inner : Balanced inside)
    (whole : span ++ [close] = before ++ bracket :: (inside ++ last :: behind)) :
    ∃ between, span = before ++ bracket :: (inside ++ last :: between) ∧
      behind = between ++ [close] := by
  rcases List.eq_nil_or_concat behind with rfl | ⟨between, final, rfl⟩
  · have same : span ++ [close] = (before ++ bracket :: inside) ++ [last] := by simpa using whole
    obtain ⟨rfl, -⟩ := List.append_inj' same rfl
    have ends : Balanced (inside ++ []) := by rwa [List.append_nil]
    exact absurd balanced (not_balanced_of_open opens ends)
  · have same : span ++ [close] =
        (before ++ bracket :: (inside ++ last :: between)) ++ [final] := by simpa using whole
    obtain ⟨rfl, single⟩ := List.append_inj' same rfl
    obtain rfl := List.singleton_inj.mp single
    exact ⟨between, rfl, List.concat_eq_append⟩

theorem eq_group_of_enclosed {close : Token} (closes : last.kind = .closing)
    (balanced : Balanced span) (inner : Balanced inside)
    (whole : span ++ [close] = inside ++ last :: behind) :
    span = inside ∧ close = last ∧ behind = [] := by
  rcases List.eq_nil_or_concat behind with rfl | ⟨between, final, rfl⟩
  · obtain ⟨rfl, single⟩ := List.append_inj' whole rfl
    exact ⟨rfl, List.singleton_inj.mp single, rfl⟩
  · have same : span ++ [close] = (inside ++ last :: between) ++ [final] := by simpa using whole
    obtain ⟨rfl, -⟩ := List.append_inj' same rfl
    exact absurd balanced (not_balanced_of_closing closes inner)

theorem outside_group (opens : bracket.kind = .opening) (closes : last.kind = .closing)
    (reached : depthAfter 0 before = some depth) (inner : Balanced inside) :
    outside 0 (before ++ bracket :: (inside ++ last :: behind)) =
      outside 0 before ++ outside depth behind := by
  rw [outside_append reached, outside_opening opens, outside_append (inner.depthAfter_eq _),
    outside_deeper (by rw [inner.depthAfter_eq]; rfl), outside_closing closes, List.nil_append]

theorem Undelimited.group {other : List Token} (opens : bracket.kind = .opening)
    (closes : last.kind = .closing) (inner : Balanced inside) (inner' : Balanced other)
    (balanced : Balanced (before ++ bracket :: (inside ++ last :: behind)))
    (quiet : Undelimited (before ++ bracket :: (inside ++ last :: behind))) :
    Undelimited (before ++ bracket :: (other ++ last :: behind)) := by
  rw [Balanced, depthAfter_append] at balanced
  obtain ⟨depth, reached, -⟩ := Option.bind_eq_some_iff.mp balanced
  rw [Undelimited, outside_group opens closes reached inner] at quiet
  rwa [Undelimited, outside_group opens closes reached inner']

end Reckon.Span
