import Reckon.Proofs.Span.Weakest

/-!
The inside of a call. Delimiters outside brackets separate it into the spans of the arguments, and
`arguments` finds exactly these spans; it finds a stray closing bracket exactly when the brackets
of the inside do not match among themselves.
-/

namespace Reckon.Span

variable {token : Token} {rest left right span reversed : List Token} {depth final : Nat}

theorem call?_eq_some {name : Token} {inside : List Token} :
    call? span = some (name, inside) ↔
      ∃ bracket last, span = name :: bracket :: (inside ++ [last]) ∧
        name.kind = .identifier ∧ bracket.kind = .opening ∧ last.kind = .closing := by
  constructor
  · intro called
    unfold call? at called
    split at called
    · next first bracket rest =>
      split at called
      · next last found =>
        split at called
        · next shape =>
          obtain ⟨inner, rfl⟩ := List.getLast?_eq_some_iff.mp found
          rw [List.dropLast_concat] at called
          obtain ⟨rfl, rfl⟩ := by simpa using called
          exact ⟨bracket, last, rfl, shape⟩
        · contradiction
      · contradiction
    · contradiction
  · rintro ⟨bracket, last, rfl, shape⟩
    simp [call?, shape]

theorem arguments_opening (opens : token.kind = .opening) :
    arguments depth reversed (token :: rest) = arguments (depth + 1) (token :: reversed) rest := by
  simp only [arguments, opens]

theorem arguments_closing (closes : token.kind = .closing) :
    arguments (depth + 1) reversed (token :: rest) = arguments depth (token :: reversed) rest := by
  simp only [arguments, closes]

theorem arguments_closing_zero (closes : token.kind = .closing) :
    arguments 0 reversed (token :: rest) = ⟨[], true⟩ := by
  simp only [arguments, closes]

theorem arguments_delimiter (delimits : token.kind = .delimiter) :
    arguments 0 reversed (token :: rest) =
      ⟨reversed.reverse :: (arguments 0 [] rest).spans, (arguments 0 [] rest).stray⟩ := by
  simp only [arguments, delimits]

theorem arguments_plain (plain : token.Plain) (other : token.kind ≠ .delimiter ∨ depth ≠ 0) :
    arguments depth reversed (token :: rest) = arguments depth (token :: reversed) rest := by
  obtain ⟨opens, closes⟩ := plain
  cases depth <;> cases kind : token.kind <;> simp_all [arguments]

/-- A span in which no delimiter stands outside the brackets. -/
def Undelimited (span : List Token) : Prop :=
  ∀ token ∈ outside 0 span, token.kind ≠ .delimiter

theorem undelimited_nil : Undelimited [] :=
  fun _ mem => absurd mem List.not_mem_nil

/-- The spans between the delimiters of the inside of a call. -/
inductive Separated : List Token → List (List Token) → Prop
  | last {span : List Token} : Balanced span → Undelimited span → Separated span [span]
  | more {span rest : List Token} {delimiter : Token} {spans : List (List Token)} :
    Balanced span → Undelimited span → delimiter.kind = .delimiter → Separated rest spans →
    Separated (span ++ delimiter :: rest) (span :: spans)

theorem Separated.balanced {spans : List (List Token)} (separated : Separated span spans)
    {argument : List Token} (mem : argument ∈ spans) : Balanced argument := by
  induction separated with
  | last balanced _ =>
    obtain rfl := List.mem_singleton.mp mem
    exact balanced
  | more balanced _ _ _ ih =>
    cases List.mem_cons.mp mem with
    | inl first => exact first ▸ balanced
    | inr later => exact ih later

theorem Separated.subset {spans : List (List Token)} (separated : Separated span spans)
    {argument : List Token} (mem : argument ∈ spans) : argument ⊆ span := by
  induction separated with
  | last =>
    obtain rfl := List.mem_singleton.mp mem
    exact List.Subset.refl _
  | @more first rest _ _ _ _ _ _ ih =>
    cases List.mem_cons.mp mem with
    | inl here =>
      subst here
      exact List.subset_append_left argument _
    | inr later =>
      exact List.subset_append_of_subset_right first (List.subset_cons_of_subset _ (ih later))

theorem arguments_append (reached : depthAfter depth left = some final)
    (quiet : ∀ token ∈ outside depth left, token.kind ≠ .delimiter) :
    arguments depth reversed (left ++ right) =
      arguments final (left.reverse ++ reversed) right := by
  replace reached := leads_of_depthAfter reached
  induction reached generalizing reversed with
  | nil => rfl
  | opens opens _ ih =>
    rw [outside_opening opens] at quiet
    rw [List.cons_append, arguments_opening opens, ih quiet, List.reverse_cons, List.append_assoc,
      List.singleton_append]
  | closes closes _ ih =>
    rw [outside_closing closes] at quiet
    rw [List.cons_append, arguments_closing closes, ih quiet, List.reverse_cons, List.append_assoc,
      List.singleton_append]
  | @plain depth _ _ plain _ ih =>
    rw [List.cons_append, List.reverse_cons, List.append_assoc, List.singleton_append]
    cases depth with
    | zero =>
      rw [outside_plain plain, List.forall_mem_cons] at quiet
      rw [arguments_plain plain (.inl quiet.1), ih quiet.2]
    | succ depth =>
      rw [outside_plain_deeper plain] at quiet
      rw [arguments_plain plain (.inr (Nat.succ_ne_zero depth)), ih quiet]

theorem Separated.arguments_eq {spans : List (List Token)} (separated : Separated span spans) :
    arguments 0 [] span = ⟨spans, false⟩ := by
  induction separated with
  | @last span balanced quiet =>
    have read : arguments 0 [] (span ++ []) = arguments 0 (span.reverse ++ []) [] :=
      arguments_append balanced quiet
    simpa [arguments] using read
  | @more span rest delimiter spans balanced quiet delimits _ ih =>
    have read : arguments 0 [] (span ++ delimiter :: rest) =
        arguments 0 (span.reverse ++ []) (delimiter :: rest) := arguments_append balanced quiet
    rw [read, arguments_delimiter delimits, ih]
    simp

theorem depthAfter_of_not_stray (h : (arguments depth reversed span).stray = false) :
    (depthAfter depth span).isSome := by
  induction span generalizing depth reversed with
  | nil => rfl
  | cons token rest ih =>
    cases token.bracketing with
    | opens opens =>
      rw [arguments_opening opens] at h
      rw [depthAfter_opening opens]
      exact ih h
    | closes closes =>
      cases depth with
      | zero => rw [arguments_closing_zero closes] at h; contradiction
      | succ depth =>
        rw [arguments_closing closes] at h
        rw [depthAfter_closing closes]
        exact ih h
    | plain plain =>
      rw [depthAfter_plain plain]
      by_cases delimits : token.kind = .delimiter ∧ depth = 0
      · obtain ⟨delimits, rfl⟩ := delimits
        rw [arguments_delimiter delimits] at h
        exact ih h
      · rw [arguments_plain plain (Classical.not_and_iff_not_or_not.mp delimits)] at h
        exact ih h

theorem mem_arguments (h : (arguments depth reversed span).stray = false)
    (kept : token.kind ≠ .delimiter) (mem : token ∈ reversed ++ span) :
    ∃ argument ∈ (arguments depth reversed span).spans, token ∈ argument := by
  induction span generalizing depth reversed with
  | nil =>
    rw [List.append_nil] at mem
    exact ⟨reversed.reverse, List.mem_singleton_self _, List.mem_reverse.mpr mem⟩
  | cons next rest ih =>
    have moved : token ∈ (next :: reversed) ++ rest := by
      rw [List.mem_append, List.mem_cons] at mem ⊢
      rw [or_assoc, or_left_comm]
      exact mem
    cases next.bracketing with
    | opens opens =>
      rw [arguments_opening opens] at h ⊢
      exact ih h moved
    | closes closes =>
      cases depth with
      | zero => rw [arguments_closing_zero closes] at h; contradiction
      | succ depth =>
        rw [arguments_closing closes] at h ⊢
        exact ih h moved
    | plain plain =>
      by_cases delimits : next.kind = .delimiter ∧ depth = 0
      · obtain ⟨delimits, rfl⟩ := delimits
        rw [arguments_delimiter delimits] at h ⊢
        rcases List.mem_append.mp mem with here | later
        · exact ⟨reversed.reverse, List.mem_cons_self, List.mem_reverse.mpr here⟩
        · have behind : token ∈ rest := by
            cases List.mem_cons.mp later with
            | inl same => exact absurd (same ▸ delimits) kept
            | inr behind => exact behind
          obtain ⟨argument, among, mem⟩ := ih h behind
          exact ⟨argument, List.mem_cons_of_mem _ among, mem⟩
      · rw [arguments_plain plain (Classical.not_and_iff_not_or_not.mp delimits)] at h ⊢
        exact ih h moved

theorem separated_arguments {done : List Token} (reached : depthAfter 0 done = some depth)
    (quiet : Undelimited done) (closed : depthAfter depth span = some 0) :
    Separated (done ++ span) (arguments depth done.reverse span).spans := by
  induction span generalizing depth done with
  | nil =>
    obtain rfl := Option.some.inj closed
    rw [arguments, List.reverse_reverse, List.append_nil]
    exact .last reached quiet
  | cons token rest ih =>
    -- The token joins the argument being read, unless it is a delimiter outside brackets.
    have moved : done ++ token :: rest = (done ++ [token]) ++ rest := by simp
    have behind : token :: done.reverse = (done ++ [token]).reverse := by simp
    have further : depthAfter 0 (done ++ [token]) = depthAfter depth [token] := by
      rw [depthAfter_append, reached]
      rfl
    have quieter : (∀ t ∈ outside depth [token], t.kind ≠ .delimiter) →
        Undelimited (done ++ [token]) := by
      intro one t mem
      rw [outside_append reached, List.mem_append] at mem
      exact mem.elim (quiet t) (one t)
    cases token.bracketing with
    | opens opens =>
      rw [depthAfter_opening opens] at further closed
      rw [arguments_opening opens, moved, behind]
      exact ih further (quieter (by rw [outside_opening opens]; simp [outside])) closed
    | closes closes =>
      cases depth with
      | zero => rw [depthAfter_closing_zero closes] at closed; contradiction
      | succ depth =>
        rw [depthAfter_closing closes] at further closed
        rw [arguments_closing closes, moved, behind]
        exact ih further (quieter (by rw [outside_closing closes]; simp [outside])) closed
    | plain plain =>
      rw [depthAfter_plain plain] at further closed
      cases depth with
      | zero =>
        by_cases delimits : token.kind = .delimiter
        · rw [arguments_delimiter delimits, List.reverse_reverse]
          exact .more reached quiet delimits (ih balanced_nil undelimited_nil closed)
        · rw [arguments_plain plain (.inl delimits), moved, behind]
          refine ih further (quieter ?_) closed
          rw [outside_plain plain]
          simpa [outside] using delimits
      | succ depth =>
        rw [arguments_plain plain (.inr (Nat.succ_ne_zero depth)), moved, behind]
        exact ih further (quieter (by rw [outside_plain_deeper plain]; simp [outside])) closed

theorem Balanced.separated (balanced : Balanced span) :
    Separated span (arguments 0 [] span).spans :=
  separated_arguments balanced_nil undelimited_nil balanced

end Reckon.Span
