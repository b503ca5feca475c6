import Reckon.Proofs.Bracket.Nested
import Reckon.Proofs.Tree.Reading

/-!
Nesting of spans. The brackets of a span nest when those of its letters do, each closed by one of
its own style. Stretches of such a span in which no bracket is open at the end, and none closed that
was opened before, nest again. These are the stretches that a span is taken apart into: its inside
without enclosing brackets, the two sides of a cut, and the arguments in front of the first bracket
that closes the call, wherever that bracket stands.
-/

namespace Reckon.Span

def letters (span : List Token) : List Char :=
  span.flatMap (·.text.toList)

/-- Each bracket of the span is closed by one of its own style. -/
def WellNested (span : List Token) : Prop :=
  Bracket.Nested (Bracket.word (letters span))

variable {token : Token} {span front left right stretch back done argument : List Token}
variable {depth final : Nat}

theorem wellNested_iff : WellNested span ↔ Bracket.check [] (letters span) = none :=
  Bracket.check_eq_none_iff.symm

theorem letters_cons (token : Token) (span : List Token) :
    letters (token :: span) = token.text.toList ++ letters span :=
  List.flatMap_cons

theorem letters_append (left right : List Token) :
    letters (left ++ right) = letters left ++ letters right :=
  List.flatMap_append

theorem check_of_written {cs : List Char} (written : Scanner.Written cs span)
    (stack : List Bracket.Style) : Bracket.check stack cs = Bracket.check stack (letters span) := by
  induction written generalizing stack with
  | @blank cs blank =>
    have alone := neutral_of_isBlank blank stack []
    rwa [List.append_nil] at alone
  | token blank _ _ _ ih =>
    rw [neutral_of_isBlank blank, letters_cons]
    exact Bracket.check_append_congr ih _ stack

/-- A stretch takes the open brackets to as many as its depth says, and does so whatever is open
further out. -/
theorem exists_stack (above below : List Bracket.Style) {rest : List Char}
    (formed : ∀ token ∈ span, token.WellFormed)
    (reached : depthAfter above.length span = some final)
    (nested : Bracket.check (above ++ below) (letters span ++ rest) = none) :
    ∃ stack, stack.length = final ∧ ∀ below rest,
      Bracket.check (above ++ below) (letters span ++ rest) =
        Bracket.check (stack ++ below) rest := by
  induction span generalizing above with
  | nil => exact ⟨above, Option.some.inj reached, fun _ _ => rfl⟩
  | cons token span ih =>
    rw [List.forall_mem_cons] at formed
    simp only [letters_cons, List.append_assoc] at nested ⊢
    cases token.bracketing with
    | opens opens =>
      obtain ⟨c, rfl⟩ := formed.1.eq_single (by rw [opens]; rfl)
      obtain ⟨style, bracket⟩ := TokenKind.opens_of_ofChar opens
      rw [depthAfter_opening opens] at reached
      simp only [String.toList_singleton, List.singleton_append, Bracket.check_opens bracket]
        at nested ⊢
      exact ih (style :: above) formed.2 reached nested
    | closes closes =>
      obtain ⟨c, rfl⟩ := formed.1.eq_single (by rw [closes]; rfl)
      obtain ⟨other, style, bracket⟩ := TokenKind.closes_of_ofChar closes
      cases above with
      | nil =>
        rw [List.length_nil, depthAfter_closing_zero closes] at reached
        contradiction
      | cons top above =>
        rw [List.length_cons, depthAfter_closing closes] at reached
        simp only [String.toList_singleton, List.cons_append] at nested ⊢
        obtain ⟨_, same⟩ := Bracket.stack_of_nested other bracket nested
        obtain ⟨rfl, -⟩ := List.cons.inj same
        simp only [Bracket.check_closes other bracket] at nested ⊢
        exact ih above formed.2 reached nested
    | plain plain =>
      have neutral := formed.1.neutral plain
      rw [depthAfter_plain plain] at reached
      rw [neutral] at nested
      simp only [neutral _ _]
      exact ih above formed.2 reached nested

theorem WellNested.of_infix (nested : WellNested span) (formed : ∀ token ∈ span, token.WellFormed)
    (balanced : Balanced span) (part : stretch <:+: span) (inner : Balanced stretch) :
    WellNested stretch := by
  obtain ⟨front, back, rfl⟩ := part
  rw [wellNested_iff, letters_append, letters_append] at nested
  simp only [List.append_assoc, List.forall_mem_append] at nested formed
  rw [Balanced, List.append_assoc, depthAfter_append] at balanced
  obtain ⟨depth, reached, -⟩ := Option.bind_eq_some_iff.mp balanced
  -- what is open behind the tokens in front stays open over the stretch
  obtain ⟨below, -, moved⟩ := exists_stack [] [] formed.1 reached nested
  have later := (moved [] _).symm.trans nested
  rw [List.append_nil] at later
  obtain ⟨stack, length, closed⟩ := exists_stack [] below formed.2.1 inner later
  obtain rfl := List.length_eq_zero_iff.mp length
  rw [wellNested_iff, ← List.append_nil (letters stretch)]
  exact (closed [] []).trans rfl

theorem strip_infix (span : List Token) : strip span <:+: span :=
  (List.take_prefix _ _).isInfix.trans (List.drop_suffix _ _).isInfix

theorem balanced_of_mem_arguments (reached : depthAfter 0 done = some depth)
    (closed : ∀ final, depthAfter depth span = some final → final = 0)
    (mem : argument ∈ (arguments depth done.reverse span).spans) :
    Balanced argument ∧ argument <:+: done ++ span := by
  induction span generalizing depth done with
  | nil =>
    obtain rfl := closed depth rfl
    rw [arguments, List.reverse_reverse, List.mem_singleton] at mem
    subst mem
    exact ⟨reached, by simp⟩
  | cons token rest ih =>
    have behind : token :: done.reverse = (done ++ [token]).reverse := by simp
    have further : depthAfter 0 (done ++ [token]) = depthAfter depth [token] := by
      rw [depthAfter_append, reached]
      rfl
    rw [List.append_cons]
    cases token.bracketing with
    | opens opens =>
      rw [depthAfter_opening opens] at further closed
      rw [arguments_opening opens, behind] at mem
      exact ih further closed mem
    | closes closes =>
      cases depth with
      | zero =>
        rw [arguments_closing_zero closes] at mem
        contradiction
      | succ depth =>
        rw [depthAfter_closing closes] at further closed
        rw [arguments_closing closes, behind] at mem
        exact ih further closed mem
    | plain plain =>
      rw [depthAfter_plain plain] at further closed
      by_cases delimits : token.kind = .delimiter ∧ depth = 0
      · obtain ⟨delimits, rfl⟩ := delimits
        rw [arguments_delimiter delimits, List.reverse_reverse, List.mem_cons] at mem
        rcases mem with rfl | later
        · exact ⟨reached, (List.prefix_append _ _).isInfix.trans (List.prefix_append _ _).isInfix⟩
        · obtain ⟨balanced, inside⟩ := ih balanced_nil closed later
          exact ⟨balanced, inside.trans (List.suffix_append _ _).isInfix⟩
      · rw [arguments_plain plain (Classical.not_and_iff_not_or_not.mp delimits), behind] at mem
        exact ih further closed mem

theorem exists_closing_of_stray {reversed : List Token}
    (stray : (arguments depth reversed span).stray = true) :
    ∃ front close back, span = front ++ close :: back ∧ close.kind = .closing ∧
      depthAfter depth front = some 0 := by
  induction span generalizing depth reversed with
  | nil => contradiction
  | cons token rest ih =>
    cases token.bracketing with
    | opens opens =>
      rw [arguments_opening opens] at stray
      obtain ⟨front, close, back, rfl, closes, reached⟩ := ih stray
      exact ⟨token :: front, close, back, rfl, closes, (depthAfter_opening opens).trans reached⟩
    | closes closes =>
      cases depth with
      | zero => exact ⟨[], token, rest, rfl, closes, rfl⟩
      | succ depth =>
        rw [arguments_closing closes] at stray
        obtain ⟨front, close, back, rfl, closes', reached⟩ := ih stray
        exact ⟨token :: front, close, back, rfl, closes',
          (depthAfter_closing closes).trans reached⟩
    | plain plain =>
      have further : ∃ seen, (arguments depth seen rest).stray = true := by
        by_cases delimits : token.kind = .delimiter ∧ depth = 0
        · obtain ⟨delimits, rfl⟩ := delimits
          rw [arguments_delimiter delimits] at stray
          exact ⟨_, stray⟩
        · rw [arguments_plain plain (Classical.not_and_iff_not_or_not.mp delimits)] at stray
          exact ⟨_, stray⟩
      obtain ⟨seen, stray⟩ := further
      obtain ⟨front, close, back, rfl, closes, reached⟩ := ih stray
      exact ⟨token :: front, close, back, rfl, closes, (depthAfter_plain plain).trans reached⟩

end Reckon.Span
