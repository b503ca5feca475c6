import Reckon.Bracket

/-!
Texts that leave the open brackets as they are. A text without brackets does, a text whose brackets
nest does, and so does such a text in a pair of brackets. In the middle of another text it makes no
difference to the check.
-/

namespace Reckon.Bracket

variable {c : Char} {cs rest front middle back : List Char} {style : Style}
  {stack below : List Style}

theorem check_opens (opens : opens? c = some style) :
    check stack (c :: rest) = check (style :: stack) rest := by
  simp only [check, opens]

theorem check_closes (other : opens? c = none) (closes : closes? c = some style) :
    check (style :: stack) (c :: rest) = check stack rest := by
  simp only [check, other, closes, if_pos]

theorem check_plain (plain : opens? c = none ∧ closes? c = none) :
    check stack (c :: rest) = check stack rest := by
  simp only [check, plain.1, plain.2]

theorem stack_of_nested (other : opens? c = none) (closes : closes? c = some style)
    (nested : check stack (c :: rest) = none) : ∃ below, stack = style :: below := by
  cases stack with
  | nil =>
    simp only [check, other, closes] at nested
    contradiction
  | cons top below =>
    by_cases same : top = style
    · exact ⟨below, same ▸ rfl⟩
    · simp only [check, other, closes, if_neg same] at nested
      contradiction

theorem stack_of_nested_nil (nested : check stack [] = none) : stack = [] := by
  cases stack with
  | nil => rfl
  | cons => contradiction

theorem check_append_congr (same : ∀ stack, check stack rest = check stack back) (cs : List Char)
    (stack : List Style) : check stack (cs ++ rest) = check stack (cs ++ back) := by
  induction cs generalizing stack with
  | nil => exact same stack
  | cons c cs ih =>
    rw [List.cons_append, List.cons_append]
    cases opens : opens? c with
    | some style => rw [check_opens opens, check_opens opens, ih]
    | none =>
      cases closes : closes? c with
      | some style =>
        cases stack with
        | nil => simp only [check, opens, closes]
        | cons top stack => simp only [check, opens, closes, ih]
      | none => rw [check_plain ⟨opens, closes⟩, check_plain ⟨opens, closes⟩, ih]

/-- A text that leaves the brackets as they are that are open before it. -/
def Neutral (cs : List Char) : Prop :=
  ∀ stack rest, check stack (cs ++ rest) = check stack rest

theorem neutral_nil : Neutral [] :=
  fun _ _ => rfl

theorem Neutral.append (first : Neutral front) (second : Neutral back) :
    Neutral (front ++ back) := by
  intro stack rest
  rw [List.append_assoc, first, second]

theorem neutral_of_plain (plain : ∀ c ∈ cs, opens? c = none ∧ closes? c = none) : Neutral cs := by
  induction cs with
  | nil => exact neutral_nil
  | cons c cs ih =>
    rw [List.forall_mem_cons] at plain
    intro stack rest
    rw [List.cons_append, check_plain plain.1, ih plain.2]

theorem check_of_nested (nested : check stack cs = none) :
    check (stack ++ below) (cs ++ rest) = check below rest := by
  induction cs generalizing stack with
  | nil =>
    rw [stack_of_nested_nil nested]
    rfl
  | cons c cs ih =>
    rw [List.cons_append]
    cases opens : opens? c with
    | some style =>
      rw [check_opens opens] at nested ⊢
      exact ih nested
    | none =>
      cases closes : closes? c with
      | some style =>
        obtain ⟨inner, rfl⟩ := stack_of_nested opens closes nested
        rw [check_closes opens closes] at nested
        rw [List.cons_append, check_closes opens closes]
        exact ih nested
      | none =>
        rw [check_plain ⟨opens, closes⟩] at nested ⊢
        exact ih nested

theorem neutral_of_nested (nested : check [] cs = none) : Neutral cs :=
  fun _ _ => check_of_nested nested

theorem Neutral.nested (neutral : Neutral cs) : check [] cs = none := by
  have alone := neutral [] []
  rwa [List.append_nil] at alone

theorem Neutral.in_round (neutral : Neutral cs) : Neutral ('(' :: (cs ++ [')'])) := by
  intro stack rest
  have opened : check stack ('(' :: (cs ++ ')' :: rest)) =
      check (.round :: stack) (cs ++ ')' :: rest) := check_opens rfl
  have closed : check (.round :: stack) (')' :: rest) = check stack rest := check_closes rfl rfl
  rw [List.cons_append, List.append_assoc, List.singleton_append, opened, neutral, closed]

theorem Neutral.check_append (neutral : Neutral middle) :
    check stack (front ++ (middle ++ back)) = check stack (front ++ back) :=
  check_append_congr (fun stack => neutral stack back) front stack

end Reckon.Bracket
