import Reckon.Proofs.Evaluation.Nodes
import Reckon.Proofs.Scanner.WellFormed

/-!
The operands that operations take. A count of operands that an operation does not take fails at
once, whatever the operands are; a count that it takes makes the operation one that is known, so it
has a value for all operands, except for the factorial.
-/

namespace Reckon

namespace Operation

def takes (operation : String) (left right : Nat) : Bool :=
  match operation with
  | "-" => left ≤ 1 && right = 1
  | "~" => left = 0 && right = 1
  | "!" => left = 1 && right = 0
  | _ => left = 1 && right = 1

theorem count_of_takes {operation : String} {left right : Nat}
    (fit : takes operation left right = true) : right ≤ 1 ∧ 1 ≤ left + right := by
  unfold takes at fit
  split at fit <;> simp at fit <;> omega

theorem eq_factorial_of_takes {operation : String} (fit : takes operation 1 0 = true) :
    operation = "!" := by
  unfold takes at fit
  split at fit <;> simp_all

def texts : TokenKind → List String
  | .operator => ["*", "/", "^", "%", "+", "-", "!", "~"]
  | .relational => ["<", ">", "=", "<=", ">=", "<>"]
  | .boolean => ["&", "|", "?"]
  | _ => []

variable {m : Type → Type} [Monad m] {token : Token} {operands : List (Outcome m Float)}

theorem mem_texts (formed : token.WellFormed) (operation : token.kind.isOperation = true) :
    token.text ∈ texts token.kind := by
  cases formed with
  | @single c single =>
    have table : ∀ s ∈ TokenKind.symbols, (TokenKind.ofChar s).isSingle = true →
        (TokenKind.ofChar s).isOperation = true →
          String.singleton s ∈ texts (TokenKind.ofChar s) := forall_mem_of_all (by decide)
    exact table c (TokenKind.mem_symbols_of_isSingle single) single operation
  | relational known => exact known
  | number | identifier | previous => contradiction

theorem applyToLeft_of_not_takes (misfit : takes token.text 1 operands.length = false)
    (left : Float) :
    applyToLeft token operands left = throw (arityFailure token.text (1 + operands.length)) := by
  match operands with
  | [] =>
    rw [applyToLeft_nil, if_neg]
    · rfl
    · rintro same
      rw [same] at misfit
      contradiction
  | [operand] =>
    rw [applyToLeft_one, if_pos]
    · rfl
    · unfold takes at misfit
      split at misfit <;> simp_all
  | _ :: _ :: _ => exact applyToLeft_more token left (by simp)

theorem exists_binary (formed : token.WellFormed) (operation : token.kind.isOperation = true)
    (fit : takes token.text 1 1 = true) (left : Float) :
    ∃ value : Float → Float, binary token left = fun right => .ok (value right) := by
  have known := mem_texts formed operation
  unfold binary
  cases kind : token.kind with
  | relational => exact ⟨_, rfl⟩
  | boolean => exact ⟨_, rfl⟩
  | operator =>
    rw [kind] at known
    simp only [texts, List.mem_cons, List.not_mem_nil, or_false] at known
    rcases known with text | text | text | text | text | text | text | text
    all_goals rw [text] at fit ⊢
    all_goals first | contradiction | exact ⟨_, rfl⟩
  | _ => rw [kind] at operation; contradiction

theorem applyToLeft_of_takes (operand : Outcome m Float) (formed : token.WellFormed)
    (operation : token.kind.isOperation = true) (fit : takes token.text 1 1 = true)
    (left : Float) :
    ∃ value : Float → Float,
      applyToLeft token [operand] left = operand >>= fun right => pure (value right) := by
  have binary : ¬ (token.text = "!" ∨ token.text = "~") := by
    rintro (text | text) <;> rw [text] at fit <;> contradiction
  obtain ⟨value, known⟩ := exists_binary formed operation fit left
  refine ⟨value, ?_⟩
  rw [applyToLeft_one, if_neg binary, known]
  rfl

theorem isSome_prefixed (sign : String) : (prefixed? sign).isSome = takes sign 0 1 := by
  unfold prefixed?
  split
  · rfl
  · rfl
  · next minus negation =>
    unfold takes
    split <;> simp_all

theorem applyPrefixed_of_not_takes (misfit : takes token.text 0 operands.length = false) :
    applyPrefixed token 0 operands = throw (arityFailure token.text (0 + operands.length)) := by
  match operands with
  | [operand] =>
    have unknown : prefixed? token.text = none := by
      rw [← Option.isNone_iff_eq_none, ← Option.not_isSome, isSome_prefixed]
      simp [show takes token.text 0 1 = false from misfit]
    rw [applyPrefixed_one, unknown]
    rfl
  | [] | _ :: _ :: _ => exact applyPrefixed_other token (.inr (by simp))

theorem applyPrefixed_of_takes (operand : Outcome m Float)
    (fit : takes token.text 0 1 = true) :
    ∃ value : Float → Float,
      applyPrefixed token 0 [operand] = operand >>= fun right => pure (value right) := by
  rw [← isSome_prefixed] at fit
  obtain ⟨sign, known⟩ := Option.isSome_iff_exists.mp fit
  exact ⟨sign, by rw [applyPrefixed_one, known]⟩

end Operation

namespace Evaluation

variable {m : Type → Type} [Monad m] (env : Environment m) (level : Nat) {token : Token}
  {operands : List (Outcome m Float)}

theorem head_of_not_takes (operation : token.kind.isOperation = true)
    (misfit : Operation.takes token.text 0 operands.length = false) :
    head env level token 0 operands =
      throw (Operation.arityFailure token.text (0 + operands.length)) := by
  unfold head
  cases kind : token.kind with
  | relational | boolean => rfl
  | operator => exact Operation.applyPrefixed_of_not_takes misfit
  | _ => rw [kind] at operation; contradiction

theorem head_of_takes (operand : Outcome m Float) (formed : token.WellFormed)
    (operation : token.kind.isOperation = true) (fit : Operation.takes token.text 0 1 = true) :
    ∃ value : Float → Float,
      head env level token 0 [operand] = operand >>= fun right => pure (value right) := by
  have known := Operation.mem_texts formed operation
  unfold head
  cases kind : token.kind with
  | operator => exact Operation.applyPrefixed_of_takes operand fit
  | relational | boolean =>
    have table : ∀ text ∈ Operation.texts .relational ++ Operation.texts .boolean,
        Operation.takes text 0 1 = false := by decide
    rw [kind] at known
    rw [table token.text (by simp [known])] at fit
    contradiction
  | _ => rw [kind] at operation; contradiction

end Evaluation

end Reckon
