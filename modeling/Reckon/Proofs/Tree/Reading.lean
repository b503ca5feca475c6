import Reckon.Proofs.Bracket.Neutral
import Reckon.Proofs.Scanner.Written
import Reckon.Proofs.Tree.Parse
import Reckon.Proofs.Tree.Shape

/-!
Reading a text is parsing the tokens it is written with. The brackets of the text nest when it is
read, so those of its tokens match, and all of its operations have a rank: the grammar alone says
which tree the text has, and the limit whether there is room for it.
-/

namespace Reckon

variable {cs : List Char} {token : Token} {tokens : List Token}

theorem Token.WellFormed.neutral (formed : token.WellFormed) (plain : token.Plain) :
    Bracket.Neutral token.text.toList := by
  refine Bracket.neutral_of_plain fun c mem => ?_
  rcases formed.ofChar_of_mem mem with same | ⟨-, digit⟩
  · exact TokenKind.not_bracket_of_ofChar (same ▸ plain.1) (same ▸ plain.2)
  · exact TokenKind.not_bracket_of_ofChar (by rw [digit]; decide) (by rw [digit]; decide)

theorem neutral_of_isBlank (blank : ∀ c ∈ cs, Text.isBlank c = true) : Bracket.Neutral cs := by
  refine Bracket.neutral_of_plain fun c mem => ?_
  have invalid := TokenKind.ofChar_of_isBlank (blank c mem)
  exact TokenKind.not_bracket_of_ofChar (by rw [invalid]; decide) (by rw [invalid]; decide)

theorem depthAfter_of_nested {stack : List Bracket.Style} (written : Scanner.Written cs tokens)
    (nested : Bracket.check stack cs = none) :
    Span.depthAfter stack.length tokens = some 0 := by
  induction written generalizing stack with
  | @blank cs blank =>
    have alone := neutral_of_isBlank blank stack []
    rw [List.append_nil] at alone
    rw [Bracket.stack_of_nested_nil (alone.symm.trans nested)]
    rfl
  | @token blanks rest token tokens blank formed _ _ ih =>
    rw [neutral_of_isBlank blank] at nested
    cases token.bracketing with
    | opens opens =>
      obtain ⟨c, rfl⟩ := formed.eq_single (by rw [opens]; rfl)
      obtain ⟨style, bracket⟩ := TokenKind.opens_of_ofChar opens
      rw [String.toList_singleton, List.singleton_append, Bracket.check_opens bracket] at nested
      rw [Span.depthAfter_opening opens]
      exact ih nested
    | closes closes =>
      obtain ⟨c, rfl⟩ := formed.eq_single (by rw [closes]; rfl)
      obtain ⟨other, style, bracket⟩ := TokenKind.closes_of_ofChar closes
      rw [String.toList_singleton, List.singleton_append] at nested
      obtain ⟨below, rfl⟩ := Bracket.stack_of_nested other bracket nested
      rw [Bracket.check_closes other bracket] at nested
      rw [List.length_cons, Span.depthAfter_closing closes]
      exact ih nested
    | plain plain =>
      rw [formed.neutral plain] at nested
      rw [Span.depthAfter_plain plain]
      exact ih nested

theorem Token.WellFormed.known (formed : token.WellFormed) : Grammar.Known token := by
  cases formed with
  | @single c single =>
    have table : ∀ s ∈ TokenKind.symbols, (TokenKind.ofChar s).isSingle = true →
        (TokenKind.ofChar s).isOperation = true →
          (Grammar.rank? ⟨TokenKind.ofChar s, String.singleton s⟩).isSome :=
      forall_mem_of_all (by decide)
    exact table c (TokenKind.mem_symbols_of_isSingle single) single
  | relational => exact fun _ => rfl
  | number | identifier | previous => exact Grammar.known_of_not_isOperation rfl

namespace Tree

variable {maxDepth level : Nat} {text : String} {tree : Node}

theorem validate_eq_ok : Scanner.validate text = .ok () ↔ Bracket.check [] text.toList = none := by
  unfold Scanner.validate
  cases Bracket.check [] text.toList <;> simp

/-- A text is read as the tree that the grammar gives its tokens. -/
theorem read_eq_ok_iff : read maxDepth level text = .ok tree ↔
    Bracket.check [] text.toList = none ∧ ∃ tokens, Scanner.Written text.toList tokens ∧
      Grammar.Expression 0 tokens tree ∧ level + tree.need ≤ maxDepth := by
  constructor
  · intro found
    unfold read at found
    obtain ⟨_, valid, found⟩ := bind_eq_ok.mp found
    obtain ⟨tokens, scanned, found⟩ := bind_eq_ok.mp found
    have nested := validate_eq_ok.mp valid
    have written := Scanner.tokens_eq_ok_iff.mp scanned
    have balanced : Span.Balanced tokens := depthAfter_of_nested written nested
    have known : ∀ token ∈ tokens, Grammar.Known token := fun token mem =>
      (written.wellFormed mem).known
    cases built : build maxDepth level tokens with
    | error fault => rw [built] at found; contradiction
    | ok node =>
      rw [built] at found
      obtain rfl := Except.ok.inj found
      exact ⟨nested, tokens, written, Grammar.expression_of_build balanced known built,
        need_of_build built⟩
  · rintro ⟨nested, tokens, written, expression, fits⟩
    have valid := validate_eq_ok.mpr nested
    have scanned := Scanner.tokens_eq_ok_iff.mpr written
    have built := expression.build level fits
    unfold read
    rw [valid, scanned]
    simp only [bind, Except.bind, built]

theorem regular_of_read (found : read maxDepth level text = .ok tree) :
    ∀ node ∈ tree.nodes, node.Regular ∧ node.token.WellFormed := by
  obtain ⟨-, tokens, written, expression, -⟩ := read_eq_ok_iff.mp found
  exact fun node mem => (expression.regular node mem).imp_right written.wellFormed

theorem mem_tokens_of_read (found : read maxDepth level text = .ok tree) {node : Node}
    (mem : node ∈ tree.nodes) : node.token ∈ (Scanner.readAll text.toList).tokens := by
  obtain ⟨-, tokens, written, expression, -⟩ := read_eq_ok_iff.mp found
  rw [written.readAll_eq]
  exact (expression.regular node mem).2

end Tree

end Reckon
