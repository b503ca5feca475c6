import Reckon.Proofs.Tree.Reading

/-!
A tree read back from its displayed form. The form has a pair of brackets around every operation
and around the arguments of every call, so its tokens stay apart wherever it stands, its brackets
nest, and the grammar makes it one primary expression of that tree. A leaf that is an operation or
a delimiter is displayed without brackets and is no such expression, so trees with one are left
out.
-/

namespace Reckon

namespace Node

/-- Trees of tokens that can be read, without operations or delimiters as leaves. -/
inductive Printable : Node → Prop
  | leaf {token : Token} : token.WellFormed → token.kind ∈ [.number, .identifier, .previous] →
    Printable ⟨token, [], []⟩
  | operation {token : Token} {left right : List Node} : token.WellFormed →
    token.kind.isOperation = true → left.length ≤ 1 → right.length ≤ 1 → left ++ right ≠ [] →
    (∀ child ∈ left, Printable child) → (∀ child ∈ right, Printable child) →
    Printable ⟨token, left, right⟩
  | call {token : Token} {right : List Node} : token.WellFormed → token.kind = .identifier →
    right ≠ [] → (∀ child ∈ right, Printable child) → Printable ⟨token, [], right⟩

end Node

variable {cs rest : List Char} {token : Token} {tokens after : List Token} {tree : Node}

theorem Token.WellFormed.run_of_plain (formed : token.WellFormed) (plain : token.Plain)
    (other : token.kind.isOperation = false) (quiet : token.kind ≠ .delimiter) :
    token.kind ∈ [.number, .identifier, .previous] := by
  have valid := formed.valid
  obtain ⟨opening, closing⟩ := plain
  revert opening closing other quiet valid
  generalize token.kind = kind
  cases kind <;> decide

theorem plain_of_run (run : token.kind ∈ [.number, .identifier, .previous]) : token.Plain := by
  constructor <;> intro kind <;> rw [kind] at run <;> contradiction

namespace Scanner

def Stops (cs : List Char) : Prop :=
  ∀ c ∈ cs.head?, TokenKind.ofChar c ∉ [.number, .identifier, .previous]

theorem stops_cons {c : Char} (other : TokenKind.ofChar c ∉ [.number, .identifier, .previous]) :
    Stops (c :: cs) := by
  intro d mem
  obtain rfl := Option.some.inj mem
  exact other

theorem stops_of_isOperation (formed : token.WellFormed)
    (operation : token.kind.isOperation = true) : Stops (token.text.toList ++ rest) := by
  obtain ⟨c, others, chars⟩ := formed.exists_cons
  have mem : c ∈ token.text.toList := chars ▸ List.mem_cons_self
  have other : token.kind ∉ [.number, .identifier, .previous] := by
    intro kind
    have table : ∀ kind ∈ [TokenKind.number, .identifier, .previous],
        kind.isOperation = false := by decide
    exact Bool.false_ne_true ((table _ kind).symm.trans operation)
  rw [chars]
  refine stops_cons ?_
  rcases formed.ofChar_of_mem mem with same | ⟨named, -⟩
  · exact same ▸ other
  · exact absurd (by rw [named]; decide) other

/-- A text gives its tokens wherever no run goes on behind it, and is not taken for the second
character of a relational pair. -/
structure Apart (cs : List Char) (tokens : List Token) : Prop where
  written : ∀ {rest after}, Stops rest → Written rest after → Written (cs ++ rest) (tokens ++ after)
  unpaired : ∀ rest, ∀ c ∈ (cs ++ rest).head?, c ∉ ['=', '>']
  neutral : Bracket.Neutral cs

structure Inside (cs : List Char) (tokens : List Token) : Prop where
  written : ∀ {rest after}, Written rest after →
    Written (cs ++ ')' :: rest) (tokens ++ ⟨.closing, ")"⟩ :: after)
  neutral : Bracket.Neutral cs

theorem Written.close (written : Written rest after) :
    Written (')' :: rest) (⟨.closing, ")"⟩ :: after) :=
  .cons (.single (c := ')') rfl) (IsBracket.token_ends (.inr rfl) rest) written

theorem Written.open (written : Written rest after) :
    Written ('(' :: rest) (⟨.opening, "("⟩ :: after) :=
  .cons (.single (c := '(') rfl) (IsBracket.token_ends (.inl rfl) rest) written

theorem Apart.inside (apart : Apart cs tokens) : Inside cs tokens :=
  ⟨fun written => apart.written (stops_cons (by decide)) written.close, apart.neutral⟩

theorem Inside.enclosed (inside : Inside cs tokens) :
    Apart ('(' :: (cs ++ [')'])) (⟨.opening, "("⟩ :: (tokens ++ [⟨.closing, ")"⟩])) where
  written := by
    intro rest after _ written
    have opened := (inside.written written).open
    simpa using opened
  unpaired := by simp
  neutral := inside.neutral.in_round

theorem apart_token (formed : token.WellFormed)
    (run : token.kind ∈ [.number, .identifier, .previous]) : Apart token.text.toList [token] := by
  obtain ⟨first, others, chars⟩ := formed.exists_cons
  have plain := plain_of_run run
  refine ⟨fun {rest after} stops written => .cons formed ?_ written, fun rest c mem => ?_,
    formed.neutral plain⟩
  · cases rest with
    | nil => exact token.ends_nil
    | cons c rest =>
      refine Token.ends_cons (stops c rfl) fun relational => ?_
      rw [relational] at run
      contradiction
  · rw [chars, List.cons_append, List.head?_cons] at mem
    obtain rfl := Option.some.inj mem
    have kinds : ∀ d ∈ ['=', '>'], TokenKind.ofChar d = .relational :=
      forall_mem_of_all (by decide)
    intro unread
    rcases formed.ofChar_of_mem (chars ▸ List.mem_cons_self) with same | ⟨-, number⟩
    · rw [← same, kinds _ unread] at run
      exact absurd run (by decide)
    · rw [kinds _ unread] at number
      exact absurd number (by decide)

theorem Apart.prefixed (formed : token.WellFormed) (operation : token.kind.isOperation = true)
    (apart : Apart cs tokens) : Inside (token.text.toList ++ cs) (token :: tokens) where
  written := by
    intro rest after written
    rw [List.append_assoc]
    exact .cons formed (Token.ends_of_isOperation operation (apart.unpaired _))
      (apart.inside.written written)
  neutral := (formed.neutral (Grammar.plain_of_isOperation operation)).append apart.neutral

theorem Apart.suffixed (formed : token.WellFormed) (operation : token.kind.isOperation = true)
    (apart : Apart cs tokens) : Inside (cs ++ token.text.toList) (tokens ++ [token]) where
  written := by
    intro rest after written
    rw [List.append_assoc, List.append_assoc]
    exact apart.written (stops_of_isOperation formed operation)
      (.cons formed (IsBracket.ends (.inr rfl) token) written.close)
  neutral := apart.neutral.append (formed.neutral (Grammar.plain_of_isOperation operation))

theorem Apart.between {ds : List Char} {others : List Token} (formed : token.WellFormed)
    (operation : token.kind.isOperation = true) (left : Apart cs tokens)
    (right : Apart ds others) :
    Inside (cs ++ ' ' :: (token.text.toList ++ ' ' :: ds)) (tokens ++ token :: others) where
  written := by
    intro rest after written
    have ends : token.Ends (' ' :: (ds ++ ')' :: rest)) :=
      Token.ends_of_isOperation operation (by simp)
    have behind := (Written.cons formed ends (right.inside.written written).space).space
    simpa using left.written (stops_cons (by decide)) behind
  neutral := by
    have space : Bracket.Neutral [' '] :=
      Bracket.neutral_of_plain (forall_mem_of_all (by decide))
    have sign := formed.neutral (Grammar.plain_of_isOperation operation)
    exact left.neutral.append (space.append (sign.append (space.append right.neutral)))

theorem Apart.call (formed : token.WellFormed) (named : token.kind = .identifier)
    (inside : Inside cs tokens) :
    Apart (token.text.toList ++ '(' :: (cs ++ [')']))
      (token :: ⟨.opening, "("⟩ :: (tokens ++ [⟨.closing, ")"⟩])) := by
  have name := apart_token formed (by rw [named]; decide)
  refine ⟨fun {rest after} stops written => ?_, fun rest => ?_,
    name.neutral.append inside.enclosed.neutral⟩
  · rw [List.append_assoc]
    exact name.written (stops_cons (by decide)) (inside.enclosed.written stops written)
  · rw [List.append_assoc]
    exact name.unpaired _

theorem Apart.delimited {ds : List Char} {others : List Token} (first : Apart cs tokens)
    (rest : Inside ds others) :
    Inside (cs ++ ',' :: ' ' :: ds) (tokens ++ ⟨.delimiter, ","⟩ :: others) where
  written := by
    intro behind after written
    have delimiter : Token.WellFormed ⟨.delimiter, ","⟩ := .single (c := ',') rfl
    have ends : Token.Ends ⟨.delimiter, ","⟩ (' ' :: (ds ++ ')' :: behind)) := fun _ _ => rfl
    have later : Written (',' :: ' ' :: (ds ++ ')' :: behind))
        (⟨.delimiter, ","⟩ :: (others ++ ⟨.closing, ")"⟩ :: after)) :=
      .cons delimiter ends (rest.written written).space
    simpa using first.written (stops_cons (by decide)) later
  neutral := by
    have between : Bracket.Neutral [',', ' '] :=
      Bracket.neutral_of_plain (forall_mem_of_all (by decide))
    exact first.neutral.append (between.append rest.neutral)

end Scanner

namespace Node

open Scanner Grammar

theorem whole (expression : Expression primary tokens tree) : Expression 0 tokens tree :=
  expression.weaken (Nat.zero_le _) (Nat.le_refl _)

theorem operand {rank : Nat} (inRank : rank ≤ primary)
    (expression : Expression primary tokens tree) : Operand rank tokens [tree] :=
  .given (expression.weaken inRank (Nat.le_refl _))

def Shows (cs : List Char) (tree : Node) : Prop :=
  ∃ tokens, Apart cs tokens ∧ Expression primary tokens tree ∧ Span.Undelimited tokens

theorem shows_leaf (formed : token.WellFormed)
    (run : token.kind ∈ [.number, .identifier, .previous]) :
    Shows token.text.toList ⟨token, [], []⟩ := by
  have plain := plain_of_run run
  have table : ∀ kind ∈ [TokenKind.number, .identifier, .previous],
      kind.isOperation = false ∧ kind ≠ .delimiter := by decide
  obtain ⟨other, quiet⟩ := table _ run
  refine ⟨[token], apart_token formed run, .token plain other, ?_⟩
  rw [Span.Undelimited, Span.outside_plain plain]
  exact List.forall_mem_cons.mpr ⟨quiet, List.forall_mem_nil _⟩

theorem shows_enclosed {rank : Nat} (inside : Inside cs tokens) (inRank : rank ≤ primary)
    (expression : Expression rank tokens tree) : Shows ('(' :: (cs ++ [')'])) tree := by
  have weakest := expression.weaken (Nat.zero_le _) inRank
  refine ⟨_, inside.enclosed, .brackets rfl rfl weakest, ?_⟩
  rw [Span.Undelimited, Span.outside_enclosed ⟨rfl, rfl, rfl, expression.balanced⟩]
  exact List.forall_mem_nil _

theorem shows_call {trees : List Node} (formed : token.WellFormed)
    (named : token.kind = .identifier) (inside : Inside cs tokens)
    (arguments : Arguments tokens trees) :
    Shows (token.text.toList ++ '(' :: (cs ++ [')'])) ⟨token, [], trees⟩ := by
  refine ⟨_, .call formed named inside, .call named rfl rfl arguments, ?_⟩
  rw [Span.Undelimited, Span.outside_plain (plain_of_identifier named),
    Span.outside_enclosed ⟨rfl, rfl, rfl, arguments.balanced⟩]
  exact List.forall_mem_singleton.mpr (by rw [named]; decide)

theorem inside_arguments {first : Node} {more : List Node}
    (each : ∀ tree ∈ first :: more, Shows tree.display.toList tree) :
    ∃ tokens, Inside (", ".intercalate ((first :: more).map display)).toList tokens ∧
      Arguments tokens (first :: more) := by
  induction more generalizing first with
  | nil =>
    obtain ⟨tokens, apart, expression, quiet⟩ := each first List.mem_cons_self
    exact ⟨tokens, apart.inside, .last (whole expression) quiet⟩
  | cons second more ih =>
    rw [List.forall_mem_cons] at each
    obtain ⟨⟨tokens, apart, expression, quiet⟩, others⟩ := each
    obtain ⟨rest, inside, arguments⟩ := ih others
    refine ⟨tokens ++ ⟨.delimiter, ","⟩ :: rest, ?_, .more (whole expression) quiet rfl arguments⟩
    have shown := apart.delimited inside
    simpa [String.toList_append] using shown

theorem shows_operation {left right : List Node} (formed : token.WellFormed)
    (operation : token.kind.isOperation = true) (fewLeft : left.length ≤ 1)
    (fewRight : right.length ≤ 1) (given : left ++ right ≠ [])
    (before : ∀ tree ∈ left, Shows tree.display.toList tree)
    (after : ∀ tree ∈ right, Shows tree.display.toList tree) :
    Shows (display ⟨token, left, right⟩).toList ⟨token, left, right⟩ := by
  obtain ⟨rank, ranked⟩ := Option.isSome_iff_exists.mp (formed.known operation)
  have inRank := lt_primary_of_rank ranked
  have other : token.kind ≠ .identifier := by
    intro named
    rw [named] at operation
    contradiction
  match left, right with
  | [], [] => exact absurd rfl given
  | [], [child] =>
    obtain ⟨tokens, apart, expression, -⟩ := after child List.mem_cons_self
    have shown := shows_enclosed (apart.prefixed formed operation) inRank.le
      (.operation ranked .missing (operand inRank expression))
    simpa [display, other] using shown
  | [child], [] =>
    obtain ⟨tokens, apart, expression, -⟩ := before child List.mem_cons_self
    have shown := shows_enclosed (apart.suffixed formed operation) inRank.le
      (.operation ranked (operand inRank.le expression) .missing)
    simpa [display] using shown
  | [first], [second] =>
    obtain ⟨tokens, apart, expression, -⟩ := before first List.mem_cons_self
    obtain ⟨tokens', apart', expression', -⟩ := after second List.mem_cons_self
    have shown := shows_enclosed (apart.between formed operation apart') inRank.le
      (.operation ranked (operand inRank.le expression) (operand inRank expression'))
    simpa [display] using shown
  | _ :: _ :: _, _ => simp at fewLeft
  | [], _ :: _ :: _ | [_], _ :: _ :: _ => simp at fewRight

theorem Printable.shows (printable : tree.Printable) : Shows tree.display.toList tree := by
  induction printable with
  | leaf formed run =>
    rw [display]
    exact shows_leaf formed run
  | operation formed operation fewLeft fewRight given _ _ before after =>
    exact shows_operation formed operation fewLeft fewRight given before after
  | @call token right formed named given _ each =>
    obtain ⟨first, more, rfl⟩ := List.exists_cons_of_ne_nil given
    obtain ⟨tokens, inside, arguments⟩ := inside_arguments each
    have shown := shows_call formed named inside arguments
    simpa [display, named, displayEach_eq_map] using shown

variable {maxDepth level : Nat}

theorem Printable.read_display (printable : tree.Printable) (fits : level + tree.need ≤ maxDepth) :
    Tree.read maxDepth level tree.display = .ok tree := by
  obtain ⟨tokens, apart, expression, -⟩ := printable.shows
  have written : Written tree.display.toList tokens := by
    have stops : Stops [] := fun c mem => by contradiction
    have alone := apart.written stops (.blank (List.forall_mem_nil _))
    rwa [List.append_nil, List.append_nil] at alone
  exact Tree.read_eq_ok_iff.mpr ⟨apart.neutral.nested, tokens, written, whole expression, fits⟩

theorem printable_of_nodes (built : ∀ node ∈ tree.nodes, node.Regular ∧ node.token.WellFormed)
    (leaves : ∀ node ∈ tree.nodes, node.isLeaf = true →
      node.token.kind.isOperation = false ∧ node.token.kind ≠ .delimiter) : tree.Printable := by
  induction tree using Node.induction with
  | step token left right before after =>
    obtain ⟨⟨regular, formed⟩, builtLeft, builtRight⟩ := forall_nodes.mp built
    obtain ⟨leaf, leavesLeft, leavesRight⟩ := forall_nodes.mp leaves
    have printLeft := fun child mem =>
      before child mem (builtLeft child mem) (leavesLeft child mem)
    have printRight := fun child mem =>
      after child mem (builtRight child mem) (leavesRight child mem)
    cases regular with
    | leaf plain =>
      obtain ⟨other, quiet⟩ := leaf rfl
      exact .leaf formed (formed.run_of_plain plain other quiet)
    | operation operation fewLeft fewRight given =>
      exact .operation formed operation fewLeft fewRight given printLeft printRight
    | call named given => exact .call formed named given printRight

/-- A printable tree is read back from its displayed form, and so is every tree that is read
without an operation or a delimiter for a leaf. -/
theorem display_roundtrip :
    (tree.Printable → level + tree.need ≤ maxDepth →
      Tree.read maxDepth level tree.display = .ok tree) ∧
    ∀ text, Tree.read maxDepth level text = .ok tree →
      (∀ node ∈ tree.nodes, node.isLeaf = true →
        node.token.kind.isOperation = false ∧ node.token.kind ≠ .delimiter) →
      Tree.read maxDepth level tree.display = .ok tree := by
  refine ⟨fun printable fits => printable.read_display fits, fun text found leaves => ?_⟩
  have printable := printable_of_nodes (Tree.regular_of_read found) leaves
  obtain ⟨-, _, -, -, fits⟩ := Tree.read_eq_ok_iff.mp found
  exact printable.read_display fits

def negatedComparison : Node :=
  ⟨⟨.operator, "-"⟩, [], [⟨⟨.relational, "<"⟩, [⟨⟨.identifier, "a"⟩, [], []⟩],
    [⟨⟨.identifier, "f"⟩, [], [⟨⟨.number, "2."⟩, [], []⟩, ⟨⟨.previous, "_"⟩, [], []⟩]⟩]⟩]⟩

theorem display_roundtrip_of_negatedComparison :
    Tree.read 4 0 "(-(a < f(2., _)))" = .ok negatedComparison ∧
      Tree.read 4 0 negatedComparison.display = .ok negatedComparison := by
  have number : Token.WellFormed ⟨.number, "2."⟩ :=
    .number (forall_mem_of_all (by decide)) ⟨by decide, '2', by decide, rfl⟩
  have name (first : Char) (letter : first.isAlpha = true) :
      Token.WellFormed ⟨.identifier, String.ofList [first]⟩ :=
    .identifier letter (List.forall_mem_nil _)
  have previous : Token.WellFormed ⟨.previous, "_"⟩ := .previous (List.forall_mem_nil _)
  have printable : negatedComparison.Printable := by
    refine .operation (.single (c := '-') rfl) rfl (by decide) (by decide) (by decide)
      (List.forall_mem_nil _) (List.forall_mem_singleton.mpr ?_)
    refine .operation (.relational (by decide)) rfl (by decide) (by decide) (by decide)
      (List.forall_mem_singleton.mpr (.leaf (name 'a' rfl) (by decide)))
      (List.forall_mem_singleton.mpr ?_)
    refine .call (name 'f' rfl) rfl (by decide) (List.forall_mem_cons.mpr ⟨?_, ?_⟩)
    · exact .leaf number (by decide)
    · exact List.forall_mem_singleton.mpr (.leaf previous (by decide))
  have displayed : negatedComparison.display = "(-(a < f(2., _)))" := by
    simp [negatedComparison, display, displayEach]
  have found : Tree.read 4 0 "(-(a < f(2., _)))" = .ok negatedComparison := by
    rw [← displayed]
    exact display_roundtrip.1 printable (by decide)
  exact ⟨found, display_roundtrip.2 _ found (by decide)⟩

end Node

end Reckon
