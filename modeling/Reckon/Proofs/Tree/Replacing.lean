import Reckon.Proofs.Tree.Level

/-!
Tokens that stand for one another. Building a tree looks at the kinds of the tokens and at the texts
of the operations, and at nothing else of them. So tokens may be replaced by others of their kind,
operations aside: what is built is the same tree with the tokens replaced, and where nothing is
built the fault is the same, but for the name that an empty argument is reported under.
-/

namespace Reckon

/-- Tokens go to tokens of their kind, and operations to themselves. -/
structure Token.Replacing (f : Token → Token) : Prop where
  kind (token : Token) : (f token).kind = token.kind
  operation (token : Token) (operation : token.kind.isOperation = true) : f token = token

variable {f : Token → Token} {token : Token} {span : List Token}

theorem Token.Replacing.plain (replacing : Replacing f) (plain : token.Plain) :
    (f token).Plain := by
  rwa [Token.Plain, replacing.kind]

namespace Node

mutual

def mapTokens (f : Token → Token) : Node → Node
  | ⟨token, left, right⟩ => ⟨f token, mapEach f left, mapEach f right⟩

def mapEach (f : Token → Token) : List Node → List Node
  | [] => []
  | node :: nodes => mapTokens f node :: mapEach f nodes

end

theorem mapEach_eq_map (f : Token → Token) (nodes : List Node) :
    mapEach f nodes = nodes.map (mapTokens f) := by
  induction nodes with
  | nil => rfl
  | cons node nodes ih => rw [mapEach, ih, List.map_cons]

theorem mapTokens_mk (f : Token → Token) (token : Token) (left right : List Node) :
    mapTokens f ⟨token, left, right⟩ = ⟨f token, left.map (mapTokens f), right.map (mapTokens f)⟩ := by
  rw [mapTokens, mapEach_eq_map, mapEach_eq_map]

theorem mapTokens_id (node : Node) : node.mapTokens id = node := by
  induction node using Node.induction with
  | step token left right leftIH rightIH =>
    rw [mapTokens_mk, List.map_congr_left leftIH, List.map_congr_left rightIH]
    simp

end Node

namespace Span

theorem pairs_map (replacing : Token.Replacing f) (position : Nat) (stack : List Nat)
    (span : List Token) : pairs position stack (span.map f) = pairs position stack span := by
  induction span generalizing position stack with
  | nil => rfl
  | cons token rest ih =>
    have kind := replacing.kind token
    rw [List.map_cons]
    cases token.bracketing with
    | opens opens => rw [pairs_opening (kind.trans opens), pairs_opening opens, ih]
    | closes closes =>
      cases stack with
      | nil => rw [pairs_closing_nil (kind.trans closes), pairs_closing_nil closes]
      | cons start stack => rw [pairs_closing (kind.trans closes), pairs_closing closes, ih]
    | plain plain => rw [pairs_plain (replacing.plain plain), pairs_plain plain, ih]

theorem strip_map (replacing : Token.Replacing f) (span : List Token) :
    strip (span.map f) = (strip span).map f := by
  simp only [strip, layers, pairs_map replacing, List.length_map, List.map_take, List.map_drop]

theorem rank?_map (replacing : Token.Replacing f) (token : Token) : rank? (f token) = rank? token := by
  by_cases operation : token.kind.isOperation = true
  · rw [replacing.operation token operation]
  · have unranked : ∀ other : Token, other.kind.isOperation ≠ true → rank? other = none := by
      intro other unranked
      cases ranked : rank? other with
      | none => rfl
      | some rank => exact absurd (isOperation_of_rank ranked) unranked
    rw [unranked token operation, unranked (f token) (by rwa [replacing.kind])]

def Cut.map (f : Token → Token) (cut : Cut) : Cut :=
  ⟨cut.before.map f, f cut.operation, cut.after.map f⟩

def Candidate.map (f : Token → Token) (candidate : Candidate) : Candidate :=
  ⟨candidate.rank, candidate.reversed.map f, f candidate.operation, candidate.after.map f⟩

theorem Candidate.cut_map (f : Token → Token) (candidate : Candidate) :
    (candidate.map f).cut = candidate.cut.map f := by
  simp [Candidate.cut, Candidate.map, Cut.map]

theorem Candidate.offer_map (f : Token → Token) (held : Option Candidate) (candidate : Candidate) :
    Candidate.offer (held.map (Candidate.map f)) (candidate.map f) =
      (Candidate.offer held candidate).map (Candidate.map f) := by
  cases held with
  | none => rfl
  | some best =>
    by_cases weaker : candidate.rank ≤ best.rank
    · simp [Candidate.offer, Candidate.map, weaker]
    · simp [Candidate.offer, Candidate.map, weaker]

theorem search_map (replacing : Token.Replacing f) (depth : Nat) (seen : List Token)
    (held : Option Candidate) (span : List Token) :
    search depth (seen.map f) (held.map (Candidate.map f)) (span.map f) =
      (search depth seen held span).map (Option.map (Cut.map f)) := by
  induction span generalizing depth seen held with
  | nil =>
    simp only [List.map_nil, search, Except.map, Option.map_map]
    congr 2
    funext candidate
    exact candidate.cut_map f
  | cons token rest ih =>
    have kind := replacing.kind token
    rw [List.map_cons]
    cases token.bracketing with
    | opens opens =>
      rw [search_opening (kind.trans opens), search_opening opens, ← List.map_cons, ih]
    | closes closes =>
      cases depth with
      | zero => simp only [search, kind, closes, Except.map]
      | succ depth =>
        rw [search_closing (kind.trans closes), search_closing closes, ← List.map_cons, ih]
    | plain plain =>
      cases depth with
      | zero =>
        rw [search_plain (replacing.plain plain), search_plain plain, rank?_map replacing]
        cases rank? token with
        | none => exact ih 0 (token :: seen) held
        | some rank =>
          have offered := ih 0 (token :: seen) (Candidate.offer held ⟨rank, seen, token, rest⟩)
          rwa [← Candidate.offer_map] at offered
      | succ depth =>
        rw [search_plain_deeper (replacing.plain plain), search_plain_deeper plain,
          ← List.map_cons, ih]

theorem weakest_map (replacing : Token.Replacing f) (span : List Token) :
    weakest (span.map f) = (weakest span).map (Option.map (Cut.map f)) :=
  search_map replacing 0 [] none span

theorem call?_map (replacing : Token.Replacing f) (span : List Token) :
    call? (span.map f) = (call? span).map fun (name, inside) => (f name, inside.map f) := by
  match span with
  | [] => rfl
  | [_] => rfl
  | name :: bracket :: rest =>
    simp only [List.map_cons, call?, List.getLast?_map]
    cases rest.getLast? with
    | none => rfl
    | some last =>
      simp only [Option.map_some, replacing.kind]
      split
      · simp [List.map_dropLast]
      · rfl

def Arguments.map (f : Token → Token) (arguments : Arguments) : Arguments :=
  ⟨arguments.spans.map (List.map f), arguments.stray⟩

@[simp] theorem Arguments.stray_map (f : Token → Token) (arguments : Arguments) :
    (arguments.map f).stray = arguments.stray :=
  rfl

theorem arguments_map (replacing : Token.Replacing f) (depth : Nat) (reversed span : List Token) :
    arguments depth (reversed.map f) (span.map f) = (arguments depth reversed span).map f := by
  induction span generalizing depth reversed with
  | nil => simp [arguments, Arguments.map]
  | cons token rest ih =>
    have kind := replacing.kind token
    rw [List.map_cons]
    cases token.bracketing with
    | opens opens =>
      rw [arguments_opening (kind.trans opens), arguments_opening opens, ← List.map_cons, ih]
    | closes closes =>
      cases depth with
      | zero =>
        rw [arguments_closing_zero (kind.trans closes), arguments_closing_zero closes]
        rfl
      | succ depth =>
        rw [arguments_closing (kind.trans closes), arguments_closing closes, ← List.map_cons, ih]
    | plain plain =>
      by_cases delimits : token.kind = .delimiter ∧ depth = 0
      · obtain ⟨delimits, rfl⟩ := delimits
        have further := ih 0 []
        rw [List.map_nil] at further
        rw [arguments_delimiter (kind.trans delimits), arguments_delimiter delimits, further]
        simp [Arguments.map]
      · have other : token.kind ≠ .delimiter ∨ depth ≠ 0 := by
          rwa [Classical.not_and_iff_not_or_not] at delimits
        have other' : (f token).kind ≠ .delimiter ∨ depth ≠ 0 := by rwa [kind]
        rw [arguments_plain (replacing.plain plain) other', arguments_plain plain other,
          ← List.map_cons, ih]

end Span

namespace Tree

def Part.map (f : Token → Token) : Part → Part
  | .fault found => .fault found
  | .leaf token => .leaf (f token)
  | .operation cut => .operation (cut.map f)
  | .call name arguments => .call (f name) (arguments.map f)

theorem part_map (replacing : Token.Replacing f) (span : List Token) :
    part (span.map f) = (part span).map f := by
  rw [part, part, Span.strip_map replacing]
  rcases Span.strip span with _ | ⟨first, _ | ⟨second, rest⟩⟩
  · rfl
  · rfl
  · simp only [List.map_cons]
    rw [← List.map_cons (f := f), ← List.map_cons (f := f), Span.weakest_map replacing,
      Span.call?_map replacing]
    rcases Span.weakest (first :: second :: rest) with fault | _ | cut
    · rfl
    · rcases Span.call? (first :: second :: rest) with _ | ⟨name, _ | ⟨token, inside⟩⟩
      · rfl
      · rfl
      · have inner := Span.arguments_map replacing 0 [] (token :: inside)
        rw [List.map_nil] at inner
        simp only [Except.map, Option.map_none, Option.map_some, List.map_cons, Part.map]
        rw [← inner, List.map_cons]
    · rfl

end Tree

def ReadFault.variant : ReadFault → ReadFault
  | .emptyArgument _ => .emptyArgument ""
  | fault => fault

namespace Tree

inductive Agree {α β : Type} (related : α → β → Prop) :
    Except ReadFault α → Except ReadFault β → Prop
  | ok {a : α} {b : β} : related a b → Agree related (.ok a) (.ok b)
  | error {fault fault' : ReadFault} : fault.variant = fault'.variant →
    Agree related (.error fault) (.error fault')

variable {α β γ δ : Type} {related : α → β → Prop} {related' : γ → δ → Prop}

theorem Agree.bind {x : Except ReadFault α} {y : Except ReadFault β} {next : α → Except ReadFault γ}
    {next' : β → Except ReadFault δ} (first : Agree related x y)
    (later : ∀ a b, related a b → Agree related' (next a) (next' b)) :
    Agree related' (x >>= next) (y >>= next') := by
  cases first with
  | ok here => exact later _ _ here
  | error same => exact .error same

abbrev Replaced (f : Token → Token) : Except ReadFault Node → Except ReadFault Node → Prop :=
  Agree fun node node' => node' = node.mapTokens f

abbrev ReplacedEach (f : Token → Token) :
    Except ReadFault (List Node) → Except ReadFault (List Node) → Prop :=
  Agree fun nodes nodes' => nodes' = nodes.map (Node.mapTokens f)

variable {maxDepth level : Nat}

theorem replaced_buildRight (built : span ≠ [] →
      Replaced f (build maxDepth level span) (build maxDepth level (span.map f))) :
    ReplacedEach f (buildRight maxDepth level span) (buildRight maxDepth level (span.map f)) := by
  cases span with
  | nil =>
    rw [List.map_nil, buildRight]
    exact .ok rfl
  | cons token rest =>
    rw [List.map_cons, buildRight, buildRight, ← List.map_cons]
    refine (built (List.cons_ne_nil _ _)).bind fun node node' same => .ok ?_
    simp [same]

theorem replaced_buildArguments (function : Token) {spans : List (List Token)}
    (built : ∀ span ∈ spans,
      Replaced f (build maxDepth level span) (build maxDepth level (span.map f))) :
    ReplacedEach f (buildArguments maxDepth level function.text spans)
      (buildArguments maxDepth level (f function).text (spans.map (List.map f))) := by
  induction spans with
  | nil =>
    rw [List.map_nil, buildArguments, buildArguments]
    exact .ok rfl
  | cons span spans ih =>
    rw [List.forall_mem_cons] at built
    cases span with
    | nil =>
      rw [List.map_cons, List.map_nil, buildArguments, buildArguments]
      exact .error rfl
    | cons token rest =>
      rw [List.map_cons, List.map_cons, buildArguments, buildArguments, ← List.map_cons]
      refine built.1.bind fun node node' same => (ih built.2).bind fun nodes nodes' sames => .ok ?_
      simp [same, sames]

theorem replaced_build (replacing : Token.Replacing f) (maxDepth level : Nat) (span : List Token) :
    Replaced f (build maxDepth level span) (build maxDepth level (span.map f)) := by
  induction span using part_induction generalizing level with
  | step span ih =>
    rw [build_eq, build_eq, part_map replacing]
    by_cases room : maxDepth ≤ level
    · rw [if_pos room, if_pos room]
      exact .error rfl
    · rw [if_neg room, if_neg room]
      cases whole : part span with
      | fault fault => exact .error rfl
      | leaf token => exact .ok (by simp [Node.leaf, Node.mapTokens_mk])
      | operation cut =>
        rw [whole] at ih
        have before := replaced_buildRight fun _ => ih cut.before (by simp [Part.children]) level
        have after := replaced_buildRight fun _ => ih cut.after (by simp [Part.children]) (level + 1)
        refine after.bind fun right right' sameRight => before.bind fun left left' sameLeft => .ok ?_
        rw [Node.mapTokens_mk, sameLeft, sameRight]
        rfl
      | call name arguments =>
        rw [whole] at ih
        have each := replaced_buildArguments name fun span mem => ih span mem (level + 1)
        refine each.bind fun right right' same => ?_
        rw [Span.Arguments.stray_map]
        by_cases stray : arguments.stray = true
        · rw [if_pos stray, if_pos stray]
          exact .error rfl
        · rw [if_neg stray, if_neg stray]
          exact .ok (by simp [Node.mapTokens_mk, same])

end Tree

end Reckon
