import Mathlib.Data.List.Forall2
import Reckon.Proofs.Span.Separated
import Reckon.Tree.Build

/-!
One step of building. `part` says what a span is read as: a leaf, an operation between what stands
left and right of it, or a call with its arguments; `build` is then the plain recursion over the
parts of a span, and the loop along the left spine is gone. The right side of an operation is still
built before the left one, so the first fault is the same.
-/

namespace Reckon.Tree

/-- What a span is read as, before anything in it is built. -/
inductive Part where
  | fault (fault : ReadFault)
  | leaf (token : Token)
  | operation (cut : Span.Cut)
  | call (name : Token) (arguments : Span.Arguments)

def part (span : List Token) : Part :=
  match Span.strip span with
  | [] => .fault .emptyExpression
  | [token] => .leaf token
  | inner =>
    match Span.weakest inner with
    | .error fault => .fault fault
    | .ok (some cut) => .operation cut
    | .ok none =>
      match Span.call? inner with
      | none => .fault .invalidCall
      | some (name, []) => .leaf name
      | some (name, inside) => .call name (Span.arguments 0 [] inside)

def Part.children : Part → List (List Token)
  | .fault _ | .leaf _ => []
  | .operation cut => [cut.before, cut.after]
  | .call _ arguments => arguments.spans

def assemble (maxDepth level : Nat) : Part → Except ReadFault Node
  | .fault fault => .error fault
  | .leaf token => .ok (Node.leaf token)
  | .operation cut => do
    let right ← buildRight maxDepth (level + 1) cut.after
    let left ← buildRight maxDepth level cut.before
    return ⟨cut.operation, left, right⟩
  | .call name arguments => do
    let right ← buildArguments maxDepth (level + 1) name.text arguments.spans
    if arguments.stray then .error (.brackets .mismatch)
    else return ⟨name, [], right⟩

variable {maxDepth level : Nat} {span : List Token}

theorem part_of_weakest (several : Span.strip span = [] → False)
    (one : ∀ token, Span.strip span = [token] → False) :
    part span = match Span.weakest (Span.strip span) with
      | .error fault => .fault fault
      | .ok (some cut) => .operation cut
      | .ok none =>
        match Span.call? (Span.strip span) with
        | none => .fault .invalidCall
        | some (name, []) => .leaf name
        | some (name, inside) => .call name (Span.arguments 0 [] inside) := by
  rw [part]
  split
  · next empty => exact absurd empty several
  · next token single => exact absurd single (one token)
  · rfl

theorem part_nil : part [] = .fault .emptyExpression := by
  have nothing : Span.strip [] = [] := List.eq_nil_of_length_eq_zero
    (Nat.le_zero.mp (Span.length_strip []))
  rw [part, nothing]

theorem part_of_strip_singleton {token : Token} (single : Span.strip span = [token]) :
    part span = .leaf token := by
  simp only [part, single]

theorem part_of_cut {cut : Span.Cut} (several : 1 < (Span.strip span).length)
    (found : Span.weakest (Span.strip span) = .ok (some cut)) : part span = .operation cut := by
  rw [part_of_weakest, found]
  · intro empty
    simp [empty] at several
  · intro token single
    simp [single] at several

theorem part_of_call {name : Token} {inside : List Token}
    (unsplit : Span.weakest (Span.strip span) = .ok none)
    (called : Span.call? (Span.strip span) = some (name, inside)) :
    part span = if inside = [] then .leaf name else .call name (Span.arguments 0 [] inside) := by
  obtain ⟨bracket, last, shape, -⟩ := Span.call?_eq_some.mp called
  rw [part_of_weakest (by rw [shape]; intro empty; contradiction)
    (by rw [shape]; intro token single; simp at single), unsplit]
  cases inside with
  | nil => simp only [called, if_pos]
  | cons token rest => simp only [called, if_neg (List.cons_ne_nil token rest)]

theorem strip_of_part_leaf {token : Token} (leaf : part span = .leaf token) :
    Span.strip span = [token] ∨ Span.call? (Span.strip span) = some (token, []) := by
  unfold part at leaf
  split at leaf
  · contradiction
  · next single =>
    obtain rfl := Part.leaf.inj leaf
    exact .inl single
  · split at leaf
    · contradiction
    · contradiction
    · split at leaf
      · contradiction
      · next called =>
        obtain rfl := Part.leaf.inj leaf
        exact .inr called
      · contradiction

theorem weakest_of_part_operation {cut : Span.Cut} (operation : part span = .operation cut) :
    Span.weakest (Span.strip span) = .ok (some cut) := by
  unfold part at operation
  split at operation
  · contradiction
  · contradiction
  · split at operation
    · contradiction
    · next found =>
      obtain rfl := Part.operation.inj operation
      exact found
    · split at operation <;> contradiction

theorem call_of_part_call {name : Token} {arguments : Span.Arguments}
    (call : part span = .call name arguments) :
    ∃ inside, Span.call? (Span.strip span) = some (name, inside) ∧
      arguments = Span.arguments 0 [] inside := by
  unfold part at call
  split at call
  · contradiction
  · contradiction
  · split at call
    · contradiction
    · contradiction
    · split at call
      · contradiction
      · contradiction
      · next inside _ called =>
        obtain ⟨rfl, rfl⟩ := Part.call.inj call
        exact ⟨inside, called, rfl⟩

theorem identifier_of_part_call {name : Token} {arguments : Span.Arguments}
    (call : part span = .call name arguments) : name.kind = .identifier := by
  obtain ⟨inside, called, -⟩ := call_of_part_call call
  obtain ⟨_, _, -, named, -⟩ := Span.call?_eq_some.mp called
  exact named

theorem eq_of_part_leaf {token leaf : Token} (part_eq : part span = .leaf leaf)
    (plain : token.Plain) (mem : token ∈ span) : token = leaf := by
  have here := Span.mem_strip_of_plain plain mem
  cases strip_of_part_leaf part_eq with
  | inl single => exact List.mem_singleton.mp (single ▸ here)
  | inr called =>
    obtain ⟨bracket, last, shape, -, opens, closes⟩ := Span.call?_eq_some.mp called
    rw [shape, List.nil_append, List.mem_cons, List.mem_cons, List.mem_singleton] at here
    rcases here with same | rfl | rfl
    · exact same
    · exact absurd opens plain.1
    · exact absurd closes plain.2

theorem mem_of_part_operation {token : Token} {cut : Span.Cut}
    (part_eq : part span = .operation cut) (plain : token.Plain) (mem : token ∈ span) :
    token ∈ cut.before ∨ token = cut.operation ∨ token ∈ cut.after := by
  have found := weakest_of_part_operation part_eq
  have here : token ∈ cut.span := Span.span_of_weakest found ▸ Span.mem_strip_of_plain plain mem
  rwa [Span.Cut.span, List.mem_append, List.mem_cons] at here

theorem mem_of_part_call {token name : Token} {arguments : Span.Arguments}
    (part_eq : part span = .call name arguments) (unstray : arguments.stray = false)
    (plain : token.Plain) (kept : token.kind ≠ .delimiter) (mem : token ∈ span) :
    token = name ∨ ∃ argument ∈ arguments.spans, token ∈ argument := by
  obtain ⟨inside, called, rfl⟩ := call_of_part_call part_eq
  obtain ⟨bracket, last, shape, -, opens, closes⟩ := Span.call?_eq_some.mp called
  have here := Span.mem_strip_of_plain plain mem
  rw [shape, List.mem_cons, List.mem_cons, List.mem_append, List.mem_singleton] at here
  rcases here with same | rfl | among | rfl
  · exact .inl same
  · exact absurd opens plain.1
  · exact .inr (Span.mem_arguments unstray kept (List.mem_append_right [] among))
  · exact absurd closes plain.2

theorem length_of_mem_weight {child : List Token} {spans : List (List Token)}
    (mem : child ∈ spans) : child.length < Span.weight spans := by
  induction spans with
  | nil => contradiction
  | cons first spans ih =>
    rw [Span.weight]
    rcases List.mem_cons.mp mem with rfl | later
    · omega
    · have := ih later
      omega

theorem length_lt_of_mem_children {child : List Token} (mem : child ∈ (part span).children) :
    child.length < span.length := by
  have stripped := Span.length_strip span
  unfold part at mem
  split at mem
  · contradiction
  · contradiction
  · next inner _ _ =>
    split at mem
    · contradiction
    · next cut found =>
      have whole := congrArg List.length (Span.span_of_weakest found)
      simp only [Span.Cut.span, List.length_append, List.length_cons] at whole
      rcases List.mem_cons.mp mem with rfl | right
      · omega
      · obtain rfl := List.mem_singleton.mp right
        omega
    · split at mem
      · contradiction
      · contradiction
      · next name inside _ called =>
        have fewer := Span.length_of_call? called
        have weight := Span.weight_arguments 0 [] inside
        have one : child.length < Span.weight (Span.arguments 0 [] inside).spans :=
          length_of_mem_weight mem
        rw [List.length_nil] at weight
        omega

theorem part_induction {motive : List Token → Prop} (span : List Token)
    (step : ∀ span, (∀ child ∈ (part span).children, motive child) → motive span) :
    motive span :=
  step span fun child mem =>
    have := length_lt_of_mem_children mem
    part_induction child step
termination_by span.length

theorem buildRight_of_ne_nil (nonempty : span ≠ []) :
    buildRight maxDepth level span = (build maxDepth level span).map ([·]) := by
  obtain ⟨token, rest, rfl⟩ := List.exists_cons_of_ne_nil nonempty
  rw [buildRight]
  cases build maxDepth level (token :: rest) <;> rfl

theorem build_of_room (room : level < maxDepth) :
    build maxDepth level span = buildSpine maxDepth level [] span := by
  rw [build, if_neg (Nat.not_le.mpr room)]

theorem buildSpine_eq (room : level < maxDepth) (waiting : List Node) :
    buildSpine maxDepth level waiting span =
      (assemble maxDepth level (part span)).map (attach waiting) := by
  induction span using part_induction generalizing waiting with
  | step span ih =>
    rw [buildSpine]
    split
    · next stripped => simp only [part, stripped]; rfl
    · next token stripped => simp only [part, stripped]; rfl
    · next several one =>
      split
      · next fault found => rw [part_of_weakest several one, found]; rfl
      · next cut found =>
        have here : part span = .operation cut := by rw [part_of_weakest several one, found]
        rw [here] at ih ⊢
        rw [assemble]
        cases buildRight maxDepth (level + 1) cut.after with
        | error fault => rfl
        | ok right =>
          by_cases nothing : cut.before = []
          · simp only [bind, Except.bind, nothing, buildRight]
            rfl
          · have left := ih cut.before (by simp [Part.children])
            simp only [bind, Except.bind, if_neg nothing, buildRight_of_ne_nil nothing,
              build_of_room room, left]
            cases assemble maxDepth level (part cut.before) <;> rfl
      · next found =>
        rw [part_of_weakest several one, found]
        split
        · next called => simp only [called]; rfl
        · next name called => simp only [called]; rfl
        · next name inside given called =>
          simp only [called, assemble]
          cases buildArguments maxDepth (level + 1) name.text
            (Span.arguments 0 [] inside).spans with
          | error fault => rfl
          | ok right =>
            simp only [bind, Except.bind]
            split <;> rfl

theorem build_eq (maxDepth level : Nat) (span : List Token) :
    build maxDepth level span =
      if maxDepth ≤ level then .error (.nestingTooDeep maxDepth)
      else assemble maxDepth level (part span) := by
  rw [build]
  split
  · rfl
  · next room =>
    rw [buildSpine_eq (Nat.lt_of_not_le room)]
    cases assemble maxDepth level (part span) <;> rfl

theorem build_of_strip {other : List Token} (same : Span.strip span = Span.strip other) :
    build maxDepth level span = build maxDepth level other := by
  rw [build_eq, build_eq, part, part, same]

theorem build_of_part {chosen : Part} (room : level < maxDepth) (here : part span = chosen) :
    build maxDepth level span = assemble maxDepth level chosen := by
  rw [build_eq, if_neg (Nat.not_le.mpr room), here]

inductive Operand (builds : List Token → Node → Prop) : List Token → List Node → Prop
  | missing : Operand builds [] []
  | given {span : List Token} {node : Node} (nonempty : span ≠ []) (built : builds span node) :
    Operand builds span [node]

theorem Operand.imp {builds other : List Token → Node → Prop} {nodes : List Node}
    (h : ∀ node, builds span node → other span node) (operand : Operand builds span nodes) :
    Operand other span nodes := by
  cases operand with
  | missing => exact .missing
  | given nonempty built => exact .given nonempty (h _ built)

theorem Operand.of_mem {builds : List Token → Node → Prop} {nodes : List Node} {node : Node}
    (operand : Operand builds span nodes) (mem : node ∈ nodes) : builds span node := by
  cases operand with
  | missing => contradiction
  | given _ built =>
    obtain rfl := List.mem_singleton.mp mem
    exact built

theorem Operand.length_le {builds : List Token → Node → Prop} {nodes : List Node}
    (operand : Operand builds span nodes) : nodes.length ≤ 1 := by
  cases operand with
  | missing => exact Nat.zero_le 1
  | given _ _ => exact Nat.le_refl 1

theorem Operand.eq_singleton {builds : List Token → Node → Prop} {nodes : List Node}
    (operand : Operand builds span nodes) {token : Token} (mem : token ∈ span) :
    ∃ node, nodes = [node] ∧ builds span node := by
  cases operand with
  | missing => exact absurd mem List.not_mem_nil
  | @given _ node _ built => exact ⟨node, rfl, built⟩

theorem exists_of_mem_left {α β : Type} {related : α → β → Prop} {as : List α} {bs : List β} {a : α}
    (each : List.Forall₂ related as bs) (mem : a ∈ as) : ∃ b ∈ bs, related a b := by
  induction each with
  | nil => contradiction
  | @cons first b as bs here _ ih =>
    cases List.mem_cons.mp mem with
    | inl same => exact ⟨b, List.mem_cons_self, same ▸ here⟩
    | inr later =>
      obtain ⟨b, mem, there⟩ := ih later
      exact ⟨b, List.mem_cons_of_mem _ mem, there⟩

theorem exists_of_mem_right {α β : Type} {related : α → β → Prop} {as : List α} {bs : List β}
    {b : β} (each : List.Forall₂ related as bs) (mem : b ∈ bs) : ∃ a ∈ as, related a b := by
  have flipped : List.Forall₂ (flip related) bs as := .flip each
  exact exists_of_mem_left flipped mem

theorem buildRight_eq_ok {nodes : List Node} :
    buildRight maxDepth level span = .ok nodes ↔
      Operand (fun span node => build maxDepth level span = .ok node) span nodes := by
  constructor
  · intro built
    by_cases nothing : span = []
    · subst nothing
      rw [buildRight] at built
      obtain rfl := Except.ok.inj built
      exact .missing
    · rw [buildRight_of_ne_nil nothing] at built
      cases found : build maxDepth level span with
      | error fault => rw [found] at built; contradiction
      | ok node =>
        rw [found] at built
        obtain rfl := Except.ok.inj built
        exact .given nothing found
  · intro operand
    cases operand with
    | missing => rw [buildRight]
    | given nonempty built => rw [buildRight_of_ne_nil nonempty, built]; rfl

theorem bind_eq_ok {ε α β : Type} {first : Except ε α} {next : α → Except ε β}
    {result : β} : (first >>= next) = .ok result ↔ ∃ a, first = .ok a ∧ next a = .ok result := by
  cases first <;> simp [bind, Except.bind]

theorem buildArguments_eq_ok {function : String} {spans : List (List Token)} {nodes : List Node} :
    buildArguments maxDepth level function spans = .ok nodes ↔
      List.Forall₂ (fun span node => span ≠ [] ∧ build maxDepth level span = .ok node)
        spans nodes := by
  induction spans generalizing nodes with
  | nil => simp [buildArguments, eq_comm]
  | cons span spans ih =>
    cases span with
    | nil =>
      rw [buildArguments, List.forall₂_cons_left_iff]
      simp
    | cons token rest =>
      rw [buildArguments, bind_eq_ok, List.forall₂_cons_left_iff]
      constructor
      · rintro ⟨node, built, rest⟩
        obtain ⟨others, later, same⟩ := bind_eq_ok.mp rest
        obtain rfl := Except.ok.inj same
        exact ⟨node, others, ⟨List.cons_ne_nil _ _, built⟩, ih.mp later, rfl⟩
      · rintro ⟨node, others, ⟨-, built⟩, later, rfl⟩
        exact ⟨node, built, bind_eq_ok.mpr ⟨others, ih.mpr later, rfl⟩⟩

theorem build_induction {motive : Nat → List Token → Node → Prop} {tree : Node}
    (leaf : ∀ level span token, level < maxDepth → part span = .leaf token →
      motive level span (Node.leaf token))
    (operation : ∀ level span cut left right, level < maxDepth → part span = .operation cut →
      Operand (motive level) cut.before left → Operand (motive (level + 1)) cut.after right →
      motive level span ⟨cut.operation, left, right⟩)
    (call : ∀ level span name arguments right, level < maxDepth →
      part span = .call name arguments → arguments.stray = false →
      List.Forall₂ (motive (level + 1)) arguments.spans right →
      motive level span ⟨name, [], right⟩)
    (built : build maxDepth level span = .ok tree) : motive level span tree := by
  induction span using part_induction generalizing level tree with
  | step span ih =>
    rw [build_eq] at built
    split at built
    · contradiction
    · next room =>
      have room := Nat.lt_of_not_le room
      cases whole : part span with
      | fault fault => rw [whole] at built; contradiction
      | leaf token =>
        rw [whole] at built
        obtain rfl := Except.ok.inj built
        exact leaf level span token room whole
      | operation cut =>
        rw [whole] at built ih
        obtain ⟨right, builtRight, built⟩ := bind_eq_ok.mp built
        obtain ⟨left, builtLeft, built⟩ := bind_eq_ok.mp built
        obtain rfl := Except.ok.inj built
        refine operation level span cut left right room whole ?_ ?_
        · have before := buildRight_eq_ok.mp builtLeft
          exact before.imp fun node => ih cut.before (by simp [Part.children])
        · have after := buildRight_eq_ok.mp builtRight
          exact after.imp fun node => ih cut.after (by simp [Part.children])
      | call name arguments =>
        rw [whole] at built ih
        obtain ⟨right, builtRight, built⟩ := bind_eq_ok.mp built
        split at built
        · contradiction
        · next stray =>
          obtain rfl := Except.ok.inj built
          refine call level span name arguments right room whole (by simpa using stray) ?_
          have each := (List.forall₂_and_left _ _).mpr
            ⟨fun _ mem => mem, buildArguments_eq_ok.mp builtRight⟩
          exact each.imp fun child node ⟨mem, _, built⟩ => ih child mem built

end Reckon.Tree
