import Reckon.Proofs.Tree.Level

/-!
Levels that building writes down. A tree can be built with the level of each of its nodes in it: the
level at which the token of the node was found. Building such a tree takes the steps of building,
fails where building fails and has the tree for result. The levels are those that are counted along
the edges from the root: an edge to the right counts one, an edge to the left nothing.
-/

namespace Reckon

/-- A tree whose nodes say at which level they were made. -/
structure Levelled where
  token : Token
  level : Nat
  left : List Levelled
  right : List Levelled

inductive Edge where
  | left (index : Nat)
  | right (index : Nat)

def Edge.isRight : Edge → Bool
  | left _ => false
  | right _ => true

namespace Levelled

mutual

def node : Levelled → Node
  | ⟨token, _, left, right⟩ => ⟨token, nodeOfEach left, nodeOfEach right⟩

def nodeOfEach : List Levelled → List Node
  | [] => []
  | tree :: trees => node tree :: nodeOfEach trees

end

theorem nodeOfEach_eq_map (trees : List Levelled) : nodeOfEach trees = trees.map node := by
  induction trees with
  | nil => rfl
  | cons tree trees ih => rw [nodeOfEach, ih, List.map_cons]

def at? : List Edge → Levelled → Option Levelled
  | [], tree => some tree
  | .left index :: path, tree => tree.left[index]?.bind (at? path)
  | .right index :: path, tree => tree.right[index]?.bind (at? path)

end Levelled

namespace Node

mutual

def levelled (level : Nat) : Node → Levelled
  | ⟨token, left, right⟩ => ⟨token, level, levelledEach level left, levelledEach (level + 1) right⟩

def levelledEach (level : Nat) : List Node → List Levelled
  | [] => []
  | node :: nodes => levelled level node :: levelledEach level nodes

end

variable {level : Nat} {token : Token} {left right : List Node}

theorem levelledEach_eq_map (level : Nat) (nodes : List Node) :
    levelledEach level nodes = nodes.map (levelled level) := by
  induction nodes with
  | nil => rfl
  | cons node nodes ih => rw [levelledEach, ih, List.map_cons]

@[simp] theorem levelled_mk : levelled level ⟨token, left, right⟩ =
    ⟨token, level, left.map (levelled level), right.map (levelled (level + 1))⟩ := by
  rw [levelled, levelledEach_eq_map, levelledEach_eq_map]

theorem node_levelled (level : Nat) (tree : Node) : (tree.levelled level).node = tree := by
  induction tree using Node.induction generalizing level with
  | step token left right leftIH rightIH =>
    have lefts : left.map (fun child => (child.levelled level).node) = left.map id :=
      List.map_congr_left fun child mem => leftIH child mem level
    have rights : right.map (fun child => (child.levelled (level + 1)).node) = right.map id :=
      List.map_congr_left fun child mem => rightIH child mem (level + 1)
    rw [levelled_mk, Levelled.node, Levelled.nodeOfEach_eq_map, Levelled.nodeOfEach_eq_map,
      List.map_map, List.map_map]
    exact congrArg₂ (Node.mk token) (lefts.trans (List.map_id left))
      (rights.trans (List.map_id right))

variable {path : List Edge} {tree : Node} {made : Levelled}

theorem at?_left (index : Nat) : (levelled level ⟨token, left, right⟩).at? (.left index :: path) =
    left[index]?.bind fun child => (child.levelled level).at? path := by
  rw [levelled_mk, Levelled.at?, List.getElem?_map]
  cases left[index]? <;> rfl

theorem at?_right (index : Nat) : (levelled level ⟨token, left, right⟩).at? (.right index :: path) =
    right[index]?.bind fun child => (child.levelled (level + 1)).at? path := by
  rw [levelled_mk, Levelled.at?, List.getElem?_map]
  cases right[index]? <;> rfl

theorem level_of_at? (found : (tree.levelled level).at? path = some made) :
    made.level = level + path.countP Edge.isRight ∧ made.level ∈ tree.levels level := by
  induction path generalizing level tree with
  | nil =>
    obtain ⟨token, left, right⟩ := tree
    obtain rfl := Option.some.inj found
    rw [levelled_mk, List.countP_nil]
    exact ⟨rfl, mem_levels_self level _⟩
  | cons edge path ih =>
    obtain ⟨token, left, right⟩ := tree
    cases edge with
    | left index =>
      rw [at?_left] at found
      obtain ⟨child, here, found⟩ := Option.bind_eq_some_iff.mp found
      obtain ⟨counted, mem⟩ := ih found
      rw [List.countP_cons_of_neg (by simp [Edge.isRight])]
      exact ⟨counted, mem_levels_left (List.mem_of_getElem? here) mem⟩
    | right index =>
      rw [at?_right] at found
      obtain ⟨child, here, found⟩ := Option.bind_eq_some_iff.mp found
      obtain ⟨counted, mem⟩ := ih found
      rw [List.countP_cons_of_pos rfl]
      exact ⟨by omega, mem_levels_right (List.mem_of_getElem? here) mem⟩

end Node

namespace Tree

variable {maxDepth level : Nat} {span : List Token}

def attachLevelled (waiting : List Levelled) (bottom : Levelled) : Levelled :=
  waiting.foldl (fun child parent => { parent with left := [child] }) bottom

mutual

/-- Building that writes into each node the level at which the node is made. -/
def buildLevelled (maxDepth level : Nat) (span : List Token) : Except ReadFault Levelled :=
  if maxDepth ≤ level then .error (.nestingTooDeep maxDepth)
  else spineLevelled maxDepth level [] span
termination_by 3 * span.length + 1

def spineLevelled (maxDepth level : Nat) (waiting : List Levelled) (span : List Token) :
    Except ReadFault Levelled :=
  match _stripped : Span.strip span with
  | [] => .error .emptyExpression
  | [token] => .ok (attachLevelled waiting ⟨token, level, [], []⟩)
  | inner =>
    match split : Span.weakest inner with
    | .error fault => .error fault
    | .ok (some cut) => do
      let right ← rightLevelled maxDepth (level + 1) cut.after
      if cut.before = [] then
        return attachLevelled waiting ⟨cut.operation, level, [], right⟩
      else
        spineLevelled maxDepth level (⟨cut.operation, level, [], right⟩ :: waiting) cut.before
    | .ok none =>
      match called : Span.call? inner with
      | none => .error .invalidCall
      | some (name, []) => .ok (attachLevelled waiting ⟨name, level, [], []⟩)
      | some (name, inside) => do
        let arguments := Span.arguments 0 [] inside
        let right ← argumentsLevelled maxDepth (level + 1) name.text arguments.spans
        if arguments.stray then .error (.brackets .mismatch)
        else return attachLevelled waiting ⟨name, level, [], right⟩
termination_by 3 * span.length
decreasing_by
  all_goals
    have shorter := Span.length_strip span
    rw [_stripped] at shorter
  · have whole := congrArg List.length (Span.span_of_weakest split)
    simp only [Span.Cut.span, List.length_append, List.length_cons] at whole
    omega
  · have whole := congrArg List.length (Span.span_of_weakest split)
    simp only [Span.Cut.span, List.length_append, List.length_cons] at whole
    omega
  · have inside_shorter := Span.length_of_call? called
    have weight := Span.weight_arguments 0 [] inside
    simp only [List.length_nil] at weight
    omega

def rightLevelled (maxDepth level : Nat) : List Token → Except ReadFault (List Levelled)
  | [] => .ok []
  | token :: span => do return [← buildLevelled maxDepth level (token :: span)]
termination_by span => 3 * span.length + 2

def argumentsLevelled (maxDepth level : Nat) (function : String) :
    List (List Token) → Except ReadFault (List Levelled)
  | [] => .ok []
  | [] :: _ => .error (.emptyArgument function)
  | (token :: span) :: spans => do
    let first ← buildLevelled maxDepth level (token :: span)
    return first :: (← argumentsLevelled maxDepth level function spans)
termination_by spans => 3 * Span.weight spans
decreasing_by
  · simp only [Span.weight]; omega
  · simp only [Span.weight]; omega

end

theorem rightLevelled_eq (built : span ≠ [] →
      buildLevelled maxDepth level span = (build maxDepth level span).map (Node.levelled level)) :
    rightLevelled maxDepth level span =
      (buildRight maxDepth level span).map (List.map (Node.levelled level)) := by
  cases span with
  | nil => rw [rightLevelled, buildRight]; rfl
  | cons token rest =>
    rw [rightLevelled, buildRight, built (List.cons_ne_nil _ _)]
    cases build maxDepth level (token :: rest) <;> rfl

theorem argumentsLevelled_eq (function : String) {spans : List (List Token)}
    (built : ∀ span ∈ spans,
      buildLevelled maxDepth level span = (build maxDepth level span).map (Node.levelled level)) :
    argumentsLevelled maxDepth level function spans =
      (buildArguments maxDepth level function spans).map (List.map (Node.levelled level)) := by
  induction spans with
  | nil => rw [argumentsLevelled, buildArguments]; rfl
  | cons span spans ih =>
    rw [List.forall_mem_cons] at built
    cases span with
    | nil => rw [argumentsLevelled, buildArguments]; rfl
    | cons token rest =>
      rw [argumentsLevelled, buildArguments, built.1, ih built.2]
      cases build maxDepth level (token :: rest) with
      | error fault => rfl
      | ok first => cases buildArguments maxDepth level function spans <;> rfl

theorem buildLevelled_of_spine (spine : level < maxDepth →
      spineLevelled maxDepth level [] span =
        (assemble maxDepth level (part span)).map (Node.levelled level)) :
    buildLevelled maxDepth level span = (build maxDepth level span).map (Node.levelled level) := by
  rw [buildLevelled, build_eq]
  split
  · rfl
  · next room => exact spine (Nat.lt_of_not_le room)

theorem spineLevelled_eq (room : level < maxDepth) (waiting : List Levelled) :
    spineLevelled maxDepth level waiting span = (assemble maxDepth level (part span)).map
      fun tree => attachLevelled waiting (tree.levelled level) := by
  induction span using part_induction generalizing level waiting with
  | step span ih =>
    have built (child : List Token) (mem : child ∈ (part span).children) (level : Nat) :
        buildLevelled maxDepth level child =
          (build maxDepth level child).map (Node.levelled level) :=
      buildLevelled_of_spine fun room => ih child mem room []
    rw [spineLevelled]
    split
    · next stripped => simp only [part, stripped]; rfl
    · next token stripped => simp only [part, stripped]; rfl
    · next several one =>
      split
      · next fault found => rw [part_of_weakest several one, found]; rfl
      · next cut found =>
        have here : part span = .operation cut := by rw [part_of_weakest several one, found]
        rw [here] at ih built ⊢
        rw [assemble, rightLevelled_eq fun _ => built cut.after (by simp [Part.children]) _]
        cases buildRight maxDepth (level + 1) cut.after with
        | error fault => rfl
        | ok right =>
          by_cases nothing : cut.before = []
          · simp only [bind, Except.bind, nothing, buildRight]
            simp [Except.map, pure, Except.pure]
          · -- What is left of the operation stays on this level, with one more that waits for it.
            have left := ih cut.before (by simp [Part.children]) room
            simp only [bind, Except.bind, Except.map, if_neg nothing, left,
              buildRight_of_ne_nil nothing, build_of_part room rfl]
            cases assemble maxDepth level (part cut.before) with
            | error fault => rfl
            | ok tree => simp [attachLevelled, pure, Except.pure]
      · next found =>
        rw [part_of_weakest several one, found] at built ⊢
        split
        · next called => simp only [called]; rfl
        · next name called => simp only [called]; rfl
        · next name inside given called =>
          simp only [called, Part.children] at built ⊢
          rw [assemble, argumentsLevelled_eq name.text fun child mem => built child mem _]
          cases buildArguments maxDepth (level + 1) name.text
            (Span.arguments 0 [] inside).spans with
          | error fault => rfl
          | ok right =>
            simp only [bind, Except.bind, Except.map]
            split <;> simp [pure, Except.pure]

theorem buildLevelled_eq (maxDepth level : Nat) (span : List Token) :
    buildLevelled maxDepth level span =
      (build maxDepth level span).map (Node.levelled level) :=
  buildLevelled_of_spine fun room => spineLevelled_eq room []

theorem map_node_buildLevelled (maxDepth level : Nat) (span : List Token) :
    (buildLevelled maxDepth level span).map Levelled.node = build maxDepth level span := by
  rw [buildLevelled_eq]
  cases build maxDepth level span with
  | error fault => rfl
  | ok tree => exact congrArg Except.ok (Node.node_levelled level tree)

end Tree

end Reckon
