import Reckon.Proofs.Tree.Part

/-!
Levels of a tree. A right child stands one level below its parent and a left child beside it, so a
tree whose root stands at `level` reaches below `level + need`. A tree that is built fits under the
limit with all of its levels, and a higher limit builds the same tree or fails in the same way,
unless the lower one failed for its limit.
-/

namespace Reckon

namespace Node

theorem induction {motive : Node → Prop} (node : Node)
    (step : ∀ token left right, (∀ child ∈ left, motive child) → (∀ child ∈ right, motive child) →
      motive ⟨token, left, right⟩) : motive node :=
  match node with
  | ⟨token, left, right⟩ =>
    step token left right (fun child _ => induction child step)
      (fun child _ => induction child step)

mutual

def need : Node → Nat
  | ⟨_, left, right⟩ => max (needMost left) (needMost right + 1)

def needMost : List Node → Nat
  | [] => 0
  | node :: nodes => max (need node) (needMost nodes)

end

mutual

/-- The levels of all nodes of a tree whose root stands at `level`. -/
def levels (level : Nat) : Node → List Nat
  | ⟨_, left, right⟩ => level :: (levelsOf level left ++ levelsOf (level + 1) right)

def levelsOf (level : Nat) : List Node → List Nat
  | [] => []
  | node :: nodes => levels level node ++ levelsOf level nodes

end

theorem need_le_needMost {node : Node} {nodes : List Node} (mem : node ∈ nodes) :
    need node ≤ needMost nodes := by
  induction nodes with
  | nil => contradiction
  | cons first nodes ih =>
    rw [needMost]
    cases List.mem_cons.mp mem with
    | inl first => exact first ▸ Nat.le_max_left ..
    | inr later => exact Nat.le_trans (ih later) (Nat.le_max_right ..)

theorem needMost_le_iff {nodes : List Node} {bound : Nat} :
    needMost nodes ≤ bound ↔ ∀ node ∈ nodes, need node ≤ bound := by
  induction nodes with
  | nil => simp [needMost]
  | cons node nodes ih => rw [needMost, Nat.max_le, ih, List.forall_mem_cons]

theorem levelsOf_eq_flatMap (level : Nat) (nodes : List Node) :
    levelsOf level nodes = nodes.flatMap (levels level) := by
  induction nodes with
  | nil => rfl
  | cons node nodes ih => rw [levelsOf, ih, List.flatMap_cons]

@[simp] theorem mem_levels_self (level : Nat) (node : Node) : level ∈ node.levels level := by
  cases node
  rw [levels]
  exact List.mem_cons_self

theorem mem_levels_left {level l : Nat} {token : Token} {left right : List Node} {child : Node}
    (mem : child ∈ left) (beside : l ∈ child.levels level) :
    l ∈ levels level ⟨token, left, right⟩ := by
  rw [levels, List.mem_cons, List.mem_append, levelsOf_eq_flatMap]
  exact .inr (.inl (List.mem_flatMap.mpr ⟨child, mem, beside⟩))

theorem mem_levels_right {level l : Nat} {token : Token} {left right : List Node} {child : Node}
    (mem : child ∈ right) (below : l ∈ child.levels (level + 1)) :
    l ∈ levels level ⟨token, left, right⟩ := by
  rw [levels, List.mem_cons, List.mem_append, levelsOf_eq_flatMap (level + 1)]
  exact .inr (.inr (List.mem_flatMap.mpr ⟨child, mem, below⟩))

theorem bounds_of_mem_levels {level l : Nat} {node : Node} (mem : l ∈ node.levels level) :
    level ≤ l ∧ l < level + node.need := by
  induction node using Node.induction generalizing level with
  | step token left right leftIH rightIH =>
    rw [need]
    rw [levels, List.mem_cons, List.mem_append, levelsOf_eq_flatMap, levelsOf_eq_flatMap] at mem
    cases mem with
    | inl here => omega
    | inr deeper =>
      cases deeper with
      | inl inLeft =>
        obtain ⟨child, mem, inChild⟩ := List.mem_flatMap.mp inLeft
        have bounds := leftIH child mem inChild
        have least := need_le_needMost mem
        omega
      | inr inRight =>
        obtain ⟨child, mem, inChild⟩ := List.mem_flatMap.mp inRight
        have bounds := rightIH child mem inChild
        have least := need_le_needMost mem
        omega

end Node

namespace Tree

variable {maxDepth level : Nat} {span : List Token}

theorem need_of_build {tree : Node} (built : build maxDepth level span = .ok tree) :
    level + tree.need ≤ maxDepth := by
  refine build_induction (motive := fun level _ tree => level + tree.need ≤ maxDepth)
    ?_ ?_ ?_ built
  · intro level span token room _
    exact room
  · intro level span cut left right room _ leftFits rightFits
    have leftNeed : Node.needMost left ≤ maxDepth - level := by
      refine Node.needMost_le_iff.mpr fun child mem => ?_
      have fits := leftFits.of_mem mem
      omega
    have rightNeed : Node.needMost right ≤ maxDepth - (level + 1) := by
      refine Node.needMost_le_iff.mpr fun child mem => ?_
      have fits := rightFits.of_mem mem
      omega
    rw [Node.need]
    omega
  · intro level span name arguments right room _ _ fits
    have rightNeed : Node.needMost right ≤ maxDepth - (level + 1) := by
      refine Node.needMost_le_iff.mpr fun child mem => ?_
      obtain ⟨_, _, fits⟩ := exists_of_mem_right fits mem
      omega
    rw [Node.need, Node.needMost]
    omega

theorem build_of_read {text : String} {tree : Node} (found : read maxDepth level text = .ok tree) :
    ∃ tokens, Scanner.tokens text = .ok tokens ∧ build maxDepth level tokens = .ok tree := by
  unfold read at found
  obtain ⟨_, _, found⟩ := bind_eq_ok.mp found
  obtain ⟨tokens, scanned, found⟩ := bind_eq_ok.mp found
  cases built : build maxDepth level tokens with
  | error fault => rw [built] at found; contradiction
  | ok node =>
    rw [built] at found
    obtain rfl := Except.ok.inj found
    exact ⟨tokens, scanned, built⟩

theorem bounds_of_read {text : String} {tree : Node} {l : Nat}
    (found : read maxDepth level text = .ok tree) (mem : l ∈ tree.levels level) :
    level ≤ l ∧ l < maxDepth := by
  obtain ⟨tokens, _, built⟩ := build_of_read found
  have fits := need_of_build built
  have bounds := Node.bounds_of_mem_levels mem
  omega

/-- The levels at which building a span may go on to build parts of it. -/
inductive Entered (maxDepth : Nat) : Nat → List Token → Nat → Prop
  | here {level : Nat} {span : List Token} : Entered maxDepth level span level
  | before {level l : Nat} {span : List Token} {cut : Span.Cut} : level < maxDepth →
    part span = .operation cut → Entered maxDepth level cut.before l →
    Entered maxDepth level span l
  | after {level l : Nat} {span : List Token} {cut : Span.Cut} : level < maxDepth →
    part span = .operation cut → Entered maxDepth (level + 1) cut.after l →
    Entered maxDepth level span l
  | argument {level l : Nat} {span argument : List Token} {name : Token}
    {arguments : Span.Arguments} : level < maxDepth → part span = .call name arguments →
    argument ∈ arguments.spans → Entered maxDepth (level + 1) argument l →
    Entered maxDepth level span l

theorem Entered.le {l : Nat} (entered : Entered maxDepth level span l) :
    l ≤ max level maxDepth := by
  induction entered with
  | here => exact Nat.le_max_left ..
  | before _ _ _ ih => exact ih
  | after room _ _ ih => omega
  | argument room _ _ _ ih => omega

def Raised {α : Type} (limit : Nat) (narrow wide : Except ReadFault α) : Prop :=
  narrow = .error (.nestingTooDeep limit) ∨ wide = narrow

variable {α β : Type} {limit wider lower : Nat}

theorem Raised.refl (outcome : Except ReadFault α) : Raised limit outcome outcome :=
  .inr rfl

theorem Raised.bind {narrow wide : Except ReadFault α} {next next' : α → Except ReadFault β}
    (first : Raised limit narrow wide) (later : ∀ a, Raised limit (next a) (next' a)) :
    Raised limit (narrow >>= next) (wide >>= next') := by
  cases first with
  | inl deep => exact .inl (by rw [deep]; rfl)
  | inr same =>
    subst same
    cases wide with
    | error fault => exact .refl _
    | ok a => exact later a

theorem raised_buildRight
    (raised : span ≠ [] → Raised limit (build limit level span) (build wider lower span)) :
    Raised limit (buildRight limit level span) (buildRight wider lower span) := by
  cases span with
  | nil => rw [buildRight, buildRight]; exact .refl _
  | cons token rest =>
    rw [buildRight, buildRight]
    exact (raised (List.cons_ne_nil _ _)).bind fun _ => .refl _

theorem raised_buildArguments (function : String) {spans : List (List Token)}
    (raised : ∀ span ∈ spans, Raised limit (build limit level span) (build wider lower span)) :
    Raised limit (buildArguments limit level function spans)
      (buildArguments wider lower function spans) := by
  induction spans with
  | nil => rw [buildArguments, buildArguments]; exact .refl _
  | cons span spans ih =>
    rw [List.forall_mem_cons] at raised
    cases span with
    | nil => rw [buildArguments, buildArguments]; exact .refl _
    | cons token rest =>
      rw [buildArguments, buildArguments]
      exact raised.1.bind fun _ => (ih raised.2).bind fun _ => .refl _

theorem raised_build (le : limit ≤ wider) (above : lower ≤ level) (span : List Token) :
    Raised limit (build limit level span) (build wider lower span) := by
  induction span using part_induction generalizing level lower with
  | step span ih =>
    rw [build_eq, build_eq]
    by_cases room : limit ≤ level
    · exact .inl (if_pos room)
    · rw [if_neg room, if_neg (by omega)]
      cases whole : part span with
      | fault fault => exact .refl _
      | leaf token => exact .refl _
      | operation cut =>
        rw [whole] at ih
        have before := raised_buildRight fun _ => ih cut.before (by simp [Part.children]) above
        have after := raised_buildRight fun _ =>
          ih cut.after (by simp [Part.children]) (Nat.succ_le_succ above)
        exact after.bind fun _ => before.bind fun _ => .refl _
      | call name arguments =>
        rw [whole] at ih
        have each := raised_buildArguments name.text fun span mem =>
          ih span mem (Nat.succ_le_succ above)
        exact each.bind fun _ => .refl _

theorem raised_read (le : limit ≤ wider) (above : lower ≤ level) (text : String) :
    read limit level text = .error ⟨.nestingTooDeep limit, text⟩ ∨
      read wider lower text = read limit level text := by
  unfold read
  cases Scanner.validate text with
  | error error => exact .inr rfl
  | ok _ =>
    cases Scanner.tokens text with
    | error error => exact .inr rfl
    | ok tokens =>
      simp only [bind, Except.bind]
      cases raised_build le above tokens with
      | inl deep => rw [deep]; exact .inl rfl
      | inr same => rw [same]; exact .inr rfl

end Tree

end Reckon
