import Reckon.Proofs.Tree.Following
import Reckon.Proofs.Tree.Level

/-!
The limit on nesting is exact. A span that is built under some limit is built into the same tree
from every level from which the levels of the tree stay under the limit, and fails for the limit
from every other one. The brackets of the span need not match. With levels in machine words the
outcome is the same, for every limit and every level that a word holds, as no level is counted up
beyond the limit.
-/

namespace Reckon

namespace Node

@[simp] theorem need_leaf (token : Token) : (leaf token).need = 1 :=
  rfl

theorem need_left (token : Token) (left : Node) (right : List Node) :
    need ⟨token, [left], right⟩ = max left.need (need ⟨token, [], right⟩) := by
  simp only [need, needMost]
  omega

theorem need_right (token : Token) (right : List Node) :
    need ⟨token, [], right⟩ = 1 + needMost right := by
  rw [need, needMost, Nat.zero_max, Nat.add_comm]

theorem need_attach {waiting : List Node} (bottom : Node)
    (unfilled : ∀ parent ∈ waiting, parent.left = []) :
    (Tree.attach waiting bottom).need = max bottom.need (needMost waiting) := by
  induction waiting generalizing bottom with
  | nil => exact (Nat.max_eq_left (Nat.zero_le _)).symm
  | cons parent waiting ih =>
    rw [List.forall_mem_cons] at unfilled
    obtain ⟨token, left, right⟩ := parent
    obtain rfl : left = [] := unfilled.1
    have hung := ih ⟨token, [bottom], right⟩ unfilled.2
    rw [need_left] at hung
    rw [needMost, ← Nat.max_assoc]
    exact hung

end Node

namespace Tree

variable {maxDepth level limit base : Nat} {span : List Token} {tree : Node} {nodes : List Node}

def underLimit {α : Type} (limit top : Nat) (built : α) : Except ReadFault α :=
  if top ≤ limit then .ok built else .error (.nestingTooDeep limit)

section UnderLimit

variable {α β : Type} {top higher : Nat} {first : α}

theorem underLimit_of_le (fits : top ≤ limit) : underLimit limit top first = .ok first :=
  if_pos fits

theorem underLimit_bind {next : α → Except ReadFault β} {built : β}
    (later : top ≤ limit → next first = underLimit limit higher built) :
    (underLimit limit top first >>= next) = underLimit limit (max top higher) built := by
  by_cases fits : top ≤ limit
  · rw [underLimit_of_le fits]
    refine (later fits).trans (if_congr ?_ rfl rfl)
    rw [Nat.max_le, and_iff_right fits]
  · rw [underLimit, underLimit, if_neg fits, if_neg fun both => fits (Nat.max_le.mp both).1]
    rfl

theorem underLimit_map (make : α → β) :
    (underLimit limit top first >>= fun a => return make a) =
      underLimit limit top (make first) := by
  have kept : (underLimit limit top first >>= fun a => return make a) =
      underLimit limit (max top top) (make first) :=
    underLimit_bind fun fits => (underLimit_of_le fits).symm
  rwa [Nat.max_self] at kept

end UnderLimit

/-- A span that is built into one tree, or fails for the limit if the tree does not fit. -/
def Settled (span : List Token) (tree : Node) : Prop :=
  ∀ limit base, build limit base span = underLimit limit (base + tree.need) tree

theorem Settled.nonempty (settled : Settled span tree) : span ≠ [] := by
  rintro rfl
  have nothing := settled 1 0
  rw [build_eq, part_nil, if_neg (by decide), assemble, underLimit] at nothing
  split at nothing
  · contradiction
  · exact ReadFault.noConfusion (Except.error.inj nothing)

theorem buildRight_of_settled (room : base ≤ limit) (operand : Operand Settled span nodes) :
    buildRight limit base span = underLimit limit (base + Node.needMost nodes) nodes := by
  cases operand with
  | missing =>
    rw [buildRight, Node.needMost]
    exact (underLimit_of_le room).symm
  | @given _ node nonempty settled =>
    obtain ⟨token, rest, rfl⟩ := List.exists_cons_of_ne_nil nonempty
    rw [buildRight, settled, underLimit_map, Node.needMost, Node.needMost, Nat.max_zero]

theorem buildArguments_of_settled (function : String) {spans : List (List Token)}
    (room : base ≤ limit) (each : List.Forall₂ Settled spans nodes) :
    buildArguments limit base function spans =
      underLimit limit (base + Node.needMost nodes) nodes := by
  induction each with
  | nil =>
    rw [buildArguments, Node.needMost]
    exact (underLimit_of_le room).symm
  | @cons span node spans nodes settled _ ih =>
    obtain ⟨token, rest, rfl⟩ := List.exists_cons_of_ne_nil settled.nonempty
    rw [buildArguments, settled, ih, Node.needMost, ← Nat.add_max_add_left]
    exact underLimit_bind fun _ => underLimit_map (node :: ·)

theorem settled_of_build (built : build maxDepth level span = .ok tree) : Settled span tree := by
  refine build_induction (motive := fun _ => Settled) ?_ ?_ ?_ built
  · intro _ span token _ leaf limit base
    rw [build_eq, leaf, Node.need_leaf, underLimit, ← ite_not]
    exact if_congr (by omega) rfl rfl
  · intro _ span cut left right _ operation before after limit base
    rw [build_eq, operation, Node.need]
    by_cases room : base < limit
    · have below := buildRight_of_settled (Nat.succ_le_of_lt room) after
      have beside := buildRight_of_settled (Nat.le_of_lt room) before
      have highest : max (base + 1 + Node.needMost right) (base + Node.needMost left) =
          base + max (Node.needMost left) (Node.needMost right + 1) := by omega
      rw [if_neg (Nat.not_le.mpr room), assemble, below, beside, ← highest]
      exact underLimit_bind fun _ => underLimit_map fun left => Node.mk cut.operation left right
    · rw [if_pos (Nat.le_of_not_lt room), underLimit, if_neg (by omega)]
  · intro _ span name arguments right _ call unstray each limit base
    rw [build_eq, call, Node.need_right]
    by_cases room : base < limit
    · have below := buildArguments_of_settled name.text (Nat.succ_le_of_lt room) each
      rw [if_neg (Nat.not_le.mpr room), assemble, below, unstray, ← Nat.add_assoc]
      exact underLimit_map (Node.mk name [])
    · rw [if_pos (Nat.le_of_not_lt room), underLimit, if_neg (by omega)]

def below? (level : UInt64) : Option UInt64 :=
  if level.toNat + 1 < UInt64.size then some (level + 1) else none

def side (span : List Token) (build : ExceptT ReadFault Option Node) :
    ExceptT ReadFault Option (List Node) :=
  if span = [] then pure [] else return [← build]

def filled (function : String) (span : List Token) (build : ExceptT ReadFault Option Node) :
    ExceptT ReadFault Option Node :=
  if span = [] then throw (.emptyArgument function) else build

/-- Building with levels in machine words, which has no outcome once a level overflows. -/
def buildWord (limit level : UInt64) (span : List Token) : ExceptT ReadFault Option Node :=
  if limit ≤ level then throw (.nestingTooDeep limit.toNat)
  else
    match _whole : part span with
    | .fault fault => throw fault
    | .leaf token => return Node.leaf token
    | .operation cut => do
      let right ← side cut.after do buildWord limit (← below? level) cut.after
      let left ← side cut.before (buildWord limit level cut.before)
      return ⟨cut.operation, left, right⟩
    | .call name arguments => do
      let right ← arguments.spans.attach.mapM fun argument =>
        filled name.text argument.1 do buildWord limit (← below? level) argument.1
      if arguments.stray then throw (.brackets .mismatch)
      else return ⟨name, [], right⟩
termination_by span.length
decreasing_by
  all_goals refine length_lt_of_mem_children ?_
  all_goals rw [_whole]
  · simp [Part.children]
  · simp [Part.children]
  · exact argument.2

theorem below?_of_lt {limit level : UInt64} (room : level < limit) :
    ∃ deeper, below? level = some deeper ∧ deeper.toNat = level.toNat + 1 := by
  have bound := limit.toNat_lt_size
  have room := UInt64.lt_iff_toNat_lt.mp room
  have fits : level.toNat + 1 < UInt64.size := by omega
  refine ⟨level + 1, if_pos fits, ?_⟩
  rw [UInt64.toNat_add, UInt64.toNat_one]
  exact Nat.mod_eq_of_lt fits

def Reaches {α : Type} (word : ExceptT ReadFault Option α) (outcome : Except ReadFault α) : Prop :=
  word.run = some outcome

section Reaches

variable {α β : Type} {word : ExceptT ReadFault Option α} {outcome : Except ReadFault α}

theorem Reaches.ok (a : α) : Reaches (pure a) (.ok a) :=
  rfl

theorem Reaches.fault (fault : ReadFault) :
    Reaches (throw fault : ExceptT ReadFault Option α) (.error fault) :=
  rfl

theorem Reaches.bind {next : α → ExceptT ReadFault Option β} {next' : α → Except ReadFault β}
    (first : Reaches word outcome) (later : ∀ a, Reaches (next a) (next' a)) :
    Reaches (word >>= next) (outcome >>= next') := by
  unfold Reaches at *
  rw [ExceptT.run_bind, first]
  cases outcome with
  | error fault => rfl
  | ok a => exact later a

theorem Reaches.below {limit level : UInt64} (room : level < limit)
    {next : UInt64 → ExceptT ReadFault Option α}
    (later : ∀ deeper, deeper.toNat = level.toNat + 1 → Reaches (next deeper) outcome) :
    Reaches (do next (← below? level)) outcome := by
  obtain ⟨deeper, found, same⟩ := below?_of_lt room
  unfold Reaches
  rw [found]
  exact later deeper same

def reaching : Following (ExceptT ReadFault Option) where
  Rel := Reaches
  ok := .ok
  empty _ := .fault _
  bind := .bind

end Reaches

theorem reaches_build (limit level : UInt64) (span : List Token) :
    Reaches (buildWord limit level span) (build limit.toNat level.toNat span) := by
  induction span using part_induction generalizing level with
  | step span ih =>
    rw [buildWord, build_eq]
    by_cases full : limit ≤ level
    · rw [if_pos full, if_pos (UInt64.le_iff_toNat_le.mp full)]
      exact .fault _
    · have room := UInt64.not_le.mp full
      rw [if_neg full, if_neg fun le => full (UInt64.le_iff_toNat_le.mpr le)]
      split
      · next fault whole => rw [whole]; exact .fault fault
      · next token whole => rw [whole]; exact .ok _
      · next cut whole =>
        rw [whole] at ih ⊢
        -- A level under the limit can be counted up, so the right side is reached.
        have after : Reaches (do buildWord limit (← below? level) cut.after) _ :=
          .below room fun deeper same => same ▸ ih cut.after (by simp [Part.children]) deeper
        have before := ih cut.before (by simp [Part.children]) level
        exact (reaching.side after).bind fun _ => (reaching.side before).bind fun _ => .ok _
      · next name arguments whole =>
        rw [whole] at ih ⊢
        have each : ∀ span ∈ arguments.spans,
            Reaches (do buildWord limit (← below? level) span) _ := fun span mem =>
          .below room fun deeper same => same ▸ ih span mem deeper
        refine .bind ?_ fun right => ?_
        · rw [List.mapM_subtype (g := fun span =>
            filled name.text span do buildWord limit (← below? level) span) fun _ _ => rfl,
            List.unattach_attach]
          exact reaching.arguments each
        · split
          · exact .fault _
          · exact .ok _

/-- The limit on nesting is exact, also for a span whose brackets do not match, up to the limits at
the end of a machine word. The left spine of a tree adds nothing to what the tree needs. -/
theorem limit_exact (built : build maxDepth level span = .ok tree) :
    (∀ limit base, build limit base span =
      if base + tree.need ≤ limit then .ok tree else .error (.nestingTooDeep limit)) ∧
    (∀ limit base : UInt64, (buildWord limit base span).run =
      some (if base.toNat + tree.need ≤ limit.toNat then .ok tree
        else .error (.nestingTooDeep limit.toNat))) ∧
    ∀ waiting bottom, (∀ parent ∈ waiting, parent.left = []) →
      (attach waiting bottom).need = max bottom.need (Node.needMost waiting) := by
  have settled := settled_of_build built
  refine ⟨settled, fun limit base => ?_, fun waiting bottom => Node.need_attach bottom⟩
  have reached : (buildWord limit base span).run = _ := reaches_build limit base span
  rw [reached, settled, underLimit]

theorem limit_exact_of_unmatched :
    build 2 0 [⟨.number, "1"⟩, ⟨.operator, "+"⟩, ⟨.opening, "("⟩] =
      .ok ⟨⟨.operator, "+"⟩, [Node.leaf ⟨.number, "1"⟩], [Node.leaf ⟨.opening, "("⟩]⟩ ∧
    build (UInt64.size - 1) (UInt64.size - 2)
      [⟨.number, "1"⟩, ⟨.operator, "+"⟩, ⟨.opening, "("⟩] =
        .error (.nestingTooDeep (UInt64.size - 1)) := by
  have number : build 2 0 [⟨.number, "1"⟩] = .ok (Node.leaf ⟨.number, "1"⟩) :=
    build_of_part (by decide) (part_of_strip_singleton (Span.strip_of_unpaired rfl))
  have bracket : build 2 1 [⟨.opening, "("⟩] = .ok (Node.leaf ⟨.opening, "("⟩) :=
    build_of_part (by decide) (part_of_strip_singleton (Span.strip_of_unpaired rfl))
  have unstripped : Span.strip [⟨.number, "1"⟩, ⟨.operator, "+"⟩, ⟨.opening, "("⟩] =
      [⟨.number, "1"⟩, ⟨.operator, "+"⟩, ⟨.opening, "("⟩] := Span.strip_of_unpaired rfl
  have sum : part [⟨.number, "1"⟩, ⟨.operator, "+"⟩, ⟨.opening, "("⟩] =
      .operation ⟨[⟨.number, "1"⟩], ⟨.operator, "+"⟩, [⟨.opening, "("⟩]⟩ :=
    part_of_cut (by rw [unstripped]; decide) (by rw [unstripped]; rfl)
  have built : build 2 0 [⟨.number, "1"⟩, ⟨.operator, "+"⟩, ⟨.opening, "("⟩] =
      .ok ⟨⟨.operator, "+"⟩, [Node.leaf ⟨.number, "1"⟩], [Node.leaf ⟨.opening, "("⟩]⟩ := by
    rw [build_of_part (by decide) sum, assemble]
    simp only [buildRight, Nat.zero_add, bracket, number]
    rfl
  exact ⟨built, (limit_exact built).1 _ _⟩

end Tree

end Reckon
