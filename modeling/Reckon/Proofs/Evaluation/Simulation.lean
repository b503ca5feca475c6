import Reckon.Proofs.Evaluation.Nodes
import Reckon.Proofs.Tree.Replacing
import Reckon.Proofs.Tree.Shape

/-!
Relations that evaluation respects. A simulation relates outcomes that ask one host to outcomes
that ask another, and follows the outcomes from step to step. Two evaluations of one tree are
related as soon as their resolvers answer the names of the tree in related ways at the levels of the
tree, whatever they do for other names and at other levels. The same holds of a tree and the tree
with its names replaced, when one resolver answers the old names as the other one does the new ones.
-/

namespace Reckon

namespace Outcome

variable {m : Type → Type} [Monad m] {α β : Type}

@[simp] theorem ofExcept_ok (a : α) : (ofExcept (.ok a) : Outcome m α) = pure a :=
  rfl

@[simp] theorem ofExcept_error (failure : Failure) :
    (ofExcept (.error failure) : Outcome m α) = throw failure :=
  rfl

variable [LawfulMonad m]

@[simp] theorem lift_pure (a : α) : (ExceptT.lift (pure a) : Outcome m α) = pure a := by
  apply ExceptT.ext
  simp

theorem lift_bind (x : m α) (f : α → m β) :
    (ExceptT.lift (x >>= f) : Outcome m β) = ExceptT.lift x >>= fun a => ExceptT.lift (f a) := by
  apply ExceptT.ext
  simp

theorem lift_some (x : m α) :
    (ExceptT.mk (do return .ok (some (← x))) : Outcome m (Option α)) =
      ExceptT.lift x >>= fun a => pure (some a) := by
  apply ExceptT.ext
  simp only [bind_pure_comp, ExceptT.run_map, ExceptT.run_lift, Functor.map_map]
  rfl

@[simp] theorem throw_bind (failure : Failure) (f : α → Outcome m β) :
    (throw failure >>= f) = throw failure := by
  apply ExceptT.ext
  simp

def runFrom {σ α : Type} (x : Outcome (StateM σ) α) (s : σ) : Except Failure α × σ :=
  x.run.run s

theorem runFrom_bind {σ α β : Type} (x : Outcome (StateM σ) α) (f : α → Outcome (StateM σ) β)
    (s : σ) : (x >>= f).runFrom s = match x.runFrom s with
      | (.ok a, s) => (f a).runFrom s
      | (.error failure, s) => (.error failure, s) := by
  unfold runFrom
  rw [ExceptT.run_bind, StateT.run_bind]
  cases x.run.run s with
  | mk outcome s =>
    cases outcome with
    | error failure => rfl
    | ok a => rfl

theorem runFrom_bind_error {σ α β : Type} {x : Outcome (StateM σ) α} {s : σ} {failure : Failure}
    (fails : (x.runFrom s).1 = .error failure) (f : α → Outcome (StateM σ) β) :
    ((x >>= f).runFrom s).1 = .error failure := by
  rw [runFrom_bind]
  cases ends : x.runFrom s with
  | mk outcome s' =>
    rw [ends] at fails
    subst fails
    rfl

end Outcome

/-- A relation of outcomes that goes on from one step to the next. -/
structure Simulation (m n : Type → Type) [Monad m] [Monad n] where
  Rel : {α : Type} → Outcome m α → Outcome n α → Prop
  pure : ∀ {α : Type} (a : α), Rel (Pure.pure a) (Pure.pure a)
  throw : ∀ {α : Type} (failure : Failure),
    Rel (MonadExcept.throw failure : Outcome m α) (MonadExcept.throw failure)
  bind : ∀ {α β : Type} {x : Outcome m α} {y : Outcome n α} {f : α → Outcome m β}
    {g : α → Outcome n β}, Rel x y → (∀ a, Rel (f a) (g a)) → Rel (x >>= f) (y >>= g)

namespace Simulation

variable {m n : Type → Type} [Monad m] [Monad n] (sim : Simulation m n) {α β : Type}

theorem ofExcept (outcome : Except Failure α) :
    sim.Rel (Outcome.ofExcept outcome) (Outcome.ofExcept outcome) := by
  cases outcome with
  | error failure => exact sim.throw failure
  | ok a => exact sim.pure a

theorem foldlM {f : β → α → Outcome m β} {g : β → α → Outcome n β}
    (step : ∀ b a, sim.Rel (f b a) (g b a)) (list : List α) (start : β) :
    sim.Rel (list.foldlM f start) (list.foldlM g start) := by
  induction list generalizing start with
  | nil => exact sim.pure start
  | cons a list ih =>
    rw [List.foldlM_cons, List.foldlM_cons]
    exact sim.bind (step start a) ih

theorem mapM [LawfulMonad m] [LawfulMonad n] {xs : List (Outcome m α)} {ys : List (Outcome n α)}
    (each : List.Forall₂ sim.Rel xs ys) : sim.Rel (xs.mapM id) (ys.mapM id) := by
  induction each with
  | nil =>
    rw [List.mapM_nil, List.mapM_nil]
    exact sim.pure []
  | cons first _ ih =>
    rw [List.mapM_cons, List.mapM_cons]
    exact sim.bind first fun a => sim.bind ih fun list => sim.pure (a :: list)

variable {xs : List (Outcome m Float)} {ys : List (Outcome n Float)} {token : Token}

theorem applyPrefixed (leftCount : Nat) (each : List.Forall₂ sim.Rel xs ys) :
    sim.Rel (Operation.applyPrefixed token leftCount xs)
      (Operation.applyPrefixed token leftCount ys) := by
  have same := each.length_eq
  by_cases other : leftCount ≠ 0 ∨ xs.length ≠ 1
  · rw [Operation.applyPrefixed_other token other,
      Operation.applyPrefixed_other token (same ▸ other), same]
    exact sim.throw _
  · rw [not_or, not_not, not_not] at other
    obtain ⟨rfl, single⟩ := other
    obtain ⟨x, rfl⟩ := List.length_eq_one_iff.mp single
    obtain ⟨y, rfl⟩ := List.length_eq_one_iff.mp (same ▸ single)
    rw [Operation.applyPrefixed_one, Operation.applyPrefixed_one]
    have operand := (List.forall₂_cons.mp each).1
    cases Operation.prefixed? token.text with
    | none => exact sim.throw _
    | some sign => exact sim.bind operand fun _ => sim.pure _

theorem applyToLeft (left : Float) (each : List.Forall₂ sim.Rel xs ys) :
    sim.Rel (Operation.applyToLeft token xs left) (Operation.applyToLeft token ys left) := by
  cases each with
  | nil =>
    rw [Operation.applyToLeft_nil, Operation.applyToLeft_nil]
    split
    · exact sim.ofExcept _
    · exact sim.throw _
  | @cons x y xs ys first rest =>
    cases rest with
    | nil =>
      rw [Operation.applyToLeft_one, Operation.applyToLeft_one]
      split
      · exact sim.throw _
      · exact sim.bind first fun right => sim.ofExcept _
    | cons second rest =>
      have same := rest.length_eq
      rw [Operation.applyToLeft_more token left (by simp),
        Operation.applyToLeft_more token left (by simp)]
      simp only [List.length_cons, same]
      exact sim.throw _

variable {env : Environment m} {env' : Environment n}

theorem operands {level : Nat} {nodes : List Node} {f : Node → Node}
    (each : ∀ node ∈ nodes, sim.Rel (Evaluation.evaluate env level node)
      (Evaluation.evaluate env' level (f node))) :
    List.Forall₂ sim.Rel (nodes.map (Evaluation.evaluate env level))
      ((nodes.map f).map (Evaluation.evaluate env' level)) := by
  rw [List.map_map, List.forall₂_map_left_iff, List.forall₂_map_right_iff]
  exact List.forall₂_same.mpr each

theorem answer {level : Nat} {name : String} {arguments : List Float}
    (resolvers : sim.Rel (env.resolve name arguments level) (env'.resolve name arguments level)) :
    sim.Rel (Evaluation.answer env level name arguments)
      (Evaluation.answer env' level name arguments) := by
  refine sim.bind resolvers fun answer => ?_
  cases answer with
  | none => exact sim.throw _
  | some value => exact sim.pure value

variable (env env') in
/-- A token that may stand in the place of another: the token itself, or a name for a name that is
answered in related ways at some levels. -/
inductive Stands (levels : List Nat) (token token' : Token) : Prop
  | same : token.kind ≠ .identifier → token' = token → Stands levels token token'
  | name : token.kind = .identifier → token'.kind = .identifier →
    Evaluation.literal? (Text.normalName token.text) =
      Evaluation.literal? (Text.normalName token'.text) →
    (∀ level ∈ levels, ∀ arguments,
      sim.Rel (Evaluation.answer env level (Text.normalName token.text) arguments)
        (Evaluation.answer env' level (Text.normalName token'.text) arguments)) →
    Stands levels token token'

variable {token' : Token} {levels : List Nat}

theorem Stands.mono {more : List Nat} (stands : sim.Stands env env' levels token token')
    (subset : more ⊆ levels) : sim.Stands env env' more token token' := by
  cases stands with
  | same other same => exact .same other same
  | name named named' literal answers =>
    exact .name named named' literal fun level mem => answers level (subset mem)

theorem Stands.kind_eq (stands : sim.Stands env env' levels token token') :
    token'.kind = token.kind := by
  cases stands with
  | same _ same => rw [same]
  | name named named' => rw [named, named']

theorem Stands.eq_of_isOperation (stands : sim.Stands env env' levels token token')
    (operation : token.kind.isOperation = true) : token' = token := by
  cases stands with
  | same _ same => exact same
  | name named => rw [named] at operation; contradiction

variable [LawfulMonad m] [LawfulMonad n]

theorem identifier {level : Nat} {text text' : String} (isLeaf : Bool)
    (each : List.Forall₂ sim.Rel xs ys)
    (literal : Evaluation.literal? (Text.normalName text) =
      Evaluation.literal? (Text.normalName text'))
    (answers : ∀ arguments,
      sim.Rel (Evaluation.answer env level (Text.normalName text) arguments)
        (Evaluation.answer env' level (Text.normalName text') arguments)) :
    sim.Rel (Evaluation.identifier env level text isLeaf xs)
      (Evaluation.identifier env' level text' isLeaf ys) := by
  have asked : sim.Rel (Evaluation.identifier env level text false xs)
      (Evaluation.identifier env' level text' false ys) := by
    rw [Evaluation.identifier_answer, Evaluation.identifier_answer]
    exact sim.bind (sim.mapM each) answers
  cases isLeaf with
  | false => exact asked
  | true =>
    cases same : Evaluation.literal? (Text.normalName text) with
    | none =>
      rw [Evaluation.identifier_free env level same,
        Evaluation.identifier_free env' level (literal.symm.trans same)]
      exact asked
    | some value =>
      rw [Evaluation.identifier_literal env level same,
        Evaluation.identifier_literal env' level (literal.symm.trans same)]
      exact sim.pure value

theorem head {level leftCount : Nat} (previous : env.previous = env'.previous)
    (each : List.Forall₂ sim.Rel xs ys) (stands : sim.Stands env env' levels token token')
    (mem : level ∈ levels) :
    sim.Rel (Evaluation.head env level token leftCount xs)
      (Evaluation.head env' level token' leftCount ys) := by
  have same := each.length_eq
  have empty : xs.isEmpty = ys.isEmpty := by cases each <;> rfl
  unfold Evaluation.head
  cases stands with
  | name named named' literal answers =>
    rw [named, named', empty]
    exact sim.identifier _ each literal (answers level mem)
  | same other equal =>
    rw [equal, previous, same]
    cases kind : token.kind with
    | previous => exact sim.pure _
    | number =>
      cases Decimal.read? token.text with
      | none => exact sim.throw _
      | some value => exact sim.pure value
    | identifier => exact absurd kind other
    | operator => exact sim.applyPrefixed leftCount each
    | relational | boolean | opening | closing | delimiter | invalid => exact sim.throw _

theorem evaluate_mapTokens {level : Nat} {f : Token → Token} (node : Node)
    (previous : env.previous = env'.previous)
    (tokens : ∀ inner ∈ node.nodes,
      sim.Stands env env' (node.levels level) inner.token (f inner.token)) :
    sim.Rel (Evaluation.evaluate env level node)
      (Evaluation.evaluate env' level (node.mapTokens f)) := by
  induction node using Node.induction generalizing level with
  | step token left right leftIH rightIH =>
    rw [Node.forall_nodes] at tokens
    obtain ⟨here, inLeft, inRight⟩ := tokens
    have each : List.Forall₂ sim.Rel (right.map (Evaluation.evaluate env (level + 1)))
        ((right.map (Node.mapTokens f)).map (Evaluation.evaluate env' (level + 1))) := by
      refine sim.operands fun child mem => rightIH child mem fun inner among => ?_
      exact (inRight child mem inner among).mono sim fun l => Node.mem_levels_right mem
    rw [Node.mapTokens_mk]
    by_cases spine : token.kind.isOperation = true ∧ left.length = 1
    · obtain ⟨operation, single⟩ := spine
      obtain ⟨child, rfl⟩ := List.length_eq_one_iff.mp single
      have mem := List.mem_singleton_self child
      rw [here.eq_of_isOperation sim operation, List.map_singleton,
        Evaluation.evaluate_spine env level operation,
        Evaluation.evaluate_spine env' level operation]
      refine sim.bind (leftIH child mem fun inner among => ?_) fun value => sim.applyToLeft value each
      exact (inLeft child mem inner among).mono sim fun l => Node.mem_levels_left mem
    · have last : token.kind.isOperation = false ∨ left.length ≠ 1 := by
        rwa [Classical.not_and_iff_not_or_not, Bool.not_eq_true] at spine
      have last' : (f token).kind.isOperation = false ∨ (left.map (Node.mapTokens f)).length ≠ 1 := by
        rwa [here.kind_eq, List.length_map]
      rw [Evaluation.evaluate_head env level last, Evaluation.evaluate_head env' level last',
        List.length_map]
      exact sim.head previous each here (Node.mem_levels_self level _)

theorem evaluate_among {level : Nat} (node : Node) (previous : env.previous = env'.previous)
    (resolvers : ∀ inner ∈ node.nodes, inner.token.kind = .identifier →
      ∀ l ∈ node.levels level, ∀ arguments,
        sim.Rel (env.resolve (Text.normalName inner.token.text) arguments l)
          (env'.resolve (Text.normalName inner.token.text) arguments l)) :
    sim.Rel (Evaluation.evaluate env level node) (Evaluation.evaluate env' level node) := by
  have same : sim.Rel (Evaluation.evaluate env level node)
      (Evaluation.evaluate env' level (node.mapTokens id)) := by
    refine sim.evaluate_mapTokens node previous fun inner mem => ?_
    by_cases named : inner.token.kind = .identifier
    · exact .name named named rfl fun l among arguments =>
        sim.answer (resolvers inner mem named l among arguments)
    · exact .same named rfl
  rwa [Node.mapTokens_id] at same

theorem evaluate {level : Nat} (node : Node) (previous : env.previous = env'.previous)
    (resolvers : ∀ l ∈ node.levels level, ∀ name arguments,
      sim.Rel (env.resolve name arguments l) (env'.resolve name arguments l)) :
    sim.Rel (Evaluation.evaluate env level node) (Evaluation.evaluate env' level node) :=
  sim.evaluate_among node previous fun _ _ _ l mem => resolvers l mem _

end Simulation

end Reckon
