import Reckon.Proofs.Session.Pass

/-!
How deep a pass goes. A traced pass keeps the bodies that begin and the questions that are asked,
and is otherwise the pass itself. Whatever the functions and the callbacks are, every active body
has taken `callCost` levels above the visit, and the visit is under the limit. So the limit bounds
the bodies that are active at once, and a pass ends without the help of the bound on calls that
`resolve` provides for.
-/

namespace Reckon

/-- Host computations that keep visits beside the state of the host. -/
abbrev Traced (σ : Type) :=
  StateM (σ × List Visit)

namespace Traced

variable {σ : Type}

def lift {α : Type} (x : StateM σ α) : Traced σ α := fun s =>
  let (a, after) := x.run s.1
  (a, (after, s.2))

def keep (visit : Visit) : Outcome (Traced σ) Unit :=
  modify fun s => (s.1, s.2 ++ [visit])

theorem runFrom_keep (visit : Visit) {α : Type} (x : Outcome (Traced σ) α) (s : σ)
    (visits : List Visit) :
    (keep visit >>= fun _ => x).runFrom (s, visits) = x.runFrom (s, visits ++ [visit]) :=
  rfl

end Traced

/-- The traced outcome is the outcome, and only bounded visits are added to bounded ones. -/
def Simulation.tracing (σ : Type) (limit : Nat) : Simulation (Traced σ) (StateM σ) where
  Rel x y := ∀ s visits, (∀ visit ∈ visits, visit.Bounded limit) →
    ∃ after, x.runFrom (s, visits) = ((y.runFrom s).1, (y.runFrom s).2, after) ∧
      ∀ visit ∈ after, visit.Bounded limit
  pure _ _ visits bounded := ⟨visits, rfl, bounded⟩
  throw _ _ visits bounded := ⟨visits, rfl, bounded⟩
  bind := by
    intro α β x y f g first later s visits bounded
    obtain ⟨between, ran, bounded⟩ := first s visits bounded
    rw [Outcome.runFrom_bind, Outcome.runFrom_bind, ran]
    cases y.runFrom s with
    | mk outcome s =>
      cases outcome with
      | error failure => exact ⟨between, rfl, bounded⟩
      | ok a => exact later a s between bounded

namespace Host

variable {σ : Type}

def traced (host : Host (StateM σ)) : Host (Traced σ) where
  callbacks := host.callbacks.map fun callback name arguments =>
    Traced.lift (callback name arguments)
  random := Traced.lift host.random

end Host

namespace Session

variable {σ : Type} (session : Session (StateM σ))

def traced : Session (Traced σ) :=
  { session with host := session.host.traced }

def tracedPass : Outcome (Traced σ) Float :=
  session.traced.passThrough fun scope =>
    let calls := scope.maxDepth / Declaration.callCost + 1
    Scope.reporting Traced.keep 0
      (scope.resolverThrough Traced.keep (fun _ _ _ => return none) calls 0)

theorem traced_scopes (limit : Nat) (progress : Progress) :
    (Simulation.tracing σ limit).Scopes (session.traced.scope progress)
      (session.scope progress) where
  values := rfl
  functions := rfl
  order := rfl
  previous := rfl
  callbacks := List.forall₂_map_left_iff.mpr <| List.forall₂_same.mpr
    fun _ _ _ _ _ visits bounded => ⟨visits, rfl, bounded⟩
  random := fun _ visits bounded => ⟨visits, rfl, bounded⟩

theorem tracing_reports (limit : Nat) :
    (Simulation.tracing σ limit).Reports limit Traced.keep Scope.silent := by
  intro visit bounded α x y related s visits before
  rw [Traced.runFrom_keep]
  refine related s (visits ++ [visit]) fun other mem => ?_
  cases List.mem_append.mp mem with
  | inl old => exact before other old
  | inr new => exact List.mem_singleton.mp new ▸ bounded

theorem tracing_tracedPass :
    (Simulation.tracing σ session.maxDepth).Rel session.tracedPass session.pass := by
  have reads := (Simulation.tracing σ session.maxDepth).reads session.maxDepth
  have reports := tracing_reports (σ := σ) session.maxDepth
  rw [← session.passThrough_resolve]
  refine Simulation.passThrough _ session.traced session rfl rfl reads
    fun progress name arguments level under => ?_
  have scopes := session.traced_scopes session.maxDepth progress
  have bounded : (Visit.query 0 level name arguments).Bounded session.maxDepth :=
    ⟨Nat.zero_le level, under⟩
  have enough := Scope.enough_calls session.maxDepth level
  rw [← Scope.reporting_silent 0 (session.scope progress).resolve, Scope.resolve,
    ← Scope.resolverThrough_silent _ _ 0]
  exact reports _ bounded _ _ _ (Simulation.resolverThrough _ scopes reads reports _ _
    (Nat.zero_le level) under enough enough name arguments)

theorem pass_of_enough {m : Type → Type} [Monad m] [LawfulMonad m] (session : Session m)
    (bottom : Scope m → Resolver m) {calls : Nat}
    (enough : session.maxDepth ≤ Declaration.callCost * calls) :
    session.passThrough (fun scope => scope.resolverThrough Scope.silent (bottom scope) calls 0) =
      session.pass := by
  have reads := (Simulation.equality m).reads session.maxDepth
  have reports := (Simulation.equality m).reports_silent session.maxDepth
  rw [← session.passThrough_resolve]
  refine Simulation.passThrough (Simulation.equality m) session session rfl rfl reads
    fun progress name arguments level under => ?_
  have scopes : (Simulation.equality m).Scopes (session.scope progress) (session.scope progress) :=
    Simulation.scopes (fun _ => rfl) rfl rfl rfl rfl rfl
  rw [Scope.resolve, ← Scope.resolverThrough_silent _ _ 0]
  exact Simulation.resolverThrough _ scopes reads reports _ _ (Nat.zero_le level) under
    (Nat.le_add_left_of_le enough) (Scope.enough_calls _ level) name arguments

/-- A level that stays below the limit and the cost of one more call, and in a machine word. -/
def Fits (level : Nat) : Prop :=
  level < session.maxDepth + Declaration.callCost ∧ level < UInt64.size

/-- Recursion is bounded by the nesting limit. In every pass the visits of `k` active bodies stand
at levels from `4 * k` on that are under the limit, so that at most a fourth of the levels below
the root can be active bodies. The levels that building, evaluating and calling compute stay below
the limit and the cost of one call. No more calls than the limit leaves room for have to be
provided for. -/
theorem recursion_bounded (fits : session.maxDepth + Declaration.callCost ≤ UInt64.size) :
    (∀ s, ∃ visits,
      session.tracedPass.runFrom (s, []) =
        ((session.pass.runFrom s).1, (session.pass.runFrom s).2, visits) ∧
      ∀ visit ∈ visits,
        (Declaration.callCost * visit.active ≤ visit.level ∧ visit.level < session.maxDepth) ∧
        visit.active ≤ (session.maxDepth - 1) / Declaration.callCost ∧
        session.Fits (visit.level + Declaration.callCost)) ∧
    (∀ base span level, session.Fits base → Tree.Entered session.maxDepth base span level →
      session.Fits level) ∧
    (∀ base text tree, Tree.read session.maxDepth base text = .ok tree →
      ∀ level ∈ tree.levels base, session.Fits (level + 1)) ∧
    (∀ (bottom : Scope (StateM σ) → Resolver (StateM σ)) (calls : Nat),
      (session.maxDepth - 1) / Declaration.callCost < calls →
        session.passThrough (fun scope =>
          scope.resolverThrough Scope.silent (bottom scope) calls 0) = session.pass) := by
  have cost : Declaration.callCost = 4 := rfl
  refine ⟨fun s => ?_, fun base span level low entered => ?_,
    fun base text tree read level mem => ?_,
    fun bottom calls enough => session.pass_of_enough bottom ?_⟩
  · obtain ⟨visits, ran, bounded⟩ := session.tracing_tracedPass s [] (List.forall_mem_nil _)
    refine ⟨visits, ran, fun visit mem => ?_⟩
    have bound := bounded visit mem
    unfold Visit.Bounded at bound
    rw [cost] at bound fits
    unfold Fits
    rw [cost]
    omega
  · have most := entered.le
    unfold Fits at low ⊢
    omega
  · have under := Tree.bounds_of_read read mem
    unfold Fits
    omega
  · rw [cost] at enough ⊢
    omega

theorem recursion_bounded_of_descending :
    Tree.defaultMaxDepth + Declaration.callCost ≤ UInt64.size ∧
      ∃ visits, (descending : Session (StateM Unit)).tracedPass.runFrom ((), []) =
        ((descending.pass.runFrom ()).1, (), visits) ∧ ∀ visit ∈ visits, visit.active ≤ 63 := by
  have fits : Tree.defaultMaxDepth + Declaration.callCost ≤ UInt64.size := by decide
  obtain ⟨visits, ran, bounded⟩ := (recursion_bounded descending fits).1 ()
  exact ⟨fits, visits, ran, fun visit mem => (bounded visit mem).2.1⟩

/-- The bodies that the default limit has room for. -/
example : (Tree.defaultMaxDepth - 1) / Declaration.callCost = 63 := by decide

end Session

end Reckon
