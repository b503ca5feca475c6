import Reckon.Proofs.Scope.Questions
import Reckon.Proofs.Session.Pass

/-!
The nesting limit of a session. Raising it changes a pass only if the pass failed for the limit:
otherwise the pass comes to the same value or the same failure, and the host is asked the same
questions in the same order.
-/

namespace Reckon

namespace Simulation

/-- The wider outcome is the narrower one, unless that failed for its limit. -/
def raised (σ : Type) (limit : Nat) : Simulation (StateM σ) (StateM σ) where
  Rel x y := ∀ s, (∃ text, (x.runFrom s).1 = .error (.read ⟨.nestingTooDeep limit, text⟩)) ∨
    y.runFrom s = x.runFrom s
  pure _ _ := .inr rfl
  throw _ _ := .inr rfl
  bind := by
    intro α β x y f g first later s
    cases first s with
    | inl deep =>
      obtain ⟨text, deep⟩ := deep
      exact .inl ⟨text, Outcome.runFrom_bind_error deep f⟩
    | inr same =>
      rw [Outcome.runFrom_bind, Outcome.runFrom_bind, same]
      cases x.runFrom s with
      | mk outcome s' =>
        cases outcome with
        | error failure => exact .inr rfl
        | ok a => exact later a s'

theorem raised_reads {σ : Type} {limit wider : Nat} (le : limit ≤ wider) :
    (raised σ limit).Reads limit wider := by
  intro α level text f g trees
  cases Tree.raised_read le (Nat.le_refl level) text with
  | inl deep =>
    intro s
    refine .inl ⟨text, ?_⟩
    rw [Outcome.reading, deep]
    rfl
  | inr same =>
    unfold Outcome.reading
    rw [same]
    cases read : Tree.read limit level text with
    | error error => exact (raised σ limit).throw _
    | ok tree => exact trees tree read

theorem raised_pass {σ : Type} (session : Session (StateM σ)) {wider : Nat}
    (le : session.maxDepth ≤ wider) :
    (raised σ session.maxDepth).Rel session.pass (session.setMaxDepth wider).pass := by
  have reads : (raised σ session.maxDepth).Reads session.maxDepth
      (session.setMaxDepth wider).maxDepth := raised_reads le
  rw [← session.passThrough_resolve, ← (session.setMaxDepth wider).passThrough_resolve]
  refine passThrough _ session (session.setMaxDepth wider) rfl rfl reads
    fun progress name arguments level under => ?_
  have scopes : (raised σ session.maxDepth).Scopes (session.scope progress)
      ((session.setMaxDepth wider).scope progress) :=
    scopes (fun _ _ => .inr rfl) rfl rfl rfl rfl rfl
  exact resolve _ scopes reads le under name arguments

def forgetting (σ : Type) : Simulation (StateM σ) Id where
  Rel x y := ∀ s, (x.runFrom s).1 = y.run
  pure _ _ := rfl
  throw _ _ := rfl
  bind := by
    intro α β x y f g first later s
    rw [Outcome.runFrom_bind, ExceptT.run_bind, ← first s]
    cases x.runFrom s with
    | mk outcome s' =>
      cases outcome with
      | error failure => rfl
      | ok a => exact later a s'

end Simulation

namespace Session

def recorded (session : Session Id) : Session (StateM (List Question)) :=
  { session with host := session.host.recorded }

def questions (session : Session Id) : List Question :=
  (session.recorded.pass.runFrom []).2

theorem recorded_scopes (session : Session Id) (progress : Progress) :
    (Simulation.forgetting (List Question)).Scopes (session.recorded.scope progress)
      (session.scope progress) where
  values := rfl
  functions := rfl
  order := rfl
  previous := rfl
  callbacks := by
    refine List.forall₂_iff_get.mpr ⟨List.length_mapIdx, fun place _ _ name arguments s => ?_⟩
    simp only [Session.recorded, Session.scope, Host.recorded, List.get_eq_getElem,
      List.getElem_mapIdx]
    rfl
  random := fun _ => rfl

theorem recorded_pass (session : Session Id) (questions : List Question) :
    (session.recorded.pass.runFrom questions).1 = session.pass.run := by
  have reads := (Simulation.forgetting (List Question)).reads session.maxDepth
  have related : (Simulation.forgetting (List Question)).Rel
      (session.recorded.passThrough Scope.resolve) (session.passThrough Scope.resolve) := by
    refine Simulation.passThrough _ session.recorded session rfl rfl reads
      fun progress name arguments level under => ?_
    exact Simulation.resolve _ (recorded_scopes session progress) reads (Nat.le_refl _) under name
      arguments
  exact related questions

/-- Two sessions whose passes have the same outcome and ask the same questions. -/
def SamePass (session other : Session Id) : Prop :=
  session.pass.run = other.pass.run ∧ session.questions = other.questions

def FailsForLimit (session : Session Id) (limit : Nat) : Prop :=
  ∃ text, session.pass.run = .error (.read ⟨.nestingTooDeep limit, text⟩)

/-- A higher limit leaves every pass as it is that did not fail for the limit it had. -/
theorem raise_limit (session : Session Id) {wider : Nat} (le : session.maxDepth ≤ wider) :
    ((∀ limit, ¬ session.FailsForLimit limit) → (session.setMaxDepth wider).SamePass session) ∧
    ((session.setMaxDepth wider).SamePass session ∨ session.FailsForLimit session.maxDepth) := by
  have agrees : (session.setMaxDepth wider).SamePass session ∨
      session.FailsForLimit session.maxDepth := by
    cases Simulation.raised_pass session.recorded le [] with
    | inl deep =>
      rw [recorded_pass] at deep
      exact .inr deep
    | inr same =>
      have recorded : (session.setMaxDepth wider).recorded = session.recorded.setMaxDepth wider :=
        rfl
      refine .inl ⟨?_, ?_⟩
      · rw [← recorded_pass session [], ← recorded_pass (session.setMaxDepth wider) [], recorded,
          same]
      · rw [questions, questions, recorded, same]
  exact ⟨fun settled => agrees.resolve_right (settled session.maxDepth), agrees⟩

theorem raise_limit_of_descending :
    Tree.defaultMaxDepth ≤ 1000 ∧
      ((descending.setMaxDepth 1000).SamePass descending ∨ descending.FailsForLimit 256) := by
  have higher : Tree.defaultMaxDepth ≤ 1000 := by decide
  exact ⟨higher, (raise_limit descending higher).2⟩

end Session

end Reckon
