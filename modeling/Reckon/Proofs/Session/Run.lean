import Reckon.Proofs.Scope.Alike
import Reckon.Session

/-!
Passes statement by statement. Each statement that is not blank reads as a target and a formula,
and the pass goes on from the value of the formula. Two passes over the same statements may start
from different variables and may assign to them: they are related as long as an invariant of the
two tables holds on, under which the names that the formulas mention are answered in related ways.
-/

namespace Reckon

namespace Session

def Progress.after (progress : Progress) (target : Option String) (value : Float) : Progress :=
  match target with
  | some name => ⟨progress.values.set name value, value⟩
  | none => ⟨progress.values, value⟩

variable {m : Type → Type} (session : Session m)

def States (target : Option String) (formula : String) : Prop :=
  ∃ statement ∈ session.statements, Statement.read statement = .ok (target, formula)

variable [Monad m] {progress : Progress} {statement : String} {statements : List String}

def finish (progress : Progress) (statements : List String) : Outcome m Float := do
  let progress ← statements.foldlM session.step progress
  return progress.previous

theorem finish_start : session.finish ⟨session.bindings, 0⟩ session.statements = session.pass :=
  rfl

variable [LawfulMonad m]

theorem finish_nil : session.finish progress [] = pure progress.previous := by
  simp [finish]

theorem finish_cons : session.finish progress (statement :: statements) =
    session.step progress statement >>= fun progress => session.finish progress statements := by
  simp [finish]

theorem finish_blank (blank : Statement.isBlank statement = true) :
    session.finish progress (statement :: statements) = session.finish progress statements := by
  rw [finish_cons, step, if_pos blank, pure_bind]

theorem finish_unreadable {failure : Failure} (full : Statement.isBlank statement ≠ true)
    (unreadable : Statement.read statement = .error failure) :
    session.finish progress (statement :: statements) = throw failure := by
  rw [finish_cons, step, if_neg full, unreadable]
  simp

theorem finish_stated {target : Option String} {formula : String}
    (full : Statement.isBlank statement ≠ true)
    (reads : Statement.read statement = .ok (target, formula)) :
    session.finish progress (statement :: statements) =
      (session.scope progress).compute progress.previous session.maxDepth formula >>= fun value =>
        session.finish (progress.after target value) statements := by
  rw [finish_cons, step, if_neg full, reads, Outcome.ofExcept_ok, pure_bind,
    Scope.compute, Outcome.reading]
  dsimp only
  cases Tree.read session.maxDepth 0 formula with
  | error error => rw [Outcome.throw_bind, Outcome.throw_bind]
  | ok tree =>
    cases target with
    | some name => simp [Progress.after]
    | none => simp [Progress.after]

end Session

namespace Simulation

variable {m n : Type → Type} [Monad m] [Monad n] (sim : Simulation m n)
variable {session : Session m} {session' : Session n}
variable {related : VariableTable → VariableTable → Prop}

/-- Related variables stay related when a statement assigns to both, and give related answers to the
names of the formulas. -/
structure Invariant (session : Session m) (session' : Session n)
    (related : VariableTable → VariableTable → Prop) : Prop where
  maxDepth : session.maxDepth = session'.maxDepth
  assigns : ∀ {values values' name formula} value, session.States (some name) formula →
    related values values' → related (values.set name value) (values'.set name value)
  answers : ∀ {values values' target formula name} previous, session.States target formula →
    Scanner.Mentions formula name → related values values' → ∀ arguments level,
      sim.Rel ((session.scope ⟨values, previous⟩).resolve name arguments level)
        ((session'.scope ⟨values', previous⟩).resolve name arguments level)

variable [LawfulMonad m] [LawfulMonad n]

theorem Invariant.finish (invariant : sim.Invariant session session' related)
    {statements : List String} (among : statements ⊆ session.statements)
    {values values' : VariableTable} (start : related values values') (previous : Float) :
    sim.Rel (session.finish ⟨values, previous⟩ statements)
      (session'.finish ⟨values', previous⟩ statements) := by
  induction statements generalizing values values' previous with
  | nil =>
    rw [Session.finish_nil, Session.finish_nil]
    exact sim.pure previous
  | cons statement statements ih =>
    rw [List.cons_subset] at among
    by_cases blank : Statement.isBlank statement = true
    · rw [session.finish_blank blank, session'.finish_blank blank]
      exact ih among.2 start previous
    · cases reads : Statement.read statement with
      | error failure =>
        rw [session.finish_unreadable blank reads, session'.finish_unreadable blank reads]
        exact sim.throw failure
      | ok stated =>
        obtain ⟨target, formula⟩ := stated
        have states : session.States target formula := ⟨statement, among.1, reads⟩
        rw [session.finish_stated blank reads, session'.finish_stated blank reads]
        refine sim.bind ?_ fun value => ?_
        · rw [Scope.compute, Scope.compute, ← invariant.maxDepth]
          exact sim.formula rfl fun name mentioned =>
            invariant.answers previous states mentioned start
        · cases target with
          | none => exact ih among.2 start value
          | some name => exact ih among.2 (invariant.assigns value states start) value

theorem Invariant.pass (invariant : sim.Invariant session session' related)
    (statements : session.statements = session'.statements)
    (start : related session.bindings session'.bindings) :
    sim.Rel session.pass session'.pass := by
  rw [← session.finish_start, ← session'.finish_start, ← statements]
  exact invariant.finish sim (List.Subset.refl _) start 0

end Simulation

end Reckon
