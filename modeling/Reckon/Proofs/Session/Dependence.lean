import Reckon.Proofs.Session.Pass
import Reckon.Proofs.Session.Run
import Reckon.Proofs.VariableTable

/-!
What a pass depends on. Two sessions with the same statements and definitions, of which bindings
count for what they bind and not for how they came about, run the same pass, whatever their last
values are. If the answers of the host depend on nothing but the question, so does the outcome of
the pass depend on nothing else.
-/

namespace Reckon

namespace Session

variable {m : Type → Type} {session other : Session m}

/-- Sessions that differ in their last values at most. -/
structure SameSettings (session other : Session m) : Prop where
  statements : session.statements = other.statements
  bindings : ∀ name, session.bindings.get? name = other.bindings.get? name
  functions : session.functions = other.functions
  host : session.host = other.host
  order : session.order = other.order
  maxDepth : session.maxDepth = other.maxDepth

theorem SameSettings.refl (session : Session m) : session.SameSettings session :=
  ⟨rfl, fun _ => rfl, rfl, rfl, rfl, rfl⟩

variable [Monad m] [LawfulMonad m]

theorem SameSettings.alike (same : session.SameSettings other) {values values' : VariableTable}
    (agree : ∀ name, values.get? name = values'.get? name) (previous : Float) :
    (Simulation.equality m).Alike (fun _ => True) Eq (session.scope ⟨values, previous⟩)
      (other.scope ⟨values', previous⟩) where
  maxDepth := same.maxDepth
  answers := by
    intro call call' name _ calls arguments level
    refine (Simulation.equality m).answer_of_asks same.order ?_ ?_ ?_
    · refine (Simulation.equality m).askDeclared (agree name) fun _ => ?_
      rw [scope, scope, same.functions]
      exact .refl _ fun declaration _ => calls declaration declaration arguments level rfl
    · exact congrArg (fun host : Host m => ExceptT.lift (Host.ask host.callbacks name arguments))
        same.host
    · exact congrArg (fun host : Host m => Builtin.call host.random name arguments) same.host
  bodies := by
    rintro parent parent' declaration _ parents rfl arguments level
    have limits : (session.scope ⟨values, previous⟩).maxDepth =
        (other.scope ⟨values', previous⟩).maxDepth := same.maxDepth
    exact (Simulation.equality m).callIn limits rfl declaration
      (fun name _ _ => parents name trivial) arguments level

theorem SameSettings.pass (same : session.SameSettings other) : session.pass = other.pass := by
  have invariant : (Simulation.equality m).Invariant session other
      fun values values' => ∀ name, values.get? name = values'.get? name := by
    refine ⟨same.maxDepth, ?assigns, ?answers⟩
    case assigns => exact fun value _ agree name => VariableTable.get?_set_congr (agree name)
    case answers =>
      exact fun previous _ _ agree => (same.alike agree previous).resolve _ trivial
  exact invariant.pass _ same.statements same.bindings

end Session

variable {σ : Type}

/-- A host without effects, beside a state that it does not look at. -/
def Host.steady (host : Host Id) : Host (StateM σ) where
  callbacks := host.callbacks.map fun callback name arguments => pure (callback name arguments)
  random := pure host.random

def Simulation.steady (σ : Type) : Simulation (StateM σ) Id where
  Rel x y := ∀ s, x.runFrom s = (y.run, s)
  pure _ _ := rfl
  throw _ _ := rfl
  bind := by
    intro α β x y f g first later s
    rw [Outcome.runFrom_bind, ExceptT.run_bind, first s]
    cases y.run with
    | error failure => rfl
    | ok a => exact later a s

namespace Session

def hostedBy {m n : Type → Type} (session : Session m) (host : Host n) : Session n :=
  { session with host }

theorem runFrom_pass_of_steady {session : Session (StateM σ)} {host : Host Id}
    (steady : session.host = host.steady) (s : σ) :
    session.pass.runFrom s = ((session.hostedBy host).pass.run, s) := by
  have scopes (progress : Progress) : (Simulation.steady σ).Scopes (session.scope progress)
      ((session.hostedBy host).scope progress) := by
    refine ⟨rfl, rfl, rfl, rfl, ?callbacks, ?random⟩
    case callbacks =>
      rw [scope, steady, Host.steady, List.forall₂_map_left_iff]
      exact List.forall₂_same.mpr fun _ _ _ _ _ => rfl
    case random =>
      rw [scope, steady]
      exact fun _ => rfl
  have reads := (Simulation.steady σ).reads session.maxDepth
  have related : (Simulation.steady σ).Rel (session.passThrough Scope.resolve)
      ((session.hostedBy host).passThrough Scope.resolve) := by
    refine Simulation.passThrough _ session (session.hostedBy host) rfl rfl reads
      fun progress name arguments level under => ?_
    exact Simulation.resolve _ (scopes progress) reads (Nat.le_refl _) under name arguments
  exact related s

end Session

end Reckon
