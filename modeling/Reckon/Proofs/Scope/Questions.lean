import Reckon.Proofs.Scope.Calls

/-!
Questions to a host. A host may keep the questions that its callbacks are asked, in the order in
which they come, and answer as it does. A host without effects keeps nothing else; any other host
keeps them beside its own state, which makes no difference to what comes out of it.
-/

namespace Reckon

/-- A question to a callback, which has its place in the order of the host's callbacks. -/
structure Question where
  callback : Nat
  name : String
  arguments : List Float

def Callback.recorded (place : Nat) (callback : Callback Id) : Callback (StateM (List Question)) :=
  fun name arguments => do
    modify (· ++ [⟨place, name, arguments⟩])
    return callback name arguments

def Host.recorded (host : Host Id) : Host (StateM (List Question)) where
  callbacks := host.callbacks.mapIdx Callback.recorded
  random := pure host.random

variable {σ α : Type}

def besideQuestions (x : StateM σ α) : StateM (σ × List Question) α := fun (s, questions) =>
  let (a, s) := x.run s
  (a, s, questions)

/-- Answers as the callback does, and keeps the question. -/
def Callback.noted (place : Nat) (callback : Callback (StateM σ)) :
    Callback (StateM (σ × List Question)) := fun name arguments => do
  modify fun (s, questions) => (s, questions ++ [⟨place, name, arguments⟩])
  besideQuestions (callback name arguments)

def Host.noted (host : Host (StateM σ)) : Host (StateM (σ × List Question)) where
  callbacks := host.callbacks.mapIdx Callback.noted
  random := besideQuestions host.random

def Scope.noted (scope : Scope (StateM σ)) : Scope (StateM (σ × List Question)) :=
  { scope with host := scope.host.noted }

namespace Simulation

def keeping (σ : Type) : Simulation (StateM σ) (StateM (σ × List Question)) where
  Rel x y := ∀ s questions,
    ((y.runFrom (s, questions)).1, (y.runFrom (s, questions)).2.1) = x.runFrom s
  pure _ _ _ := rfl
  throw _ _ _ := rfl
  bind := by
    intro α β x y f g first later s questions
    rw [Outcome.runFrom_bind, Outcome.runFrom_bind, ← first s questions]
    cases y.runFrom (s, questions) with
    | mk outcome kept =>
      obtain ⟨s', questions'⟩ := kept
      cases outcome with
      | error failure => rfl
      | ok a => exact later a s' questions'

theorem keeping_scopes (scope : Scope (StateM σ)) : (keeping σ).Scopes scope scope.noted where
  values := rfl
  functions := rfl
  order := rfl
  previous := rfl
  callbacks := by
    refine List.forall₂_iff_get.mpr ⟨List.length_mapIdx.symm, fun place _ _ name arguments => ?_⟩
    simp only [Scope.noted, Host.noted, List.get_eq_getElem, List.getElem_mapIdx]
    exact fun _ _ => rfl
  random _ _ := rfl

end Simulation

end Reckon
