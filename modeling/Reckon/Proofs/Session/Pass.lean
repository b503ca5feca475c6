import Reckon.Proofs.Scope.Calls
import Reckon.Session

/-!
Passes with the resolver left open. Two passes over the same statements are related as soon as the
resolvers of their scopes are, at the levels under the limit.
-/

namespace Reckon

namespace Session

variable {m : Type → Type} [Monad m] (session : Session m)

def stepThrough (resolve : Scope m → Resolver m) (progress : Progress) (statement : String) :
    Outcome m Progress :=
  if Statement.isBlank statement then return progress
  else do
    let (target, formula) ← Outcome.ofExcept (Statement.read statement)
    Outcome.reading session.maxDepth 0 formula fun tree => do
      let value ←
        Evaluation.evaluate ⟨resolve (session.scope progress), progress.previous⟩ 0 tree
      match target with
      | some name => return ⟨progress.values.set name value, value⟩
      | none => return ⟨progress.values, value⟩

def passThrough (resolve : Scope m → Resolver m) : Outcome m Float := do
  let progress ← session.statements.foldlM (session.stepThrough resolve) ⟨session.bindings, 0⟩
  return progress.previous

def descending : Session m :=
  ((start (pure 0)).addFunctions (.text "f(x)=f(x-1)")).setText (.text "f(3)")

theorem passThrough_resolve : session.passThrough Scope.resolve = session.pass :=
  rfl

end Session

namespace Simulation

variable {m n : Type → Type} [Monad m] [Monad n] [LawfulMonad m] [LawfulMonad n]
variable (sim : Simulation m n) (session : Session m) (session' : Session n)

theorem stepThrough (reads : sim.Reads session.maxDepth session'.maxDepth)
    {resolve : Scope m → Resolver m} {resolve' : Scope n → Resolver n}
    (resolvers : ∀ progress name arguments level, level < session.maxDepth →
      sim.Rel (resolve (session.scope progress) name arguments level)
        (resolve' (session'.scope progress) name arguments level))
    (progress : Session.Progress) (statement : String) :
    sim.Rel (session.stepThrough resolve progress statement)
      (session'.stepThrough resolve' progress statement) := by
  unfold Session.stepThrough
  split
  · exact sim.pure progress
  · refine sim.bind (sim.ofExcept _) fun read => ?_
    refine reads _ _ _ _ _ fun tree found => ?_
    refine sim.bind ?_ fun value => ?_
    · refine sim.evaluate tree rfl fun l mem name arguments => ?_
      exact resolvers progress name arguments l (Tree.bounds_of_read found mem).2
    · split
      · exact sim.pure _
      · exact sim.pure _

theorem passThrough (statements : session.statements = session'.statements)
    (bindings : session.bindings = session'.bindings)
    (reads : sim.Reads session.maxDepth session'.maxDepth)
    {resolve : Scope m → Resolver m} {resolve' : Scope n → Resolver n}
    (resolvers : ∀ progress name arguments level, level < session.maxDepth →
      sim.Rel (resolve (session.scope progress) name arguments level)
        (resolve' (session'.scope progress) name arguments level)) :
    sim.Rel (session.passThrough resolve) (session'.passThrough resolve') := by
  unfold Session.passThrough
  rw [statements, bindings]
  refine sim.bind (sim.foldlM (sim.stepThrough _ _ reads resolvers) _ _) fun progress => ?_
  exact sim.pure _

end Simulation

end Reckon
