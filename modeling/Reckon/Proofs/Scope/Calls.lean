import Reckon.Proofs.Scope.Answer

/-!
Calls one inside the other. A called body stands `callCost` levels below the node that calls it, so
the levels of what it asks leave room for fewer and fewer further calls. As long as there is room,
it does not matter how many calls are provided for and what would answer beyond them. Each body
that begins and each question on its way to a frame or to the scope may be reported, together with
the number of bodies that are active.
-/

namespace Reckon

/-- A point that an evaluation passes while `active` function bodies are evaluated: the begin of
the last one of them, or a question to a resolver. -/
inductive Visit where
  | body (active level : Nat)
  | query (active level : Nat) (name : String) (arguments : List Float)

namespace Visit

def active : Visit → Nat
  | body active _ | query active .. => active

def level : Visit → Nat
  | body _ level | query _ level .. => level

def Bounded (limit : Nat) (visit : Visit) : Prop :=
  Declaration.callCost * visit.active ≤ visit.level ∧ visit.level < limit

end Visit

namespace Scope

variable {m : Type → Type} [Monad m]

def silent (_ : Visit) : Outcome m Unit :=
  return ()

def reporting (report : Visit → Outcome m Unit) (active : Nat) (resolve : Resolver m) :
    Resolver m := fun name arguments level => do
  report (.query active level name arguments)
  resolve name arguments level

variable (scope : Scope m)

def callThrough (report : Visit → Outcome m Unit) (active : Nat) (parent : Resolver m) :
    Calling m := fun declaration arguments level =>
  if arguments.length ≠ declaration.parameters.length then
    throw (.arity declaration.name (.parameters declaration.parameters.length) arguments.length)
  else
    let level := level + Declaration.callCost
    Outcome.reading scope.maxDepth level declaration.body fun tree => do
      report (.body active level)
      let frame := declaration.frame arguments (reporting report active parent)
      Evaluation.evaluate ⟨reporting report active frame, scope.previous⟩ level tree

/-- Answers for `active` bodies one inside the other, with room for `calls` more. -/
def resolverThrough (report : Visit → Outcome m Unit) (bottom : Resolver m) :
    (calls active : Nat) → Resolver m
  | 0, _ => bottom
  | calls + 1, active =>
    scope.answerBy
      (scope.callThrough report (active + 1) (resolverThrough report bottom calls (active + 1)))

theorem enough_calls (maxDepth level : Nat) :
    maxDepth ≤ level + Declaration.callCost * (maxDepth / Declaration.callCost + 1) :=
  Nat.le_add_left_of_le (Nat.le_of_lt (Nat.lt_mul_div_succ maxDepth (by decide)))

variable [LawfulMonad m]

@[simp] theorem reporting_silent (active : Nat) (resolve : Resolver m) :
    reporting silent active resolve = resolve := by
  funext name arguments level
  exact pure_bind () fun _ => resolve name arguments level

@[simp] theorem callThrough_silent (active : Nat) (parent : Resolver m) :
    scope.callThrough silent active parent = scope.callIn parent := by
  funext declaration arguments level
  unfold callThrough
  simp only [reporting_silent, silent, pure_bind]
  rfl

theorem resolverThrough_silent (calls active : Nat) :
    scope.resolverThrough silent (fun _ _ _ => return none) calls active =
      scope.resolver calls := by
  induction calls generalizing active with
  | zero => rfl
  | succ calls ih =>
    rw [resolverThrough, ih, callThrough_silent, ← answer_eq]
    rfl

end Scope

namespace Simulation

variable {m n : Type → Type} [Monad m] [Monad n] (sim : Simulation m n)
variable {scope : Scope m} {scope' : Scope n}

/-- Reporting a bounded visit on each side keeps related outcomes related. -/
def Reports (limit : Nat) (report : Visit → Outcome m Unit) (report' : Visit → Outcome n Unit) :
    Prop :=
  ∀ visit, visit.Bounded limit → ∀ (α : Type) (x : Outcome m α) (y : Outcome n α),
    sim.Rel x y → sim.Rel (report visit >>= fun _ => x) (report' visit >>= fun _ => y)

theorem reports_silent (limit : Nat) : sim.Reports limit Scope.silent Scope.silent :=
  fun _ _ _ _ _ related => sim.bind (sim.pure ()) fun _ => related

variable [LawfulMonad m] [LawfulMonad n] {report : Visit → Outcome m Unit}
variable {report' : Visit → Outcome n Unit} {active level : Nat}

theorem callThrough (scopes : sim.Scopes scope scope')
    (reads : sim.Reads scope.maxDepth scope'.maxDepth)
    (reports : sim.Reports scope.maxDepth report report')
    (deep : Declaration.callCost * active ≤ level + Declaration.callCost)
    {parent : Resolver m} {parent' : Resolver n}
    (parents : ∀ name arguments l, level + Declaration.callCost ≤ l → l < scope.maxDepth →
      sim.Rel (parent name arguments l) (parent' name arguments l))
    (declaration : Declaration) (arguments : List Float) :
    sim.Rel (scope.callThrough report active parent declaration arguments level)
      (scope'.callThrough report' active parent' declaration arguments level) := by
  unfold Scope.callThrough
  split
  · exact sim.throw _
  · refine reads _ _ _ _ _ fun tree read => ?_
    have root := Tree.bounds_of_read read (Node.mem_levels_self _ tree)
    have begins : (Visit.body active (level + Declaration.callCost)).Bounded scope.maxDepth :=
      ⟨deep, root.2⟩
    refine reports _ begins _ _ _ ?_
    refine sim.evaluate tree scopes.previous fun l mem name applied => ?_
    have bounds := Tree.bounds_of_read read mem
    have bounded : (Visit.query active l name applied).Bounded scope.maxDepth :=
      ⟨Nat.le_trans deep bounds.1, bounds.2⟩
    refine reports _ bounded _ _ _ ?_
    unfold Declaration.frame
    cases (declaration.parameters.zip arguments).lookup name with
    | some value => exact sim.pure _
    | none => exact reports _ bounded _ _ _ (parents name applied l bounds.1 bounds.2)

theorem resolverThrough (scopes : sim.Scopes scope scope')
    (reads : sim.Reads scope.maxDepth scope'.maxDepth)
    (reports : sim.Reports scope.maxDepth report report')
    (bottom : Resolver m) (bottom' : Resolver n) {calls calls' : Nat}
    (deep : Declaration.callCost * active ≤ level) (under : level < scope.maxDepth)
    (enough : scope.maxDepth ≤ level + Declaration.callCost * calls)
    (enough' : scope.maxDepth ≤ level + Declaration.callCost * calls')
    (name : String) (arguments : List Float) :
    sim.Rel (scope.resolverThrough report bottom calls active name arguments level)
      (scope'.resolverThrough report' bottom' calls' active name arguments level) := by
  induction calls generalizing calls' active level name arguments with
  | zero => omega
  | succ calls ih =>
    cases calls' with
    | zero => omega
    | succ calls' =>
      rw [Nat.mul_succ] at enough enough'
      have deeper : Declaration.callCost * (active + 1) ≤ level + Declaration.callCost := by
        rw [Nat.mul_succ]
        omega
      refine sim.answerBy scopes fun declaration _ _ => ?_
      refine sim.callThrough scopes reads reports deeper (fun name arguments l least under => ?_)
        declaration arguments
      exact ih (Nat.le_trans deeper least) under (by omega) (by omega) name arguments

theorem resolve (scopes : sim.Scopes scope scope')
    (reads : sim.Reads scope.maxDepth scope'.maxDepth) (le : scope.maxDepth ≤ scope'.maxDepth)
    (under : level < scope.maxDepth) (name : String) (arguments : List Float) :
    sim.Rel (scope.resolve name arguments level) (scope'.resolve name arguments level) := by
  have enough := Scope.enough_calls scope.maxDepth level
  have enough' := Scope.enough_calls scope'.maxDepth level
  unfold Scope.resolve
  rw [← Scope.resolverThrough_silent scope _ 0, ← Scope.resolverThrough_silent scope' _ 0]
  exact sim.resolverThrough scopes reads (sim.reports_silent _) _ _ (Nat.zero_le level) under enough
    (Nat.le_trans le enough') name arguments

def equality (m : Type → Type) [Monad m] : Simulation m m where
  Rel := Eq
  pure _ := rfl
  throw _ := rfl
  bind := by
    intro α β x y f g same each
    rw [same, funext each]

end Simulation

namespace Scope

variable {m : Type → Type} [Monad m] [LawfulMonad m] (scope : Scope m)

theorem resolve_eq (name : String) (arguments : List Float) (level : Nat) :
    scope.resolve name arguments level = scope.answer scope.resolve name arguments level := by
  let sim := Simulation.equality m
  let calls := scope.maxDepth / Declaration.callCost
  have scopes : sim.Scopes scope scope := sim.scopes (fun _ => rfl) rfl rfl rfl rfl rfl
  have room : scope.maxDepth < Declaration.callCost * calls + Declaration.callCost :=
    Nat.lt_mul_div_succ scope.maxDepth (by decide)
  have deeper : ∀ name arguments l, level + Declaration.callCost ≤ l → l < scope.maxDepth →
      scope.resolver calls name arguments l = scope.resolver (calls + 1) name arguments l := by
    intro name arguments l least under
    rw [← resolverThrough_silent scope calls 0, ← resolverThrough_silent scope (calls + 1) 0]
    exact sim.resolverThrough scopes (sim.reads _) (sim.reports_silent _) _ _ (Nat.zero_le l) under
      (by omega) (by rw [Nat.mul_succ]; omega) name arguments
  have answers : scope.answer (scope.resolver calls) name arguments level =
      scope.answer (scope.resolver (calls + 1)) name arguments level := by
    rw [answer_eq, answer_eq, ← callThrough_silent scope 0, ← callThrough_silent scope 0]
    refine sim.answerBy scopes fun declaration _ _ => ?_
    exact sim.callThrough scopes (sim.reads _) (sim.reports_silent _) (Nat.zero_le _) deeper
      declaration arguments
  exact answers

end Scope

end Reckon
