import Reckon.Proofs.Scanner.Names
import Reckon.Proofs.Scope.Answer
import Reckon.Proofs.Tree.Reading

/-!
Scopes that need not hold the same definitions. A formula asks for the names that its text mentions,
and the body of a function asks the scope for those of its names that are no parameters. So two
scopes answer some names in related ways as soon as a single answer to these names is related when
calls are, and the functions found under them ask for no others. The induction over the calls one
inside the other is made here, once for all such scopes.
-/

namespace Reckon

namespace Declaration

variable {m : Type → Type} [Monad m] {declaration : Declaration} {arguments applied : List Float}
variable {parent : Resolver m} {name : String} {level : Nat}

theorem lookup_eq_none (other : name ∉ declaration.parameters) :
    (declaration.parameters.zip arguments).lookup name = none := by
  rw [List.lookup_eq_none_iff]
  intro pair mem
  refine bne_iff_ne.mpr fun same => other ?_
  rw [same]
  exact (List.of_mem_zip mem).1

theorem not_mem_of_lookup (length : arguments.length = declaration.parameters.length)
    (absent : (declaration.parameters.zip arguments).lookup name = none) :
    name ∉ declaration.parameters := by
  have names : (declaration.parameters.zip arguments).map Prod.fst = declaration.parameters :=
    List.map_fst_zip (Nat.le_of_eq length.symm)
  intro mem
  rw [← names] at mem
  obtain ⟨pair, among, same⟩ := List.mem_map.mp mem
  exact bne_iff_ne.mp (List.lookup_eq_none_iff.mp absent pair among) same.symm

theorem frame_eq_parent (other : name ∉ declaration.parameters) :
    declaration.frame arguments parent name applied level = parent name applied level := by
  rw [frame, lookup_eq_none other]

end Declaration

namespace Simulation

variable {m n : Type → Type} [Monad m] [Monad n] (sim : Simulation m n)
variable {scope : Scope m} {scope' : Scope n}

/-- Scopes that answer some names in related ways, whatever related calls of functions do, and whose
related functions ask for these names only. -/
structure Alike (names : String → Prop) (related : Declaration → Declaration → Prop)
    (scope : Scope m) (scope' : Scope n) : Prop where
  maxDepth : scope.maxDepth = scope'.maxDepth
  answers : ∀ {call : Calling m} {call' : Calling n} {name : String}, names name →
    (∀ declaration declaration' arguments level, related declaration declaration' →
      sim.Rel (call declaration arguments level) (call' declaration' arguments level)) →
    ∀ arguments level, sim.Rel (scope.answerBy call name arguments level)
      (scope'.answerBy call' name arguments level)
  bodies : ∀ {parent : Resolver m} {parent' : Resolver n} {declaration declaration' : Declaration},
    (∀ name, names name → ∀ arguments level,
      sim.Rel (parent name arguments level) (parent' name arguments level)) →
    related declaration declaration' →
    ∀ arguments level, sim.Rel (scope.callIn parent declaration arguments level)
      (scope'.callIn parent' declaration' arguments level)

theorem Alike.resolver {names : String → Prop} {related : Declaration → Declaration → Prop}
    (alike : sim.Alike names related scope scope') (calls : Nat) {name : String}
    (among : names name) (arguments : List Float) (level : Nat) :
    sim.Rel (scope.resolver calls name arguments level)
      (scope'.resolver calls name arguments level) := by
  induction calls generalizing name arguments level with
  | zero => exact sim.pure none
  | succ calls ih =>
    refine alike.answers among (fun _ _ arguments level both => ?_) arguments level
    exact alike.bodies (fun name among => ih among) both arguments level

theorem Alike.resolve {names : String → Prop} {related : Declaration → Declaration → Prop}
    (alike : sim.Alike names related scope scope') {name : String} (among : names name)
    (arguments : List Float) (level : Nat) :
    sim.Rel (scope.resolve name arguments level) (scope'.resolve name arguments level) := by
  unfold Scope.resolve
  rw [← alike.maxDepth]
  exact alike.resolver sim _ among arguments level

theorem callIn_of_bodies {declaration declaration' : Declaration}
    (maxDepth : scope.maxDepth = scope'.maxDepth) (name : declaration.name = declaration'.name)
    (parameters : declaration.parameters = declaration'.parameters)
    {parent : Resolver m} {parent' : Resolver n}
    (parents : ∀ name, Scanner.Mentions declaration.body name → name ∉ declaration.parameters →
      ∀ arguments l, sim.Rel (parent name arguments l) (parent' name arguments l))
    (bodies : ∀ {resolve : Resolver m} {resolve' : Resolver n} {level : Nat},
      (∀ name, Scanner.Mentions declaration.body name → ∀ arguments l,
        sim.Rel (resolve name arguments l) (resolve' name arguments l)) →
      sim.Rel (Outcome.reading scope.maxDepth level declaration.body
          (Evaluation.evaluate ⟨resolve, scope.previous⟩ level))
        (Outcome.reading scope.maxDepth level declaration'.body
          (Evaluation.evaluate ⟨resolve', scope'.previous⟩ level)))
    (arguments : List Float) (level : Nat) :
    sim.Rel (scope.callIn parent declaration arguments level)
      (scope'.callIn parent' declaration' arguments level) := by
  unfold Scope.callIn
  by_cases length : arguments.length = declaration.parameters.length
  · have length' : arguments.length = declaration'.parameters.length := parameters ▸ length
    rw [Declaration.call_eq length, Declaration.call_eq length', ← maxDepth]
    refine bodies fun name mentioned applied l => ?_
    unfold Declaration.frame
    rw [← parameters]
    cases bound : (declaration.parameters.zip arguments).lookup name with
    | some value => exact sim.pure _
    | none =>
      exact parents name mentioned (Declaration.not_mem_of_lookup length bound) applied l
  · have length' : arguments.length ≠ declaration'.parameters.length := parameters ▸ length
    rw [Declaration.call_of_length_ne length, Declaration.call_of_length_ne length', parameters, name]
    exact sim.throw _

variable [LawfulMonad m] [LawfulMonad n]

theorem formula {env : Environment m} {env' : Environment n} {limit level : Nat} {text : String}
    (previous : env.previous = env'.previous)
    (resolvers : ∀ name, Scanner.Mentions text name → ∀ arguments l,
      sim.Rel (env.resolve name arguments l) (env'.resolve name arguments l)) :
    sim.Rel (Outcome.reading limit level text (Evaluation.evaluate env level))
      (Outcome.reading limit level text (Evaluation.evaluate env' level)) := by
  refine sim.reads limit _ _ _ _ _ fun tree found => ?_
  refine sim.evaluate_among tree previous fun inner mem named l _ arguments => ?_
  have among := Tree.mem_tokens_of_read found mem
  have normal := Scanner.normalName_of_mem_readAll among
  exact resolvers _ ⟨inner.token, among, named, normal.symm⟩ arguments l

theorem callIn (maxDepth : scope.maxDepth = scope'.maxDepth)
    (previous : scope.previous = scope'.previous) (declaration : Declaration)
    {parent : Resolver m} {parent' : Resolver n}
    (parents : ∀ name, Scanner.Mentions declaration.body name → name ∉ declaration.parameters →
      ∀ arguments l, sim.Rel (parent name arguments l) (parent' name arguments l))
    (arguments : List Float) (level : Nat) :
    sim.Rel (scope.callIn parent declaration arguments level)
      (scope'.callIn parent' declaration arguments level) :=
  sim.callIn_of_bodies maxDepth rfl rfl parents (fun resolvers => sim.formula previous resolvers)
    arguments level

end Simulation

end Reckon
