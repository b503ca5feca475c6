import Reckon.Proofs.Evaluation.Simulation
import Reckon.Scope

/-!
Who answers a name, with the call of a declared function left open. Two scopes that hold the same
definitions answer in related ways when their hosts do, and when they call the declared functions
in related ways. Calling a function and running a statement both read a text as a tree and go on
with it, so related readings are treated once for both.
-/

namespace Reckon

abbrev Calling (m : Type → Type) :=
  Declaration → List Float → Nat → Outcome m Float

def Outcome.reading {m : Type → Type} [Monad m] {α : Type} (maxDepth level : Nat) (text : String)
    (next : Node → Outcome m α) : Outcome m α :=
  match Tree.read maxDepth level text with
  | .error error => throw (.read error)
  | .ok tree => next tree

namespace Declaration

variable {m : Type → Type} [Monad m] {declaration : Declaration} {arguments : List Float}
variable {site : Site}

theorem call_eq (length : arguments.length = declaration.parameters.length) (parent : Resolver m) :
    declaration.call arguments parent site =
      Outcome.reading site.maxDepth (site.level + callCost) declaration.body
        (Evaluation.evaluate ⟨declaration.frame arguments parent, site.previous⟩
          (site.level + callCost)) := by
  rw [call, if_neg (not_not.mpr length)]
  rfl

theorem call_of_length_ne (length : arguments.length ≠ declaration.parameters.length)
    (parent : Resolver m) : declaration.call arguments parent site = throw
      (.arity declaration.name (.parameters declaration.parameters.length) arguments.length) :=
  if_pos length

end Declaration

namespace Scope

variable {m : Type → Type} [Monad m] (scope : Scope m)

def compute (previous : Float) (maxDepth : Nat) (formula : String) : Outcome m Float :=
  Outcome.reading maxDepth 0 formula (Evaluation.evaluate ⟨scope.resolve, previous⟩ 0)

def askDeclared (call : Calling m) : Resolver m := fun name arguments level =>
  match scope.values.get? name with
  | some value => return some value
  | none => do
    match ← Outcome.ofExcept (scope.functions.find? name) with
    | some declaration => return some (← call declaration arguments level)
    | none => return none

def answerBy (call : Calling m) : Resolver m :=
  firstOf (match scope.order with
    | .internalFirst => [scope.askDeclared call, scope.askHost, scope.askBuiltin]
    | .hostFirst => [scope.askHost, scope.askDeclared call, scope.askBuiltin])

def callIn (parent : Resolver m) : Calling m := fun declaration arguments level =>
  declaration.call arguments parent ⟨scope.previous, scope.maxDepth, level⟩

theorem answer_eq (parent : Resolver m) :
    scope.answer parent = scope.answerBy (scope.callIn parent) :=
  rfl

/-- Two searches for a function: both fail alike, find nothing, or find related declarations. -/
inductive Finds (related : Declaration → Declaration → Prop) :
    Except Failure (Option Declaration) → Except Failure (Option Declaration) → Prop
  | fails (failure : Failure) : Finds related (.error failure) (.error failure)
  | nothing : Finds related (.ok none) (.ok none)
  | found {declaration declaration' : Declaration} : related declaration declaration' →
    Finds related (.ok (some declaration)) (.ok (some declaration'))

theorem Finds.refl {related : Declaration → Declaration → Prop}
    (search : Except Failure (Option Declaration))
    (self : ∀ declaration, search = .ok (some declaration) → related declaration declaration) :
    Finds related search search := by
  match search with
  | .error failure => exact .fails failure
  | .ok none => exact .nothing
  | .ok (some declaration) => exact .found (self declaration rfl)

theorem Finds.mono {related related' : Declaration → Declaration → Prop}
    {search search' : Except Failure (Option Declaration)} (finds : Finds related search search')
    (wider : ∀ declaration declaration', related declaration declaration' →
      related' declaration declaration') : Finds related' search search' := by
  cases finds with
  | fails failure => exact .fails failure
  | nothing => exact .nothing
  | found both => exact .found (wider _ _ both)

end Scope

namespace Simulation

variable {m n : Type → Type} [Monad m] [Monad n] (sim : Simulation m n) {α : Type}

/-- Going on from a text read under one limit is related to going on from it under another, when
what follows the tree is. -/
def Reads (limit limit' : Nat) : Prop :=
  ∀ (α : Type) (level : Nat) (text : String) (f : Node → Outcome m α) (g : Node → Outcome n α),
    (∀ tree, Tree.read limit level text = .ok tree → sim.Rel (f tree) (g tree)) →
      sim.Rel (Outcome.reading limit level text f) (Outcome.reading limit' level text g)

theorem reads (limit : Nat) : sim.Reads limit limit := by
  intro α level text f g trees
  unfold Outcome.reading
  cases read : Tree.read limit level text with
  | error error => exact sim.throw _
  | ok tree => exact trees tree read

/-- Scopes that hold the same definitions, with hosts that do related things. -/
structure Scopes (scope : Scope m) (scope' : Scope n) : Prop where
  values : scope.values = scope'.values
  functions : scope.functions = scope'.functions
  order : scope.order = scope'.order
  previous : scope.previous = scope'.previous
  callbacks : List.Forall₂ (fun callback callback' => ∀ name arguments,
    sim.Rel (ExceptT.lift (callback name arguments)) (ExceptT.lift (callback' name arguments)))
    scope.host.callbacks scope'.host.callbacks
  random : sim.Rel (ExceptT.lift scope.host.random) (ExceptT.lift scope'.host.random)

theorem scopes {sim : Simulation m m} (refl : ∀ {α : Type} (x : Outcome m α), sim.Rel x x)
    {scope scope' : Scope m} (values : scope.values = scope'.values)
    (functions : scope.functions = scope'.functions) (order : scope.order = scope'.order)
    (previous : scope.previous = scope'.previous) (host : scope.host = scope'.host) :
    sim.Scopes scope scope' where
  values := values
  functions := functions
  order := order
  previous := previous
  callbacks := host ▸ List.forall₂_same.mpr fun _ _ _ _ => refl _
  random := host ▸ refl _

theorem firstOf {name : String} {arguments : List Float} {level : Nat}
    {resolvers : List (Resolver m)} {resolvers' : List (Resolver n)}
    (each : List.Forall₂ (fun resolve resolve' =>
      sim.Rel (resolve name arguments level) (resolve' name arguments level))
      resolvers resolvers') :
    sim.Rel (Scope.firstOf resolvers name arguments level)
      (Scope.firstOf resolvers' name arguments level) := by
  induction each with
  | nil => exact sim.pure none
  | cons first _ ih =>
    refine sim.bind first fun answer => ?_
    cases answer with
    | none => exact ih
    | some value => exact sim.pure _

variable {scope : Scope m} {scope' : Scope n} {call : Calling m} {call' : Calling n}
variable {name : String} {arguments : List Float} {level : Nat}

theorem answer_of_asks (order : scope.order = scope'.order)
    (declared : sim.Rel (scope.askDeclared call name arguments level)
      (scope'.askDeclared call' name arguments level))
    (host : sim.Rel (scope.askHost name arguments level) (scope'.askHost name arguments level))
    (builtin : sim.Rel (scope.askBuiltin name arguments level)
      (scope'.askBuiltin name arguments level)) :
    sim.Rel (scope.answerBy call name arguments level)
      (scope'.answerBy call' name arguments level) := by
  unfold Scope.answerBy
  rw [← order]
  refine sim.firstOf ?_
  cases scope.order with
  | internalFirst => exact .cons declared (.cons host (.cons builtin .nil))
  | hostFirst => exact .cons host (.cons declared (.cons builtin .nil))

variable [LawfulMonad m] [LawfulMonad n]

theorem ask {callbacks : List (Callback m)} {callbacks' : List (Callback n)} {name : String}
    {arguments : List Float}
    (each : List.Forall₂ (fun callback callback' =>
      sim.Rel (ExceptT.lift (callback name arguments)) (ExceptT.lift (callback' name arguments)))
      callbacks callbacks') :
    sim.Rel (ExceptT.lift (Host.ask callbacks name arguments))
      (ExceptT.lift (Host.ask callbacks' name arguments)) := by
  induction each with
  | nil =>
    rw [Host.ask, Host.ask, Outcome.lift_pure, Outcome.lift_pure]
    exact sim.pure none
  | cons first _ ih =>
    rw [Host.ask, Host.ask, Outcome.lift_bind, Outcome.lift_bind]
    refine sim.bind first fun answer => ?_
    cases answer with
    | none => exact ih
    | some value =>
      rw [Outcome.lift_pure, Outcome.lift_pure]
      exact sim.pure (some value)

theorem builtin {random : m Float} {random' : n Float}
    (drawn : sim.Rel (ExceptT.lift random) (ExceptT.lift random')) (name : String)
    (arguments : List Float) :
    sim.Rel (Builtin.call random name arguments) (Builtin.call random' name arguments) := by
  unfold Builtin.call
  split
  · split
    · have drawing := sim.bind drawn fun x => sim.pure (some x)
      rwa [← Outcome.lift_some random, ← Outcome.lift_some random'] at drawing
    · exact sim.throw _
  · exact sim.ofExcept _

theorem askDeclared (values : scope.values.get? name = scope'.values.get? name)
    (finds : scope.values.get? name = none →
      Scope.Finds (fun declaration declaration' =>
        sim.Rel (call declaration arguments level) (call' declaration' arguments level))
        (scope.functions.find? name) (scope'.functions.find? name)) :
    sim.Rel (scope.askDeclared call name arguments level)
      (scope'.askDeclared call' name arguments level) := by
  unfold Scope.askDeclared
  rw [← values]
  generalize scope.functions.find? name = search, scope'.functions.find? name = search' at finds
  cases hidden : scope.values.get? name with
  | some value => exact sim.pure (some value)
  | none =>
    cases finds hidden with
    | fails failure =>
      rw [Outcome.ofExcept_error, Outcome.ofExcept_error, Outcome.throw_bind, Outcome.throw_bind]
      exact sim.throw failure
    | nothing => simpa using sim.pure none
    | found called => simpa using sim.bind called fun value => sim.pure (some value)

theorem answerBy (scopes : sim.Scopes scope scope')
    (calls : ∀ declaration, scope.values.get? name = none →
      scope.functions.find? name = .ok (some declaration) →
        sim.Rel (call declaration arguments level) (call' declaration arguments level)) :
    sim.Rel (scope.answerBy call name arguments level)
      (scope'.answerBy call' name arguments level) := by
  have asked := scopes.callbacks.imp fun _ _ each => each name arguments
  refine sim.answer_of_asks scopes.order ?_ (sim.ask asked) (sim.builtin scopes.random name arguments)
  refine sim.askDeclared (by rw [scopes.values]) fun hidden => ?_
  rw [← scopes.functions]
  exact .refl _ fun declaration found => calls declaration hidden found

end Simulation

end Reckon
