import Reckon.Proofs.FunctionTable
import Reckon.Proofs.Scope.Calls
import Reckon.Proofs.Session.Run
import Reckon.Proofs.VariableTable

/-!
The order of the host and the session's own definitions. The order says who is asked first, so it
can matter for a name only that both sides answer. If no callback answers a name that is bound,
assigned to or declared, then of any two resolvers whose places are swapped one always passes the
question on, in formulas and in the bodies of functions alike.
-/

namespace Reckon

theorem Host.ask_of_passes {m : Type → Type} [Monad m] [LawfulMonad m]
    {callbacks : List (Callback m)} {name : String} {arguments : List Float}
    (passes : ∀ callback ∈ callbacks, callback name arguments = pure none) :
    Host.ask callbacks name arguments = pure none := by
  induction callbacks with
  | nil => rfl
  | cons callback callbacks ih =>
    rw [List.forall_mem_cons] at passes
    simp [Host.ask, passes.1, ih passes.2]

namespace Scope

variable {m : Type → Type} [Monad m] [LawfulMonad m] {scope : Scope m} {name : String}
variable {arguments : List Float} {level : Nat}

theorem firstOf_passes {resolver : Resolver m} {resolvers : List (Resolver m)}
    (passes : resolver name arguments level = pure none) :
    firstOf (resolver :: resolvers) name arguments level = firstOf resolvers name arguments level := by
  simp [firstOf, passes]

theorem firstOf_second_passes {first second : Resolver m} {resolvers : List (Resolver m)}
    (passes : second name arguments level = pure none) :
    firstOf (first :: second :: resolvers) name arguments level =
      firstOf (first :: resolvers) name arguments level := by
  simp only [firstOf, passes, pure_bind]

theorem firstOf_swap {first second : Resolver m} {resolvers : List (Resolver m)}
    (passes : second name arguments level = pure none) :
    firstOf (first :: second :: resolvers) name arguments level =
      firstOf (second :: first :: resolvers) name arguments level := by
  rw [firstOf_second_passes passes, firstOf_passes passes]

theorem askHost_of_passes
    (passes : ∀ callback ∈ scope.host.callbacks, callback name arguments = pure none) :
    scope.askHost name arguments level = pure none := by
  rw [askHost, Host.ask_of_passes passes, Outcome.lift_pure]

theorem askDeclared_of_absent {call : Calling m} (free : scope.values.get? name = none)
    (absent : ∀ source ∈ scope.functions.sources,
      FunctionTable.declaredName source ≠ Text.normalName name) :
    scope.askDeclared call name arguments level = pure none := by
  rw [askDeclared, free, FunctionTable.find?_of_absent absent]
  simp

end Scope

namespace Session

section

variable {m : Type → Type} (session : Session m)

/-- The name is bound by the host, assigned to by a statement, or declared by a function source. -/
def Defines (name : String) : Prop :=
  session.bindings.get? name ≠ none ∨
    (∃ formula, session.States (some name) formula) ∨
      ∃ source ∈ session.functions.sources, FunctionTable.declaredName source = name

/-- No callback answers a name that the session defines. -/
def HostPasses [Monad m] : Prop :=
  ∀ callback ∈ session.host.callbacks, ∀ name, Text.normalName name = name →
    session.Defines name → ∀ arguments, callback name arguments = pure none

def Covers (values : VariableTable) : Prop :=
  ∀ name, Text.normalName name = name → values.get? name ≠ none → session.Defines name

variable {session}

theorem covers_bindings : session.Covers session.bindings :=
  fun _ _ bound => .inl bound

theorem normalName_of_states {target formula : String}
    (states : session.States (some target) formula) : Text.normalName target = target := by
  obtain ⟨statement, -, read⟩ := states
  unfold Statement.read at read
  split at read
  · simp at read
  · split at read
    · contradiction
    · next scanned =>
      have formed := (Scanner.tokens_eq_ok_iff.mp scanned).wellFormed (List.mem_singleton_self _)
      obtain ⟨rfl, rfl⟩ := by simpa using read
      exact formed.normalName_lowercase
    · contradiction

theorem Covers.set {values : VariableTable} {target formula : String} (covers : session.Covers values)
    (value : Float) (states : session.States (some target) formula) :
    session.Covers (values.set target value) := by
  intro name normal bound
  rcases VariableTable.get?_set_ne_none bound with same | before
  · rw [normal, normalName_of_states states] at same
    exact .inr (.inl ⟨formula, same ▸ states⟩)
  · exact covers name normal before

end

variable {m : Type → Type} [Monad m] [LawfulMonad m] (session : Session m)

theorem answerBy_order (passes : session.HostPasses) {values : VariableTable}
    (covers : session.Covers values) (previous : Float) (call : Calling m) {name : String}
    (normal : Text.normalName name = name) (arguments : List Float) (level : Nat) :
    ((session.setOrder .hostFirst).scope ⟨values, previous⟩).answerBy call name arguments level =
      ((session.setOrder .internalFirst).scope ⟨values, previous⟩).answerBy call name arguments
        level := by
  by_cases defined : session.Defines name
  · have host : (session.scope ⟨values, previous⟩).askHost name arguments level = pure none :=
      Scope.askHost_of_passes fun callback mem => passes callback mem name normal defined arguments
    exact (Scope.firstOf_swap host).symm
  · have free : values.get? name = none := by
      by_contra bound
      exact defined (covers name normal bound)
    have absent : ∀ source ∈ session.functions.sources,
        FunctionTable.declaredName source ≠ Text.normalName name := by
      intro source mem declared
      exact defined (.inr (.inr ⟨source, mem, declared.trans normal⟩))
    have declared : (session.scope ⟨values, previous⟩).askDeclared call name arguments level =
        pure none := Scope.askDeclared_of_absent free absent
    exact Scope.firstOf_swap declared

theorem alike_order (passes : session.HostPasses) {values : VariableTable}
    (covers : session.Covers values) (previous : Float) :
    (Simulation.equality m).Alike (fun name => Text.normalName name = name) Eq
      ((session.setOrder .hostFirst).scope ⟨values, previous⟩)
      ((session.setOrder .internalFirst).scope ⟨values, previous⟩) where
  maxDepth := rfl
  answers := by
    intro call call' name normal calls arguments level
    have same : call = call' := by
      funext declaration arguments level
      exact calls declaration declaration arguments level rfl
    exact same ▸ session.answerBy_order passes covers previous call normal arguments level
  bodies := by
    rintro parent parent' declaration _ parents rfl arguments level
    exact (Simulation.equality m).callIn rfl rfl declaration
      (fun name mentioned _ => parents name mentioned.normalName_eq) arguments level

/-- The order matters only for names that both sides define. -/
theorem order_irrelevant (passes : session.HostPasses) :
    (session.setOrder .hostFirst).pass = (session.setOrder .internalFirst).pass := by
  have invariant : (Simulation.equality m).Invariant (session.setOrder .hostFirst)
      (session.setOrder .internalFirst)
      fun values values' => values = values' ∧ session.Covers values := by
    refine ⟨rfl, ?assigns, ?answers⟩
    case assigns =>
      rintro values _ target formula value states ⟨rfl, covers⟩
      exact ⟨rfl, covers.set value states⟩
    case answers =>
      rintro values _ target formula name previous states mentioned ⟨rfl, covers⟩ arguments level
      exact (session.alike_order passes covers previous).resolve _ mentioned.normalName_eq arguments
        level
  exact invariant.pass _ rfl ⟨rfl, covers_bindings⟩

def consulting : Session Id :=
  ((((start (pure 0)).setVariable "x" 2).addFunctions (.text "f(a)=a+rate")).addCallback
    fun name _ => return if name = "rate" then some 3 else none).setText (.text "y: f(x); y*rate")

theorem order_irrelevant_of_consulting : consulting.HostPasses ∧
    (consulting.setOrder .hostFirst).pass = (consulting.setOrder .internalFirst).pass := by
  have passes : consulting.HostPasses := by
    intro callback mem name _ defined arguments
    obtain rfl := List.mem_singleton.mp mem
    have other : name ≠ "rate" := by
      rintro rfl
      rcases defined with bound | ⟨formula, statement, mem, read⟩ | ⟨source, mem, declared⟩
      · exact bound (by decide +kernel)
      · have targets : ∀ statement ∈ consulting.statements,
            (Statement.read statement).map Prod.fst ≠ .ok (some "rate") := by decide +kernel
        exact targets statement mem (by rw [read]; rfl)
      · have names : ∀ source ∈ consulting.functions.sources,
            FunctionTable.declaredName source ≠ "rate" := by decide +kernel
        exact names source mem declared
    dsimp only
    rw [if_neg other]
  exact ⟨passes, order_irrelevant consulting passes⟩

end Session

end Reckon
