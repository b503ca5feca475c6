import Reckon.Proofs.FunctionTable
import Reckon.Proofs.Scope.Calls
import Reckon.Proofs.Session.Run
import Reckon.Proofs.VariableTable

/-!
Definitions that nothing mentions. Only names that stand in a formula or in the body of a function
are ever asked for. So two sessions that agree on every other name have the same passes, and it
makes no difference to add a binding, a function source or a callback for a name without mentions,
not even a source that cannot be read.
-/

namespace Reckon

theorem Host.ask_insert {m : Type → Type} [Monad m] [LawfulMonad m]
    {before after : List (Callback m)} {callback : Callback m} {name : String}
    {arguments : List Float} (passes : callback name arguments = pure none) :
    Host.ask (before ++ callback :: after) name arguments =
      Host.ask (before ++ after) name arguments := by
  induction before with
  | nil => simp [Host.ask, passes]
  | cons first before ih => simp [Host.ask, ih]

namespace Session

section

variable {m : Type → Type}

/-- A formula of a statement or the body of a function mentions the name. -/
def Mentions (session : Session m) (name : String) : Prop :=
  (∃ target formula, session.States target formula ∧ Scanner.Mentions formula name) ∨
    ∃ source ∈ session.functions.sources, ∃ declaration,
      Declaration.read source = .ok declaration ∧ Scanner.Mentions declaration.body name

def Visible (hidden name : String) : Prop :=
  Text.normalName name = name ∧ name ≠ hidden

/-- Sessions that differ in what they know of one name at most. -/
structure AgreeOff [Monad m] (hidden : String) (session session' : Session m) : Prop where
  statements : session.statements = session'.statements
  bindings : ∀ name, Visible hidden name → session.bindings.get? name = session'.bindings.get? name
  functions : ∀ name, Visible hidden name →
    session.functions.find? name = session'.functions.find? name
  callbacks : ∀ name, Visible hidden name → ∀ arguments,
    Host.ask session.host.callbacks name arguments = Host.ask session'.host.callbacks name arguments
  random : session.host.random = session'.host.random
  order : session.order = session'.order
  maxDepth : session.maxDepth = session'.maxDepth

variable {session : Session m} {name hidden : String}

theorem visible_of_formula {target : Option String} {formula : String}
    (unmentioned : ¬ session.Mentions hidden) (states : session.States target formula)
    (mentioned : Scanner.Mentions formula name) : Visible hidden name := by
  refine ⟨mentioned.normalName_eq, ?_⟩
  rintro rfl
  exact unmentioned (.inl ⟨target, formula, states, mentioned⟩)

theorem not_mentions_of_find? {declaration : Declaration} (unmentioned : ¬ session.Mentions hidden)
    (found : session.functions.find? name = .ok (some declaration)) :
    ¬ Scanner.Mentions declaration.body hidden := by
  obtain ⟨source, mem, -, read⟩ := FunctionTable.exists_source_of_find? found
  exact fun mentioned => unmentioned (.inr ⟨source, mem, declaration, read, mentioned⟩)

end

variable {m : Type → Type} [Monad m] {session session' : Session m} {name hidden : String}

section

variable (session name)

theorem agreeOff_setVariable (value : Float) :
    AgreeOff (Text.normalName name) session (session.setVariable name value) where
  statements := by simp only [setVariable]
  bindings := by
    intro other ⟨normal, different⟩
    have apart : Text.normalName other ≠ Text.normalName name := by rwa [normal]
    simp only [setVariable]
    exact (VariableTable.get?_set_other apart).symm
  functions := by simp only [setVariable, implies_true]
  callbacks := by simp only [setVariable, implies_true]
  random := by simp only [setVariable]
  order := by simp only [setVariable]
  maxDepth := by simp only [setVariable]

theorem agreeOff_function {source : String} {before after : List String}
    (sources : session.functions.sources = before ++ after)
    (declared : FunctionTable.declaredName source = Text.normalName name) :
    AgreeOff (Text.normalName name) session
      { session with functions := ⟨before ++ source :: after⟩ } where
  statements := rfl
  bindings _ _ := rfl
  functions := by
    intro other ⟨normal, different⟩
    have table : session.functions = ⟨before ++ after⟩ := congrArg FunctionTable.mk sources
    rw [table, FunctionTable.find?_insert]
    rw [declared, normal]
    exact different.symm
  callbacks _ _ _ := rfl
  random := rfl
  order := rfl
  maxDepth := rfl

theorem agreeOff_callback [LawfulMonad m] {callback : Callback m} {before after : List (Callback m)}
    (callbacks : session.host.callbacks = before ++ after)
    (passes : ∀ other, Text.normalName other ≠ Text.normalName name → ∀ arguments,
      callback other arguments = pure none) :
    AgreeOff (Text.normalName name) session
      { session with host := { session.host with callbacks := before ++ callback :: after } } where
  statements := rfl
  bindings _ _ := rfl
  functions _ _ := rfl
  callbacks := by
    intro other ⟨normal, different⟩ arguments
    rw [callbacks, Host.ask_insert]
    exact passes other (by rwa [normal]) arguments
  random := rfl
  order := rfl
  maxDepth := rfl

end

variable [LawfulMonad m]

theorem AgreeOff.alike (agree : AgreeOff hidden session session')
    (unmentioned : ¬ session.Mentions hidden) {values values' : VariableTable} {previous : Float}
    (same : ∀ name, Visible hidden name → values.get? name = values'.get? name) :
    (Simulation.equality m).Alike (Visible hidden)
      (fun declaration declaration' => declaration = declaration' ∧
        ¬ Scanner.Mentions declaration.body hidden)
      (session.scope ⟨values, previous⟩) (session'.scope ⟨values', previous⟩) where
  maxDepth := agree.maxDepth
  answers := by
    intro call call' name visible calls arguments level
    refine (Simulation.equality m).answer_of_asks agree.order ?_ ?_ ?_
    · refine (Simulation.equality m).askDeclared (same name visible) fun _ => ?_
      have found := agree.functions name visible
      unfold Session.scope
      dsimp only
      rw [← found]
      refine .refl _ fun declaration found => ?_
      exact calls declaration declaration arguments level
        ⟨rfl, not_mentions_of_find? unmentioned found⟩
    · exact congrArg ExceptT.lift (agree.callbacks name visible arguments)
    · exact congrArg (Builtin.call · name arguments) agree.random
  bodies := by
    rintro parent parent' declaration _ parents ⟨rfl, unmentioned⟩ arguments level
    have maxDepth : (session.scope ⟨values, previous⟩).maxDepth =
        (session'.scope ⟨values', previous⟩).maxDepth := agree.maxDepth
    refine (Simulation.equality m).callIn maxDepth rfl declaration
      (fun name mentioned _ => parents name ⟨mentioned.normalName_eq, ?_⟩) arguments level
    rintro rfl
    exact unmentioned mentioned

theorem AgreeOff.pass_eq (agree : AgreeOff hidden session session')
    (unmentioned : ¬ session.Mentions hidden) : session.pass = session'.pass := by
  have invariant : (Simulation.equality m).Invariant session session'
      fun values values' => ∀ name, Visible hidden name → values.get? name = values'.get? name := by
    refine ⟨agree.maxDepth, ?assigns, ?answers⟩
    case assigns =>
      intro values values' target formula value _ same name visible
      exact VariableTable.get?_set_congr (same name visible)
    case answers =>
      intro values values' target formula name previous states mentioned same arguments level
      have visible := visible_of_formula unmentioned states mentioned
      exact (agree.alike unmentioned same).resolve _ visible arguments level
  exact invariant.pass _ agree.statements agree.bindings

/-- A binding, a function source or a callback for a name without mentions is inert, wherever it
comes in. -/
theorem unmentioned_inert (session : Session m) {name : String}
    (unmentioned : ¬ session.Mentions (Text.normalName name)) :
    (∀ value, (session.setVariable name value).pass = session.pass) ∧
    (∀ before after source, session.functions.sources = before ++ after →
      FunctionTable.declaredName source = Text.normalName name →
        { session with functions := ⟨before ++ source :: after⟩ }.pass = session.pass) ∧
    ∀ (before after : List (Callback m)) (callback : Callback m),
      session.host.callbacks = before ++ after →
        (∀ other, Text.normalName other ≠ Text.normalName name → ∀ arguments,
          callback other arguments = pure none) →
        { session with
          host := { session.host with callbacks := before ++ callback :: after } }.pass =
          session.pass := by
  refine ⟨fun value => ?_, fun before after source sources declared => ?_,
    fun before after callback callbacks passes => ?_⟩
  · exact ((session.agreeOff_setVariable name value).pass_eq unmentioned).symm
  · exact ((session.agreeOff_function name sources declared).pass_eq unmentioned).symm
  · exact ((session.agreeOff_callback name callbacks passes).pass_eq unmentioned).symm

def scaling : Session Id :=
  (((start (pure 0)).setVariable "x" 2).addFunctions (.text "f(a)=a*x")).setText
    (.text "y: f(3); y+_")

theorem unmentioned_inert_of_scaling : ¬ scaling.Mentions (Text.normalName "Rate") ∧
    (scaling.setVariable "Rate" 5).pass = scaling.pass ∧
    { scaling with functions := ⟨["rate(", "f(a)=a*x"]⟩ }.pass = scaling.pass ∧
    { scaling with host := { scaling.host with
      callbacks := [fun name _ => return if name = "rate" then some 7 else none] } }.pass =
        scaling.pass := by
  have unmentioned : ¬ scaling.Mentions (Text.normalName "Rate") := by
    rintro (⟨target, formula, ⟨statement, mem, read⟩, mentioned⟩ |
      ⟨source, mem, declaration, read, mentioned⟩)
    · have formulas : ∀ statement ∈ scaling.statements,
          ∀ stated ∈ (Statement.read statement).toOption,
            ¬ Scanner.Mentions stated.2 (Text.normalName "Rate") := by decide +kernel
      exact formulas statement mem ⟨target, formula⟩ (by rw [read]; rfl) mentioned
    · have bodies : ∀ source ∈ scaling.functions.sources,
          ∀ declaration ∈ (Declaration.read source).toOption,
            ¬ Scanner.Mentions declaration.body (Text.normalName "Rate") := by decide +kernel
      exact bodies source mem declaration (by rw [read]; rfl) mentioned
  have normal : Text.normalName "rate" = Text.normalName "Rate" := by decide +kernel
  obtain ⟨binding, function, callback⟩ := unmentioned_inert scaling unmentioned
  refine ⟨unmentioned, binding 5,
    function [] ["f(a)=a*x"] "rate(" (by decide +kernel) (by decide +kernel),
    callback [] [] _ rfl fun other apart arguments => ?_⟩
  have passes : other ≠ "rate" := by
    rintro rfl
    exact apart normal
  rw [if_neg passes]

end Session

end Reckon
