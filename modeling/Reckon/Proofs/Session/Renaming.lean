import Reckon.Proofs.Scope.Questions
import Reckon.Proofs.Scope.Renaming
import Reckon.Proofs.Session.Pass
import Reckon.Proofs.Session.Run

/-!
Functions are lexically scoped. The parameters of a function are seen by its own body and by nothing
else: neither by the functions that it calls, nor by the scope that calls it. So a parameter may be
renamed throughout its function without a difference to any pass, be it in the value, in the variant
of a failure, or in the questions that the host is asked.
-/

namespace Reckon

namespace FunctionTable

variable {before after : List String} {source source' : String}
variable {declaration declaration' : Declaration}

theorem finds_replaced (declared : declaredName source' = declaredName source)
    (read : Declaration.read source = .ok declaration)
    (read' : Declaration.read source' = .ok declaration') (name : String) :
    Scope.Finds (fun found found' => found = found' ∨ found = declaration ∧ found' = declaration')
      (find? ⟨before ++ source :: after⟩ name) (find? ⟨before ++ source' :: after⟩ name) := by
  simp only [find?, List.find?_append]
  cases before.find? (declaredName · = Text.normalName name) with
  | some earlier =>
    simp only [Option.some_or]
    exact .refl _ fun _ _ => .inl rfl
  | none =>
    by_cases here : declaredName source = Text.normalName name
    · have here' : declaredName source' = Text.normalName name := declared.trans here
      simp only [Option.none_or, List.find?_cons, here, here', decide_true, read, read', Except.map]
      exact .found (.inr ⟨rfl, rfl⟩)
    · have other : declaredName source' ≠ Text.normalName name := by rwa [declared]
      simp only [Option.none_or, List.find?_cons, here, other, decide_false]
      exact .refl _ fun _ _ => .inl rfl

end FunctionTable

namespace Session

variable {σ : Type} {f g : String → String} {before after : List String} {source : String}
variable {declaration : Declaration}

def noted (session : Session (StateM σ)) : Session (StateM (σ × List Question)) :=
  { session with host := session.host.noted }

theorem noted_pass (session : Session (StateM σ)) (s : σ) (questions : List Question) :
    ((session.noted.pass.runFrom (s, questions)).1, (session.noted.pass.runFrom (s, questions)).2.1) =
      session.pass.runFrom s := by
  let sim := Simulation.keeping σ
  have reads := sim.reads session.maxDepth
  have related : sim.Rel (session.passThrough Scope.resolve)
      (session.noted.passThrough Scope.resolve) := by
    refine sim.passThrough session session.noted rfl rfl reads
      fun progress name arguments level under => ?_
    exact sim.resolve (Simulation.keeping_scopes (session.scope progress)) reads (Nat.le_refl _) under
      name arguments
  exact related s questions

/-- Passes that ask the same questions and come to the same outcome come to it without keeping the
questions. -/
theorem sameUpTo_of_noted {ε : Type} {view : Failure → ε} {session session' : Session (StateM σ)}
    {s : σ} {questions : List Question}
    (same : Outcome.SameUpTo view (session.noted.pass.runFrom (s, questions))
      (session'.noted.pass.runFrom (s, questions))) :
    Outcome.SameUpTo view (session.pass.runFrom s) (session'.pass.runFrom s) := by
  rw [← noted_pass session s questions, ← noted_pass session' s questions]
  exact ⟨same.outcome, congrArg Prod.fst same.state⟩

def withSources (session : Session (StateM σ)) (sources : List String) : Session (StateM σ) :=
  { session with functions := ⟨sources⟩ }

section

variable (session : Session (StateM σ)) {source' : String} {declaration' : Declaration}

theorem alike_renamed (words : Token.Renaming f)
    (lower : ∀ text, Text.lowercase (f text) = g (Text.lowercase text))
    (sources : session.functions.sources = before ++ source :: after)
    (declared : FunctionTable.declaredName source' = FunctionTable.declaredName source)
    (read : Declaration.read source = .ok declaration)
    (read' : Declaration.read source' = .ok declaration')
    (renamed : declaration.Renamed f g declaration') (harmless : declaration.Harmless g)
    (progress : Progress) :
    (Simulation.upTo Failure.variant σ).Alike (fun name => Text.normalName name = name)
      (fun found found' => found = found' ∨ found = declaration ∧ found' = declaration')
      (session.scope progress)
      ((session.withSources (before ++ source' :: after)).scope progress) where
  maxDepth := rfl
  answers := by
    intro call call' name _ calls arguments level
    let sim := Simulation.upTo Failure.variant σ
    have table : session.functions = ⟨before ++ source :: after⟩ := congrArg FunctionTable.mk sources
    refine sim.answer_of_asks rfl (sim.askDeclared rfl fun _ => ?_) (Simulation.upTo_refl _)
      (Simulation.upTo_refl _)
    unfold Session.scope withSources
    dsimp only
    rw [table]
    refine (FunctionTable.finds_replaced declared read read' name).mono fun found found' both => ?_
    exact calls found found' arguments level both
  bodies := by
    rintro parent parent' found found' parents (rfl | ⟨rfl, rfl⟩) arguments level
    · exact (Simulation.upTo Failure.variant σ).callIn rfl rfl found
        (fun name mentioned _ => parents name mentioned.normalName_eq) arguments level
    · exact Simulation.callIn_renamed rfl rfl words lower renamed harmless
        (fun name mentioned _ => parents name mentioned.normalName_eq) arguments level

theorem pass_renamed (words : Token.Renaming f)
    (lower : ∀ text, Text.lowercase (f text) = g (Text.lowercase text))
    (sources : session.functions.sources = before ++ source :: after)
    (declared : FunctionTable.declaredName source' = FunctionTable.declaredName source)
    (read : Declaration.read source = .ok declaration)
    (read' : Declaration.read source' = .ok declaration')
    (renamed : declaration.Renamed f g declaration') (harmless : declaration.Harmless g) :
    (Simulation.upTo Failure.variant σ).Rel session.pass
      (session.withSources (before ++ source' :: after)).pass := by
  have invariant : (Simulation.upTo Failure.variant σ).Invariant session
      (session.withSources (before ++ source' :: after)) Eq := by
    refine ⟨rfl, ?assigns, ?answers⟩
    case assigns =>
      rintro values _ name formula value - rfl
      rfl
    case answers =>
      rintro values _ target formula name previous - mentioned rfl arguments level
      exact (session.alike_renamed words lower sources declared read read' renamed harmless
        ⟨values, previous⟩).resolve _ mentioned.normalName_eq arguments level
  exact invariant.pass _ rfl rfl

end

/-- A parameter may be renamed to any word that its function does not use. The renamed source
declares the renamed function, and every pass has the same outcome and asks the same questions. -/
theorem rename_parameter (session : Session (StateM σ)) {parameter word : String} {s : σ}
    (sources : session.functions.sources = before ++ source :: after)
    (read : Declaration.read source = .ok declaration)
    (mem : parameter ∈ declaration.parameters) (identifier : Token.WellFormed ⟨.identifier, word⟩)
    (fresh : Text.lowercase word ∉ declaration.parameters)
    (unused : ¬ Scanner.Mentions declaration.body (Text.lowercase word))
    (free : parameter ∉ ["true", "false"]) (free' : Text.lowercase word ∉ ["true", "false"]) :
    let source' := Declaration.renameParameter parameter word source
    let renamed := session.withSources (before ++ source' :: after)
    (∃ declaration', Declaration.read source' = .ok declaration' ∧
      declaration.Renamed (Declaration.respell parameter word) (Declaration.newName parameter word)
        declaration') ∧
      Outcome.SameUpTo Failure.variant (session.pass.runFrom s) (renamed.pass.runFrom s) ∧
      Outcome.SameUpTo Failure.variant (session.noted.pass.runFrom (s, []))
        (renamed.noted.pass.runFrom (s, [])) := by
  have words := Declaration.renaming_respell identifier parameter
  have lower := Declaration.lowercase_respell parameter word
  have apart : ∀ x ∈ declaration.parameters, ∀ y ∈ declaration.parameters,
      Declaration.newName parameter word x = Declaration.newName parameter word y → x = y :=
    fun x memX y memY => Declaration.newName_inj (fun same => fresh (same ▸ memX))
      fun same => fresh (same ▸ memY)
  have harmless := Declaration.harmless_newName mem fresh unused
    (Evaluation.literal?_eq_none free) (Evaluation.literal?_eq_none free')
  obtain ⟨⟨declaration', read', renamed⟩, declared⟩ :=
    Declaration.read_rename words lower read apart
  intro source' session'
  have questions :=
    session.noted.pass_renamed words lower sources declared read read' renamed harmless (s, [])
  exact ⟨⟨declaration', read', renamed⟩, sameUpTo_of_noted questions, questions⟩

def sharing : Session (StateM Nat) where
  statements := ["y: f(2, 3)", "a+y"]
  bindings := VariableTable.empty.set "a" 1
  functions := ⟨["g(a)=rate*a", "f(a, b)=A*g(b)-a"]⟩
  host := ⟨[fun name _ => do
    modify (· + 1)
    return if name = "rate" then some 3 else none], return 0⟩
  order := .internalFirst
  maxDepth := 256
  lastValue := 0

theorem rename_parameter_of_sharing :
    let renamed := sharing.withSources ["g(a)=rate*a", "f(Base, b)=Base*g(b)-Base"]
    Declaration.read "f(a, b)=A*g(b)-a" =
        .ok ⟨"f", ["a", "b"], "A*g(b)-a", "f(a, b)=A*g(b)-a"⟩ ∧
      Outcome.SameUpTo Failure.variant (sharing.pass.runFrom 0) (renamed.pass.runFrom 0) ∧
      Outcome.SameUpTo Failure.variant (sharing.noted.pass.runFrom (0, []))
        (renamed.noted.pass.runFrom (0, [])) := by
  have read : Declaration.read "f(a, b)=A*g(b)-a" =
      .ok ⟨"f", ["a", "b"], "A*g(b)-a", "f(a, b)=A*g(b)-a"⟩ := by decide +kernel
  have sources : sharing.functions.sources = ["g(a)=rate*a"] ++ "f(a, b)=A*g(b)-a" :: [] := rfl
  have identifier : Token.WellFormed ⟨.identifier, String.ofList ['B', 'a', 's', 'e']⟩ :=
    .identifier rfl (List.all_eq_true.mp rfl)
  have source : Declaration.renameParameter "a" "Base" "f(a, b)=A*g(b)-a" =
      "f(Base, b)=Base*g(b)-Base" := by decide +kernel
  obtain ⟨-, outcome, questions⟩ := rename_parameter sharing (s := 0) sources read
    List.mem_cons_self identifier (by decide +kernel) (by decide +kernel) (by decide)
    (by decide +kernel)
  rw [source] at outcome questions
  exact ⟨read, outcome, questions⟩

end Session

end Reckon
