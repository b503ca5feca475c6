import Mathlib.Logic.Relation
import Reckon.Proofs.Evaluation.Strict
import Reckon.Proofs.FunctionTable
import Reckon.Proofs.Scope.Alike
import Reckon.Proofs.Scope.Calls

/-!
Recursive functions. A function refers to another one when its body mentions a name that only the
other one can answer. Evaluation is strict, so a call of the first needs a call of the second, at a
level further down; a function that reaches itself in this way needs levels without end, and under
the nesting limit every call of it fails.
-/

namespace Reckon

namespace Scope

open Outcome

variable {σ : Type} (scope : Scope (StateM σ))

def Declares (name : String) : Prop :=
  ∃ source ∈ scope.functions.sources, FunctionTable.declaredName source = Text.normalName name

/-- The declaration found under `caller` can be read, and its body mentions `callee`, which is a
declared name and is neither a parameter nor a variable nor a literal. -/
def Refers (caller callee : String) : Prop :=
  ∃ declaration, scope.functions.find? caller = .ok (some declaration) ∧
    (∃ token ∈ (Scanner.readAll declaration.body.toList).tokens,
      token.kind = .identifier ∧ Text.lowercase token.text = callee) ∧
    callee ∉ declaration.parameters ∧ scope.values.get? callee = none ∧
    callee ≠ "true" ∧ callee ≠ "false" ∧ scope.Declares callee

/-- No callback answers a declared name. -/
def HostPasses : Prop :=
  ∀ callback ∈ scope.host.callbacks, ∀ name arguments s, scope.Declares name →
    ((callback name arguments).run s).1 = none

theorem declares_of_refers {caller callee : String} (refers : scope.Refers caller callee) :
    scope.Declares caller := by
  obtain ⟨declaration, found, -⟩ := refers
  obtain ⟨source, mem, declared, -⟩ := FunctionTable.exists_source_of_find? found
  exact ⟨source, mem, declared⟩

variable {scope}

theorem ask_passes {callbacks : List (Callback (StateM σ))} {name : String} {arguments : List Float}
    (passes : ∀ callback ∈ callbacks, ∀ s, ((callback name arguments).run s).1 = none) (s : σ) :
    ((Host.ask callbacks name arguments).run s).1 = none := by
  induction callbacks generalizing s with
  | nil => rfl
  | cons callback callbacks ih =>
    rw [List.forall_mem_cons] at passes
    rw [Host.ask, StateT.run_bind]
    have first := passes.1 s
    cases ran : (callback name arguments).run s with
    | mk answer s' =>
      rw [ran] at first
      obtain rfl : answer = none := first
      exact ih passes.2 s'

theorem askHost_runFrom (name : String) (arguments : List Float) (level : Nat) (s : σ) :
    (scope.askHost name arguments level).runFrom s =
      (.ok ((Host.ask scope.host.callbacks name arguments).run s).1,
        ((Host.ask scope.host.callbacks name arguments).run s).2) :=
  rfl

theorem resolve_fails {name : String} {declaration : Declaration} {arguments : List Float}
    {level : Nat} (ordered : scope.order = .hostFirst → scope.HostPasses)
    (free : scope.values.get? name = none) (declared : scope.Declares name)
    (found : scope.functions.find? name = .ok (some declaration))
    (fails : Fails (scope.callIn scope.resolve declaration arguments level)) :
    Fails (scope.resolve name arguments level) := by
  have asked : Fails (scope.askDeclared (scope.callIn scope.resolve) name arguments level) := by
    unfold askDeclared
    rw [free, found, ofExcept_ok]
    exact fails.bind _
  have first : ∀ resolvers, Fails (firstOf
      (scope.askDeclared (scope.callIn scope.resolve) :: resolvers) name arguments level) :=
    fun resolvers => asked.bind _
  intro s
  rw [resolve_eq, answer_eq, answerBy]
  cases order : scope.order with
  | internalFirst => exact first _ s
  | hostFirst =>
    have passes : ((Host.ask scope.host.callbacks name arguments).run s).1 = none :=
      ask_passes (fun callback mem s => ordered order callback mem name arguments s declared) s
    rw [firstOf, runFrom_bind, askHost_runFrom, passes]
    exact first _ _

theorem call_fails {declaration : Declaration} {token : Token} {level : Nat}
    (mem : token ∈ (Scanner.readAll declaration.body.toList).tokens)
    (named : token.kind = .identifier)
    (other : Text.lowercase token.text ∉ declaration.parameters)
    (free : Evaluation.literal? (Text.lowercase token.text) = none)
    (fails : level < scope.maxDepth → ∀ arguments l, level + Declaration.callCost ≤ l →
      Fails (scope.resolve (Text.lowercase token.text) arguments l))
    (arguments : List Float) :
    Fails (scope.callIn scope.resolve declaration arguments level) := by
  have normal := Scanner.normalName_of_mem_readAll mem
  unfold callIn
  by_cases length : arguments.length = declaration.parameters.length
  · rw [Declaration.call_eq length, Outcome.reading]
    cases read : Tree.read scope.maxDepth (level + Declaration.callCost) declaration.body with
    | error error => exact fails_throw _
    | ok tree =>
      obtain ⟨tokens, scanned, built⟩ := Tree.build_of_read read
      have among : token ∈ tokens := Scanner.tokens_eq_ok scanned ▸ mem
      refine Evaluation.evaluate_fails built among named (normal.symm ▸ free) ?_
      have root := Tree.bounds_of_read read (Node.mem_levels_self _ tree)
      intro applied l le
      rw [normal]
      dsimp only
      rw [Declaration.frame_eq_parent other]
      exact fails (by omega) applied l le
  · rw [Declaration.call_of_length_ne length]
    exact fails_throw _

/-- A call of a function that reaches itself never has a value. -/
theorem recursive_fails {function : String}
    (ordered : scope.order = .hostFirst → scope.HostPasses)
    (free : scope.values.get? function = none)
    (recursive : Relation.TransGen scope.Refers function function)
    (arguments : List Float) (level : Nat) (s : σ) :
    ∃ failure, ((scope.resolve function arguments level).runFrom s).1 = .error failure := by
  revert s
  -- The levels that are left under the limit grow fewer with every call.
  induction remaining : scope.maxDepth - level using Nat.strong_induction_on
    generalizing function arguments level with
  | _ budget ih =>
    have cost : 0 < Declaration.callCost := by decide
    obtain ⟨callee, refers, back⟩ := Relation.TransGen.head'_iff.mp recursive
    have declared := scope.declares_of_refers refers
    have again : Relation.TransGen scope.Refers callee callee := Relation.TransGen.tail' back refers
    obtain ⟨declaration, found, ⟨token, mem, named, rfl⟩, other, unbound, yes, no, -⟩ := refers
    have literal : Evaluation.literal? (Text.lowercase token.text) = none :=
      Evaluation.literal?_eq_none (by simp [yes, no])
    refine resolve_fails ordered free declared found ?_
    refine call_fails mem named other literal (fun room applied l below => ?_) arguments
    exact ih (scope.maxDepth - l) (by omega) unbound again applied l rfl

def alternating : Scope (StateM Nat) where
  values := .empty
  functions := ⟨["f(x)=g(x)", "g(y)=f(y)+1"]⟩
  host := ⟨[fun name _ => return if name = "h" then some 1 else none], return 0⟩
  order := .hostFirst
  previous := 0
  maxDepth := 256

theorem recursive_fails_of_alternating :
    alternating.HostPasses ∧ alternating.values.get? "f" = none ∧
      Relation.TransGen alternating.Refers "f" "f" ∧
      ∃ failure, ((alternating.resolve "f" [1] 0).runFrom 0).1 = .error failure := by
  have first : alternating.Refers "f" "g" :=
    ⟨⟨"f", ["x"], "g(x)", "f(x)=g(x)"⟩, by decide +kernel,
      ⟨⟨.identifier, "g"⟩, by decide +kernel, rfl, by decide +kernel⟩, by decide, by decide +kernel,
      by decide, by decide, "g(y)=f(y)+1", by decide, by decide +kernel⟩
  have second : alternating.Refers "g" "f" :=
    ⟨⟨"g", ["y"], "f(y)+1", "g(y)=f(y)+1"⟩, by decide +kernel,
      ⟨⟨.identifier, "f"⟩, by decide +kernel, rfl, by decide +kernel⟩, by decide, by decide +kernel,
      by decide, by decide, "f(x)=g(x)", by decide, by decide +kernel⟩
  have passes : alternating.HostPasses := by
    intro callback mem name arguments s declared
    obtain rfl := List.mem_singleton.mp mem
    have third : name ≠ "h" := by
      rintro rfl
      obtain ⟨source, mem, same⟩ := declared
      revert source
      decide +kernel
    dsimp only
    rw [if_neg third]
    rfl
  have free : alternating.values.get? "f" = none := by decide +kernel
  have recursive : Relation.TransGen alternating.Refers "f" "f" := .tail (.single first) second
  exact ⟨passes, free, recursive, recursive_fails (fun _ => passes) free recursive [1] 0 0⟩

end Scope

end Reckon
