import Reckon.Proofs.Declaration.Reading
import Reckon.Proofs.FunctionTable
import Reckon.Proofs.Scope.Questions
import Reckon.Proofs.Scope.Recursion
import Reckon.Proofs.VariableTable

/-!
Parameters and variables. The frame of a call answers its parameters as the table of variables would
if they were set there, and asks the scope for every other name. So a call is the value of the body
in a scope whose variables are extended by the parameters, as long as the body uses no declared
function: only a function would feel that the body of a call stands further down. What is left of
the level is the room for the body itself, and a body without room fails at once.
-/

namespace Reckon

/-- The environment of a tree that stands `more` levels further down. -/
def Environment.below {m : Type → Type} (env : Environment m) (more : Nat) : Environment m where
  resolve name arguments level := env.resolve name arguments (level + more)
  previous := env.previous

theorem Evaluation.evaluate_below {m : Type → Type} [Monad m] [LawfulMonad m] (env : Environment m)
    (level more : Nat) (node : Node) :
    evaluate env (level + more) node = evaluate (env.below more) level node := by
  induction node using Node.induction generalizing level with
  | step token left right leftIH rightIH =>
    have operands : right.map (evaluate env (level + more + 1)) =
        right.map (evaluate (env.below more) (level + 1)) := by
      refine List.map_congr_left fun child mem => ?_
      rw [← rightIH child mem, Nat.add_right_comm]
    by_cases spine : token.kind.isOperation = true ∧ left.length = 1
    · obtain ⟨operation, single⟩ := spine
      obtain ⟨child, rfl⟩ := List.length_eq_one_iff.mp single
      rw [evaluate_spine env _ operation, evaluate_spine (env.below more) _ operation, operands,
        leftIH child (List.mem_singleton_self child)]
    · have last : token.kind.isOperation = false ∨ left.length ≠ 1 := by
        rwa [Classical.not_and_iff_not_or_not, Bool.not_eq_true] at spine
      rw [evaluate_head env _ last, evaluate_head (env.below more) _ last, operands]
      rfl

theorem Declaration.call_of_unreadable {m : Type → Type} [Monad m] {declaration : Declaration}
    {arguments : List Float} {site : Site} {error : ReadError}
    (length : arguments.length = declaration.parameters.length)
    (unreadable : Tree.read site.maxDepth (site.level + callCost) declaration.body = .error error)
    (parent : Resolver m) : declaration.call arguments parent site = throw (.read error) := by
  rw [call_eq length, Outcome.reading, unreadable]

namespace Scope

section

variable {m : Type → Type} [Monad m] {scope : Scope m} {name : String} {value : Float}
variable {arguments : List Float} {level : Nat}

def binding (scope : Scope m) (bindings : List (String × Float)) : Scope m :=
  { scope with values := scope.values.setAll bindings }

variable [LawfulMonad m]

theorem resolve_internalFirst (order : scope.order = .internalFirst) :
    scope.resolve name arguments level =
      firstOf [scope.askDeclared (scope.callIn scope.resolve), scope.askHost, scope.askBuiltin] name
        arguments level := by
  rw [resolve_eq, answer_eq, answerBy, order]

theorem resolve_variable (order : scope.order = .internalFirst)
    (bound : scope.values.get? name = some value) :
    scope.resolve name arguments level = pure (some value) := by
  simp [resolve_internalFirst order, firstOf, askDeclared, bound]

theorem resolve_undeclared (order : scope.order = .internalFirst)
    (free : scope.values.get? name = none)
    (absent : ∀ source ∈ scope.functions.sources,
      FunctionTable.declaredName source ≠ Text.normalName name) :
    scope.resolve name arguments level =
      firstOf [scope.askHost, scope.askBuiltin] name arguments 0 := by
  rw [resolve_internalFirst order, firstOf, askDeclared, free, FunctionTable.find?_of_absent absent]
  simp only [Outcome.ofExcept_ok, pure_bind]
  rfl

variable {source : String} {declaration : Declaration}

theorem frame_eq_resolve (read : Declaration.read source = .ok declaration)
    (order : scope.order = .internalFirst) (normal : Text.normalName name = name)
    (length : arguments.length = declaration.parameters.length)
    (undeclared : name ∉ declaration.parameters → scope.values.get? name = none →
      ∀ source ∈ scope.functions.sources, FunctionTable.declaredName source ≠ Text.normalName name)
    (applied : List Float) (level level' : Nat) :
    declaration.frame arguments scope.resolve name applied level =
      (scope.binding (declaration.parameters.zip arguments)).resolve name applied level' := by
  have names : (declaration.parameters.zip arguments).map Prod.fst = declaration.parameters :=
    List.map_fst_zip (Nat.le_of_eq length.symm)
  have bindings : (scope.binding (declaration.parameters.zip arguments)).values.get? name =
      ((declaration.parameters.zip arguments).lookup name).or (scope.values.get? name) := by
    refine VariableTable.get?_setAll normal (fun binding mem => ?_) ?_
    · exact Declaration.parameter_of_read read (List.of_mem_zip mem).1
    · rw [names]
      exact Declaration.nodup_of_read read
  have order' : (scope.binding (declaration.parameters.zip arguments)).order = .internalFirst :=
    order
  unfold Declaration.frame
  cases parameter : (declaration.parameters.zip arguments).lookup name with
  | some value =>
    rw [parameter] at bindings
    exact (resolve_variable order' bindings).symm
  | none =>
    rw [parameter, Option.none_or] at bindings
    cases bound : scope.values.get? name with
    | some value =>
      dsimp only
      rw [resolve_variable order bound, resolve_variable order' (bindings.trans bound)]
    | none =>
      have absent := undeclared (Declaration.not_mem_of_lookup length parameter) bound
      dsimp only
      rw [resolve_undeclared order bound absent,
        resolve_undeclared order' (bindings.trans bound) absent]
      rfl

theorem call_eq_compute_of_room {site : Declaration.Site}
    (read : Declaration.read source = .ok declaration) (order : scope.order = .internalFirst)
    (length : arguments.length = declaration.parameters.length)
    (undeclared : ∀ name, Scanner.Mentions declaration.body name → name ∉ declaration.parameters →
      scope.values.get? name = none →
        ∀ source ∈ scope.functions.sources, FunctionTable.declaredName source ≠ Text.normalName name)
    (room : Tree.read site.maxDepth 0 declaration.body =
      Tree.read site.maxDepth (site.level + Declaration.callCost) declaration.body) :
    declaration.call arguments scope.resolve site =
      (scope.binding (declaration.parameters.zip arguments)).compute site.previous site.maxDepth
        declaration.body := by
  rw [Declaration.call_eq length, compute, Outcome.reading, Outcome.reading, room]
  cases found : Tree.read site.maxDepth (site.level + Declaration.callCost) declaration.body with
  | error error => rfl
  | ok tree =>
    dsimp only
    rw [← Nat.zero_add (site.level + Declaration.callCost), Evaluation.evaluate_below]
    refine (Simulation.equality m).evaluate_among tree rfl fun inner mem named l _ applied => ?_
    have among := Tree.mem_tokens_of_read found mem
    have normal := Scanner.normalName_of_mem_readAll among
    have mentioned : Scanner.Mentions declaration.body (Text.normalName inner.token.text) :=
      ⟨inner.token, among, named, normal.symm⟩
    exact frame_eq_resolve read order mentioned.normalName_eq length (undeclared _ mentioned)
      applied _ l

end

variable {σ : Type}

/-- A call that does not fail for the nesting limit comes to what its body comes to when the
parameters are variables, and asks the host the same questions. -/
theorem call_eq_compute {source : String} {declaration : Declaration} {scope : Scope (StateM σ)}
    {arguments : List Float} {site : Declaration.Site} {s : σ}
    (read : Declaration.read source = .ok declaration) (order : scope.order = .internalFirst)
    (length : arguments.length = declaration.parameters.length)
    (undeclared : ∀ name, Scanner.Mentions declaration.body name → name ∉ declaration.parameters →
      scope.values.get? name = none → ¬ scope.Declares name)
    (shallow : ∀ limit text, ((declaration.call arguments scope.resolve site).runFrom s).1 ≠
      .error (.read ⟨.nestingTooDeep limit, text⟩)) :
    (declaration.call arguments scope.resolve site).runFrom s =
        ((scope.binding (declaration.parameters.zip arguments)).compute site.previous site.maxDepth
          declaration.body).runFrom s ∧
      (declaration.call arguments scope.noted.resolve site).runFrom (s, []) =
        ((scope.noted.binding (declaration.parameters.zip arguments)).compute site.previous
          site.maxDepth declaration.body).runFrom (s, []) := by
  have absent : ∀ name, Scanner.Mentions declaration.body name → name ∉ declaration.parameters →
      scope.values.get? name = none →
        ∀ source ∈ scope.functions.sources,
          FunctionTable.declaredName source ≠ Text.normalName name :=
    fun name mentioned other free source mem declared =>
      undeclared name mentioned other free ⟨source, mem, declared⟩
  have order' : scope.noted.order = .internalFirst := order
  cases Tree.raised_read (Nat.le_refl site.maxDepth)
      (Nat.zero_le (site.level + Declaration.callCost)) declaration.body with
  | inl deep =>
    have fails := Declaration.call_of_unreadable length deep scope.resolve
    exact absurd (by rw [fails]; rfl) (shallow site.maxDepth declaration.body)
  | inr room =>
    rw [call_eq_compute_of_room read order length absent room,
      call_eq_compute_of_room read order' length absent room]
    exact ⟨rfl, rfl⟩

def counting : Scope (StateM Nat) where
  values := VariableTable.empty.set "k" 2
  functions := ⟨["g(x)=x"]⟩
  host := ⟨[fun name _ => do
    modify (· + 1)
    return if name = "rate" then some 3 else none], return 0⟩
  order := .internalFirst
  previous := 0
  maxDepth := 256

def product : Declaration :=
  ⟨"f", ["a", "b"], "A(1)*rate+k-b", "f(a, b) = A(1)*rate+k-b"⟩

theorem call_eq_compute_of_product : Declaration.read product.source = .ok product ∧
    (product.call [1, 2] counting.resolve ⟨5, 256, 10⟩).runFrom 0 =
      ((counting.binding (product.parameters.zip [1, 2])).compute 5 256 product.body).runFrom 0 ∧
    (product.call [1, 2] counting.noted.resolve ⟨5, 256, 10⟩).runFrom (0, []) =
      ((counting.noted.binding (product.parameters.zip [1, 2])).compute 5 256
        product.body).runFrom (0, []) := by
  have read : Declaration.read product.source = .ok product := by decide +kernel
  have undeclared : ∀ name, Scanner.Mentions product.body name → name ∉ product.parameters →
      counting.values.get? name = none → ¬ counting.Declares name := by
    rintro _ ⟨token, mem, -, rfl⟩ - - ⟨source, among, declared⟩
    obtain rfl := List.mem_singleton.mp among
    revert token
    decide +kernel
  have shallow : ∀ limit text, ((product.call [1, 2] counting.resolve ⟨5, 256, 10⟩).runFrom 0).1 ≠
      .error (.read ⟨.nestingTooDeep limit, text⟩) := by
    have succeeds : ((product.call [1, 2] counting.resolve ⟨5, 256, 10⟩).runFrom 0).1.isOk =
        true := by decide +kernel
    intro limit text fails
    rw [fails] at succeeds
    contradiction
  exact ⟨read, call_eq_compute read rfl rfl undeclared shallow⟩

end Scope

end Reckon
