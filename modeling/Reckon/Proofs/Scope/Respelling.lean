import Reckon.Proofs.Declaration.Respelling
import Reckon.Proofs.Scope.Alike
import Reckon.Proofs.Tree.Respelling

/-!
Scopes whose function sources are spelled alike. A formula comes to the value of any other spelling
of it, and a call to that of the same call of a declaration spelled alike, since the parameters and
the names that the body asks for are the same. So the scopes answer every name alike, and only the
texts that are quoted in failures may differ.
-/

namespace Reckon.Simulation

variable {m n : Type → Type} [Monad m] [Monad n] [LawfulMonad m] [LawfulMonad n]
variable {sim : Simulation m n} {α β γ : Type}

def Coarse (sim : Simulation m n) : Prop :=
  ∀ {α : Type} {failure failure' : Failure}, failure.outline = failure'.outline →
    sim.Rel (MonadExcept.throw failure : Outcome m α) (MonadExcept.throw failure')

theorem Coarse.ofExcept_bind (coarse : sim.Coarse) {related : α → β → Prop} {x : Except Failure α}
    {y : Except Failure β} (alike : Failure.Alike related x y) {f : α → Outcome m γ}
    {g : β → Outcome n γ} (next : ∀ a b, related a b → sim.Rel (f a) (g b)) :
    sim.Rel (Outcome.ofExcept x >>= f) (Outcome.ofExcept y >>= g) := by
  cases alike with
  | ok both => simpa using next _ _ both
  | error same => simpa using coarse same

theorem Coarse.formula (coarse : sim.Coarse) {text text' : String}
    (equivalent : Scanner.Equivalent text text') {env : Environment m} {env' : Environment n}
    {limit level : Nat} (previous : env.previous = env'.previous)
    (resolvers : ∀ name, Scanner.Mentions text name → ∀ arguments l,
      sim.Rel (env.resolve name arguments l) (env'.resolve name arguments l)) :
    sim.Rel (Outcome.reading limit level text (Evaluation.evaluate env level))
      (Outcome.reading limit level text' (Evaluation.evaluate env' level)) := by
  have both := Tree.respelled_read equivalent limit level
  have here : sim.Rel (Outcome.reading limit level text (Evaluation.evaluate env level))
      (Outcome.reading limit level text (Evaluation.evaluate env' level)) :=
    sim.formula previous resolvers
  unfold Outcome.reading at here ⊢
  generalize found : Tree.read limit level text = result,
    found' : Tree.read limit level text' = result' at both here ⊢
  cases both with
  | error same => exact coarse (by simp only [Failure.outline, Failure.variant, same])
  | @tree tree tree' same =>
    have value : Evaluation.evaluate env' level tree = Evaluation.evaluate env' level tree' := by
      rw [Evaluation.evaluate_canonical env' found, same, ← Evaluation.evaluate_canonical env' found']
    dsimp only at here ⊢
    rwa [value] at here

variable {scope : Scope m} {scope' : Scope n} {declaration declaration' : Declaration}

theorem Coarse.callIn (coarse : sim.Coarse) (maxDepth : scope.maxDepth = scope'.maxDepth)
    (previous : scope.previous = scope'.previous) (equivalent : declaration.Equivalent declaration')
    {parent : Resolver m} {parent' : Resolver n}
    (parents : ∀ name, Scanner.Mentions declaration.body name → name ∉ declaration.parameters →
      ∀ arguments l, sim.Rel (parent name arguments l) (parent' name arguments l))
    (arguments : List Float) (level : Nat) :
    sim.Rel (scope.callIn parent declaration arguments level)
      (scope'.callIn parent' declaration' arguments level) :=
  sim.callIn_of_bodies maxDepth equivalent.name equivalent.parameters parents
    (fun resolvers => coarse.formula equivalent.body previous resolvers) arguments level

theorem Coarse.askDeclared (coarse : sim.Coarse) {name : String} {arguments : List Float}
    {level : Nat} {call : Calling m} {call' : Calling n}
    {related : Declaration → Declaration → Prop}
    (values : scope.values.get? name = scope'.values.get? name)
    (finds : Failure.Alike (Option.Rel related) (scope.functions.find? name)
      (scope'.functions.find? name))
    (calls : ∀ found found', related found found' →
      sim.Rel (call found arguments level) (call' found' arguments level)) :
    sim.Rel (scope.askDeclared call name arguments level)
      (scope'.askDeclared call' name arguments level) := by
  unfold Scope.askDeclared
  rw [← values]
  cases scope.values.get? name with
  | some value => exact sim.pure (some value)
  | none =>
    refine coarse.ofExcept_bind finds fun found found' both => ?_
    cases both with
    | none => exact sim.pure none
    | some both => exact sim.bind (calls _ _ both) fun value => sim.pure (some value)

/-- The hosts of two scopes do related things when they are asked for some names. -/
structure Hosts (sim : Simulation m n) (names : String → Prop) (host : Host m) (host' : Host n) :
    Prop where
  callbacks : ∀ name, names name → ∀ arguments, List.Forall₂ (fun callback callback' =>
    sim.Rel (ExceptT.lift (callback name arguments)) (ExceptT.lift (callback' name arguments)))
    host.callbacks host'.callbacks
  random : sim.Rel (ExceptT.lift host.random) (ExceptT.lift host'.random)

structure Respelled (sim : Simulation m n) (scope : Scope m) (scope' : Scope n) : Prop where
  values : scope.values = scope'.values
  sources : List.Forall₂ Declaration.Respelled scope.functions.sources scope'.functions.sources
  hosts : sim.Hosts Scanner.IsName scope.host scope'.host
  order : scope.order = scope'.order
  previous : scope.previous = scope'.previous
  maxDepth : scope.maxDepth = scope'.maxDepth

theorem Respelled.alike (respelled : sim.Respelled scope scope') (coarse : sim.Coarse) :
    sim.Alike Scanner.IsName Declaration.Equivalent scope scope' where
  maxDepth := respelled.maxDepth
  answers := by
    intro call call' name named calls arguments level
    refine sim.answer_of_asks respelled.order ?_
      (sim.ask (respelled.hosts.callbacks name named arguments))
      (sim.builtin respelled.hosts.random name arguments)
    exact coarse.askDeclared (by rw [respelled.values])
      (FunctionTable.find?_alike respelled.sources named)
      fun found found' => calls found found' arguments level
  bodies parents equivalent := coarse.callIn respelled.maxDepth respelled.previous equivalent
    fun name mentioned _ => parents name mentioned.isName

end Reckon.Simulation
