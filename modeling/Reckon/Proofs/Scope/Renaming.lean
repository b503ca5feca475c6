import Reckon.Proofs.Declaration.Renaming
import Reckon.Proofs.Evaluation.Variant
import Reckon.Proofs.Scope.Alike

/-!
Calls of a renamed declaration. Its frame answers the new names of the parameters as the old frame
answers the old ones, and every other name of the body has stayed and is asked of the scope. So the
call comes to the same value, or to a failure of the same variant, whatever the scope is, as long as
no other name of the body is captured by a new parameter.
-/

namespace Reckon

variable {f g : String → String} {declaration declaration' : Declaration}

namespace Declaration

/-- The names of the body that are parameters are renamed and kept apart from all others, and
literals stay literals. -/
structure Harmless (g : String → String) (declaration : Declaration) : Prop where
  others : ∀ name, Scanner.Mentions declaration.body name → name ∉ declaration.parameters →
    g name = name
  apart : ∀ name, Scanner.Mentions declaration.body name → ∀ parameter ∈ declaration.parameters,
    g parameter = g name → parameter = name
  literal : ∀ name, Scanner.Mentions declaration.body name →
    Evaluation.literal? name = Evaluation.literal? (g name)

theorem newName_inj {parameter word name other : String}
    (fresh : name ≠ Text.lowercase word) (fresh' : other ≠ Text.lowercase word)
    (same : newName parameter word name = newName parameter word other) : name = other := by
  unfold newName at same
  split at same <;> split at same <;> simp_all

theorem harmless_newName {parameter word : String} (mem : parameter ∈ declaration.parameters)
    (fresh : Text.lowercase word ∉ declaration.parameters)
    (unused : ¬ Scanner.Mentions declaration.body (Text.lowercase word))
    (free : Evaluation.literal? parameter = none)
    (free' : Evaluation.literal? (Text.lowercase word) = none) :
    declaration.Harmless (newName parameter word) where
  others name _ other := by
    refine if_neg ?_
    rintro rfl
    exact other mem
  apart name mentioned other among same :=
    newName_inj (fun equal => fresh (equal ▸ among)) (fun equal => unused (equal ▸ mentioned)) same
  literal name _ := by
    unfold newName
    split
    · next same => rw [same, free, free']
    · rfl

theorem lookup_rename {parameters : List String} {arguments : List Float} {name : String}
    (apart : ∀ parameter ∈ parameters, g parameter = g name → parameter = name) :
    ((parameters.map g).zip arguments).lookup (g name) = (parameters.zip arguments).lookup name := by
  induction parameters generalizing arguments with
  | nil => rfl
  | cons parameter parameters ih =>
    cases arguments with
    | nil => rfl
    | cons argument arguments =>
      rw [List.forall_mem_cons] at apart
      rw [List.map_cons, List.zip_cons_cons, List.zip_cons_cons, List.lookup_cons, List.lookup_cons,
        ih apart.2]
      by_cases same : name = parameter
      · subst same
        simp
      · have other : g name ≠ g parameter := fun equal => same (apart.1 equal.symm).symm
        have skipped : (name == parameter) = false := by simp [same]
        have skipped' : (g name == g parameter) = false := by simp [other]
        rw [skipped, skipped']

end Declaration

namespace Simulation

variable {σ : Type} {scope scope' : Scope (StateM σ)} {parent parent' : Resolver (StateM σ)}

theorem answer_renamed (renamed : declaration.Renamed f g declaration')
    (harmless : declaration.Harmless g) {arguments : List Float}
    (length : arguments.length = declaration.parameters.length)
    (parents : ∀ name, Scanner.Mentions declaration.body name → name ∉ declaration.parameters →
      ∀ arguments l, (upTo Failure.variant σ).Rel (parent name arguments l)
        (parent' name arguments l))
    {name : String} (mentioned : Scanner.Mentions declaration.body name) (previous : Float)
    (applied : List Float) (level : Nat) :
    (upTo Failure.variant σ).Rel
      (Evaluation.answer ⟨declaration.frame arguments parent, previous⟩ level name applied)
      (Evaluation.answer ⟨declaration'.frame arguments parent', previous⟩ level (g name) applied) := by
  have same : (declaration'.parameters.zip arguments).lookup (g name) =
      (declaration.parameters.zip arguments).lookup name := by
    rw [renamed.parameters]
    exact Declaration.lookup_rename (harmless.apart name mentioned)
  cases bound : (declaration.parameters.zip arguments).lookup name with
  | some value =>
    simp only [Evaluation.answer, Declaration.frame, same, bound]
    exact upTo_refl _
  | none =>
    have other := Declaration.not_mem_of_lookup length bound
    have stays := harmless.others name mentioned other
    rw [bound, stays] at same
    rw [stays]
    refine (upTo Failure.variant σ).answer ?_
    simp only [Declaration.frame, same, bound]
    exact parents name mentioned other applied level

theorem formula_renamed (words : Token.Renaming f)
    (lower : ∀ text, Text.lowercase (f text) = g (Text.lowercase text)) {text text' : String}
    (retold : Scanner.Retold (Token.rename f) text text') {env env' : Environment (StateM σ)}
    {limit level : Nat} (previous : env.previous = env'.previous)
    (literal : ∀ name, Scanner.Mentions text name →
      Evaluation.literal? name = Evaluation.literal? (g name))
    (answers : ∀ name, Scanner.Mentions text name → ∀ applied l, (upTo Failure.variant σ).Rel
      (Evaluation.answer env l name applied) (Evaluation.answer env' l (g name) applied)) :
    (upTo Failure.variant σ).Rel (Outcome.reading limit level text (Evaluation.evaluate env level))
      (Outcome.reading limit level text' (Evaluation.evaluate env' level)) := by
  have both := Tree.retold_read (Token.replacing_rename f) retold limit level
  unfold Outcome.reading
  generalize found : Tree.read limit level text = result, Tree.read limit level text' = result'
    at both
  cases both with
  | error same => exact upTo_throw (by simp only [Failure.variant, same])
  | tree tree =>
    refine (upTo Failure.variant σ).evaluate_mapTokens tree previous fun inner mem => ?_
    by_cases named : inner.token.kind = .identifier
    · have among := Tree.mem_tokens_of_read found mem
      have formed := Scanner.wellFormed_of_mem_readAll among
      have mentioned : Scanner.Mentions text (Text.lowercase inner.token.text) :=
        ⟨inner.token, among, named, rfl⟩
      have name : Text.normalName (inner.token.rename f).text =
          g (Text.lowercase inner.token.text) := by
        rw [(formed.rename words).normalName_eq, Token.rename_identifier named, lower]
      refine .name named (Token.kind_rename.trans named) ?_ fun l _ applied => ?_
      · rw [formed.normalName_eq, name]
        exact literal _ mentioned
      · rw [formed.normalName_eq, name]
        exact answers _ mentioned applied l
    · exact .same named (Token.rename_other named)

theorem callIn_renamed (maxDepth : scope.maxDepth = scope'.maxDepth)
    (previous : scope.previous = scope'.previous) (words : Token.Renaming f)
    (lower : ∀ text, Text.lowercase (f text) = g (Text.lowercase text))
    (renamed : declaration.Renamed f g declaration') (harmless : declaration.Harmless g)
    (parents : ∀ name, Scanner.Mentions declaration.body name → name ∉ declaration.parameters →
      ∀ arguments l, (upTo Failure.variant σ).Rel (parent name arguments l)
        (parent' name arguments l))
    (arguments : List Float) (level : Nat) :
    (upTo Failure.variant σ).Rel (scope.callIn parent declaration arguments level)
      (scope'.callIn parent' declaration' arguments level) := by
  have count : declaration'.parameters.length = declaration.parameters.length := by
    rw [renamed.parameters, List.length_map]
  unfold Scope.callIn
  by_cases length : arguments.length = declaration.parameters.length
  · rw [Declaration.call_eq length, Declaration.call_eq (length.trans count.symm), ← maxDepth,
      ← previous]
    refine formula_renamed words lower renamed.body rfl harmless.literal
      fun name mentioned applied l => ?_
    exact answer_renamed renamed harmless length parents mentioned scope.previous applied l
  · have length' : arguments.length ≠ declaration'.parameters.length := by rwa [count]
    rw [Declaration.call_of_length_ne length, Declaration.call_of_length_ne length', count,
      renamed.name]
    exact (upTo Failure.variant σ).throw _

end Simulation

end Reckon
