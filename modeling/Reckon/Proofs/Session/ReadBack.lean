import Reckon.Proofs.Scope.Binding
import Reckon.Proofs.Session.Run
import Reckon.Proofs.Tree.Reading

/-!
Names that are bound and then read alone. A statement that assigns and a header that declares take
any identifier, in any letter case. Where the name stands alone later, its value is read back from
the variables or the frame without a question to anyone else, and takes one level. The names `true`
and `false` are bound like others, but read alone they are literals.
-/

namespace Reckon

/-- What a name that is bound to `value` reads as where it stands alone. -/
def Evaluation.readBack (name : String) (value : Float) : Float :=
  if name = "true" then 1 else if name = "false" then 0 else value

variable {name spelled formula text : String} {value : Float} {level maxDepth i : Nat}

namespace Tree

variable {token : Token}

theorem read_token (formed : token.WellFormed) (plain : token.Plain) (room : level < maxDepth) :
    read maxDepth level token.text = .ok (Node.leaf token) := by
  have valid := validate_eq_ok.mpr (formed.neutral plain).nested
  have scanned := Scanner.tokens_eq_ok_iff.mpr (Scanner.written_token formed)
  simp only [read, valid, scanned, bind, Except.bind, Grammar.build_token plain room]

theorem exists_error_of_no_room (full : maxDepth ≤ level) (text : String) :
    ∃ error, read maxDepth level text = .error error := by
  cases found : read maxDepth level text with
  | error error => exact ⟨error, rfl⟩
  | ok tree =>
    have bounds := bounds_of_read found (Node.mem_levels_self level tree)
    omega

end Tree

namespace Evaluation

theorem readBack_eq : readBack name value = (literal? name).getD value := by
  unfold readBack literal?
  split
  · next same => subst same; rfl
  · next other =>
    split
    · next same => subst same; rfl
    · next other' => split <;> simp_all

variable {m : Type → Type} [Monad m] [LawfulMonad m] {env : Environment m}

theorem reading_name (formed : Token.WellFormed ⟨.identifier, text⟩) (room : level < maxDepth)
    (known : env.resolve (Text.lowercase text) [] level = pure (some value)) :
    Outcome.reading maxDepth level text (evaluate env level) =
      pure (readBack (Text.lowercase text) value) := by
  have normal : Text.normalName text = Text.lowercase text := formed.normalName_eq
  have plain : Token.Plain ⟨.identifier, text⟩ := by simp [Token.Plain]
  have leaf : evaluate env level (Node.leaf ⟨.identifier, text⟩) =
      identifier env level text true [] := evaluate_head env level (.inl rfl) []
  rw [Outcome.reading, Tree.read_token formed plain room]
  dsimp only
  rw [leaf, readBack_eq]
  cases literal : literal? (Text.lowercase text) with
  | some constant => exact identifier_literal env level (normal ▸ literal) []
  | none =>
    rw [identifier_free env level (normal ▸ literal), identifier_answer, List.mapM_nil, pure_bind,
      answer, normal, known, pure_bind]
    rfl

end Evaluation

namespace Statement

theorem colon_not_mem (formed : Token.WellFormed ⟨.identifier, name⟩) : ':' ∉ name.toList := by
  have other : TokenKind.ofChar ':' ≠ .identifier := by decide
  have other' : TokenKind.ofChar ':' ≠ .number := by decide
  intro mem
  exact (formed.ofChar_of_mem mem).elim other fun digit => other' digit.2

theorem isBlank_name (formed : Token.WellFormed ⟨.identifier, name⟩) : isBlank name = false := by
  obtain ⟨c, others, chars⟩ := formed.exists_cons
  have solid : Text.isBlank c = false := formed.solid (by rw [chars]; exact List.mem_cons_self)
  rw [isBlank, Text.isBlankText, chars, List.all_cons, solid, Bool.false_and]

theorem read_name (formed : Token.WellFormed ⟨.identifier, name⟩) :
    read name = .ok (none, name) := by
  rw [read, Text.cutFirst_eq_none.mpr (colon_not_mem formed)]

theorem cutFirst_assignment (formed : Token.WellFormed ⟨.identifier, name⟩) :
    Text.cutFirst ':' (name ++ ":" ++ formula) = some (name, formula) :=
  Text.cutFirst_eq_some.mpr ⟨by simp, colon_not_mem formed⟩

theorem read_assignment (formed : Token.WellFormed ⟨.identifier, name⟩) :
    read (name ++ ":" ++ formula) = .ok (some (Text.lowercase name), formula) := by
  have scanned : Scanner.tokens name = .ok [⟨.identifier, name⟩] :=
    Scanner.tokens_eq_ok_iff.mpr (Scanner.written_token formed)
  rw [read, cutFirst_assignment formed]
  simp only [scanned]

end Statement

namespace Session

variable {m : Type → Type} [Monad m] [LawfulMonad m] (session : Session m)
variable {values : VariableTable} {previous : Float}

theorem finish_name (order : session.order = .internalFirst)
    (formed : Token.WellFormed ⟨.identifier, spelled⟩)
    (bound : values.get? (Text.lowercase spelled) = some value)
    (room : 0 < session.maxDepth) :
    session.finish ⟨values, previous⟩ [spelled] =
      pure (Evaluation.readBack (Text.lowercase spelled) value) := by
  have full : Statement.isBlank spelled ≠ true := by simp [Statement.isBlank_name formed]
  have known : (session.scope ⟨values, previous⟩).resolve (Text.lowercase spelled) [] 0 =
      pure (some value) := Scope.resolve_variable order bound
  rw [session.finish_stated full (Statement.read_name formed), Scope.compute,
    Evaluation.reading_name formed room known, pure_bind, finish_nil]
  rfl

theorem get?_assigned (formed : Token.WellFormed ⟨.identifier, name⟩) :
    (values.set (Text.lowercase name) value).get? (Text.lowercase name) = some value := by
  have kept : Text.normalName (Text.lowercase name) ≠ "" := by
    rw [formed.normalName_lowercase]
    exact formed.lowercase_ne_empty
  exact VariableTable.get?_set_same rfl kept

theorem pass_assigned (order : session.order = .internalFirst)
    (formed : Token.WellFormed ⟨.identifier, name⟩)
    (formed' : Token.WellFormed ⟨.identifier, spelled⟩)
    (same : Text.lowercase spelled = Text.lowercase name) (formula : String) :
    (session.setText (.list [name ++ ":" ++ formula, spelled])).pass =
      (session.setText (.list [name ++ ":" ++ formula])).pass >>= fun value =>
        pure (Evaluation.readBack (Text.lowercase name) value) := by
  have full : Statement.isBlank (name ++ ":" ++ formula) ≠ true := by
    rw [Statement.isBlank,
      Text.isBlankText_of_cut (by decide) (Statement.cutFirst_assignment formed)]
    exact Bool.false_ne_true
  have reads : Statement.read (name ++ ":" ++ formula) =
      .ok (some (Text.lowercase spelled), formula) := same ▸ Statement.read_assignment formed
  have pass : ∀ statements, (session.setText (.list statements)).pass =
      session.finish ⟨session.bindings, 0⟩ statements := fun _ => rfl
  rw [pass, pass, session.finish_stated full reads, session.finish_stated full reads, bind_assoc,
    ← same]
  by_cases room : 0 < session.maxDepth
  · congr 1
    funext value
    rw [finish_nil, pure_bind]
    exact session.finish_name order formed' (get?_assigned formed') room
  · obtain ⟨error, found⟩ := Tree.exists_error_of_no_room (Nat.le_of_not_lt room) formula
    rw [Scope.compute, Outcome.reading, found, Outcome.throw_bind, Outcome.throw_bind]

end Session

namespace Declaration

variable {m : Type → Type} [Monad m] {source : String} {declaration : Declaration}
variable {parameters : List String} {arguments : List Float} {site : Site}

theorem lookup_zip (distinct : parameters.Nodup) (named : parameters[i]? = some name)
    (given : arguments[i]? = some value) :
    (parameters.zip arguments).lookup name = some value := by
  induction parameters generalizing arguments i with
  | nil => simp at named
  | cons first parameters ih =>
    rw [List.nodup_cons] at distinct
    cases arguments with
    | nil => simp at given
    | cons argument arguments =>
      rw [List.zip_cons_cons]
      cases i with
      | zero =>
        obtain rfl : first = name := by simpa using named
        obtain rfl : argument = value := by simpa using given
        exact List.lookup_cons_self
      | succ i =>
        rw [List.getElem?_cons_succ] at named given
        have other : name ≠ first := fun same =>
          distinct.1 (same ▸ List.mem_of_getElem? named)
        rw [List.lookup_cons, beq_false_of_ne other]
        exact ih distinct.2 named given

variable [LawfulMonad m]

theorem call_name (read : Declaration.read source = .ok declaration)
    (formed : Token.WellFormed ⟨.identifier, declaration.body⟩)
    (named : declaration.parameters[i]? = some (Text.lowercase declaration.body))
    (length : arguments.length = declaration.parameters.length)
    (given : arguments[i]? = some value) (room : site.level + callCost < site.maxDepth)
    (parent : Resolver m) :
    declaration.call arguments parent site =
      pure (Evaluation.readBack (Text.lowercase declaration.body) value) := by
  have found := lookup_zip (Declaration.nodup_of_read read) named given
  rw [call_eq length]
  refine Evaluation.reading_name formed room ?_
  dsimp only [frame]
  rw [found]

end Declaration

/-- Behind a statement that assigns, a pass in which the session answers first reads the value back
under the name, in any letter case. A body that is a parameter reads the argument back, whatever the
scope of the call is. The literals stand for themselves. -/
theorem reads_back (m : Type → Type) [Monad m] [LawfulMonad m] :
    (∀ session : Session m, session.order = .internalFirst → ∀ name spelled formula,
      Token.WellFormed ⟨.identifier, name⟩ → Token.WellFormed ⟨.identifier, spelled⟩ →
      Text.lowercase spelled = Text.lowercase name →
      (session.setText (.list [name ++ ":" ++ formula, spelled])).pass =
        (session.setText (.list [name ++ ":" ++ formula])).pass >>= fun value =>
          pure (Evaluation.readBack (Text.lowercase name) value)) ∧
    ∀ source declaration, Declaration.read source = .ok declaration →
      Token.WellFormed ⟨.identifier, declaration.body⟩ →
      ∀ i : Nat, declaration.parameters[i]? = some (Text.lowercase declaration.body) →
      ∀ (arguments : List Float) value, arguments.length = declaration.parameters.length →
      arguments[i]? = some value →
      ∀ (parent : Resolver m) (site : Declaration.Site),
        site.level + Declaration.callCost < site.maxDepth →
        declaration.call arguments parent site =
          pure (Evaluation.readBack (Text.lowercase declaration.body) value) := by
  constructor
  · intro session order name spelled formula formed formed' same
    exact session.pass_assigned order formed formed' same formula
  · intro source declaration read formed i named arguments value length given parent site room
    exact Declaration.call_name read formed named length given room parent

theorem reads_back_of_rate :
    ((Session.start (pure 0 : Id Float)).setText (.list ["Rate: 2+3", "rATE"])).pass = pure 5 ∧
    (Declaration.mk "f" ["a", "b"] "B" "f(a, b)=B").call [1, 2] (fun _ _ _ => pure none)
      ⟨0, 256, 251⟩ = (pure 2 : Outcome Id Float) := by
  have word (first : Char) (others : List Char) (letter : first.isAlpha = true)
      (word : others.all Char.isAlphanum = true) :
      Token.WellFormed ⟨.identifier, String.ofList (first :: others)⟩ :=
    .identifier letter (List.all_eq_true.mp word)
  have name := word 'R' ['a', 't', 'e'] rfl rfl
  have spelled := word 'r' ['A', 'T', 'E'] rfl rfl
  have body := word 'B' [] rfl rfl
  have alone : ((Session.start (pure 0 : Id Float)).setText
      (.list ["Rate" ++ ":" ++ " 2+3"])).pass = pure 5 := by
    have outcome : Id.run (((Session.start (pure 0 : Id Float)).setText
        (.list ["Rate" ++ ":" ++ " 2+3"])).pass).run = .ok 5 := by decide +kernel
    exact outcome
  have read : Declaration.read "f(a, b)=B" = .ok ⟨"f", ["a", "b"], "B", "f(a, b)=B"⟩ := by
    decide +kernel
  have kept : Evaluation.readBack (Text.lowercase "Rate") 5 = 5 := by decide +kernel
  have kept' : Evaluation.readBack (Text.lowercase "B") 2 = 2 := by decide +kernel
  obtain ⟨assigned, applied⟩ := reads_back Id
  refine ⟨?_, ?_⟩
  · have later := assigned (Session.start (pure 0)) rfl "Rate" "rATE" " 2+3" name spelled
      (by decide +kernel)
    rw [alone, pure_bind, kept] at later
    exact later
  · have called := applied _ _ read body 1 (by decide +kernel) [1, 2] 2 rfl rfl
      (fun _ _ _ => pure none) ⟨0, 256, 251⟩ (by decide)
    rw [kept'] at called
    exact called

/-- A literal is bound like another name, and not read back. -/
theorem literal_not_read_back :
    Id.run (((Session.start (pure 0)).setText (.list ["true: 5"])).pass).run = .ok 5 ∧
    Id.run (((Session.start (pure 0)).setText (.list ["true: 5", "true"])).pass).run = .ok 1 ∧
    Declaration.read "f(true)=true" = .ok ⟨"f", ["true"], "true", "f(true)=true"⟩ ∧
    Id.run ((Declaration.mk "f" ["true"] "true" "f(true)=true").call [5]
      (fun _ _ _ => pure none) ⟨0, 256, 0⟩).run = .ok 1 ∧
    (5 : Float) ≠ 1 := by
  refine ⟨?_, ?_, ?_, ?_, ?_⟩
  all_goals decide +kernel

end Reckon
