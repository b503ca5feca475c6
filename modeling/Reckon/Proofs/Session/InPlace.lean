import Reckon.Proofs.Session.Run

/-!
Passes in place. A context keeps one table for the variables of its passes, which is filled with the
bindings of the host when a pass starts, written to by the statements one after the other, and
cleared when the pass ends, wherever it ends. What a statement wrote is still there when a later one
fails. The pass of a session, which hands its variables on from statement to statement, comes to the
same.
-/

namespace Reckon

/-- A session with the table that its passes write to. -/
structure Context (m : Type → Type) where
  session : Session m
  values : VariableTable

/-- Outcomes that write to a table, which keeps what is written when a failure follows. -/
abbrev Writing (m : Type → Type) (α : Type) :=
  Outcome (StateT VariableTable m) α

variable {m : Type → Type} [Monad m]

def Writing.runFrom {α : Type} (x : Writing m α) (values : VariableTable) :
    m (Except Failure α × VariableTable) :=
  x.run.run values

def Outcome.reads {α : Type} (x : Outcome m α) : Writing m α :=
  ExceptT.mk (StateT.lift x.run)

def Writing.table : Writing m VariableTable :=
  ExceptT.mk fun values => return (.ok values, values)

def Writing.set (name : String) (value : Float) : Writing m Unit :=
  ExceptT.mk fun values => return (.ok (), values.set name value)

namespace Session

variable (session : Session m)

def write (previous : Float) (statement : String) : Writing m Float :=
  if Statement.isBlank statement then return previous
  else do
    let (target, formula) ← Outcome.ofExcept (Statement.read statement)
    let values ← Writing.table
    let value ← Outcome.reads
      ((session.scope ⟨values, previous⟩).compute previous session.maxDepth formula)
    match target with
    | some name => Writing.set name value
    | none => pure ()
    return value

def writeAll (previous : Float) (statements : List String) : Writing m Float :=
  statements.foldlM session.write previous

def remember : Except Failure Float → Session m
  | .ok value => { session with lastValue := value }
  | .error _ => session

end Session

namespace Context

variable (context : Context m)

def fill : Context m :=
  { context with values := context.session.bindings }

def clear : Context m :=
  { context with values := .empty }

def runStatements : m (Except Failure Float × Context m) := do
  let writing := context.session.writeAll 0 context.session.statements
  let (outcome, values) ← writing.runFrom context.values
  return (outcome, { context with values })

def value : m (Except Failure Float × Context m) := do
  let (outcome, context) ← context.fill.runStatements
  let context := context.clear
  return (outcome, { context with session := context.session.remember outcome })

end Context

namespace Writing

variable {α β : Type} {values : VariableTable}

/-- The outcome with the table that is left. What a failure leaves is not kept. -/
def kept (x : Writing m α) (values : VariableTable) : Outcome m (α × VariableTable) :=
  ExceptT.mk do
    let (outcome, left) ← x.runFrom values
    return outcome.map fun a => (a, left)

variable [LawfulMonad m]

@[simp] theorem kept_pure (a : α) : (pure a : Writing m α).kept values = pure (a, values) := by
  apply ExceptT.ext
  simp [kept, runFrom, Except.map]

@[simp] theorem kept_throw (failure : Failure) :
    (throw failure : Writing m α).kept values = throw failure := by
  apply ExceptT.ext
  simp [kept, runFrom, Except.map]

@[simp] theorem kept_bind (x : Writing m α) (f : α → Writing m β) :
    (x >>= f).kept values = x.kept values >>= fun (a, left) => (f a).kept left := by
  apply ExceptT.ext
  simp only [kept, runFrom, ExceptT.run_bind, StateT.run_bind, ExceptT.run_mk, bind_assoc]
  refine bind_congr fun left => ?_
  obtain ⟨outcome, left⟩ := left
  cases outcome with
  | error failure => simp [Except.map]
  | ok a => simp [Except.map]

@[simp] theorem kept_reads (x : Outcome m α) :
    (Outcome.reads x).kept values = x >>= fun a => pure (a, values) := by
  apply ExceptT.ext
  simp [kept, runFrom, Outcome.reads]

@[simp] theorem kept_table : (table : Writing m VariableTable).kept values = pure (values, values) := by
  apply ExceptT.ext
  simp only [kept, runFrom, table, ExceptT.run_mk, StateT.run, pure_bind]
  rfl

@[simp] theorem kept_set (name : String) (value : Float) :
    (set name value : Writing m Unit).kept values = pure ((), values.set name value) := by
  apply ExceptT.ext
  simp only [kept, runFrom, set, ExceptT.run_mk, StateT.run, pure_bind]
  rfl

theorem run_kept (x : Writing m α) (values : VariableTable) :
    (x.kept values >>= fun (a, _) => pure a).run = Prod.fst <$> x.runFrom values := by
  simp only [kept, ExceptT.run_bind, ExceptT.run_mk, bind_assoc, map_eq_pure_bind]
  refine bind_congr fun left => ?_
  obtain ⟨outcome, left⟩ := left
  cases outcome <;> simp [Except.map]

end Writing

namespace Session

variable (session : Session m) {values : VariableTable} {previous : Float}

theorem value_eq : session.value = do
    let outcome ← session.pass.run
    return (outcome, session.remember outcome) := by
  unfold value
  refine bind_congr fun outcome => ?_
  cases outcome <;> rfl

variable [LawfulMonad m]

theorem kept_write (statement : String) : (session.write previous statement).kept values =
    session.step ⟨values, previous⟩ statement >>= fun progress =>
      pure (progress.previous, progress.values) := by
  unfold write step
  split
  · simp
  · cases reads : Statement.read statement with
    | error failure => simp
    | ok stated =>
      obtain ⟨target, formula⟩ := stated
      simp only [Outcome.ofExcept_ok, pure_bind, bind_assoc, Scope.compute, Outcome.reading,
        Writing.kept_bind, Writing.kept_table, Writing.kept_reads]
      cases read : Tree.read session.maxDepth 0 formula with
      | error error => simp only [Outcome.throw_bind]
      | ok tree =>
        cases target with
        | none => simp only [bind_assoc, pure_bind, Writing.kept_pure]
        | some name =>
          simp only [bind_assoc, pure_bind, Writing.kept_bind, Writing.kept_set, Writing.kept_pure]

theorem kept_writeAll (statements : List String) :
    (session.writeAll previous statements).kept values =
      statements.foldlM session.step ⟨values, previous⟩ >>= fun progress =>
        pure (progress.previous, progress.values) := by
  induction statements generalizing values previous with
  | nil => simp [writeAll]
  | cons statement statements ih =>
    unfold writeAll at ih ⊢
    rw [List.foldlM_cons, List.foldlM_cons, Writing.kept_bind, kept_write, bind_assoc, bind_assoc]
    refine bind_congr fun progress => ?_
    rw [pure_bind]
    exact ih

theorem run_pass : session.pass.run =
    Prod.fst <$> (session.writeAll 0 session.statements).runFrom session.bindings := by
  rw [← Writing.run_kept, kept_writeAll, bind_assoc]
  simp only [pure_bind]
  rfl

end Session

theorem Context.value_eq [LawfulMonad m] (context : Context m) : context.value = do
    let outcome ← context.session.pass.run
    return (outcome, ⟨context.session.remember outcome, .empty⟩) := by
  rw [Session.run_pass, map_eq_pure_bind, bind_assoc]
  unfold Context.value runStatements
  rw [bind_assoc]
  refine bind_congr fun left => ?_
  rw [pure_bind, pure_bind]
  rfl

end Reckon
