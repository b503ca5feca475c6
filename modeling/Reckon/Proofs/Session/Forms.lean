import Reckon.Proofs.Session.History

/-!
Lists of texts and joined texts. Variables, functions and statements are handed over as a list or as
one text with semicolons. If no entry has a semicolon of its own, the two forms come to the same: the
same failure, and from then on the same of everything a host can see, operation by operation. Only
for statements does an empty list differ from the text it is joined to, which is one blank statement,
and blank statements count for nothing in a pass.
-/

namespace Reckon

namespace Text

variable {separator : Char} {entries : List String}

theorem join_pieces (separator : Char) (s : String) : join separator (pieces separator s) = s := by
  have chars : (pieces separator s).map String.toList = s.toList.splitOn separator := by
    rw [pieces, List.map_map]
    exact (List.map_congr_left fun cs _ => String.toList_ofList).trans (List.map_id _)
  rw [join, chars, List.intercalate_splitOn, String.ofList_toList]

theorem pieces_join (apart : ∀ entry ∈ entries, separator ∉ entry.toList) (nonempty : entries ≠ []) :
    pieces separator (join separator entries) = entries := by
  have texts : (entries.map String.toList).map String.ofList = entries := by
    rw [List.map_map]
    exact (List.map_congr_left fun entry _ => String.ofList_toList).trans (List.map_id _)
  rw [pieces, join, String.toList_ofList, List.splitOn_intercalate, texts]
  · simpa using apart
  · simpa using nonempty

end Text

namespace Entries

inductive Kind where
  | bindings
  | functions
  | statements
  deriving DecidableEq

def Kind.handOver {m : Type → Type} : Kind → Entries → Change m
  | bindings => .addVariables
  | functions => .addFunctions
  | statements => .setText

variable {entries : List String}

def joined (entries : List String) : Entries :=
  .text (Text.join separator entries)

theorem toList_joined (apart : ∀ entry ∈ entries, separator ∉ entry.toList) :
    (joined entries).toList = if entries = [] then [""] else entries := by
  split
  · next empty => subst empty; rfl
  · next nonempty => exact Text.pieces_join apart nonempty

end Entries

/-- What a host can ask a session for, the list of its statements aside. -/
structure Session.Seen where
  value? : String → Option Float
  valueCount : Nat
  function? : String → Except Failure (Option Declaration)
  sources : List String
  text : String
  order : Order
  maxDepth : Nat
  lastValue : Float

def Session.seen {m : Type → Type} (session : Session m) : Seen where
  value? := session.bindings.get?
  valueCount := session.bindings.size
  function? := session.functions.find?
  sources := session.functions.sources
  text := session.text
  order := session.order
  maxDepth := session.maxDepth
  lastValue := session.lastValue

/-- Runs operations and tells what comes of each of them and what can be seen behind it. -/
def Context.observe {m : Type → Type} [Monad m] (context : Context m) :
    List (Operation m) → m (List (Event × Session.Seen))
  | [] => return []
  | operation :: operations => do
    let (event, context) ← context.step operation
    return (event, context.session.seen) :: (← context.observe operations)

namespace Session

variable {m : Type → Type}

/-- Sessions that differ in blank statements at most. -/
structure SameButBlanks (session other : Session m) : Prop where
  stated : session.statements.filter (!Statement.isBlank ·) =
    other.statements.filter (!Statement.isBlank ·)
  text : session.text = other.text
  rest : { session with statements := other.statements } = other

variable {session other : Session m}

theorem SameButBlanks.refl (session : Session m) : session.SameButBlanks session :=
  ⟨rfl, rfl, rfl⟩

theorem SameButBlanks.seen (same : session.SameButBlanks other) : session.seen = other.seen := by
  rw [Session.seen, same.text, ← same.rest]
  rfl

theorem SameButBlanks.remember (same : session.SameButBlanks other)
    (outcome : Except Failure Float) :
    (session.remember outcome).SameButBlanks (other.remember outcome) := by
  cases outcome with
  | error failure => exact same
  | ok value => exact ⟨same.stated, same.text, by rw [← same.rest]; rfl⟩

theorem SameButBlanks.within (same : session.SameButBlanks other) {base : Session m}
    (statements : base.statements = session.statements) :
    base.SameButBlanks { base with statements := other.statements } where
  stated := statements ▸ same.stated
  text := (congrArg (Text.join Entries.separator) statements).trans same.text
  rest := rfl

theorem change_cases (session : Session m) (change : Change m) :
    (∃ entries, change = .setText entries) ∨
      (session.change change).1.statements = session.statements ∧
        ∀ statements, { session with statements }.change change =
          ({ (session.change change).1 with statements }, (session.change change).2) := by
  cases change with
  | setText entries => exact .inl ⟨entries, rfl⟩
  | addVariables entries =>
    right
    cases loaded : session.bindings.load entries.toList with
    | mk bindings failure =>
      simp only [Session.change, addVariables, loaded, implies_true, and_self]
  | _ =>
    right
    simp only [Session.change, setVariables, setVariable, clearVariables, addFunctions,
      clearFunctions, addCallback, clearCallbacks, setOrder, setMaxDepth, implies_true, and_self]

theorem SameButBlanks.change (same : session.SameButBlanks other) (change : Change m) :
    (session.change change).2 = (other.change change).2 ∧
      (session.change change).1.SameButBlanks (other.change change).1 := by
  rw [← same.rest]
  rcases session.change_cases change with ⟨entries, rfl⟩ | ⟨kept, changed⟩
  · exact ⟨rfl, .refl _⟩
  · rw [changed other.statements]
    exact ⟨rfl, same.within kept⟩

variable [Monad m] [LawfulMonad m]

theorem finish_filter (session : Session m) (progress : Progress) (statements : List String) :
    session.finish progress (statements.filter (!Statement.isBlank ·)) =
      session.finish progress statements := by
  induction statements generalizing progress with
  | nil => rfl
  | cons statement statements ih =>
    by_cases blank : Statement.isBlank statement = true
    · rw [List.filter_cons_of_neg (by simp [blank]), session.finish_blank blank]
      exact ih progress
    · rw [List.filter_cons_of_pos (by simpa using blank), finish_cons, finish_cons]
      exact bind_congr fun progress => ih progress

theorem pass_filter (session : Session m) (statements : List String) :
    (session.setText (.list (statements.filter (!Statement.isBlank ·)))).pass =
      (session.setText (.list statements)).pass :=
  session.finish_filter ⟨session.bindings, 0⟩ statements

theorem SameButBlanks.pass (same : session.SameButBlanks other) : session.pass = other.pass := by
  have whole : other = session.setText (.list other.statements) := same.rest.symm
  calc session.pass
      _ = (session.setText (.list session.statements)).pass := rfl
      _ = (session.setText (.list (other.statements.filter (!Statement.isBlank ·)))).pass := by
        rw [← same.stated, pass_filter]
      _ = other.pass := by rw [pass_filter, ← whole]

end Session

namespace Context

variable {m : Type → Type} [Monad m] [LawfulMonad m] {context other : Context m}

theorem observe_eq (same : context.session.SameButBlanks other.session)
    (operations : List (Operation m)) : context.observe operations = other.observe operations := by
  induction operations generalizing context other with
  | nil => rfl
  | cons operation operations ih =>
    have passed {session session' : Session m} (same : session.SameButBlanks session')
        (outcome : Except Failure Float) :
        (observe ⟨session.remember outcome, .empty⟩ operations) =
          observe ⟨session'.remember outcome, .empty⟩ operations := ih (same.remember outcome)
    rw [observe, observe]
    cases operation with
    | change change =>
      obtain ⟨failure, after⟩ := same.change change
      have changed : (context.change change).observe operations =
          (other.change change).observe operations := ih after
      have seen : (context.change change).session.seen = (other.change change).session.seen :=
        after.seen
      simp only [step, pure_bind, failure, changed, seen]
    | pass view =>
      simp only [step, value_eq, bind_assoc, pure_bind, same.pass]
      refine bind_congr fun outcome => ?_
      rw [(same.remember outcome).seen, passed same]
    | evaluate text =>
      have after := (same.change (.setText (.text text))).2
      have set (context : Context m) : (context.change (.setText (.text text))).session =
          (context.session.change (.setText (.text text))).1 := rfl
      simp only [step, value_eq, bind_assoc, pure_bind, set, after.pass]
      refine bind_congr fun outcome => ?_
      rw [(after.remember outcome).seen, passed after]

end Context

namespace Entries

variable {m : Type → Type} {entries : List String}

theorem change_joined (apart : ∀ entry ∈ entries, separator ∉ entry.toList) (session : Session m)
    (kind : Kind) (nonempty : kind = .statements → entries ≠ []) :
    session.change (kind.handOver (.list entries)) =
      session.change (kind.handOver (joined entries)) := by
  have form := toList_joined apart
  by_cases empty : entries = []
  · subst empty
    cases kind with
    | bindings => rfl
    | functions => rfl
    | statements => exact absurd rfl (nonempty rfl)
  · have same : (joined entries).toList = (Entries.list entries).toList := by
      rw [form, if_neg empty]
      rfl
    cases kind with
    | bindings => simp only [Kind.handOver, Session.change, Session.addVariables, same]
    | functions =>
      simp only [Kind.handOver, Session.change, Session.addFunctions, FunctionTable.add, same]
    | statements => simp only [Kind.handOver, Session.change, Session.setText, same]

theorem failure_joined (apart : ∀ entry ∈ entries, separator ∉ entry.toList) (session : Session m)
    (kind : Kind) : (session.change (kind.handOver (.list entries))).2 =
      (session.change (kind.handOver (joined entries))).2 := by
  by_cases statements : kind = .statements
  · subst statements
    rfl
  · rw [change_joined apart session kind fun same => absurd same statements]

theorem sameButBlanks_joined (apart : ∀ entry ∈ entries, separator ∉ entry.toList)
    (session : Session m) (kind : Kind) :
    (session.change (kind.handOver (.list entries))).1.SameButBlanks
      (session.change (kind.handOver (joined entries))).1 := by
  by_cases lost : kind = .statements ∧ entries = []
  · obtain ⟨rfl, rfl⟩ := lost
    exact ⟨rfl, rfl, rfl⟩
  · rw [change_joined apart session kind fun statements empty => lost ⟨statements, empty⟩]
    exact .refl _

variable [Monad m] [LawfulMonad m]

theorem observe_joined (apart : ∀ entry ∈ entries, separator ∉ entry.toList) (context : Context m)
    (kind : Kind) (operations : List (Operation m)) :
    context.observe (.change (kind.handOver (.list entries)) :: operations) =
      context.observe (.change (kind.handOver (joined entries)) :: operations) := by
  have same := sameButBlanks_joined apart context.session kind
  have after : (context.change (kind.handOver (.list entries))).observe operations =
      (context.change (kind.handOver (joined entries))).observe operations :=
    Context.observe_eq same operations
  have seen : (context.change (kind.handOver (.list entries))).session.seen =
      (context.change (kind.handOver (joined entries))).session.seen := same.seen
  simp only [Context.observe, Context.step, pure_bind, failure_joined apart, after, seen]

end Entries

/-- Whether a list or its joined text is handed over, the outcome is the same, and so is all that can
be seen from then on, whatever operations follow; the context itself is the same but for an empty
list of statements. The text of a session is the text it was set to, and blank statements, wherever
they stand, change no pass. -/
theorem forms_agree (m : Type → Type) [Monad m] [LawfulMonad m] :
    (∀ (context : Context m) (entries : List String) (kind : Entries.Kind),
      (∀ entry ∈ entries, Entries.separator ∉ entry.toList) →
      (∀ operations,
        context.observe (.change (kind.handOver (.list entries)) :: operations) =
          context.observe (.change (kind.handOver (.joined entries)) :: operations)) ∧
      ((kind = .statements → entries ≠ []) →
        context.change (kind.handOver (.list entries)) =
          context.change (kind.handOver (.joined entries)))) ∧
    (∀ (session : Session m) (text : String), (session.setText (.text text)).text = text) ∧
    ∀ (session : Session m) (statements others : List String),
      statements.filter (!Statement.isBlank ·) = others.filter (!Statement.isBlank ·) →
      (session.setText (.list statements)).pass = (session.setText (.list others)).pass := by
  refine ⟨fun context entries kind apart => ⟨fun operations => ?_, fun nonempty => ?_⟩, ?_, ?_⟩
  · exact Entries.observe_joined apart context kind operations
  · rw [Context.change, Context.change, Entries.change_joined apart context.session kind nonempty]
  · exact fun session text => Text.join_pieces Entries.separator text
  · intro session statements others same
    rw [← session.pass_filter statements, same, session.pass_filter]

theorem forms_agree_of_areas :
    let context : Context Id := ⟨.start (pure 0), .empty⟩
    let stated := ["a: 2", " ", "area(a, 3)"]
    let bound := ["a=5", "b", "c=7"]
    let declared := [" area(w, h)=w*h ", "", "f(x"]
    (∀ entry ∈ stated ++ bound ++ declared, Entries.separator ∉ entry.toList) ∧
    (context.observe [.change (.setText (.list stated)), .pass .text] =
      context.observe [.change (.setText (.text "a: 2; ;area(a, 3)")), .pass .text]) ∧
    (context.change (.setText (.list stated)) =
      context.change (.setText (.text "a: 2; ;area(a, 3)"))) ∧
    (context.observe [.change (.setText (.list [])), .pass .number] =
      context.observe [.change (.setText (.text "")), .pass .number]) ∧
    (context.observe [.change (.addVariables (.list bound)), .evaluate "a"] =
      context.observe [.change (.addVariables (.text "a=5;b;c=7")), .evaluate "a"]) ∧
    (context.session.addVariables (.text "a=5;b;c=7")).2 = some (.entry "b") ∧
    (context.change (.addVariables (.list bound)) =
      context.change (.addVariables (.text "a=5;b;c=7"))) ∧
    (context.observe [.change (.addFunctions (.list declared)), .evaluate "area(2, 3)"] =
      context.observe [.change (.addFunctions (.text " area(w, h)=w*h ;;f(x")),
        .evaluate "area(2, 3)"]) ∧
    (context.change (.addFunctions (.list declared)) =
      context.change (.addFunctions (.text " area(w, h)=w*h ;;f(x"))) ∧
    (context.session.setText (.list stated)).pass =
      (context.session.setText (.list ["a: 2", "area(a, 3)"])).pass := by
  intro context stated bound declared
  have apart : ∀ entry ∈ stated ++ bound ++ declared, Entries.separator ∉ entry.toList := by decide
  obtain ⟨⟨apartStated, apartBound⟩, apartDeclared⟩ :=
    (List.forall_mem_append.trans (and_congr_left' List.forall_mem_append)).mp apart
  have full : stated.filter (!Statement.isBlank ·) =
      ["a: 2", "area(a, 3)"].filter (!Statement.isBlank ·) := by decide
  obtain ⟨forms, -, passes⟩ := forms_agree Id
  obtain ⟨statements, sameStatements⟩ := forms context stated .statements apartStated
  obtain ⟨nothing, -⟩ := forms context [] .statements (by simp)
  obtain ⟨bindings, sameBindings⟩ := forms context bound .bindings apartBound
  obtain ⟨functions, sameFunctions⟩ := forms context declared .functions apartDeclared
  have stopped : (context.session.addVariables (.text "a=5;b;c=7")).2 = some (.entry "b") := by
    decide +kernel
  exact ⟨apart, statements _, sameStatements (by simp [stated]), nothing _, bindings _, stopped,
    sameBindings nofun, functions _, sameFunctions nofun, passes _ _ _ full⟩

end Reckon
