import Reckon.Proofs.Session.Dependence
import Reckon.Proofs.Session.InPlace
import Reckon.Settings

/-!
Histories of a context. A host changes a context and runs passes in any order, and may change its
own state at any time. Whatever the history is, no variables of a pass are left, the last value is
the result of the last pass that had one, and a pass changes nothing else. With a host whose answers
depend on the question only, the outcome of a pass is therefore a function of the settings.
-/

namespace Reckon

inductive Change (m : Type → Type) where
  | addVariables (entries : Entries)
  | setVariables (bindings : List (String × Float))
  | setVariable (name : String) (value : Float)
  | clearVariables
  | addFunctions (entries : Entries)
  | clearFunctions
  | addCallback (callback : Callback m)
  | clearCallbacks
  | setOrder (order : Order)
  | setMaxDepth (maxDepth : Nat)
  | setText (entries : Entries)

inductive View where
  | number
  | truth
  | integer
  | text

def View.Shown : View → Type
  | number => Float
  | truth => Bool
  | integer => Int
  | text => String

def View.show : (view : View) → Float → view.Shown
  | number => id
  | truth => Session.truth
  | integer => Session.integer
  | text => Session.describe

inductive Operation (m : Type → Type) where
  | change (change : Change m)
  | pass (view : View)
  | evaluate (text : String)

inductive Event where
  | changed (failure : Option Failure)
  | passed (view : View) (outcome : Except Failure Float)

namespace Session

variable {m : Type → Type} (session : Session m)

def change : Change m → Session m × Option Failure
  | .addVariables entries => session.addVariables entries
  | .setVariables bindings => (session.setVariables bindings, none)
  | .setVariable name value => (session.setVariable name value, none)
  | .clearVariables => (session.clearVariables, none)
  | .addFunctions entries => (session.addFunctions entries, none)
  | .clearFunctions => (session.clearFunctions, none)
  | .addCallback callback => (session.addCallback callback, none)
  | .clearCallbacks => (session.clearCallbacks, none)
  | .setOrder order => (session.setOrder order, none)
  | .setMaxDepth maxDepth => (session.setMaxDepth maxDepth, none)
  | .setText entries => (session.setText entries, none)

theorem lastValue_change (change : Change m) :
    (session.change change).1.lastValue = session.lastValue := by
  cases change with
  | addVariables entries =>
    unfold Session.change addVariables
    generalize session.bindings.load entries.toList = loaded
    rfl
  | _ =>
    simp only [Session.change, setVariables, setVariable, clearVariables, addFunctions,
      clearFunctions, addCallback, clearCallbacks, setOrder, setMaxDepth, setText]

variable [Monad m]

def view : (view : View) → m (Except Failure view.Shown × Session m)
  | .number => session.value
  | .truth => session.asBool
  | .integer => session.asInt
  | .text => session.asText

theorem view_eq [LawfulMonad m] (view : View) : session.view view = do
    let (outcome, session) ← session.value
    return (outcome.map view.show, session) := by
  cases view with
  | number =>
    refine Eq.trans (bind_pure session.value).symm (bind_congr fun left => ?_)
    obtain ⟨outcome, session⟩ := left
    cases outcome <;> rfl
  | truth | integer | text => rfl

end Session

namespace Context

variable {m : Type → Type} [Monad m] (context : Context m)

def change (change : Change m) : Context m :=
  { context with session := (context.session.change change).1 }

def step : Operation m → m (Event × Context m)
  | .change change => return (.changed (context.session.change change).2, context.change change)
  | .pass view => do
    let (outcome, context) ← context.value
    return (.passed view outcome, context)
  | .evaluate text => do
    let (outcome, context) ← (context.change (.setText (.text text))).value
    return (.passed .number outcome, context)

end Context

namespace Event

def result? : Event → Option Float
  | .passed _ (.ok value) => some value
  | _ => none

/-- The result of the last pass in a history that succeeded, or 0. -/
def lastResult (events : List Event) : Float :=
  (events.reverse.findSome? result?).getD 0

theorem lastResult_append (events : List Event) (event : Event) :
    lastResult (events ++ [event]) = event.result?.getD (lastResult events) := by
  unfold lastResult
  rw [List.reverse_append, List.reverse_singleton, List.singleton_append, List.findSome?_cons]
  cases event.result? <;> rfl

end Event

variable {σ : Type}

/-- The contexts that a host can come to, each with what came of the operations before. -/
inductive Reached : List Event → Context (StateM σ) → Prop
  | start (random : StateM σ Float) : Reached [] ⟨.start random, .empty⟩
  | settings (random : StateM σ Float) (settings : Settings) :
    Reached [] ⟨.ofSettings random settings, .empty⟩
  | step {events : List Event} {event : Event} {context next : Context (StateM σ)} {s s' : σ}
    (operation : Operation (StateM σ)) : Reached events context →
    (context.step operation).run s = ((event, next), s') → Reached (events ++ [event]) next

namespace Context

variable (context : Context (StateM σ)) (s : σ)

theorem run_change (change : Change (StateM σ)) : (context.step (.change change)).run s =
    ((.changed (context.session.change change).2, context.change change), s) :=
  rfl

theorem run_pass (view : View) :
    (context.step (.pass view)).run s =
      ((.passed view (context.session.pass.runFrom s).1,
        ⟨context.session.remember (context.session.pass.runFrom s).1, .empty⟩),
        (context.session.pass.runFrom s).2) := by
  simp only [step, value_eq, bind_assoc]
  rfl

end Context

/-- What every history leaves of its passes. -/
structure Clean (events : List Event) (context : Context (StateM σ)) : Prop where
  values : context.values = .empty
  lastValue : context.session.lastValue = Event.lastResult events

namespace Clean

variable {events : List Event} {context : Context (StateM σ)}

theorem change (clean : Clean events context) (change : Change (StateM σ)) :
    Clean events (context.change change) where
  values := clean.values
  lastValue := (context.session.lastValue_change change).trans clean.lastValue

theorem changed (clean : Clean events context) (failure : Option Failure) :
    Clean (events ++ [.changed failure]) context where
  values := clean.values
  lastValue := by
    rw [Event.lastResult_append]
    exact clean.lastValue

theorem remember (clean : Clean events context) (view : View) (outcome : Except Failure Float) :
    context.session.remember outcome = { context.session with
      lastValue := Event.lastResult (events ++ [.passed view outcome]) } := by
  rw [Event.lastResult_append, ← clean.lastValue]
  cases outcome <;> rfl

theorem passed (clean : Clean events context) (view : View) (outcome : Except Failure Float) :
    Clean (events ++ [.passed view outcome]) ⟨context.session.remember outcome, .empty⟩ where
  values := rfl
  lastValue := by rw [clean.remember view]

end Clean

variable {events : List Event} {event : Event} {context next : Context (StateM σ)} {s s' : σ}

theorem Clean.step_pass (clean : Clean events context) {view : View}
    (ran : (context.step (.pass view)).run s = ((event, next), s')) :
    Clean (events ++ [event]) next := by
  rw [context.run_pass] at ran
  obtain ⟨⟨rfl, rfl⟩, -⟩ := by simpa using ran
  exact clean.passed view _

theorem Clean.step (clean : Clean events context) (operation : Operation (StateM σ))
    (ran : (context.step operation).run s = ((event, next), s')) :
    Clean (events ++ [event]) next := by
  cases operation with
  | change change =>
    rw [context.run_change] at ran
    obtain ⟨⟨rfl, rfl⟩, -⟩ := by simpa using ran
    exact (clean.change change).changed _
  | pass view => exact clean.step_pass ran
  | evaluate text => exact (clean.change (.setText (.text text))).step_pass ran

theorem Reached.clean (reached : Reached events context) : Clean events context := by
  induction reached with
  | start random => exact ⟨rfl, rfl⟩
  | settings random settings => exact ⟨rfl, rfl⟩
  | step operation _ ran ih => exact ih.step operation ran

theorem Session.SameSettings.remember {session other : Session (StateM σ)}
    (same : session.SameSettings other) (outcome : Except Failure Float) :
    (session.remember outcome).SameSettings other := by
  cases outcome with
  | error failure => exact same
  | ok value =>
    exact ⟨same.statements, same.bindings, same.functions, same.host, same.order, same.maxDepth⟩

theorem Clean.run_pass (clean : Clean events context) (view : View) (s : σ) :
    ∃ outcome s', (context.step (.pass view)).run s =
      ((.passed view outcome, ⟨{ context.session with
        lastValue := Event.lastResult (events ++ [.passed view outcome]) }, .empty⟩), s') :=
  ⟨_, _, by rw [context.run_pass, clean.remember view]⟩

theorem Context.run_pass_of_steady {host : Host Id} {other : Context (StateM σ)}
    (steady : context.session.host = host.steady)
    (same : other.session.SameSettings context.session) (view : View) (s : σ) :
    (other.step (.pass view)).run s =
      ((.passed view (context.session.hostedBy host).pass.run,
        ⟨other.session.remember (context.session.hostedBy host).pass.run, .empty⟩), s) := by
  rw [other.run_pass, same.pass, Session.runFrom_pass_of_steady steady]

/-- Nothing of a pass is left behind but its result, however it ends. Between operations there are
no pass variables, the last value is the result of the last pass that succeeded, and a pass changes
nothing else but the statements that are to be evaluated. The views of a pass are views of its
value, and a pass in place is the pass of the session. With a steady host the outcome is the same
in every context with these settings, and again after that. -/
theorem nothing_leaks (reached : Reached events context) :
    (context.values = .empty ∧ context.session.lastValue = Event.lastResult events) ∧
    (∀ view s, ∃ outcome s', (context.step (.pass view)).run s =
      ((.passed view outcome, ⟨{ context.session with
        lastValue := Event.lastResult (events ++ [.passed view outcome]) }, .empty⟩), s')) ∧
    (∀ text s, ∃ outcome s', (context.step (.evaluate text)).run s =
      ((.passed .number outcome, ⟨{ context.session with
        statements := (Entries.text text).toList
        lastValue := Event.lastResult (events ++ [.passed .number outcome]) }, .empty⟩), s')) ∧
    (context.value = do
      let (outcome, session) ← context.session.value
      return (outcome, ⟨session, .empty⟩)) ∧
    (∀ view, context.session.view view = do
      let (outcome, session) ← context.session.value
      return (outcome.map view.show, session)) ∧
    ∀ host, context.session.host = Host.steady host → ∃ outcome, ∀ other : Context (StateM σ),
      other.session.SameSettings context.session → ∀ view s, ∃ next,
        (other.step (.pass view)).run s = ((.passed view outcome, next), s) ∧
        ∀ view s, ((next.step (.pass view)).run s).1.1 = .passed view outcome := by
  have clean := reached.clean
  refine ⟨⟨clean.values, clean.lastValue⟩, clean.run_pass, fun text s => ?_, ?_,
    context.session.view_eq, fun host steady => ?_⟩
  · exact (clean.change (.setText (.text text))).run_pass .number s
  · rw [context.value_eq, Session.value_eq, bind_assoc]
    rfl
  · refine ⟨(context.session.hostedBy host).pass.run, fun other same view s => ?_⟩
    refine ⟨_, Context.run_pass_of_steady steady same view s, fun view s => ?_⟩
    rw [Context.run_pass_of_steady steady (same.remember _) view s]

def stumbling : Context (StateM Unit) :=
  ⟨(Session.start (pure 0)).setText (.text "x: 1; )"), .empty⟩

theorem nothing_leaks_of_stumbling : Reached [.changed none] stumbling ∧
    stumbling.session.host = Host.steady ⟨[], 0⟩ ∧
    ∃ outcome next, (stumbling.step (.pass .truth)).run () = ((.passed .truth outcome, next), ()) ∧
      ((next.step (.pass .text)).run ()).1.1 = .passed .text outcome := by
  have set : ((⟨.start (pure 0), .empty⟩ : Context (StateM Unit)).step
      (.change (.setText (.text "x: 1; )")))).run () = ((.changed none, stumbling), ()) := rfl
  have reached : Reached [.changed none] stumbling := .step _ (.start (pure 0)) set
  have steady : stumbling.session.host = Host.steady ⟨[], 0⟩ := rfl
  obtain ⟨outcome, same⟩ := (nothing_leaks reached).2.2.2.2.2 _ steady
  obtain ⟨next, ran, again⟩ := same stumbling (.refl _) .truth ()
  exact ⟨reached, steady, outcome, next, ran, again .text ()⟩

end Reckon
