import Reckon.Proofs.Scope.Questions
import Reckon.Proofs.Scope.Respelling
import Reckon.Proofs.Session.Renaming
import Reckon.Proofs.Session.Run

/-!
A pass sees its texts up to their spelling. Statements that are spelled alike assign to the same name
or to none, and compute formulas that are spelled alike. So a pass over texts in another spelling has
the same value, or fails for the same reason, and asks the host the same questions, all of them under
names in lower case.
-/

namespace Reckon

namespace Statement

variable {statement statement' : String}

/-- Statements that both lack a target, or whose targets and formulas are spelled alike. -/
def Respelled : String → String → Prop :=
  Scanner.RespelledAt ':' Scanner.Respelled

instance : DecidableRel Respelled :=
  inferInstanceAs (DecidableRel (Scanner.RespelledAt ':' Scanner.Respelled))

theorem Respelled.isBlank_eq (respelled : Respelled statement statement') :
    isBlank statement = isBlank statement' :=
  respelled.isBlankText_eq (by decide) Scanner.Respelled.spelled

def SameStated (stated stated' : Option String × String) : Prop :=
  stated.1 = stated'.1 ∧ Scanner.Equivalent stated.2 stated'.2

theorem Respelled.read_alike (respelled : Respelled statement statement') :
    Failure.Alike SameStated (read statement) (read statement') := by
  cases respelled with
  | uncut uncut uncut' whole =>
    rw [read, read, uncut, uncut']
    exact .ok ⟨rfl, whole.equivalent⟩
  | cut cut cut' target formula =>
    obtain ⟨tokens, tokens', written, written', each⟩ := target.exists_written
    rw [read, read, cut, cut']
    dsimp only
    rw [Scanner.tokens_eq_ok_iff.mpr written, Scanner.tokens_eq_ok_iff.mpr written']
    cases each with
    | nil => exact .error (Failure.outline_target _ _)
    | @cons token token' _ _ same rest =>
      have lower := same.lowercase_eq (written.wellFormed List.mem_cons_self)
        (written'.wellFormed List.mem_cons_self)
      obtain ⟨kind, name⟩ := token
      obtain ⟨kind', name'⟩ := token'
      obtain rfl : kind = kind' := same.kind
      cases kind with
      | identifier =>
        cases rest with
        | nil => exact .ok ⟨congrArg some (lower rfl), formula.equivalent⟩
        | cons => exact .error (Failure.outline_target _ _)
      | _ => exact .error (Failure.outline_target _ _)

end Statement

namespace Simulation

variable {m n : Type → Type} [Monad m] [Monad n] [LawfulMonad m] [LawfulMonad n]
variable {sim : Simulation m n} {session : Session m} {session' : Session n}

theorem Coarse.finish (coarse : sim.Coarse)
    (scopes : ∀ progress, sim.Respelled (session.scope progress) (session'.scope progress))
    {statements statements' : List String}
    (each : List.Forall₂ Statement.Respelled statements statements') (progress : Session.Progress) :
    sim.Rel (session.finish progress statements) (session'.finish progress statements') := by
  induction each generalizing progress with
  | nil =>
    rw [Session.finish_nil, Session.finish_nil]
    exact sim.pure progress.previous
  | @cons statement statement' _ _ first _ ih =>
    by_cases blank : Statement.isBlank statement = true
    · rw [session.finish_blank blank, session'.finish_blank (first.isBlank_eq ▸ blank)]
      exact ih progress
    · have full : Statement.isBlank statement' ≠ true := first.isBlank_eq ▸ blank
      have read := first.read_alike
      generalize reads : Statement.read statement = result,
        reads' : Statement.read statement' = result' at read
      cases read with
      | error same =>
        rw [session.finish_unreadable blank reads, session'.finish_unreadable full reads']
        exact coarse same
      | @ok stated stated' both =>
        obtain ⟨target, formula⟩ := stated
        obtain ⟨target', formula'⟩ := stated'
        obtain ⟨same, equivalent⟩ := both
        obtain rfl : target = target' := same
        rw [session.finish_stated blank reads, session'.finish_stated full reads']
        refine sim.bind ?_ fun value => ih (progress.after target value)
        have limits : session.maxDepth = session'.maxDepth := (scopes progress).maxDepth
        rw [Scope.compute, Scope.compute, ← limits]
        exact coarse.formula equivalent rfl fun name mentioned =>
          ((scopes progress).alike coarse).resolve sim mentioned.isName

variable {σ : Type}

theorem coarse_upToWithin (within : σ → Prop) : (upToWithin Failure.outline within).Coarse :=
  fun same _ inside => ⟨⟨congrArg Except.error same, rfl⟩, inside⟩

def AskedByName (state : σ × List Question) : Prop :=
  ∀ question ∈ state.2, Scanner.IsName question.name

theorem hosts_noted (host : Host (StateM σ)) :
    (upToWithin Failure.outline AskedByName).Hosts Scanner.IsName host.noted host.noted where
  callbacks name named arguments := by
    refine List.forall₂_same.mpr fun noted mem => ?_
    obtain ⟨place, below, rfl⟩ := List.mem_mapIdx.mp mem
    rintro ⟨s, questions⟩ inside
    refine ⟨⟨rfl, rfl⟩, ?_⟩
    exact List.forall_mem_append.mpr ⟨inside, List.forall_mem_singleton.mpr named⟩
  random := fun (s, questions) inside => ⟨⟨rfl, rfl⟩, inside⟩

end Simulation

namespace Session

def withTexts {m : Type → Type} (session : Session m) (statements sources : List String) : Session m :=
  (session.setText (.list statements)).clearFunctions.addFunctions (.list sources)

variable {m : Type → Type} [Monad m] [LawfulMonad m] {statements statements' : List String}
variable {sources sources' : List String}

theorem pass_respelled {sim : Simulation m m} (coarse : sim.Coarse) (session : Session m)
    (hosts : sim.Hosts Scanner.IsName session.host session.host)
    (stated : List.Forall₂ Statement.Respelled statements statements')
    (declared : List.Forall₂ Declaration.Respelled sources sources') :
    sim.Rel (session.withTexts statements sources).pass
      (session.withTexts statements' sources').pass := by
  have kept := FunctionTable.respelled_kept declared
  have scopes : ∀ progress, sim.Respelled ((session.withTexts statements sources).scope progress)
      ((session.withTexts statements' sources').scope progress) :=
    fun _ => ⟨rfl, kept, hosts, rfl, rfl, rfl⟩
  exact coarse.finish scopes stated ⟨session.bindings, 0⟩

/-- A pass sees statements and function sources only up to blanks, the case of letters and the style
of brackets: in any other spelling it has the same value or fails for the same reason, and asks the
same callbacks in the same order, with the same arguments and under the same names, in lower case. -/
theorem spelling_unseen {σ : Type} (session : Session (StateM σ))
    (stated : List.Forall₂ Statement.Respelled statements statements')
    (declared : List.Forall₂ Declaration.Respelled sources sources') (s : σ) :
    let first := session.withTexts statements sources
    let second := session.withTexts statements' sources'
    Outcome.SameUpTo Failure.outline (first.pass.runFrom s) (second.pass.runFrom s) ∧
      Outcome.SameUpTo Failure.outline (first.noted.pass.runFrom (s, []))
        (second.noted.pass.runFrom (s, [])) ∧
      ∀ question ∈ (first.noted.pass.runFrom (s, [])).2.2,
        Text.lowercase question.name = question.name := by
  obtain ⟨questions, names⟩ := session.noted.pass_respelled (Simulation.coarse_upToWithin _)
    (Simulation.hosts_noted session.host) stated declared (s, []) (List.forall_mem_nil _)
  exact ⟨sameUpTo_of_noted questions, questions, fun question mem => (names question mem).2⟩

theorem spelling_unseen_of_capitals :
    let first := sharing.withTexts ["y: F(2, a)", "x+Y"] ["f(a, b)=Rate*(a+b)"]
    let second := sharing.withTexts [" Y :f [2 ,A]", "X\t+ y"] ["F{ A,B } = rate * [a + B]"]
    List.Forall₂ Statement.Respelled ["y: F(2, a)", "x+Y"] [" Y :f [2 ,A]", "X\t+ y"] ∧
      List.Forall₂ Declaration.Respelled ["f(a, b)=Rate*(a+b)"] ["F{ A,B } = rate * [a + B]"] ∧
      Outcome.SameUpTo Failure.outline (first.pass.runFrom 0) (second.pass.runFrom 0) ∧
      Outcome.SameUpTo Failure.outline (first.noted.pass.runFrom (0, []))
        (second.noted.pass.runFrom (0, [])) ∧
      ∀ question ∈ (first.noted.pass.runFrom (0, [])).2.2,
        Text.lowercase question.name = question.name := by
  have assigns : Statement.Respelled "y: F(2, a)" " Y :f [2 ,A]" := by decide +kernel
  have adds : Statement.Respelled "x+Y" "X\t+ y" := by decide +kernel
  have declares : Declaration.Respelled "f(a, b)=Rate*(a+b)" "F{ A,B } = rate * [a + B]" := by
    decide +kernel
  have stated := List.Forall₂.cons assigns (.cons adds .nil)
  have declared := List.Forall₂.cons declares .nil
  exact ⟨stated, declared, spelling_unseen sharing stated declared 0⟩

end Session

end Reckon
