import Reckon.Proofs.Evaluation.Simulation

/-!
Outcomes up to the wording of their failures. Two failures are of one variant if they differ only in
the text that could not be read, and in the name that an empty argument is reported under.
-/

namespace Reckon

/-- A failure without the text that could not be read. -/
def Failure.variant : Failure → Failure
  | .read error => .read ⟨error.fault.variant, ""⟩
  | failure => failure

/-- A failure without the texts that it was found in: the text that could not be read, the source of
a declaration or the statement of a target. -/
def Failure.outline : Failure → Failure
  | .declaration _ fault => .declaration "" fault
  | .target _ => .target ""
  | failure => failure.variant

theorem Failure.outline_declaration (source source' : String) (fault : DeclarationFault) :
    (declaration source fault).outline = (declaration source' fault).outline :=
  rfl

theorem Failure.outline_target (statement statement' : String) :
    (target statement).outline = (target statement').outline :=
  rfl

inductive Failure.Alike {α β : Type} (related : α → β → Prop) :
    Except Failure α → Except Failure β → Prop
  | ok {a : α} {b : β} : related a b → Alike related (.ok a) (.ok b)
  | error {failure failure' : Failure} : failure.outline = failure'.outline →
    Alike related (.error failure) (.error failure')

/-- The same value or failures that are the same to `view`, with the host in the same state. -/
structure Outcome.SameUpTo {ε σ α : Type} (view : Failure → ε) (x y : Except Failure α × σ) :
    Prop where
  outcome : x.1.mapError view = y.1.mapError view
  state : x.2 = y.2

variable {ε σ α β : Type} {view : Failure → ε}

theorem Outcome.SameUpTo.bind {x y : Outcome (StateM σ) α} {f g : α → Outcome (StateM σ) β} {s : σ}
    (first : SameUpTo view (x.runFrom s) (y.runFrom s))
    (later : ∀ a s', x.runFrom s = (.ok a, s') →
      SameUpTo view ((f a).runFrom s') ((g a).runFrom s')) :
    SameUpTo view ((x >>= f).runFrom s) ((y >>= g).runFrom s) := by
  rw [runFrom_bind, runFrom_bind]
  generalize x.runFrom s = left, y.runFrom s = right at first later ⊢
  obtain ⟨outcome, state⟩ := first
  obtain ⟨a | a, s'⟩ := left
  · obtain ⟨b | b, s''⟩ := right
    · exact ⟨congrArg Except.error (Except.error.inj outcome), state⟩
    · contradiction
  · obtain ⟨b | b, s''⟩ := right
    · contradiction
    · obtain rfl : a = b := Except.ok.inj outcome
      obtain rfl : s' = s'' := state
      exact later a s' rfl

namespace Simulation

variable {failure failure' : Failure}

def upTo (view : Failure → ε) (σ : Type) : Simulation (StateM σ) (StateM σ) where
  Rel x y := ∀ s, Outcome.SameUpTo view (x.runFrom s) (y.runFrom s)
  pure _ _ := ⟨rfl, rfl⟩
  throw _ _ := ⟨rfl, rfl⟩
  bind first later s := (first s).bind fun a s' _ => later a s'

theorem upTo_refl (x : Outcome (StateM σ) α) : (upTo view σ).Rel x x :=
  fun _ => ⟨rfl, rfl⟩

theorem upTo_throw (same : view failure = view failure') :
    (upTo view σ).Rel (MonadExcept.throw failure : Outcome (StateM σ) α)
      (MonadExcept.throw failure') :=
  fun _ => ⟨congrArg Except.error same, rfl⟩

/-- Outcomes that are the same from every state within bounds, up to a view of the failures, and that
never leave the bounds. -/
def upToWithin (view : Failure → ε) (within : σ → Prop) : Simulation (StateM σ) (StateM σ) where
  Rel x y := ∀ s, within s →
    Outcome.SameUpTo view (x.runFrom s) (y.runFrom s) ∧ within (x.runFrom s).2
  pure _ _ inside := ⟨⟨rfl, rfl⟩, inside⟩
  throw _ _ inside := ⟨⟨rfl, rfl⟩, inside⟩
  bind := by
    intro α β x y f g first later s inside
    obtain ⟨same, inside'⟩ := first s inside
    refine ⟨same.bind fun a s' ran => (later a s' ?_).1, ?_⟩
    · rwa [ran] at inside'
    · rw [Outcome.runFrom_bind]
      generalize x.runFrom s = left at inside'
      obtain ⟨outcome | a, s'⟩ := left
      · exact inside'
      · exact (later a s' inside').2

end Simulation

end Reckon
