import Reckon.Proofs.Bracket.Neutral
import Reckon.Proofs.Steps
import Reckon.Scanner

/-!
Nested words of brackets. What counts in a text are its brackets, each of a style and facing one
way, and a word of brackets nests when each closing bracket closes an opening one of its own style.
The check runs over the word and holds the brackets that are still open. It stops at the first
closing bracket that closes none of them, and what is open there decides the fault.
-/

namespace Reckon.Bracket

inductive Mark where
  | opening (style : Style)
  | closing (style : Style)
  deriving DecidableEq, Repr

def Mark.char : Mark → Char
  | .opening .curly => '{'
  | .closing .curly => '}'
  | .opening .square => '['
  | .closing .square => ']'
  | .opening .round => '('
  | .closing .round => ')'

def Mark.all : List Mark :=
  [.opening .curly, .closing .curly, .opening .square, .closing .square, .opening .round,
    .closing .round]

def mark? (c : Char) : Option Mark :=
  Mark.all.find? (·.char = c)

def word (cs : List Char) : List Mark :=
  cs.filterMap mark?

inductive Nested : List Mark → Prop
  | nothing : Nested []
  | pair {style : Style} {inside behind : List Mark} : Nested inside → Nested behind →
    Nested (.opening style :: (inside ++ .closing style :: behind))

variable {front rest inside behind marks : List Mark} {mark : Mark} {style : Style}
  {stack next final below : List Style} {fault : Fault} {c : Char} {cs : List Char}

theorem mark?_eq_some_iff : mark? c = some mark ↔ c = mark.char := by
  constructor
  · intro found
    have same := List.find?_some found
    exact (of_decide_eq_true same).symm
  · rintro rfl
    cases mark with
    | opening style | closing style => cases style <;> rfl

theorem opens?_eq_some_iff : opens? c = some style ↔ c = (Mark.opening style).char := by
  constructor
  · intro opens
    unfold opens? at opens
    split at opens <;> cases opens <;> rfl
  · rintro rfl
    cases style <;> rfl

theorem closes?_eq_some_iff : closes? c = some style ↔ c = (Mark.closing style).char := by
  constructor
  · intro closes
    unfold closes? at closes
    split at closes <;> cases closes <;> rfl
  · rintro rfl
    cases style <;> rfl

theorem word_cons_opening (opens : opens? c = some style) :
    word (c :: cs) = .opening style :: word cs :=
  List.filterMap_cons_some (mark?_eq_some_iff.mpr (opens?_eq_some_iff.mp opens))

theorem word_cons_closing (closes : closes? c = some style) :
    word (c :: cs) = .closing style :: word cs :=
  List.filterMap_cons_some (mark?_eq_some_iff.mpr (closes?_eq_some_iff.mp closes))

theorem word_cons_plain (plain : opens? c = none ∧ closes? c = none) :
    word (c :: cs) = word cs := by
  refine List.filterMap_cons_none ?_
  cases found : mark? c with
  | none => rfl
  | some mark =>
    have written := mark?_eq_some_iff.mp found
    cases mark with
    | opening style => simp [opens?_eq_some_iff.mpr written] at plain
    | closing style => simp [closes?_eq_some_iff.mpr written] at plain

theorem Nested.append (first : Nested front) (second : Nested rest) : Nested (front ++ rest) := by
  induction first with
  | nothing => exact second
  | pair inside _ _ later =>
    rw [List.cons_append, List.append_assoc, List.cons_append]
    exact .pair inside later

def step : List Style → Mark → Except Fault (List Style)
  | stack, .opening style => .ok (style :: stack)
  | top :: below, .closing style => if top = style then .ok below else .error .mismatch
  | [], .closing _ => .error .unbalanced

theorem step_eq_ok_iff : step stack (.closing style) = .ok below ↔ stack = style :: below := by
  cases stack with
  | nil => simp [step]
  | cons top stack =>
    by_cases same : top = style
    · simp [step, same]
    · simp [step, same]

theorem step_eq_mismatch_iff : step stack (.closing style) = .error .mismatch ↔
    ∃ top below, stack = top :: below ∧ top ≠ style := by
  cases stack with
  | nil => simp [step]
  | cons top stack => simp [step]

theorem step_eq_unbalanced_iff : step stack (.closing style) = .error .unbalanced ↔ stack = [] := by
  cases stack with
  | nil => simp [step]
  | cons top stack =>
    by_cases same : top = style
    · simp [step, same]
    · simp [step, same]

theorem check_eq_run (stack : List Style) (cs : List Char) :
    check stack cs = match (word cs).foldlM step stack with
      | .ok [] => none
      | .ok (_ :: _) => some .unbalanced
      | .error fault => some fault := by
  induction cs generalizing stack with
  | nil => cases stack <;> rfl
  | cons c cs ih =>
    cases opens : opens? c with
    | some style =>
      rw [check_opens opens, word_cons_opening opens, ih, Steps.foldlM_cons_of_ok rfl]
    | none =>
      cases closes : closes? c with
      | none =>
        rw [check_plain ⟨opens, closes⟩, word_cons_plain ⟨opens, closes⟩, ih]
      | some style =>
        rw [word_cons_closing closes]
        cases stack with
        | nil => simp only [check, opens, closes]; rfl
        | cons top below =>
          by_cases same : top = style
          · subst same
            rw [check_closes opens closes, ih, Steps.foldlM_cons_of_ok (step_eq_ok_iff.mpr rfl)]
          · have stops : step (top :: below) (.closing style) = .error .mismatch := if_neg same
            simp only [check, opens, closes, if_neg same, List.foldlM_cons, stops]
            rfl

theorem Nested.run_eq (nested : Nested marks) : marks.foldlM step stack = .ok stack := by
  induction nested generalizing stack with
  | nothing => rfl
  | pair _ _ inner later =>
    rw [Steps.foldlM_cons_of_ok rfl, Steps.foldlM_append_of_ok inner,
      Steps.foldlM_cons_of_ok (step_eq_ok_iff.mpr rfl), later]

/-- A word with the brackets that it opens and does not close, nearest first. -/
inductive Leaves : List Mark → List Style → Prop
  | nested {marks : List Mark} : Nested marks → Leaves marks []
  | opened {front inside : List Mark} {style : Style} {below : List Style} :
    Leaves front below → Nested inside → Leaves (front ++ .opening style :: inside) (style :: below)

theorem Leaves.append_nested (leaves : Leaves front stack) (nested : Nested rest) :
    Leaves (front ++ rest) stack := by
  cases leaves with
  | nested first => exact .nested (first.append nested)
  | opened outer inner =>
    rw [List.append_assoc, List.cons_append]
    exact .opened outer (inner.append nested)

theorem Leaves.concat (leaves : Leaves front stack) (stepped : step stack mark = .ok next) :
    Leaves (front ++ [mark]) next := by
  cases mark with
  | opening style =>
    obtain rfl := Except.ok.inj stepped
    exact .opened leaves .nothing
  | closing style =>
    obtain rfl := step_eq_ok_iff.mp stepped
    cases leaves with
    | opened outer inner =>
      rw [List.append_assoc, List.cons_append]
      exact outer.append_nested (.pair inner .nothing)

theorem Leaves.append (leaves : Leaves front stack) (ran : rest.foldlM step stack = .ok final) :
    Leaves (front ++ rest) final := by
  induction rest generalizing front stack with
  | nil =>
    obtain rfl := Except.ok.inj ran
    rwa [List.append_nil]
  | cons mark rest ih =>
    obtain ⟨next, stepped, ran⟩ := Steps.exists_of_foldlM_cons ran
    have further := ih (leaves.concat stepped) ran
    rwa [List.append_assoc, List.singleton_append] at further

theorem run_eq_ok_iff : marks.foldlM step [] = .ok stack ↔ Leaves marks stack := by
  constructor
  · exact Leaves.append (.nested .nothing)
  · intro leaves
    induction leaves with
    | nested nested => exact nested.run_eq
    | opened _ inner ih =>
      rw [Steps.foldlM_append_of_ok ih, Steps.foldlM_cons_of_ok rfl, inner.run_eq]

theorem run_eq_nil_iff : marks.foldlM step [] = .ok [] ↔ Nested marks := by
  rw [run_eq_ok_iff]
  exact ⟨fun leaves => by cases leaves; assumption, .nested⟩

/-- The nearest bracket that is open behind `front` is of this style. -/
def Tops (front : List Mark) (style : Style) : Prop :=
  ∃ before inside, front = before ++ .opening style :: inside ∧ Nested inside

/-- Each closing bracket of a word can be matched: it is of the style that is open before it. -/
def Matched (marks : List Mark) : Prop :=
  ∀ before style after, marks = before ++ .closing style :: after → Tops before style

/-- A closing bracket of this style behind `front` is the first that cannot be matched. -/
structure FirstUnmatched (front : List Mark) (style : Style) : Prop where
  matched : Matched front
  unmatched : ¬ Tops front style

/-- An opening bracket of this style in front of `behind` is never closed. -/
def StaysOpen (style : Style) (behind : List Mark) : Prop :=
  ∀ inside after, behind = inside ++ .closing style :: after → ¬ Nested inside

theorem tops_iff (ran : front.foldlM step [] = .ok stack) :
    Tops front style ↔ ∃ below, stack = style :: below := by
  constructor
  · rintro ⟨before, inside, rfl, nested⟩
    obtain ⟨below, -, ran⟩ := Steps.exists_of_foldlM_append ran
    rw [Steps.foldlM_cons_of_ok rfl, nested.run_eq] at ran
    exact ⟨below, (Except.ok.inj ran).symm⟩
  · rintro ⟨below, rfl⟩
    cases run_eq_ok_iff.mp ran with
    | opened _ nested => exact ⟨_, _, rfl, nested⟩

theorem matched_iff : Matched marks ↔ ∃ stack, marks.foldlM step [] = .ok stack := by
  constructor
  · intro matched
    cases whole : marks.foldlM step [] with
    | ok stack => exact ⟨stack, rfl⟩
    | error fault =>
      obtain ⟨front, mark, rest, next, rfl, ran, stops⟩ := Steps.foldlM_eq_error_iff.mp whole
      cases mark with
      | opening style => contradiction
      | closing style =>
        obtain ⟨below, rfl⟩ := (tops_iff ran).mp (matched front style rest rfl)
        rw [step_eq_ok_iff.mpr rfl] at stops
        contradiction
  · rintro ⟨stack, ran⟩ before style after rfl
    obtain ⟨next, ran, later⟩ := Steps.exists_of_foldlM_append ran
    obtain ⟨below, stepped, -⟩ := Steps.exists_of_foldlM_cons later
    exact (tops_iff ran).mpr ⟨below, step_eq_ok_iff.mp stepped⟩

theorem run_eq_error_iff_unmatched : marks.foldlM step [] = .error fault ↔ ∃ front style rest stack,
    marks = front ++ .closing style :: rest ∧ FirstUnmatched front style ∧
      front.foldlM step [] = .ok stack ∧ step stack (.closing style) = .error fault := by
  rw [Steps.foldlM_eq_error_iff]
  constructor
  · rintro ⟨front, mark, rest, stack, rfl, ran, stops⟩
    cases mark with
    | opening style => contradiction
    | closing style =>
      refine ⟨front, style, rest, stack, rfl, ⟨matched_iff.mpr ⟨stack, ran⟩, fun tops => ?_⟩,
        ran, stops⟩
      obtain ⟨below, rfl⟩ := (tops_iff ran).mp tops
      rw [step_eq_ok_iff.mpr rfl] at stops
      contradiction
  · rintro ⟨front, style, rest, stack, whole, -, ran, stops⟩
    exact ⟨front, _, rest, stack, whole, ran, stops⟩

theorem exists_deeper {deeper : List Style} (leaves : Leaves front deeper)
    (stays : StaysOpen style (front ++ rest))
    (ran : rest.foldlM step (deeper ++ style :: below) = .ok final) :
    ∃ above, final = above ++ style :: below := by
  induction rest generalizing front deeper with
  | nil => exact ⟨deeper, (Except.ok.inj ran).symm⟩
  | cons mark rest ih =>
    obtain ⟨next, stepped, ran⟩ := Steps.exists_of_foldlM_cons ran
    rw [← List.singleton_append, ← List.append_assoc] at stays
    cases mark with
    | opening other =>
      obtain rfl := Except.ok.inj stepped
      exact ih (leaves.concat rfl) stays ran
    | closing other =>
      have same := step_eq_ok_iff.mp stepped
      cases deeper with
      | nil =>
        -- the bracket itself would be closed here
        obtain ⟨rfl, rfl⟩ := List.cons.inj same
        have nested := run_eq_nil_iff.mp (run_eq_ok_iff.mpr leaves)
        rw [List.append_assoc] at stays
        exact absurd nested (stays front rest rfl)
      | cons top deeper =>
        obtain ⟨rfl, rfl⟩ := List.cons.inj same
        exact ih (leaves.concat (step_eq_ok_iff.mpr rfl)) stays ran

theorem exists_staysOpen_iff (ran : marks.foldlM step [] = .ok stack) :
    (∃ front style behind, marks = front ++ .opening style :: behind ∧ StaysOpen style behind) ↔
      stack ≠ [] := by
  constructor
  · rintro ⟨front, style, behind, rfl, stays⟩ rfl
    obtain ⟨below, -, later⟩ := Steps.exists_of_foldlM_append ran
    rw [Steps.foldlM_cons_of_ok rfl] at later
    have nothing : Leaves [] [] := .nested .nothing
    obtain ⟨above, closed⟩ := exists_deeper nothing stays later
    simp at closed
  · intro left
    cases run_eq_ok_iff.mp ran with
    | nested => contradiction
    | @opened front inside style _ _ nested =>
      refine ⟨front, style, inside, rfl, fun inner after same innerNested => ?_⟩
      subst same
      have closed : (inner ++ .closing style :: after).foldlM step [] = .ok [] := nested.run_eq
      rw [Steps.foldlM_append_of_ok innerNested.run_eq] at closed
      contradiction

theorem check_eq_none_iff : check [] cs = none ↔ Nested (word cs) := by
  rw [check_eq_run, ← run_eq_nil_iff]
  split <;> simp_all

theorem check_eq_mismatch_iff : check [] cs = some .mismatch ↔
    ∃ front style back, word cs = front ++ .closing style :: back ∧ FirstUnmatched front style ∧
      ∃ other, other ≠ style ∧ Tops front other := by
  have failed : check [] cs = some .mismatch ↔ (word cs).foldlM step [] = .error .mismatch := by
    rw [check_eq_run]
    split <;> simp_all
  rw [failed, run_eq_error_iff_unmatched]
  constructor
  · rintro ⟨front, style, back, stack, whole, first, ran, stops⟩
    obtain ⟨top, below, rfl, other⟩ := step_eq_mismatch_iff.mp stops
    exact ⟨front, style, back, whole, first, top, other, (tops_iff ran).mpr ⟨below, rfl⟩⟩
  · rintro ⟨front, style, back, whole, first, top, other, tops⟩
    obtain ⟨stack, ran⟩ := matched_iff.mp first.matched
    obtain ⟨below, rfl⟩ := (tops_iff ran).mp tops
    exact ⟨front, style, back, _, whole, first, ran,
      step_eq_mismatch_iff.mpr ⟨top, below, rfl, other⟩⟩

theorem check_eq_unbalanced_iff : check [] cs = some .unbalanced ↔
    (∃ front style back, word cs = front ++ .closing style :: back ∧ FirstUnmatched front style ∧
      ¬ ∃ other, Tops front other) ∨
    (Matched (word cs) ∧ ∃ front style behind, word cs = front ++ .opening style :: behind ∧
      StaysOpen style behind) := by
  have failed : check [] cs = some .unbalanced ↔
      (word cs).foldlM step [] = .error .unbalanced ∨
        ∃ stack, (word cs).foldlM step [] = .ok stack ∧ stack ≠ [] := by
    rw [check_eq_run]
    split <;> simp_all
  rw [failed, run_eq_error_iff_unmatched]
  refine or_congr ⟨?_, ?_⟩ ⟨?_, ?_⟩
  · rintro ⟨front, style, back, stack, whole, first, ran, stops⟩
    obtain rfl := step_eq_unbalanced_iff.mp stops
    refine ⟨front, style, back, whole, first, fun ⟨other, tops⟩ => ?_⟩
    obtain ⟨below, same⟩ := (tops_iff ran).mp tops
    contradiction
  · rintro ⟨front, style, back, whole, first, none⟩
    obtain ⟨stack, ran⟩ := matched_iff.mp first.matched
    have empty : stack = [] := by
      cases stack with
      | nil => rfl
      | cons top below => exact absurd ⟨top, (tops_iff ran).mpr ⟨below, rfl⟩⟩ none
    exact ⟨front, style, back, stack, whole, first, ran, step_eq_unbalanced_iff.mpr empty⟩
  · rintro ⟨stack, ran, left⟩
    exact ⟨matched_iff.mpr ⟨stack, ran⟩, (exists_staysOpen_iff ran).mpr left⟩
  · rintro ⟨matched, stays⟩
    obtain ⟨stack, ran⟩ := matched_iff.mp matched
    exact ⟨stack, ran, (exists_staysOpen_iff ran).mp stays⟩

/-- A text is accepted exactly when its brackets nest. Otherwise the first closing bracket that
cannot be matched decides: it is a mismatch if a bracket of another style is open there, and the
brackets are unbalanced if none is, or if there is no such closing bracket but an opening one that
is never closed. -/
theorem validate_decides (text : String) :
    (Scanner.validate text = .ok () ↔ Nested (word text.toList)) ∧
    (Scanner.validate text = .error ⟨.brackets .mismatch, text⟩ ↔
      ∃ front style back, word text.toList = front ++ .closing style :: back ∧
        FirstUnmatched front style ∧ ∃ other, other ≠ style ∧ Tops front other) ∧
    (Scanner.validate text = .error ⟨.brackets .unbalanced, text⟩ ↔
      (∃ front style back, word text.toList = front ++ .closing style :: back ∧
        FirstUnmatched front style ∧ ¬ ∃ other, Tops front other) ∨
      (Matched (word text.toList) ∧ ∃ front style behind,
        word text.toList = front ++ .opening style :: behind ∧ StaysOpen style behind)) := by
  rw [← check_eq_none_iff, ← check_eq_mismatch_iff, ← check_eq_unbalanced_iff, Scanner.validate]
  cases check [] text.toList with
  | none => simp
  | some fault => cases fault <;> simp

/-- Two faults at once, of which the first one in reading order is told. -/
example : check [] "a(]]".toList = some .mismatch := by decide

end Reckon.Bracket
