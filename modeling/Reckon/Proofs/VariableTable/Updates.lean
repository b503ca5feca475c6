import Mathlib.Data.List.Dedup
import Reckon.Bindings
import Reckon.Proofs.Text.Trim
import Reckon.Proofs.VariableTable

/-!
Tables under updates. An update hands over bindings in an order, those of a load being what its
entries state up to the first malformed one. The bindings handed over since the table was cleared
say all about it: a name that is not blank has the value handed over last for a name of its normal
form, and the table is as large as there are such normal forms.
-/

namespace Reckon.VariableTable

/-- A name that is not blank, up to the first equals sign, and behind it a number, blanks aside. -/
def States (entry name : String) (value : Float) : Prop :=
  Text.isBlankText name = false ∧ '=' ∉ name.toList ∧
    ∃ number, entry.toList = name.toList ++ '=' :: number.toList ∧
      Decimal.read? (Text.trim number) = some value

def WellFormed (entry : String) : Prop :=
  Text.isBlankText entry = true ∨ ∃ name value, States entry name value

/-- The bindings that entries state, one after the other, up to the first malformed entry. -/
inductive Accepted : List String → List (String × Float) → Prop
  | nil : Accepted [] []
  | blank {entry : String} {entries : List String} {bindings : List (String × Float)} :
    Text.isBlankText entry = true → Accepted entries bindings → Accepted (entry :: entries) bindings
  | stated {entry name : String} {value : Float} {entries : List String}
      {bindings : List (String × Float)} :
    States entry name value → Accepted entries bindings →
    Accepted (entry :: entries) ((name, value) :: bindings)
  | malformed {entry : String} {entries : List String} :
    ¬ WellFormed entry → Accepted (entry :: entries) []

inductive Update where
  | set (name : String) (value : Float)
  | load (entries : Entries)
  | setAll (bindings : Bindings)
  | clear

def update (table : VariableTable) : Update → VariableTable × Option Failure
  | .set name value => (table.set name value, none)
  | .load entries => table.load entries.toList
  | .setAll bindings => (table.setAll bindings.entries, none)
  | .clear => (empty, none)

def updated (updates : List Update) : VariableTable :=
  updates.foldl (fun table update => (table.update update).1) empty

/-- The bindings that updates hand over since the last of them that clears the table. -/
inductive Given : List Update → List (String × Float) → Prop
  | start : Given [] []
  | set {updates : List Update} {given : List (String × Float)} {name : String} {value : Float} :
    Given updates given → Given (updates ++ [.set name value]) (given ++ [(name, value)])
  | load {updates : List Update} {given accepted : List (String × Float)} {entries : Entries} :
    Given updates given → Accepted entries.toList accepted →
    Given (updates ++ [.load entries]) (given ++ accepted)
  | setAll {updates : List Update} {given : List (String × Float)} {bindings : Bindings} :
    Given updates given → Given (updates ++ [.setAll bindings]) (given ++ bindings.entries)
  | clear {updates : List Update} {given : List (String × Float)} :
    Given updates given → Given (updates ++ [.clear]) []

def lastFor (name : String) (bindings : List (String × Float)) : Option Float :=
  (bindings.reverse.find? (Text.normalName ·.1 = Text.normalName name)).map Prod.snd

def namesOf (bindings : List (String × Float)) : List String :=
  ((bindings.map Prod.fst).filter (!Text.isBlankText ·)).map Text.normalName |>.dedup

variable {table : VariableTable} {entry name : String} {value : Float}
variable {entries front rest : List String} {bindings given : List (String × Float)}
variable {updates : List Update}

theorem States.not_blank (states : States entry name value) : Text.isBlankText entry = false := by
  obtain ⟨-, first, number, whole, -⟩ := states
  exact Text.isBlankText_of_cut (by decide) (Text.cutFirst_eq_some.mpr ⟨whole, first⟩)

theorem readEntry_of_blank (blank : Text.isBlankText entry = true) :
    readEntry entry = .ok none := by
  rw [readEntry, if_pos blank]

theorem readEntry_of_states (states : States entry name value) :
    readEntry entry = .ok (some (name, value)) := by
  have full := states.not_blank
  obtain ⟨named, first, number, whole, read⟩ := states
  have cut := Text.cutFirst_eq_some.mpr ⟨whole, first⟩
  rw [readEntry, if_neg (by simp [full]), cut]
  dsimp only
  rw [if_neg (by simp [named]), read]

theorem readEntry_of_malformed (malformed : ¬ WellFormed entry) :
    readEntry entry = .error (.entry (Text.trim entry)) := by
  obtain ⟨full, nothing⟩ := not_or.mp malformed
  rw [readEntry, if_neg full]
  cases cut : Text.cutFirst '=' entry with
  | none => rfl
  | some parts =>
    obtain ⟨name, number⟩ := parts
    obtain ⟨whole, first⟩ := Text.cutFirst_eq_some.mp cut
    dsimp only
    by_cases named : Text.isBlankText name = true
    · rw [if_pos named]
    · rw [if_neg named]
      cases read : Decimal.read? (Text.trim number) with
      | none => rfl
      | some value =>
        exact absurd ⟨name, value, by simpa using named, first, number, whole, read⟩ nothing

theorem setAll_cons (table : VariableTable) (name : String) (value : Float)
    (bindings : List (String × Float)) :
    table.setAll ((name, value) :: bindings) = (table.set name value).setAll bindings :=
  List.foldl_cons ..

theorem setAll_append (table : VariableTable) (bindings later : List (String × Float)) :
    table.setAll (bindings ++ later) = (table.setAll bindings).setAll later :=
  List.foldl_append ..

theorem setAll_snoc (table : VariableTable) (bindings : List (String × Float)) (name : String)
    (value : Float) :
    table.setAll (bindings ++ [(name, value)]) = (table.setAll bindings).set name value := by
  rw [setAll_append, setAll_cons, setAll.eq_1 _ [], List.foldl_nil]

theorem exists_accepted (entries : List String) : ∃ bindings, Accepted entries bindings := by
  induction entries with
  | nil => exact ⟨[], .nil⟩
  | cons entry entries ih =>
    obtain ⟨bindings, accepted⟩ := ih
    by_cases formed : WellFormed entry
    · rcases formed with blank | ⟨name, value, states⟩
      · exact ⟨bindings, .blank blank accepted⟩
      · exact ⟨(name, value) :: bindings, .stated states accepted⟩
    · exact ⟨[], .malformed formed⟩

theorem load_of_accepted (accepted : Accepted entries bindings) :
    (table.load entries).1 = table.setAll bindings := by
  induction accepted generalizing table with
  | nil => rfl
  | blank blank _ ih =>
    rw [load, readEntry_of_blank blank]
    exact ih
  | stated states _ ih =>
    rw [load, readEntry_of_states states, setAll_cons]
    exact ih
  | malformed malformed =>
    rw [load, readEntry_of_malformed malformed]
    rfl

theorem exists_load_cons (table : VariableTable) (formed : WellFormed entry) :
    ∃ loaded : VariableTable, ∀ entries, table.load (entry :: entries) = loaded.load entries := by
  rcases formed with blank | ⟨name, value, states⟩
  · exact ⟨table, fun entries => by rw [load, readEntry_of_blank blank]⟩
  · exact ⟨table.set name value, fun entries => by rw [load, readEntry_of_states states]⟩

theorem load_of_wellFormed (formed : ∀ entry ∈ entries, WellFormed entry) :
    (table.load entries).2 = none := by
  induction entries generalizing table with
  | nil => rfl
  | cons entry entries ih =>
    rw [List.forall_mem_cons] at formed
    obtain ⟨loaded, step⟩ := exists_load_cons table formed.1
    rw [step]
    exact ih formed.2

theorem load_append_malformed (formed : ∀ entry ∈ front, WellFormed entry)
    (malformed : ¬ WellFormed entry) :
    table.load (front ++ entry :: rest) =
      ((table.load front).1, some (.entry (Text.trim entry))) := by
  induction front generalizing table with
  | nil =>
    rw [List.nil_append, load.eq_2, readEntry_of_malformed malformed]
    rfl
  | cons first front ih =>
    rw [List.forall_mem_cons] at formed
    obtain ⟨loaded, step⟩ := exists_load_cons table formed.1
    rw [List.cons_append, step, step]
    exact ih formed.2

theorem wellFormed_or_malformed (entries : List String) :
    (∀ entry ∈ entries, WellFormed entry) ∨ ∃ front entry rest, entries = front ++ entry :: rest ∧
      (∀ earlier ∈ front, WellFormed earlier) ∧ ¬ WellFormed entry := by
  induction entries with
  | nil => exact .inl (by simp)
  | cons first entries ih =>
    by_cases formed : WellFormed first
    · rcases ih with all | ⟨front, entry, rest, rfl, earlier, malformed⟩
      · exact .inl (List.forall_mem_cons.mpr ⟨formed, all⟩)
      · exact .inr ⟨first :: front, entry, rest, rfl, List.forall_mem_cons.mpr ⟨formed, earlier⟩,
          malformed⟩
    · exact .inr ⟨[], first, entries, rfl, by simp, formed⟩

theorem load_eq_none_iff :
    (table.load entries).2 = none ↔ ∀ entry ∈ entries, WellFormed entry := by
  refine ⟨fun loaded => ?_, load_of_wellFormed⟩
  rcases wellFormed_or_malformed entries with all | ⟨front, entry, rest, rfl, formed, malformed⟩
  · exact all
  · simp [load_append_malformed formed malformed] at loaded

theorem updated_append (updates : List Update) (last : Update) :
    updated (updates ++ [last]) = ((updated updates).update last).1 := by
  rw [updated, List.foldl_append]
  rfl

theorem exists_given (updates : List Update) : ∃ given, Given updates given := by
  induction updates using List.reverseRecOn with
  | nil => exact ⟨[], .start⟩
  | append_singleton updates last ih =>
    obtain ⟨given, before⟩ := ih
    cases last with
    | set name value => exact ⟨_, .set before⟩
    | load entries =>
      obtain ⟨accepted, loaded⟩ := exists_accepted entries.toList
      exact ⟨_, .load before loaded⟩
    | setAll bindings => exact ⟨_, .setAll before⟩
    | clear => exact ⟨_, .clear before⟩

theorem updated_of_given (handed : Given updates given) : updated updates = empty.setAll given := by
  induction handed with
  | start => rfl
  | set _ ih => rw [updated_append, ih, setAll_snoc, update]
  | load _ accepted ih =>
    rw [updated_append, ih, setAll_append]
    exact load_of_accepted accepted
  | setAll _ ih => rw [updated_append, ih, setAll_append, update]
  | clear _ _ => exact updated_append _ _

theorem set_of_blank (blank : Text.isBlankText name = true) : table.set name value = table := by
  rw [set, if_pos (Text.normalName_eq_empty.mpr blank)]

theorem lastFor_snoc (bindings : List (String × Float)) (target : String) (value : Float) :
    lastFor name (bindings ++ [(target, value)]) =
      if Text.normalName target = Text.normalName name then some value
      else lastFor name bindings := by
  rw [lastFor, List.reverse_append]
  split
  · next same => simp [same]
  · next other => simp [other, lastFor]

theorem get?_setAll_empty : (empty.setAll bindings).get? name =
    if Text.isBlankText name then none else lastFor name bindings := by
  induction bindings using List.reverseRecOn with
  | nil => simp [lastFor, setAll, empty, get?]
  | append_singleton bindings last ih =>
    obtain ⟨target, value⟩ := last
    rw [setAll_snoc, lastFor_snoc]
    by_cases same : Text.normalName target = Text.normalName name
    · by_cases blank : Text.isBlankText name = true
      · have blank' : Text.isBlankText target = true := by
          rwa [← Text.normalName_eq_empty, same, Text.normalName_eq_empty]
        rw [set_of_blank blank', ih, if_pos blank, if_pos blank]
      · have full : Text.normalName target ≠ "" := by
          rwa [same, ne_eq, Text.normalName_eq_empty]
        rw [get?_set_same same.symm full, if_neg blank, if_pos same]
    · rw [get?_set_other (Ne.symm same), ih, if_neg same]

theorem keys_set (full : Text.isBlankText name = false) :
    (table.set name value).entries.map Prod.fst = Text.normalName name ::
      (table.entries.map Prod.fst).filter (· ≠ Text.normalName name) := by
  have kept : Text.normalName name ≠ "" := by
    rw [ne_eq, Text.normalName_eq_empty, full]
    exact Bool.false_ne_true
  simp only [set, if_neg kept, List.map_cons, List.filter_map, Function.comp_def]

theorem keys_setAll_empty (bindings : List (String × Float)) :
    ((empty.setAll bindings).entries.map Prod.fst).Nodup ∧
    ∀ key, key ∈ (empty.setAll bindings).entries.map Prod.fst ↔ key ∈ namesOf bindings := by
  induction bindings using List.reverseRecOn with
  | nil => simp [setAll, empty, namesOf]
  | append_singleton bindings last ih =>
    obtain ⟨target, value⟩ := last
    obtain ⟨distinct, names⟩ := ih
    simp only [namesOf, List.mem_dedup] at names ⊢
    rw [setAll_snoc]
    cases full : Text.isBlankText target with
    | true =>
      rw [set_of_blank full]
      exact ⟨distinct, by simp [names, full]⟩
    | false =>
      rw [keys_set full]
      refine ⟨List.nodup_cons.mpr ⟨by simp, distinct.filter _⟩, fun key => ?_⟩
      rw [List.mem_cons, List.mem_filter, names]
      by_cases same : key = Text.normalName target
      · simp [same, full]
      · simp [same, full]

theorem size_setAll_empty : (empty.setAll bindings).size = (namesOf bindings).length := by
  obtain ⟨distinct, names⟩ := keys_setAll_empty bindings
  have same := (List.perm_ext_iff_of_nodup distinct (List.nodup_dedup _)).mpr names
  rw [size, ← List.length_map Prod.fst, same.length_eq]
  rfl

/-- What updates hand over says what each name has and how many names there are. Entries load if all
of them are well formed and not otherwise: the first malformed one is the failure, what the entries
in front of it state has been set, and those behind it count for nothing. -/
theorem updated_eq_given :
    (∀ updates, ∃ given, Given updates given) ∧
    (∀ updates given, Given updates given →
      (∀ name, (updated updates).get? name =
        if Text.isBlankText name then none else lastFor name given) ∧
      (updated updates).size = (namesOf given).length) ∧
    (∀ (table : VariableTable) (entries : Entries),
      (table.load entries.toList).2 = none ↔ ∀ entry ∈ entries.toList, WellFormed entry) ∧
    ∀ (table : VariableTable) (entries : Entries), (table.load entries.toList).2 ≠ none →
      ∃ front entry rest accepted, entries.toList = front ++ entry :: rest ∧
        (∀ earlier ∈ front, WellFormed earlier) ∧ ¬ WellFormed entry ∧ Accepted front accepted ∧
        ∀ later, table.load (front ++ entry :: later) =
          (table.setAll accepted, some (.entry (Text.trim entry))) := by
  refine ⟨exists_given, fun updates given handed => ?_, fun table entries => load_eq_none_iff,
    fun table entries failed => ?_⟩
  · rw [updated_of_given handed]
    exact ⟨fun name => get?_setAll_empty, size_setAll_empty⟩
  · rcases wellFormed_or_malformed entries.toList with
      all | ⟨front, entry, rest, split, before, malformed⟩
    · exact absurd (load_of_wellFormed all) failed
    · obtain ⟨accepted, states⟩ := exists_accepted front
      refine ⟨front, entry, rest, accepted, split, before, malformed, states, fun later => ?_⟩
      rw [load_append_malformed before malformed, load_of_accepted states]

theorem updated_eq_given_of_failing :
    let updates := [.set "z" 1, .clear, .load (.text "a=1;; A = 2 ;=3;a=4"),
      .setAll (.ofList [("B", 5), ("b", 6)]), .set " " 7]
    Given updates [("a", 1), (" A ", 2), ("B", 5), ("b", 6), (" ", 7)] ∧
      (updated updates).get? " a" = some 2 ∧ (updated updates).size = 2 ∧
      (empty.load (Entries.text "a=1;; A = 2 ;=3;a=4").toList).2 ≠ none := by
  have first : States "a=1" "a" 1 :=
    ⟨by decide, by decide, "1", by decide, by decide +kernel⟩
  have second : States " A = 2 " " A " 2 :=
    ⟨by decide, by decide, " 2 ", by decide, by decide +kernel⟩
  have failed : (empty.load ["=3"]).2 ≠ none := by decide +kernel
  have malformed : ¬ WellFormed "=3" := by
    intro formed
    exact failed (load_of_wellFormed (by simpa using formed))
  have accepted : Accepted (Entries.text "a=1;; A = 2 ;=3;a=4").toList [("a", 1), (" A ", 2)] :=
    .stated first (.blank (by decide) (.stated second (.malformed malformed)))
  have started : Given [.set "z" 1] [("z", 1)] := Given.start.set
  have cleared : Given [.set "z" 1, .clear] [] := started.clear
  have loaded : Given [.set "z" 1, .clear, .load (.text "a=1;; A = 2 ;=3;a=4")]
    [("a", 1), (" A ", 2)] := cleared.load accepted
  have handed : Given [.set "z" 1, .clear, .load (.text "a=1;; A = 2 ;=3;a=4"),
    .setAll (.ofList [("B", 5), ("b", 6)]), .set " " 7]
    [("a", 1), (" A ", 2), ("B", 5), ("b", 6), (" ", 7)] := loaded.setAll.set
  obtain ⟨-, told, loads, -⟩ := updated_eq_given
  obtain ⟨values, count⟩ := told _ _ handed
  refine ⟨handed, (values " a").trans (by decide +kernel), count.trans (by decide +kernel), ?_⟩
  rw [ne_eq, loads]
  intro formed
  exact malformed (formed "=3" (by decide))

end Reckon.VariableTable
