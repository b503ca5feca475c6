import Reckon.Settings
import Reckon.Proofs.Bindings
import Reckon.Proofs.Json.Rereading

/-!
Settings that are written and read again. The text of settings holds one tree, whatever names and
texts are in them, and the tree reads as the settings except for the values of the bindings: a
number is written with the shortest digits of its own, and read in a quick way that need not give
the nearest double. Settings come back unchanged exactly when each of their numbers does.
-/

namespace Reckon.Settings

open Json

variable {α : Type} {items : List α} {indent : String} {c : Settings}

def margin (indent : String) : List Char :=
  '\n' :: indent.toList

def deeper (indent : String) : List Char :=
  margin indent ++ [' ', ' ']

theorem toList_writeLines (opening closing : String) {lines : List String}
    (nonempty : lines ≠ []) :
    (writeLines opening closing indent lines).toList = opening.toList ++ (deeper indent ++
      ((',' :: deeper indent).intercalate (lines.map String.toList) ++
        (margin indent ++ closing.toList))) := by
  rw [writeLines, if_neg (by simpa using nonempty)]
  simp [deeper, margin, String.toList_append, String.toList_intercalate]

theorem isSpace_margin (blank : ∀ c ∈ indent.toList, isSpace c = true) :
    ∀ c ∈ margin indent, isSpace c = true :=
  List.forall_mem_cons.mpr ⟨rfl, blank⟩

theorem isSpace_deeper (blank : ∀ c ∈ indent.toList, isSpace c = true) :
    ∀ c ∈ deeper indent, isSpace c = true :=
  List.forall_mem_append.mpr ⟨isSpace_margin blank,
    List.forall_mem_cons.mpr ⟨rfl, List.forall_mem_singleton.mpr rfl⟩⟩

/-- A list is read if it is read without lines or from all of them, the indents included. -/
theorem holds_lines {opening closing : String} {lines : List String} {tree : Json}
    (without : lines = [] → ∀ bound rest,
      readValue (bound + 1) (opening.toList ++ (closing.toList ++ rest)) = some (tree, rest))
    (each : lines ≠ [] → ∀ bound rest,
      ((',' :: deeper indent).intercalate (lines.map String.toList)).length + 1 < bound →
      readValue (bound + 1) (opening.toList ++ (deeper indent ++
        ((',' :: deeper indent).intercalate (lines.map String.toList) ++
          (margin indent ++ (closing.toList ++ rest))))) = some (tree, rest)) :
    Holds (writeLines opening closing indent lines).toList tree := by
  refine holds_of_step fun rest _ bound enough => ?_
  by_cases empty : lines = []
  · have text : (writeLines opening closing indent lines).toList =
        opening.toList ++ closing.toList := by
      simp [writeLines, empty]
    rw [text, List.append_assoc]
    exact without empty bound rest
  · rw [toList_writeLines _ _ empty] at enough ⊢
    have wide : 2 ≤ (deeper indent).length := by simp [deeper]
    simp only [List.length_append] at enough
    simp only [List.append_assoc]
    exact each empty bound rest (by omega)

theorem holds_array {line : α → String} {value : α → Json}
    (blank : ∀ c ∈ indent.toList, isSpace c = true)
    (each : ∀ item ∈ items, Holds (line item).toList (value item)) :
    Holds (writeLines "[" "]" indent (items.map line)).toList (array (items.map value)) := by
  refine holds_lines (fun empty bound rest => ?_) (fun nonempty bound rest enough => ?_)
  · rw [List.map_eq_nil_iff.mp empty, readValue]
    rfl
  · rw [List.map_map] at enough ⊢
    have found : readItems bound (_ ++ (_ ++ ']' :: rest)) = _ :=
      readItems_lines (mt List.map_eq_nil_iff.mpr nonempty) each (isSpace_deeper blank)
        (isSpace_margin blank) enough
    rw [← readItems_append (isSpace_deeper blank)] at found
    exact readValue_array found

theorem toList_field (name text : String) :
    (writeString name ++ ": " ++ text).toList = field name text.toList := by
  simp [field, toList_writeString]

theorem holds_object {name line : α → String} {value : α → Json}
    (blank : ∀ c ∈ indent.toList, isSpace c = true)
    (each : ∀ item ∈ items, Holds (line item).toList (value item)) :
    Holds (writeLines "\x7b" "\x7d" indent
      (items.map fun item => writeString (name item) ++ ": " ++ line item)).toList
      (object (items.map fun item => (encoded (name item), value item))) := by
  refine holds_lines (fun empty bound rest => ?_) (fun nonempty bound rest enough => ?_)
  · rw [List.map_eq_nil_iff.mp empty, readValue]
    rfl
  · have fields : (String.toList ∘ fun item => writeString (name item) ++ ": " ++ line item) =
        fun item => field (name item) (line item).toList := funext fun item => toList_field _ _
    rw [List.map_map, fields] at enough ⊢
    have found : readFields bound (_ ++ (_ ++ '\x7d' :: rest)) = _ :=
      readFields_lines (mt List.map_eq_nil_iff.mpr nonempty) each (isSpace_deeper blank)
        (isSpace_margin blank) enough
    rw [← readFields_append (isSpace_deeper blank)] at found
    exact readValue_object found

def fieldText (c : Settings) : Field → String
  | .bindings => writeLines "\x7b" "\x7d" "  " (c.bindings.entries.map fun (name, value) =>
      writeString name ++ ": " ++ writeNumber value)
  | .functions => writeLines "[" "]" "  " (c.functions.map writeString)
  | .order => writeString (orderName c.order)
  | .maxDepth => toString c.maxDepth

theorem write_eq (c : Settings) : write c =
    writeLines "\x7b" "\x7d" "" (Field.all.map fun field => writeField field (fieldText c field)) :=
  rfl

def fieldTree (c : Settings) : Field → Json
  | .bindings => object (c.bindings.entries.map fun (name, value) => (encoded name, written value))
  | .functions => array (c.functions.map fun text => quoted (encoded text))
  | .order => quoted (encoded (orderName c.order))
  | .maxDepth => number (Numeral.ofNat c.maxDepth)

def tree (c : Settings) : Json :=
  object (Field.all.map fun field => (encoded field.name, fieldTree c field))

theorem holds_field (c : Settings) (field : Field) :
    Holds (fieldText c field).toList (fieldTree c field) := by
  have blank : ∀ c ∈ "  ".toList, isSpace c = true :=
    List.forall_mem_cons.mpr ⟨rfl, List.forall_mem_singleton.mpr rfl⟩
  cases field with
  | bindings => exact holds_object blank fun entry _ => holds_written entry.2
  | functions => exact holds_array blank fun text _ => holds_quoted text
  | order => exact holds_quoted _
  | maxDepth => exact holds_natural _

theorem read?_write (c : Settings) : Json.read? (write c) = some c.tree := by
  have holds : Holds (write c).toList c.tree := by
    rw [write_eq]
    exact holds_object (by simp) fun field _ => holds_field c field
  have read := holds Numeral.ends_nil (Nat.lt_succ_self _)
  rw [List.append_nil] at read
  rw [Json.read?, read]
  rfl

theorem knownFields_map (value : Field → Json) :
    knownFields (Field.all.map fun field => (encoded field.name, value field)) =
      some (Field.all.map fun field => (field, value field)) := by
  have keyed : (Field.all.map fun field => (encoded field.name, value field)).mapM
      (fun field => do return (← decodeString? field.1, field.2)) =
      some (Field.all.map fun field => (field.name, value field)) := by
    simp only [List.mapM_map, Function.comp_def, decodeString?_encoded]
    exact List.mapM_pure
  exact congrArg (·.bind fun keyed => some (keyed.filterMap fun field =>
    (Field.all.find? (·.name = field.1)).map fun known => (known, field.2))) keyed

theorem order?_encoded (order : Order) :
    order? (quoted (encoded (orderName order))) = some order := by
  rw [order?, decodeString?_encoded]
  cases order <;> rfl

theorem functions?_quoted (texts : List String) :
    functions? (array (texts.map fun text => quoted (encoded text))) = some texts := by
  rw [functions?, List.mapM_map]
  have each : string? ∘ (fun text => quoted (encoded text)) = pure :=
    funext fun text => decodeString?_encoded text
  rw [each]
  exact List.mapM_pure.trans (congrArg some (List.map_id texts))

theorem ofJson?_tree (fits : c.maxDepth < UInt64.size) {bindings : Bindings}
    (found : bindings? (fieldTree c .bindings) = some bindings) :
    ofJson? c.tree = some { c with bindings } := by
  have once : ((Field.all.map fun field => (field, fieldTree c field)).map (·.1)).Nodup := by
    have distinct : Field.all.Nodup := by decide
    rw [List.map_map]
    exact (List.map_id Field.all).symm ▸ distinct
  have set : ∀ settings, setField settings .bindings (fieldTree c .bindings) =
      some { settings with bindings } := fun settings => by rw [setField, found, Option.map_some]
  have set_functions : ∀ settings, setField settings .functions (fieldTree c .functions) =
      some { settings with functions := c.functions } := fun settings => by
    rw [setField, fieldTree, functions?_quoted, Option.map_some]
  have set_order : ∀ settings, setField settings .order (fieldTree c .order) =
      some { settings with order := c.order } := fun settings => by
    rw [setField, fieldTree, order?_encoded, Option.map_some]
  have set_depth : ∀ settings, setField settings .maxDepth (fieldTree c .maxDepth) =
      some { settings with maxDepth := c.maxDepth } := fun settings => by
    rw [setField, fieldTree, maxDepth?, Numeral.natural?_ofNat fits, Option.map_some]
  have chain : setFields (Field.all.map fun field => (field, fieldTree c field)) =
      some { c with bindings } := by
    simp [setFields, Field.all, set, set_functions, set_order, set_depth]
  simp only [ofJson?, tree, knownFields_map, Option.bind_eq_bind, Option.bind_some, if_pos once,
    chain]

/-- Settings that have a text. -/
structure Storable (c : Settings) : Prop where
  finite : ∀ entry ∈ c.bindings.entries, entry.2.isFinite
  fits : c.maxDepth < UInt64.size

theorem storable_default : Storable default :=
  ⟨List.forall_mem_nil _, by decide⟩

theorem exists_of_mem_mapM {α β : Type} {f : α → Option β} {xs : List α} {ys : List β}
    (found : xs.mapM f = some ys) {y : β} (mem : y ∈ ys) : ∃ x ∈ xs, f x = some y := by
  induction xs generalizing ys with
  | nil =>
    obtain rfl := Option.some.inj found
    cases mem
  | cons x xs ih =>
    rw [List.mapM_cons] at found
    obtain ⟨first, here, found⟩ := Option.bind_eq_some_iff.mp found
    obtain ⟨rest, later, found⟩ := Option.bind_eq_some_iff.mp found
    obtain rfl := Option.some.inj found
    rcases List.mem_cons.mp mem with rfl | mem
    · exact ⟨x, List.mem_cons_self, here⟩
    · obtain ⟨x', mem', same⟩ := ih later mem
      exact ⟨x', List.mem_cons_of_mem _ mem', same⟩

theorem isFinite_number? {json : Json} {x : Float} (found : number? json = some x) :
    x.isFinite := by
  cases json with
  | number numeral => exact Numeral.isFinite_value? found
  | _ => cases found

theorem isFinite_bindings? {json : Json} {bindings : Bindings}
    (found : bindings? json = some bindings) : ∀ entry ∈ bindings.entries, entry.2.isFinite := by
  cases json with
  | object fields =>
    obtain ⟨entries, read, found⟩ := Option.bind_eq_some_iff.mp found
    obtain rfl := Option.some.inj found
    intro entry mem
    obtain ⟨field, -, same⟩ := exists_of_mem_mapM read (Bindings.mem_ofList mem)
    obtain ⟨name, -, same⟩ := Option.bind_eq_some_iff.mp same
    obtain ⟨value, number, same⟩ := Option.bind_eq_some_iff.mp same
    obtain rfl := Option.some.inj same
    exact isFinite_number? number
  | _ => cases found

theorem natural?_lt {n : Numeral} {k : Nat} (found : n.natural? = some k) : k < UInt64.size := by
  have small := Numeral.gather_lt (show 0 < UInt64.size by decide) n.whole
  unfold Numeral.natural? at found
  split at found
  · next value gathered =>
    obtain rfl := Option.some.inj found
    rwa [gathered] at small
  · cases found

theorem Storable.setField {settings settings' : Settings} {field : Field} {value : Json}
    (storable : Storable settings) (set : setField settings field value = some settings') :
    Storable settings' := by
  cases field with
  | bindings =>
    obtain ⟨bindings, found, rfl⟩ := Option.map_eq_some_iff.mp set
    exact ⟨isFinite_bindings? found, storable.fits⟩
  | functions =>
    obtain ⟨functions, -, rfl⟩ := Option.map_eq_some_iff.mp set
    exact ⟨storable.finite, storable.fits⟩
  | order =>
    obtain ⟨order, -, rfl⟩ := Option.map_eq_some_iff.mp set
    exact ⟨storable.finite, storable.fits⟩
  | maxDepth =>
    obtain ⟨maxDepth, found, rfl⟩ := Option.map_eq_some_iff.mp set
    refine ⟨storable.finite, ?_⟩
    cases value with
    | number numeral => exact natural?_lt found
    | _ => cases found

theorem storable_setFields {fields : List (Field × Json)} (set : setFields fields = some c) :
    Storable c := by
  have kept : ∀ settings, Storable settings →
      fields.foldlM (fun settings entry => setField settings entry.1 entry.2) settings =
        some c → Storable c := by
    clear set
    induction fields with
    | nil => exact fun settings storable same => Option.some.inj same ▸ storable
    | cons field fields ih =>
      intro settings storable set
      rw [List.foldlM_cons] at set
      obtain ⟨settings', here, later⟩ := Option.bind_eq_some_iff.mp set
      exact ih settings' (storable.setField here) later
  exact kept default storable_default set

theorem storable_of_read {text : String} (loaded : read text = .ok c) : Storable c := by
  have found : (Json.read? text >>= ofJson?) = some c := by
    unfold read at loaded
    split at loaded
    · next settings found => rw [found, Except.ok.inj loaded]
    · cases loaded
  obtain ⟨json, -, found⟩ := Option.bind_eq_some_iff.mp found
  cases json with
  | object fields =>
    obtain ⟨known, -, found⟩ := Option.bind_eq_some_iff.mp found
    split at found
    · exact storable_setFields found
    · cases found
  | array items =>
    unfold ofJson? at found
    dsimp only at found
    split at found
    · exact storable_setFields found
    · cases found
  | _ => cases found

def reread (x : Float) : Float :=
  (reread? x).getD x

theorem number?_written {x : Float} (finite : x.isFinite) :
    number? (written x) = some (reread x) := by
  have value : number? (written x) = reread? x := by
    unfold number? reread?
    cases written x <;> rfl
  obtain ⟨y, found⟩ := Option.isSome_iff_exists.mp (isSome_reread? finite)
  rw [value, reread, found, Option.getD_some]

theorem bindings?_fieldTree (finite : ∀ entry ∈ c.bindings.entries, entry.2.isFinite) :
    bindings? (fieldTree c .bindings) = some (c.bindings.mapValues reread) := by
  have entries : (c.bindings.entries.map fun entry => (encoded entry.1, written entry.2)).mapM
      (fun field => do return (← decodeString? field.1, ← number? field.2)) =
      some (c.bindings.mapValues reread).entries := by
    unfold Bindings.mapValues
    dsimp only
    generalize c.bindings.entries = entries at finite
    induction entries with
    | nil => rfl
    | cons entry entries ih =>
      obtain ⟨here, later⟩ := List.forall_mem_cons.mp finite
      rw [List.map_cons, List.mapM_cons, ih later, decodeString?_encoded, number?_written here]
      rfl
  rw [← Bindings.ofList_mapValues]
  exact congrArg (·.bind fun entries => some (Bindings.ofList entries)) entries

/-- Settings that were read are written and read again with the same names, functions, order and
depth, and each number as it rereads; so nothing is lost exactly if every number rereads as it
is. -/
theorem read_write {text : String} (loaded : read text = .ok c) :
    read (write c) = .ok { c with bindings := c.bindings.mapValues reread } ∧
      (read (write c) = .ok c ↔ ∀ entry ∈ c.bindings.entries, reread entry.2 = entry.2) := by
  have storable := storable_of_read loaded
  have again : read (write c) = .ok { c with bindings := c.bindings.mapValues reread } := by
    have found := ofJson?_tree storable.fits (bindings?_fieldTree storable.finite)
    rw [read, read?_write, Option.bind_eq_bind, Option.bind_some, found]
  refine ⟨again, ?_⟩
  rw [again, ← Bindings.mapValues_eq_self]
  constructor
  · exact fun same => congrArg bindings (Except.ok.inj same)
  · exact fun same => by rw [same]

theorem read_write_of_rate :
    let c : Settings := ⟨.ofList [("rate", 0.5)], ["half(x)=x*rate"], .hostFirst, 64⟩
    read (write c) = .ok c := by
  intro c
  have loaded : read ("\x7b\"variables\": \x7b\"rate\": 5e-1\x7d, \"max_depth\": 64," ++
      "\"functions\": [\"half(x)=x*rate\"], \"order\": \"host_first\"\x7d") = .ok c := by
    decide +kernel
  refine (read_write loaded).2.mpr ?_
  decide +kernel

/-- `1e-30` is read as the double below the nearest one and written with the digits of that double,
which are read as the nearest one. -/
theorem not_forall_read_write : ¬ ∀ text c, read text = .ok c → read (write c) = .ok c := by
  intro all
  have loaded : read "\x7b\"variables\":\x7b\"a\":1e-30\x7d\x7d" =
      .ok ⟨.ofList [("a", Float.ofBits 0x39b4484bfeebc29f)], [], .internalFirst, 256⟩ := by
    decide +kernel
  exact absurd (all _ _ loaded) (by decide +kernel)

end Reckon.Settings
