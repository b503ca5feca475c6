import Reckon.Json.Value
import Reckon.Proofs.Json.Numeral
import Reckon.Proofs.Json.Quoted

/-!
Written values read back. A text holds a value if the reader gives that value and stops behind the
text, as long as nothing there carries a numeral on and the bound exceeds the length of the text.
Strings and numbers hold themselves, and the lists of a layout hold what their lines hold: blanks
are skipped in front of every token, so neither indents nor line ends count.
-/

namespace Reckon.Json

/-- A text is read as a value, whatever stands behind it. -/
def Holds (text : List Char) (value : Json) : Prop :=
  ∀ ⦃rest : List Char⦄, Numeral.Ends rest → ∀ ⦃bound : Nat⦄, text.length < bound →
    readValue bound (text ++ rest) = some (value, rest)

variable {blanks outer rest text : List Char} {bound : Nat} {α : Type}

theorem holds_of_step {value : Json}
    (step : ∀ rest, Numeral.Ends rest → ∀ bound, text.length ≤ bound →
      readValue (bound + 1) (text ++ rest) = some (value, rest)) : Holds text value := by
  intro rest ends bound enough
  obtain ⟨bound, rfl⟩ := Nat.exists_eq_succ_of_ne_zero (Nat.ne_zero_of_lt enough)
  exact step rest ends bound (Nat.le_of_lt_succ enough)

theorem skip_append (blank : ∀ c ∈ blanks, isSpace c = true) (cs : List Char) :
    skip (blanks ++ cs) = skip cs :=
  List.dropWhile_append_of_pos blank

theorem readValue_append (blank : ∀ c ∈ blanks, isSpace c = true) (bound : Nat) (cs : List Char) :
    readValue bound (blanks ++ cs) = readValue bound cs := by
  cases bound with
  | zero => rw [readValue, readValue]
  | succ bound => rw [readValue, readValue, skip_append blank]

theorem reader_skip {reader : List Char → α}
    (append : ∀ blanks, (∀ c ∈ blanks, isSpace c = true) → ∀ cs, reader (blanks ++ cs) = reader cs)
    (cs : List Char) : reader (skip cs) = reader cs := by
  rw [← append (cs.takeWhile isSpace) fun _ => List.mem_takeWhile_imp, skip,
    List.takeWhile_append_dropWhile]

theorem readItems_append (blank : ∀ c ∈ blanks, isSpace c = true) (bound : Nat) (cs : List Char) :
    readItems bound (blanks ++ cs) = readItems bound cs := by
  cases bound with
  | zero => rw [readItems, readItems]
  | succ bound => rw [readItems, readItems, readValue_append blank]

theorem readFields_append (blank : ∀ c ∈ blanks, isSpace c = true) (bound : Nat) (cs : List Char) :
    readFields bound (blanks ++ cs) = readFields bound cs := by
  cases bound with
  | zero => rw [readFields, readFields]
  | succ bound => rw [readFields, readFields, skip_append blank]

theorem ends_append (blank : ∀ c ∈ blanks, isSpace c = true) (ends : Numeral.Ends rest) :
    Numeral.Ends (blanks ++ rest) := by
  cases blanks with
  | nil => exact ends
  | cons c blanks =>
    intro d mem
    obtain rfl : c = d := Option.some.inj mem
    have space := blank c List.mem_cons_self
    simp only [isSpace, Bool.or_eq_true, decide_eq_true_eq] at space
    obtain ((rfl | rfl) | rfl) | rfl := space <;> decide

theorem ends_cons {c : Char} (other : c.isDigit = false ∧ c ∉ ['.', 'e', 'E']) (rest : List Char) :
    Numeral.Ends (c :: rest) := by
  intro d mem
  obtain rfl : c = d := Option.some.inj mem
  exact other

theorem readValue_quote (bound : Nat) (cs : List Char) : readValue (bound + 1) ('"' :: cs) =
    (scanQuoted cs).map fun (raw, rest) => (quoted raw, rest) := by
  rw [readValue]
  rfl

theorem holds_quoted (s : String) : Holds (writeString s).toList (quoted (encoded s)) := by
  refine holds_of_step fun rest _ bound _ => ?_
  rw [toList_writeString, List.cons_append, List.append_assoc, List.singleton_append,
    readValue_quote, scanQuoted_encoded, Option.map_some]

theorem readValue_numeral {c : Char} (digit : c.isDigit = true ∨ c = '-') (bound : Nat)
    (cs : List Char) : readValue (bound + 1) (c :: cs) =
    (Numeral.read? (c :: cs)).map fun (numeral, rest) => (number numeral, rest) := by
  have other : ∀ d : Char, ¬ (d.isDigit = true ∨ d = '-') → c ≠ d :=
    fun d neither same => neither (same ▸ digit)
  have solid : skip (c :: cs) = c :: cs := by
    have space : isSpace c = false := by simp [isSpace, other]
    rw [skip, List.dropWhile_cons_of_neg (by simp [space])]
  rw [readValue, solid]
  split
  case h_7 => rfl
  all_goals next same => exact absurd (List.cons.inj same).1 (other _ (by decide))

theorem head_spell {n : Numeral} (formed : n.WellFormed) :
    ∃ c cs, (c.isDigit = true ∨ c = '-') ∧ n.spell = c :: cs := by
  cases whole : n.whole with
  | nil => exact absurd whole formed.nonempty
  | cons c more =>
    have digit := formed.whole c (whole ▸ List.mem_cons_self)
    cases sign : n.negative with
    | true => exact ⟨'-', _, .inr rfl, by rw [Numeral.spell, sign]; rfl⟩
    | false => exact ⟨c, _, .inl digit, by rw [Numeral.spell, sign, whole]; rfl⟩

theorem holds_spell {n : Numeral} (formed : n.WellFormed) : Holds n.spell (number n) := by
  refine holds_of_step fun rest ends bound _ => ?_
  obtain ⟨c, cs, first, text⟩ := head_spell formed
  have read := Numeral.read?_spell formed ends
  rw [text, List.cons_append] at read ⊢
  rw [readValue_numeral first, read, Option.map_some]

theorem holds_null : Holds "null".toList null := by
  refine holds_of_step fun rest _ bound _ => ?_
  rw [readValue]
  rfl

theorem holds_natural (k : Nat) : Holds (toString k).toList (number (Numeral.ofNat k)) := by
  rw [← Numeral.spell_ofNat]
  exact holds_spell (Numeral.wellFormed_ofNat k)

def written (x : Float) : Json :=
  match Numeral.read? (writeNumber x).toList with
  | some (numeral, _) => number numeral
  | none => null

theorem exists_written {x : Float} (finite : x.isFinite) :
    ∃ (n : Numeral) (d : Shortest.Digits), n.Denotes d.digits d.exponent ∧ d.value = x.abs ∧
      (writeNumber x).toList = Numeral.spell { n with negative := Double.isNegative x } ∧
      written x = number { n with negative := Double.isNegative x } := by
  obtain ⟨n, d, denotes, value, text⟩ := Numeral.exists_spell finite
  have read := Numeral.read?_spell (denotes.formed.signed (Double.isNegative x)) Numeral.ends_nil
  rw [List.append_nil] at read
  exact ⟨n, d, denotes, value, text, by rw [written, text, read]⟩

theorem holds_written (x : Float) : Holds (writeNumber x).toList (written x) := by
  by_cases finite : x.isFinite
  · obtain ⟨n, d, denotes, -, text, tree⟩ := exists_written finite
    rw [text, tree]
    exact holds_spell (denotes.formed.signed _)
  · have text : writeNumber x = "null" := by
      rw [writeNumber, if_pos (by simpa using finite)]
    have tree : written x = null := by
      rw [written, text]
      rfl
    rw [text, tree]
    exact holds_null

section Lines

variable {β : Type} {items : List α} {first : α} {more : List α} {line : α → List Char}
  {value : α → β} {reader : Nat → List Char → Option (List β × List Char)}

/-- The lines of a list up to its end, if the reader takes a line with a comma behind it, takes a
line at the end, and skips the indent. -/
theorem reader_lines {closing : List Char}
    (indent : ∀ bound cs, reader bound (blanks ++ cs) = reader bound cs)
    (comma : ∀ item ∈ first :: more, ∀ bound cs, (line item).length < bound →
      reader (bound + 1) (line item ++ ',' :: cs) =
        (reader bound cs).map fun (values, rest) => (value item :: values, rest))
    (last : ∀ item ∈ first :: more, ∀ bound, (line item).length < bound →
      reader (bound + 1) (line item ++ closing) = some ([value item], rest))
    (enough : ((',' :: blanks).intercalate ((first :: more).map line)).length + 1 < bound) :
    reader bound ((',' :: blanks).intercalate ((first :: more).map line) ++ closing) =
      some ((first :: more).map value, rest) := by
  obtain ⟨bound, rfl⟩ := Nat.exists_eq_succ_of_ne_zero (Nat.ne_zero_of_lt enough)
  induction more generalizing first bound with
  | nil =>
    rw [List.map_singleton, List.intercalate_singleton] at enough ⊢
    exact last first List.mem_cons_self bound (Nat.lt_of_succ_lt_succ enough)
  | cons second more ih =>
    rw [List.map_cons, List.map_cons, List.intercalate_cons_cons, ← List.map_cons] at enough ⊢
    simp only [List.length_append, List.length_cons] at enough
    obtain ⟨bound, rfl⟩ := Nat.exists_eq_succ_of_ne_zero (show bound ≠ 0 by omega)
    have others := ih (fun item mem => comma item (List.mem_cons_of_mem _ mem))
      (fun item mem => last item (List.mem_cons_of_mem _ mem)) bound (by omega)
    rw [List.append_assoc, List.append_assoc, List.cons_append,
      comma first List.mem_cons_self (bound + 1) _ (by omega), indent, others]
    rfl

end Lines

theorem readItems_comma {item : Json} {cs : List Char}
    (holds : readValue bound cs = some (item, ',' :: rest)) : readItems (bound + 1) cs =
      (readItems bound rest).map fun (items, rest) => (item :: items, rest) := by
  rw [readItems, holds]
  change (readItems bound rest).bind _ = _
  cases readItems bound rest <;> rfl

theorem readItems_last {item : Json} {cs : List Char} (aside : ∀ c ∈ outer, isSpace c = true)
    (holds : readValue bound cs = some (item, outer ++ ']' :: rest)) :
    readItems (bound + 1) cs = some ([item], rest) := by
  rw [readItems, holds]
  dsimp only [Option.bind_eq_bind, Option.bind_some]
  rw [skip_append aside]
  rfl

theorem readItems_lines {items : List α} {line : α → List Char} {value : α → Json}
    (nonempty : items ≠ []) (each : ∀ item ∈ items, Holds (line item) (value item))
    (blank : ∀ c ∈ blanks, isSpace c = true) (aside : ∀ c ∈ outer, isSpace c = true)
    (enough : ((',' :: blanks).intercalate (items.map line)).length + 1 < bound) :
    readItems bound ((',' :: blanks).intercalate (items.map line) ++ (outer ++ ']' :: rest)) =
      some (items.map value, rest) := by
  obtain ⟨first, more, rfl⟩ := List.exists_cons_of_ne_nil nonempty
  refine reader_lines (readItems_append blank) (fun item mem bound cs short => ?_)
    (fun item mem bound short => ?_) enough
  · exact readItems_comma (each item mem (ends_cons (by decide) cs) short)
  · exact readItems_last aside (each item mem (ends_append aside (ends_cons (by decide) _)) short)

theorem readItems_closing (bound : Nat) (cs : List Char) : readItems bound (']' :: cs) = none := by
  match bound with
  | 0 => rw [readItems]
  | 1 => rw [readItems, readValue]; rfl
  | bound + 2 => rw [readItems, readValue]; rfl

theorem readValue_array {items : List Json} {cs : List Char}
    (found : readItems bound cs = some (items, rest)) :
    readValue (bound + 1) ('[' :: cs) = some (array items, rest) := by
  rw [← reader_skip fun _ blank => readItems_append blank bound] at found
  have solid : skip ('[' :: cs) = '[' :: cs := rfl
  rw [readValue]
  simp only [solid]
  split
  · next behind empty =>
    rw [empty, readItems_closing] at found
    cases found
  · rw [found]
    rfl

def field (name : String) (text : List Char) : List Char :=
  '"' :: (encoded name ++ '"' :: ':' :: ' ' :: text)

theorem readFields_field {name : String} (cs : List Char) :
    readFields (bound + 1) (field name text ++ cs) = (do
      let (value, rest) ← readValue bound (' ' :: (text ++ cs))
      match skip rest with
      | ',' :: rest =>
        let (fields, rest) ← readFields bound rest
        return ((encoded name, value) :: fields, rest)
      | '\x7d' :: rest => return ([(encoded name, value)], rest)
      | _ => none) := by
  rw [field, List.cons_append, List.append_assoc, List.cons_append, List.cons_append,
    List.cons_append, readFields]
  change (scanQuoted _).bind _ = _
  rw [scanQuoted_encoded]
  rfl

theorem readFields_comma {name : String} {value : Json} (holds : Holds text value)
    (enough : text.length < bound) (cs : List Char) :
    readFields (bound + 1) (field name text ++ ',' :: cs) =
      (readFields bound cs).map fun (fields, rest) => ((encoded name, value) :: fields, rest) := by
  have space : ∀ c ∈ [' '], isSpace c = true := List.forall_mem_singleton.mpr rfl
  have read := holds (ends_cons (c := ',') (by decide) cs) enough
  rw [readFields_field, ← List.singleton_append, readValue_append space, read]
  change (readFields bound cs).bind _ = _
  cases readFields bound cs <;> rfl

theorem readFields_last {name : String} {value : Json} (holds : Holds text value)
    (enough : text.length < bound) (aside : ∀ c ∈ outer, isSpace c = true) (rest : List Char) :
    readFields (bound + 1) (field name text ++ (outer ++ '\x7d' :: rest)) =
      some ([(encoded name, value)], rest) := by
  have space : ∀ c ∈ [' '], isSpace c = true := List.forall_mem_singleton.mpr rfl
  have read := holds (ends_append aside (ends_cons (c := '\x7d') (by decide) rest)) enough
  rw [readFields_field, ← List.singleton_append, readValue_append space, read]
  dsimp only [Option.bind_eq_bind, Option.bind_some]
  rw [skip_append aside]
  rfl

theorem readFields_lines {items : List α} {name : α → String} {line : α → List Char}
    {value : α → Json} (nonempty : items ≠ [])
    (each : ∀ item ∈ items, Holds (line item) (value item))
    (blank : ∀ c ∈ blanks, isSpace c = true) (aside : ∀ c ∈ outer, isSpace c = true)
    (enough : ((',' :: blanks).intercalate
      (items.map fun item => field (name item) (line item))).length + 1 < bound) :
    readFields bound ((',' :: blanks).intercalate
      (items.map fun item => field (name item) (line item)) ++ (outer ++ '\x7d' :: rest)) =
      some (items.map fun item => (encoded (name item), value item), rest) := by
  obtain ⟨first, more, rfl⟩ := List.exists_cons_of_ne_nil nonempty
  have shorter : ∀ item, (line item).length < (field (name item) (line item)).length := by
    intro item
    simp only [field, List.length_cons, List.length_append]
    omega
  refine reader_lines (readFields_append blank) (fun item mem bound cs short => ?_)
    (fun item mem bound short => ?_) enough
  · exact readFields_comma (each item mem) (Nat.lt_trans (shorter item) short) cs
  · exact readFields_last (each item mem) (Nat.lt_trans (shorter item) short) aside rest

theorem readFields_closing (bound : Nat) (cs : List Char) :
    readFields bound ('\x7d' :: cs) = none := by
  cases bound with
  | zero => rw [readFields]
  | succ bound => rw [readFields]; rfl

theorem readValue_object {fields : List (List Char × Json)} {cs : List Char}
    (found : readFields bound cs = some (fields, rest)) :
    readValue (bound + 1) ('\x7b' :: cs) = some (object fields, rest) := by
  rw [← reader_skip fun _ blank => readFields_append blank bound] at found
  have solid : skip ('\x7b' :: cs) = '\x7b' :: cs := rfl
  rw [readValue]
  simp only [solid]
  split
  · next behind empty =>
    rw [empty, readFields_closing] at found
    cases found
  · rw [found]
    rfl

end Reckon.Json
