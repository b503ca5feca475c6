import Mathlib.Data.List.DropRight
import Mathlib.Data.List.TakeWhile
import Reckon.Text.Name
import Reckon.Text.Pieces

/-!
Trimming and cutting. Trimming at the end keeps a character as long as it, or one behind it, is not
blank. So a separator that is not blank holds its place: the parts around it are trimmed on their
outer sides only, and cutting a trimmed text is cutting the text.
-/

namespace Reckon.Text

variable {cs front back : List Char} {c separator : Char} {s before after : String}

theorem trimEnd_cons :
    trimEnd (c :: cs) = if (c :: cs).all isBlank = true then [] else c :: trimEnd cs := by
  rw [trimEnd, trimEnd, List.reverse_cons, List.dropWhile_append]
  by_cases blank : cs.all isBlank = true
  · have gone : cs.reverse.dropWhile isBlank = [] :=
      List.dropWhile_eq_nil_iff.mpr (by simpa using blank)
    by_cases here : isBlank c = true
    · simp [gone, blank, here]
    · simp [gone, here]
  · have stays : cs.reverse.dropWhile isBlank ≠ [] := by
      rw [ne_eq, List.dropWhile_eq_nil_iff]
      simpa using blank
    simp [stays, blank]

theorem all_trimEnd : (trimEnd cs).all isBlank = cs.all isBlank := by
  induction cs with
  | nil => rfl
  | cons c cs ih =>
    rw [trimEnd_cons]
    by_cases blank : (c :: cs).all isBlank = true
    · rw [if_pos blank, blank]
      rfl
    · rw [if_neg blank, List.all_cons, List.all_cons, ih]

theorem trimEnd_trimEnd : trimEnd (trimEnd cs) = trimEnd cs := by
  induction cs with
  | nil => rfl
  | cons c cs ih =>
    rw [trimEnd_cons]
    by_cases blank : (c :: cs).all isBlank = true
    · rw [if_pos blank]
      rfl
    · have blank' : ¬ (c :: trimEnd cs).all isBlank = true := by
        rwa [List.all_cons, all_trimEnd, ← List.all_cons]
      rw [if_neg blank, trimEnd_cons, if_neg blank', ih]

theorem trimEnd_dropWhile : trimEnd (cs.dropWhile isBlank) = (trimEnd cs).dropWhile isBlank := by
  induction cs with
  | nil => rfl
  | cons c cs ih =>
    rw [trimEnd_cons]
    by_cases blank : (c :: cs).all isBlank = true
    · have gone : (c :: cs).dropWhile isBlank = [] :=
        List.dropWhile_eq_nil_iff.mpr (by simpa using blank)
      rw [if_pos blank, gone]
      rfl
    · rw [if_neg blank]
      by_cases here : isBlank c = true
      · rw [List.dropWhile_cons_of_pos here, List.dropWhile_cons_of_pos here, ih]
      · rw [List.dropWhile_cons_of_neg here, List.dropWhile_cons_of_neg here, trimEnd_cons,
          if_neg blank]

theorem trimEnd_append_cons (solid : isBlank c = false) :
    trimEnd (front ++ c :: back) = front ++ c :: trimEnd back := by
  induction front with
  | nil => simp [trimEnd_cons, solid]
  | cons d front ih =>
    have stays : ¬ ((d :: front) ++ c :: back).all isBlank = true := by simp [solid]
    rw [List.cons_append] at stays ⊢
    rw [trimEnd_cons, if_neg stays, ih]
    rfl

theorem dropWhile_append_cons (solid : isBlank c = false) :
    (front ++ c :: back).dropWhile isBlank = front.dropWhile isBlank ++ c :: back := by
  induction front with
  | nil => simp [solid]
  | cons d front ih =>
    rw [List.cons_append]
    by_cases blank : isBlank d = true
    · rw [List.dropWhile_cons_of_pos blank, List.dropWhile_cons_of_pos blank, ih]
    · rw [List.dropWhile_cons_of_neg blank, List.dropWhile_cons_of_neg blank, List.cons_append]

theorem exists_blanks_trimEnd (cs : List Char) :
    ∃ blanks, (∀ c ∈ blanks, isBlank c = true) ∧ cs = trimEnd cs ++ blanks := by
  induction cs with
  | nil => exact ⟨[], by simp, rfl⟩
  | cons c cs ih =>
    obtain ⟨blanks, blank, same⟩ := ih
    rw [trimEnd_cons]
    by_cases whole : (c :: cs).all isBlank = true
    · exact ⟨c :: cs, List.all_eq_true.mp whole, by rw [if_pos whole, List.nil_append]⟩
    · exact ⟨blanks, blank, by rw [if_neg whole, List.cons_append, ← same]⟩

theorem exists_blanks_trim (s : String) : ∃ blanks blanks',
    (∀ c ∈ blanks, isBlank c = true) ∧ (∀ c ∈ blanks', isBlank c = true) ∧
      s.toList = blanks ++ ((trim s).toList ++ blanks') := by
  obtain ⟨blanks, blank, same⟩ := exists_blanks_trimEnd (s.toList.dropWhile isBlank)
  refine ⟨s.toList.takeWhile isBlank, blanks, fun c mem => List.mem_takeWhile_imp mem, blank, ?_⟩
  rw [trim, String.toList_ofList, ← same, List.takeWhile_append_dropWhile]

theorem trim_blanks_append (blank : ∀ c ∈ front, isBlank c = true) :
    trim (String.ofList (front ++ cs)) = trim (String.ofList cs) := by
  simp only [trim, String.toList_ofList, List.dropWhile_append_of_pos blank]

theorem trim_append_blanks (blank : ∀ c ∈ back, isBlank c = true) :
    trim (String.ofList (cs ++ back)) = trim (String.ofList cs) := by
  simp only [trim, String.toList_ofList, trimEnd_dropWhile,
    trimEnd_append_blank cs back (List.all_eq_true.mpr blank)]

theorem trim_ofList_trimEnd : trim (String.ofList (trimEnd cs)) = trim (String.ofList cs) := by
  simp only [trim, String.toList_ofList]
  rw [trimEnd_dropWhile, trimEnd_trimEnd, trimEnd_dropWhile]

theorem trim_ofList_dropWhile :
    trim (String.ofList (cs.dropWhile isBlank)) = trim (String.ofList cs) := by
  simp only [trim, String.toList_ofList, List.dropWhile_idempotent]

theorem trim_trim (s : String) : trim (trim s) = trim s := by
  conv_lhs => rw [trim.eq_def s]
  rw [trim_ofList_trimEnd, trim_ofList_dropWhile, String.ofList_toList]

theorem trim_eq_empty : trim s = "" ↔ isBlankText s = true := by
  rw [isBlankText, List.all_eq_true]
  constructor
  · intro empty c mem
    obtain ⟨front, back, blank, blank', split⟩ := exists_blanks_trim s
    rw [empty, String.toList_empty, List.nil_append] at split
    exact List.forall_mem_append.mpr ⟨blank, blank'⟩ c (split ▸ mem)
  · intro blank
    rw [← String.ofList_toList (s := s), ← List.nil_append s.toList, trim_append_blanks blank]
    rfl

theorem lowercase_eq_empty : lowercase s = "" ↔ s = "" := by
  refine ⟨fun lowered => ?_, fun empty => by rw [empty]; rfl⟩
  rw [lowercase, String.ofList_eq_empty_iff] at lowered
  cases chars : s.toList with
  | nil => exact String.toList_eq_nil_iff.mp chars
  | cons c cs =>
    rw [chars, lowerFrom, List.append_eq_nil_iff] at lowered
    obtain ⟨gone, -⟩ := lowered
    split at gone
    · simp at gone
    · split at gone <;> simp at gone

theorem normalName_eq_empty : normalName s = "" ↔ isBlankText s = true := by
  rw [normalName, lowercase_eq_empty, trim_eq_empty]

theorem cutFirst_eq_some : cutFirst separator s = some (before, after) ↔
    s.toList = before.toList ++ separator :: after.toList ∧ separator ∉ before.toList := by
  constructor
  · intro cut
    refine ⟨toList_cutFirst cut, ?_⟩
    unfold cutFirst at cut
    split at cut
    · contradiction
    · obtain ⟨rfl, -⟩ := by simpa using cut
      rw [String.toList_ofList]
      intro mem
      simpa using List.mem_takeWhile_imp mem
  · rintro ⟨whole, absent⟩
    have passes : ∀ c ∈ before.toList, (c != separator) = true := by
      intro c mem
      simp only [bne_iff_ne, ne_eq]
      rintro rfl
      exact absent mem
    have rest : s.toList.dropWhile (· != separator) = separator :: after.toList := by
      rw [whole, List.dropWhile_append_of_pos passes]
      simp
    have first : s.toList.takeWhile (· != separator) = before.toList := by
      rw [whole, List.takeWhile_append_of_pos passes]
      simp
    simp [cutFirst, rest, first]

theorem isBlankText_of_cut (solid : isBlank separator = false)
    (cut : cutFirst separator s = some (before, after)) : isBlankText s = false := by
  rw [isBlankText, toList_cutFirst cut]
  simp [solid]

theorem trim_cut (solid : isBlank separator = false)
    (cut : cutFirst separator s = some (before, after)) :
    cutFirst separator (trim s) = some (String.ofList (before.toList.dropWhile isBlank),
      String.ofList (trimEnd after.toList)) := by
  obtain ⟨whole, absent⟩ := cutFirst_eq_some.mp cut
  rw [cutFirst_eq_some]
  simp only [String.toList_ofList, trim]
  refine ⟨?_, fun mem => absent ((List.dropWhile_suffix isBlank).subset mem)⟩
  rw [whole, dropWhile_append_cons solid, trimEnd_append_cons solid]

theorem cutFirst_eq_none : cutFirst separator s = none ↔ separator ∉ s.toList := by
  unfold cutFirst
  split
  · next gone =>
    refine iff_of_true rfl fun mem => ?_
    simpa using List.dropWhile_eq_nil_iff.mp gone separator mem
  · next found =>
    refine iff_of_false (by simp) (not_not.mpr ?_)
    have stops := List.head?_dropWhile_not (· != separator) s.toList
    rw [found] at stops
    have same := by simpa using stops
    exact same ▸ (List.dropWhile_suffix _).subset (found ▸ List.mem_cons_self)

theorem trim_uncut (uncut : cutFirst separator s = none) : cutFirst separator (trim s) = none := by
  rw [cutFirst_eq_none] at uncut ⊢
  obtain ⟨front, back, -, -, same⟩ := exists_blanks_trim s
  intro mem
  exact uncut (by simp [same, mem])

theorem isBlankText_ofList_trimEnd :
    isBlankText (String.ofList (trimEnd cs)) = isBlankText (String.ofList cs) := by
  simp only [isBlankText, String.toList_ofList, all_trimEnd]

end Reckon.Text
