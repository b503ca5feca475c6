import Reckon.VariableTable

/-!
Looking up variables after they were set. A name has the value that was set last for a name of its
normal form, and setting other names does not touch it.
-/

namespace Reckon.VariableTable

variable {table : VariableTable} {name target : String} {value : Float}

theorem lookup_filter_ne {entries : List (String × Float)} (other : name ≠ target) :
    (entries.filter (·.1 ≠ target)).lookup name = entries.lookup name := by
  induction entries with
  | nil => rfl
  | cons entry entries ih =>
    obtain ⟨key, value⟩ := entry
    by_cases same : key = target
    · have skipped : (name == key) = false := by simp [same, other]
      rw [List.filter_cons_of_neg (by simp [same]), ih, List.lookup_cons, skipped]
    · rw [List.filter_cons_of_pos (by simp [same]), List.lookup_cons, List.lookup_cons, ih]

theorem get?_set_other (other : Text.normalName name ≠ Text.normalName target) :
    (table.set target value).get? name = table.get? name := by
  unfold set get?
  dsimp only
  split
  · rfl
  · have skipped : (Text.normalName name == Text.normalName target) = false := by simp [other]
    rw [List.lookup_cons, skipped]
    exact lookup_filter_ne other

theorem get?_set_same (same : Text.normalName name = Text.normalName target)
    (full : Text.normalName target ≠ "") : (table.set target value).get? name = some value := by
  unfold set get?
  dsimp only
  rw [if_neg full, same, List.lookup_cons_self]

theorem get?_set_congr {table' : VariableTable} (same : table.get? name = table'.get? name) :
    (table.set target value).get? name = (table'.set target value).get? name := by
  by_cases here : Text.normalName name = Text.normalName target
  · by_cases blank : Text.normalName target = ""
    · rwa [set, set, if_pos blank, if_pos blank]
    · rw [get?_set_same here blank, get?_set_same here blank]
  · rwa [get?_set_other here, get?_set_other here]

theorem get?_set_ne_none (bound : (table.set target value).get? name ≠ none) :
    Text.normalName name = Text.normalName target ∨ table.get? name ≠ none := by
  by_cases same : Text.normalName name = Text.normalName target
  · exact .inl same
  · rw [get?_set_other same] at bound
    exact .inr bound

theorem get?_setAll {bindings : List (String × Float)} (normal : Text.normalName name = name)
    (names : ∀ binding ∈ bindings, Text.normalName binding.1 = binding.1 ∧ binding.1 ≠ "")
    (distinct : (bindings.map Prod.fst).Nodup) :
    (table.setAll bindings).get? name = (bindings.lookup name).or (table.get? name) := by
  induction bindings generalizing table with
  | nil => rfl
  | cons binding bindings ih =>
    obtain ⟨target, value⟩ := binding
    rw [List.forall_mem_cons] at names
    rw [List.map_cons, List.nodup_cons] at distinct
    have later : ((table.set target value).setAll bindings).get? name =
        (bindings.lookup name).or ((table.set target value).get? name) :=
      ih names.2 distinct.2
    have step : table.setAll ((target, value) :: bindings) =
        (table.set target value).setAll bindings := List.foldl_cons ..
    rw [step, later, List.lookup_cons]
    by_cases same : name = target
    · subst same
      have absent : bindings.lookup name = none := by
        rw [List.lookup_eq_none_iff]
        intro binding mem
        exact bne_iff_ne.mpr fun same => distinct.1 (List.mem_map.mpr ⟨binding, mem, same.symm⟩)
      have full : Text.normalName name ≠ "" := by
        rw [normal]
        exact names.1.2
      rw [absent, get?_set_same rfl full]
      simp
    · have other : Text.normalName name ≠ Text.normalName target := by
        rwa [normal, names.1.1]
      have skipped : (name == target) = false := by simp [same]
      rw [get?_set_other other, skipped]

end Reckon.VariableTable
