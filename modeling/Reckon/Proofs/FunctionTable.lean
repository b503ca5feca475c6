import Reckon.FunctionTable

/-!
Which declarations a lookup looks at. A name finds the first source that is declared under its
normal form, so sources of other names count for nothing, well formed or not.
-/

namespace Reckon.FunctionTable

variable {table : FunctionTable} {name source : String} {sources before after : List String}

theorem find?_of_absent
    (absent : ∀ source ∈ table.sources, declaredName source ≠ Text.normalName name) :
    table.find? name = .ok none := by
  have nothing : table.sources.find? (declaredName · = Text.normalName name) = none := by
    simpa using absent
  rw [find?, nothing]

theorem find?_eq_none_iff : table.find? name = .ok none ↔
    ∀ source ∈ table.sources, declaredName source ≠ Text.normalName name := by
  refine ⟨fun found source mem declared => ?_, find?_of_absent⟩
  rw [find?] at found
  cases first : table.sources.find? (declaredName · = Text.normalName name) with
  | none => simpa [declared] using List.find?_eq_none.mp first source mem
  | some other =>
    rw [first] at found
    cases read : Declaration.read other with
    | error failure => simp [read, Except.map] at found
    | ok declaration => simp [read, Except.map] at found

theorem find?_of_first (same : table.sources = before ++ source :: after)
    (declared : declaredName source = Text.normalName name)
    (others : ∀ earlier ∈ before, declaredName earlier ≠ Text.normalName name) :
    table.find? name = (Declaration.read source).map some := by
  have none : before.find? (declaredName · = Text.normalName name) = none := by simpa using others
  have first : table.sources.find? (declaredName · = Text.normalName name) = some source := by
    rw [same, List.find?_append, none, Option.none_or, List.find?_cons_of_pos (by simpa using declared)]
  rw [find?, first]

theorem find?_insert (other : declaredName source ≠ Text.normalName name) :
    find? ⟨before ++ source :: after⟩ name = find? ⟨before ++ after⟩ name := by
  simp [find?, List.find?_append, other]

theorem exists_source_of_find? {declaration : Declaration}
    (found : table.find? name = .ok (some declaration)) :
    ∃ source ∈ table.sources, declaredName source = Text.normalName name ∧
      Declaration.read source = .ok declaration := by
  rw [find?] at found
  cases first : table.sources.find? (declaredName · = Text.normalName name) with
  | none => simp [first] at found
  | some source =>
    have declared := List.find?_some first
    rw [first] at found
    refine ⟨source, List.mem_of_find?_eq_some first, of_decide_eq_true declared, ?_⟩
    cases read : Declaration.read source with
    | error failure => simp [read, Except.map] at found
    | ok other => simpa [read, Except.map] using found

end Reckon.FunctionTable
