/-!
Names with one value each, in ascending order of their code points. The order is kept by
insertion, so two lists of bindings with the same names and values are the same list.
-/

namespace Reckon

structure Bindings where
  entries : List (String × Float)
  ascending : entries.Pairwise (·.1 < ·.1)
  deriving DecidableEq

namespace Bindings

def empty : Bindings :=
  ⟨[], .nil⟩

def place (name : String) (value : Float) : List (String × Float) → List (String × Float)
  | [] => [(name, value)]
  | first :: rest =>
    if name < first.1 then (name, value) :: first :: rest
    else if name = first.1 then (name, value) :: rest
    else first :: place name value rest

theorem fst_of_mem_place {name : String} {value : Float} {entries : List (String × Float)}
    {entry : String × Float} (h : entry ∈ place name value entries) :
    entry.1 = name ∨ entry ∈ entries := by
  induction entries with
  | nil => simp_all [place]
  | cons first rest ih =>
    unfold place at h
    split at h
    · rcases List.mem_cons.mp h with rfl | h
      · exact .inl rfl
      · exact .inr h
    · split at h
      · rcases List.mem_cons.mp h with rfl | h
        · exact .inl rfl
        · exact .inr (List.mem_cons_of_mem _ h)
      · rcases List.mem_cons.mp h with rfl | h
        · exact .inr (List.mem_cons_self ..)
        · exact (ih h).imp id (List.mem_cons_of_mem _)

theorem pairwise_place (name : String) (value : Float) {entries : List (String × Float)}
    (h : entries.Pairwise (·.1 < ·.1)) : (place name value entries).Pairwise (·.1 < ·.1) := by
  induction entries with
  | nil => exact List.pairwise_singleton ..
  | cons first rest ih =>
    obtain ⟨below, ordered⟩ := List.pairwise_cons.mp h
    unfold place
    split
    · next less =>
      refine List.pairwise_cons.mpr ⟨fun entry mem => ?_, h⟩
      rcases List.mem_cons.mp mem with rfl | mem
      · exact less
      · exact Std.lt_trans less (below entry mem)
    · next notLess =>
      split
      · next same => exact List.pairwise_cons.mpr ⟨same ▸ below, ordered⟩
      · next different =>
        refine List.pairwise_cons.mpr ⟨fun entry mem => ?_, ih ordered⟩
        rcases fst_of_mem_place mem with same | mem
        · exact same ▸ Std.lt_of_le_of_ne (Std.not_lt.mp notLess) (Ne.symm different)
        · exact below entry mem

def insert (bindings : Bindings) (name : String) (value : Float) : Bindings :=
  ⟨place name value bindings.entries, pairwise_place name value bindings.ascending⟩

/-- Of several values for one name the last counts. -/
def ofList (entries : List (String × Float)) : Bindings :=
  entries.foldl (fun bindings entry => bindings.insert entry.1 entry.2) empty

end Bindings

end Reckon
