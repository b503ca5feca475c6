import Reckon.Bindings

/-!
Bindings and the lists they come from. A list in ascending order is kept as it is, and whatever the
order, no entry is made up.
-/

namespace Reckon.Bindings

variable {name : String} {value : Float} {entries : List (String × Float)}
  {entry : String × Float} {bindings : Bindings}

theorem place_last (above : ∀ entry ∈ entries, entry.1 < name) :
    place name value entries = entries ++ [(name, value)] := by
  induction entries with
  | nil => rfl
  | cons first rest ih =>
    obtain ⟨here, later⟩ := List.forall_mem_cons.mp above
    rw [place, if_neg (Std.not_gt_of_lt here), if_neg (Std.ne_of_lt here).symm, ih later,
      List.cons_append]

theorem entries_foldl_insert (ordered : (bindings.entries ++ entries).Pairwise (·.1 < ·.1)) :
    (entries.foldl (fun bindings entry => bindings.insert entry.1 entry.2) bindings).entries =
      bindings.entries ++ entries := by
  induction entries generalizing bindings with
  | nil => exact (List.append_nil _).symm
  | cons entry rest ih =>
    have above := (List.pairwise_append.mp ordered).2.2
    have placed : (bindings.insert entry.1 entry.2).entries = bindings.entries ++ [entry] :=
      place_last fun before mem => above before mem entry List.mem_cons_self
    have shifted : bindings.entries ++ entry :: rest = bindings.entries ++ [entry] ++ rest := by
      rw [List.append_assoc, List.singleton_append]
    rw [List.foldl_cons, ih (by rwa [placed, ← shifted]), placed, ← shifted]

theorem entries_ofList (ordered : entries.Pairwise (·.1 < ·.1)) :
    (ofList entries).entries = entries := by
  have behind : (empty.entries ++ entries).Pairwise (·.1 < ·.1) := ordered
  exact entries_foldl_insert behind

theorem mem_place (mem : entry ∈ place name value entries) :
    entry = (name, value) ∨ entry ∈ entries := by
  induction entries with
  | nil => exact .inl (List.mem_singleton.mp mem)
  | cons first rest ih =>
    unfold place at mem
    split at mem
    · exact List.mem_cons.mp mem
    · split at mem
      · exact (List.mem_cons.mp mem).imp id (List.mem_cons_of_mem _)
      · rcases List.mem_cons.mp mem with rfl | mem
        · exact .inr List.mem_cons_self
        · exact (ih mem).imp id (List.mem_cons_of_mem _)

theorem mem_ofList (mem : entry ∈ (ofList entries).entries) : entry ∈ entries := by
  have kept : ∀ (bindings : Bindings), entry ∈ (entries.foldl
      (fun bindings entry => bindings.insert entry.1 entry.2) bindings).entries →
      entry ∈ bindings.entries ∨ entry ∈ entries := by
    clear mem
    induction entries with
    | nil => exact fun _ => .inl
    | cons first rest ih =>
      intro bindings mem
      rcases ih _ mem with mem | mem
      · rcases mem_place mem with rfl | mem
        · exact .inr List.mem_cons_self
        · exact .inl mem
      · exact .inr (List.mem_cons_of_mem _ mem)
  exact (kept empty mem).resolve_left List.not_mem_nil

def mapValues (f : Float → Float) (bindings : Bindings) : Bindings :=
  ⟨bindings.entries.map fun (name, value) => (name, f value),
    List.pairwise_map.mpr bindings.ascending⟩

theorem eq_of_entries {other : Bindings} (same : bindings.entries = other.entries) :
    bindings = other := by
  cases bindings
  cases other
  congr

theorem ofList_mapValues (f : Float → Float) (bindings : Bindings) :
    ofList (bindings.mapValues f).entries = bindings.mapValues f :=
  eq_of_entries (entries_ofList (bindings.mapValues f).ascending)

theorem mapValues_eq_self (f : Float → Float) (bindings : Bindings) :
    bindings.mapValues f = bindings ↔ ∀ entry ∈ bindings.entries, f entry.2 = entry.2 := by
  refine ⟨fun same entry mem => ?_, fun each => eq_of_entries ?_⟩
  · have kept := List.map_inj_left.mp ((congrArg entries same).trans (List.map_id _).symm)
    exact congrArg Prod.snd (kept entry mem)
  · refine (List.map_congr_left fun entry mem => ?_).trans (List.map_id _)
    exact Prod.ext rfl (each entry mem)

end Reckon.Bindings
