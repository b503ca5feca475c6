/-!
Cutting a text at a separator. `cutFirst` cuts once, at the first separator, and says whether
there was one; `pieces` cuts everywhere and always has at least one piece. Joining the pieces
with the separator between them gives the text back.
-/

namespace Reckon.Text

def cutFirst (separator : Char) (s : String) : Option (String × String) :=
  match s.toList.dropWhile (· != separator) with
  | [] => none
  | _ :: after => some (String.ofList (s.toList.takeWhile (· != separator)), String.ofList after)

def pieces (separator : Char) (s : String) : List String :=
  (s.toList.splitOn separator).map String.ofList

def join (separator : Char) (parts : List String) : String :=
  String.ofList ([separator].intercalate (parts.map String.toList))

def upTo (stops : Char → Bool) (s : String) : String :=
  String.ofList (s.toList.takeWhile (!stops ·))

theorem toList_cutFirst {separator : Char} {s before after : String}
    (h : cutFirst separator s = some (before, after)) :
    s.toList = before.toList ++ separator :: after.toList := by
  unfold cutFirst at h
  split at h
  · contradiction
  · next c rest found =>
    have stop : c = separator := by
      have first := List.head_dropWhile_not (· != separator) (l := s.toList) (by simp [found])
      simpa [found] using first
    obtain ⟨rfl, rfl⟩ := by simpa using h
    rw [String.toList_ofList, String.toList_ofList, ← stop, ← found, stop,
      List.takeWhile_append_dropWhile]

end Reckon.Text
