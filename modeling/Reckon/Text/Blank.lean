/-!
Blank characters are those with Unicode's White_Space property. Trimming drops them from both
ends of a text and from nowhere else, so a text is blank exactly when it trims to nothing.
-/

namespace Reckon.Text

def isBlank (c : Char) : Bool :=
  let n := c.toNat
  (0x09 ≤ n && n ≤ 0x0d) || n == 0x20 || n == 0x85 || n == 0xa0 || n == 0x1680 ||
    (0x2000 ≤ n && n ≤ 0x200a) || n == 0x2028 || n == 0x2029 || n == 0x202f || n == 0x205f ||
    n == 0x3000

def trimEnd (cs : List Char) : List Char :=
  (cs.reverse.dropWhile isBlank).reverse

def trim (s : String) : String :=
  String.ofList (trimEnd (s.toList.dropWhile isBlank))

def isBlankText (s : String) : Bool :=
  s.toList.all isBlank

theorem trimEnd_append_blank (cs blanks : List Char) (h : blanks.all isBlank = true) :
    trimEnd (cs ++ blanks) = trimEnd cs := by
  have drop : ∀ bs : List Char, bs.all isBlank = true →
      ∀ rest : List Char, (bs ++ rest).dropWhile isBlank = rest.dropWhile isBlank := by
    intro bs
    induction bs with
    | nil => intro _ rest; rfl
    | cons b bs ih =>
      intro hb rest
      simp only [List.all_cons, Bool.and_eq_true] at hb
      simp [hb.1, ih hb.2 rest]
  simp only [trimEnd, List.reverse_append]
  rw [drop blanks.reverse (by simpa using h)]

end Reckon.Text
