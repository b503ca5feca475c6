import Reckon.Text.CaseTable

/-!
Lower case of a text. Each character goes to its small letter, with two exceptions of Unicode:
the dotted capital I becomes two characters, and a capital sigma becomes a final sigma when a
cased letter stands before it and none after it, case-ignorable characters aside. On ASCII text
`lowercase` changes the letters A to Z and nothing else.
-/

namespace Reckon.Text

def isCased (c : Char) : Bool :=
  CaseTable.cased.any (·.covers c.toNat)

def isCaseIgnorable (c : Char) : Bool :=
  CaseTable.caseIgnorable.any (·.covers c.toNat)

def lowerChar (c : Char) : Char :=
  if c.toNat < 0x80 then c.toLower
  else match CaseTable.lowerings.find? (·.covers c.toNat) with
    | some range => Char.ofNat (c.toNat + range.shift).toNat
    | none => c

def meetsCased (cs : List Char) : Bool :=
  (cs.dropWhile isCaseIgnorable).head?.any isCased

/-- Lowers `cs`, in front of which `before` stands, nearest character first. -/
def lowerFrom (before : List Char) : List Char → List Char
  | [] => []
  | c :: cs =>
    let lowered :=
      if c = 'Σ' then [if meetsCased before && !meetsCased cs then 'ς' else 'σ']
      else if c = 'İ' then ['i', '\u0307']
      else [lowerChar c]
    lowered ++ lowerFrom (c :: before) cs

def lowercase (s : String) : String :=
  String.ofList (lowerFrom [] s.toList)

theorem lowerFrom_ascii (before cs : List Char) (h : ∀ c ∈ cs, c.toNat < 0x80) :
    lowerFrom before cs = cs.map Char.toLower := by
  induction cs generalizing before with
  | nil => rfl
  | cons c cs ih =>
    have small := h c (List.mem_cons_self ..)
    have notSigma : c ≠ 'Σ' := by rintro rfl; revert small; decide
    have notDotted : c ≠ 'İ' := by rintro rfl; revert small; decide
    simp [lowerFrom, notSigma, notDotted, lowerChar, small,
      ih (c :: before) fun d mem => h d (List.mem_cons_of_mem _ mem)]

end Reckon.Text
