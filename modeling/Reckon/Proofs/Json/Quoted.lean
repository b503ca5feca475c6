import Reckon.Json.Quoted

/-!
Written strings read back. An escaped character is scanned as it stands and decoded to itself,
whatever follows it, so a string is scanned up to its own closing quote and decoded to what was
written.
-/

namespace Reckon.Json

variable {c : Char}

theorem encodeChar_cases (c : Char) :
    (∃ letter, letter ≠ 'u' ∧ escaped? letter = some c ∧ encodeChar c = ['\\', letter]) ∨
    (c.toNat < 0x20 ∧ encodeChar c =
      ['\\', 'u', '0', '0', Nat.digitChar (c.toNat / 16), Nat.digitChar (c.toNat % 16)]) ∨
    (0x20 ≤ c.toNat ∧ c ≠ '"' ∧ c ≠ '\\' ∧ encodeChar c = [c]) := by
  unfold encodeChar
  split
  · exact .inl ⟨'"', by decide, rfl, rfl⟩
  · exact .inl ⟨'\\', by decide, rfl, rfl⟩
  · exact .inl ⟨'b', by decide, rfl, rfl⟩
  · exact .inl ⟨'f', by decide, rfl, rfl⟩
  · exact .inl ⟨'n', by decide, rfl, rfl⟩
  · exact .inl ⟨'r', by decide, rfl, rfl⟩
  · exact .inl ⟨'t', by decide, rfl, rfl⟩
  · next quote backslash _ _ _ _ _ =>
    split
    · next control => exact .inr (.inl ⟨control, rfl⟩)
    · next plain => exact .inr (.inr ⟨Nat.le_of_not_lt plain, quote, backslash, rfl⟩)

theorem isHexDigit_digitChar {n : Nat} (small : n < 16) :
    isHexDigit (Nat.digitChar n) = true ∧ hexDigitValue (Nat.digitChar n) = n := by
  decide +revert

theorem scanQuoted_encodeChar (c : Char) (rest : List Char) :
    scanQuoted (encodeChar c ++ rest) =
      (scanQuoted rest).map fun (raw, rest) => (encodeChar c ++ raw, rest) := by
  obtain ⟨letter, other, known, text⟩ | ⟨control, text⟩ | ⟨printable, quote, backslash, text⟩ :=
    encodeChar_cases c <;>
  rw [text]
  · have escape : ∀ a b c d : Char, ∀ behind : List Char, letter = 'u' →
        rest = a :: b :: c :: d :: behind → False := fun _ _ _ _ _ same _ => other same
    simp only [List.cons_append, List.nil_append, scanQuoted.eq_3 letter rest escape, known]
  · have hex : ['0', '0', Nat.digitChar (c.toNat / 16), Nat.digitChar (c.toNat % 16)].all
        isHexDigit = true := by
      have high := (isHexDigit_digitChar (n := c.toNat / 16) (by omega)).1
      have low := (isHexDigit_digitChar (n := c.toNat % 16) (by omega)).1
      simp only [List.all_cons, List.all_nil, high, low]
      decide
    simp only [List.cons_append, List.nil_append, scanQuoted.eq_2, if_pos hex]
  · have plain : ¬ (c.toNat < 32 ∨ c = '\\') := by simp [backslash, printable]
    simp only [List.cons_append, List.nil_append]
    rw [scanQuoted.eq_4 c rest quote (fun _ _ _ _ _ same => absurd same backslash)
      (fun _ _ same => absurd same backslash), if_neg plain]

theorem hexValue_control (control : c.toNat < 0x20) :
    hexValue ['0', '0', Nat.digitChar (c.toNat / 16), Nat.digitChar (c.toNat % 16)] = c.toNat := by
  have high := (isHexDigit_digitChar (n := c.toNat / 16) (by omega)).2
  have low := (isHexDigit_digitChar (n := c.toNat % 16) (by omega)).2
  have zero : hexDigitValue '0' = 0 := rfl
  simp only [hexValue, List.foldl_cons, List.foldl_nil, high, low, zero]
  omega

theorem decode?_unicode {a b c d : Char} (high : isHighHalf (hexValue [a, b, c, d]) = false)
    (low : isLowHalf (hexValue [a, b, c, d]) = false) (rest : List Char) :
    decode? ('\\' :: 'u' :: a :: b :: c :: d :: rest) =
      (decode? rest).map (Char.ofNat (hexValue [a, b, c, d]) :: ·) := by
  by_cases pair : ∃ e f g h behind, rest = '\\' :: 'u' :: e :: f :: g :: h :: behind
  · obtain ⟨e, f, g, h, behind, rfl⟩ := pair
    rw [decode?.eq_2, high, low]
    rfl
  · rw [decode?.eq_3 a b c d rest fun e f g h behind same => pair ⟨e, f, g, h, behind, same⟩,
      high, low]
    rfl

theorem decode?_encodeChar (c : Char) (rest : List Char) :
    decode? (encodeChar c ++ rest) = (decode? rest).map (c :: ·) := by
  obtain ⟨letter, other, known, text⟩ | ⟨control, text⟩ | ⟨printable, quote, backslash, text⟩ :=
    encodeChar_cases c <;>
  rw [text]
  · have escape : ∀ a b c d : Char, ∀ behind : List Char, letter = 'u' →
        rest = a :: b :: c :: d :: behind → False := fun _ _ _ _ _ same _ => other same
    simp only [List.cons_append, List.nil_append, decode?.eq_4 letter rest escape, known]
  · have unit := hexValue_control control
    have high : isHighHalf c.toNat = false := by
      simp [isHighHalf]
      omega
    have low : isLowHalf c.toNat = false := by
      simp [isLowHalf]
      omega
    have whole := decode?_unicode (unit.symm ▸ high) (unit.symm ▸ low) rest
    rw [unit, Char.ofNat_toNat] at whole
    exact whole
  · exact decode?.eq_5 c rest (fun _ _ _ _ _ same => absurd same backslash)
      (fun _ _ same => absurd same backslash)

def encoded (s : String) : List Char :=
  s.toList.flatMap encodeChar

theorem toList_writeString (s : String) :
    (writeString s).toList = '"' :: (encoded s ++ ['"']) :=
  String.toList_ofList

theorem scanQuoted_encoded (s : String) (rest : List Char) :
    scanQuoted (encoded s ++ '"' :: rest) = some (encoded s, rest) := by
  unfold encoded
  induction s.toList with
  | nil => exact scanQuoted.eq_1 rest
  | cons c cs ih =>
    rw [List.flatMap_cons, List.append_assoc, scanQuoted_encodeChar, ih]
    rfl

theorem decodeString?_encoded (s : String) : decodeString? (encoded s) = some s := by
  have decoded : decode? (encoded s) = some s.toList := by
    unfold encoded
    induction s.toList with
    | nil => exact decode?.eq_1
    | cons c cs ih =>
      rw [List.flatMap_cons, decode?_encodeChar, ih]
      rfl
  rw [decodeString?, decoded, Option.map_some, String.ofList_toList]

end Reckon.Json
