import Reckon.Proofs.Scanner.Written
import Reckon.Proofs.Text.Trim

/-!
Blanks around a text. A fault names a character that no token has, or a run of digits and points
that is no number, and blanks in front of it or behind it do not change it. So a text has the tokens
of its trimmed text, and the same fault.
-/

namespace Reckon.Scanner

variable {cs blanks after rest : List Char} {fault : ReadFault} {c : Char}

/-- A text that begins with what a fault names, and the text behind that. -/
inductive Fails : ReadFault → List Char → List Char → Prop
  | illegal {c : Char} {rest : List Char} :
    TokenKind.ofChar c = .invalid → Text.isBlank c = false → Fails (.illegalCharacter c) (c :: rest) rest
  | malformed {first : Char} {more rest : List Char} :
    Decimal.IsRun (first :: more) → Decimal.read? (String.ofList (first :: more)) = none →
      (∀ c ∈ rest.head?, TokenKind.number.continues c = false) →
        Fails (.malformedNumber (String.ofList (first :: more))) (first :: more ++ rest) rest

theorem Fails.read_eq (fails : Fails fault cs rest) : read cs = .fault fault rest := by
  cases fails with
  | illegal invalid solid => rw [read_first solid, invalid, readAs]
  | @malformed first more _ isRun unreadable ends =>
    rw [Decimal.IsRun, List.forall_mem_cons] at isRun
    have kind : TokenKind.ofChar first = .number := TokenKind.ofChar_number.mpr isRun.1
    have all : ∀ c ∈ more, TokenKind.number.continues c = true := fun c mem =>
      TokenKind.continues_number.mpr (isRun.2 c mem)
    rw [List.cons_append, read_of_kind kind (by decide)]
    simp only [readAs, readNumber, run_eq all ends, afterRun_eq all ends, unreadable]

theorem fails_of_readAs {first : Char} (solid : Text.isBlank first = false)
    (found : readAs (TokenKind.ofChar first) first cs = .fault fault rest) :
    Fails fault (first :: cs) rest := by
  cases kind : TokenKind.ofChar first with
  | invalid =>
    rw [kind, readAs] at found
    obtain ⟨rfl, rfl⟩ := Step.fault.inj found
    exact .illegal kind solid
  | number =>
    rw [kind, readAs, readNumber] at found
    split at found
    · contradiction
    · next unreadable =>
      obtain ⟨rfl, rfl⟩ := Step.fault.inj found
      have isRun : Decimal.IsRun (first :: cs.takeWhile TokenKind.number.continues) := by
        rw [Decimal.IsRun, List.forall_mem_cons]
        refine ⟨TokenKind.ofChar_number.mp kind, fun c mem => ?_⟩
        exact TokenKind.continues_number.mp (List.mem_takeWhile_imp mem)
      have ends : ∀ c ∈ (afterRun .number cs).head?, TokenKind.number.continues c = false :=
        head_of_afterRun
      have fails := Fails.malformed isRun unreadable ends
      rwa [List.cons_append, afterRun, List.takeWhile_append_dropWhile] at fails
  | relational =>
    rw [kind, readAs] at found
    unfold readRelational at found
    repeat' split at found
    all_goals contradiction
  | operator | identifier | boolean | opening | closing | delimiter | previous =>
    rw [kind] at found
    contradiction

theorem read_eq_fault : read cs = .fault fault rest ↔ ∃ blanks after,
    (∀ c ∈ blanks, Text.isBlank c = true) ∧ cs = blanks ++ after ∧ Fails fault after rest := by
  constructor
  · intro found
    have blank : ∀ c ∈ cs.takeWhile Text.isBlank, Text.isBlank c = true := fun c mem =>
      List.mem_takeWhile_imp mem
    refine ⟨cs.takeWhile Text.isBlank, cs.dropWhile Text.isBlank, blank,
      List.takeWhile_append_dropWhile.symm, ?_⟩
    have stops := List.head?_dropWhile_not Text.isBlank cs
    rw [← List.takeWhile_append_dropWhile (p := Text.isBlank) (l := cs), read_blanks blank] at found
    cases behind : cs.dropWhile Text.isBlank with
    | nil =>
      rw [behind] at found
      contradiction
    | cons first after =>
      rw [behind] at found stops
      rw [read_first stops] at found
      exact fails_of_readAs stops found
  · rintro ⟨blanks, after, blank, rfl, fails⟩
    rw [read_blanks blank, fails.read_eq]

theorem readAll_of_fault (found : read cs = .fault fault rest) :
    readAll cs = ⟨[], some fault, rest⟩ := by
  rw [readAll]
  split <;> simp_all

theorem readAll_blanks (blank : ∀ c ∈ blanks, Text.isBlank c = true) :
    readAll (blanks ++ cs) = readAll cs := by
  have same := read_blanks blank cs
  cases found : read cs with
  | finished => rw [readAll_of_finished found, readAll_of_finished (same.trans found)]
  | token token rest => rw [readAll_of_token found, readAll_of_token (same.trans found)]
  | fault fault rest => rw [readAll_of_fault found, readAll_of_fault (same.trans found)]

theorem head_append_blanks {property : Char → Prop}
    (here : ∀ c ∈ rest.head?, property c) (there : ∀ c, Text.isBlank c = true → property c)
    (blank : ∀ c ∈ blanks, Text.isBlank c = true) : ∀ c ∈ (rest ++ blanks).head?, property c := by
  cases rest with
  | nil => exact fun c mem => there c (blank c (List.mem_of_mem_head? mem))
  | cons d rest => exact here

theorem ends_append_blanks {token : Token} (ends : token.Ends rest)
    (blank : ∀ c ∈ blanks, Text.isBlank c = true) : token.Ends (rest ++ blanks) :=
  head_append_blanks ends (fun c blank => token.ends_of_isBlank blank [] c rfl) blank

theorem readAll_append_blanks (blank : ∀ c ∈ blanks, Text.isBlank c = true) :
    (readAll (cs ++ blanks)).tokens = (readAll cs).tokens ∧
      (readAll (cs ++ blanks)).fault = (readAll cs).fault := by
  fun_induction readAll cs with
  | case1 cs finished =>
    have all : ∀ c ∈ cs ++ blanks, Text.isBlank c = true :=
      List.forall_mem_append.mpr ⟨read_eq_finished.mp finished, blank⟩
    rw [readAll_of_finished (read_eq_finished.mpr all)]
    exact ⟨rfl, rfl⟩
  | case2 cs fault rest found =>
    obtain ⟨front, after, between, rfl, fails⟩ := read_eq_fault.mp found
    have further : Fails fault (after ++ blanks) (rest ++ blanks) := by
      cases fails with
      | illegal invalid solid => exact .illegal invalid solid
      | malformed isRun unreadable ends =>
        rw [List.append_assoc]
        refine .malformed isRun unreadable (head_append_blanks ends (fun c blank => ?_) blank)
        simp [TokenKind.continues, TokenKind.ofChar_of_isBlank blank]
    have longer : read (front ++ after ++ blanks) = .fault fault (rest ++ blanks) := by
      rw [List.append_assoc]
      exact read_eq_fault.mpr ⟨front, after ++ blanks, between, rfl, further⟩
    rw [readAll_of_fault longer]
    exact ⟨rfl, rfl⟩
  | case3 cs token rest found reading ih =>
    obtain ⟨front, after, between, rfl, formed, ends, rfl⟩ := read_eq_token.mp found
    have longer : read (front ++ (token.text.toList ++ rest) ++ blanks) =
        .token token (rest ++ blanks) := by
      rw [List.append_assoc, List.append_assoc]
      exact read_eq_token.mpr ⟨front, _, between, rfl, formed, ends_append_blanks ends blank, rfl⟩
    rw [readAll_of_token longer]
    exact ⟨congrArg (token :: ·) ih.1, ih.2⟩

theorem readAll_trim (text : String) :
    (readAll (Text.trim text).toList).tokens = (readAll text.toList).tokens ∧
      (readAll (Text.trim text).toList).fault = (readAll text.toList).fault := by
  obtain ⟨front, back, blank, blank', same⟩ := Text.exists_blanks_trim text
  rw [same, readAll_blanks blank]
  exact (readAll_append_blanks blank').imp Eq.symm Eq.symm

theorem tokens_trim {text : String} {tokens : List Token} :
    Scanner.tokens (Text.trim text) = .ok tokens ↔ Scanner.tokens text = .ok tokens := by
  obtain ⟨same, fault⟩ := readAll_trim text
  rw [Scanner.tokens, Scanner.tokens, same, fault]
  cases (readAll text.toList).fault with
  | none => rfl
  | some fault => simp

end Reckon.Scanner
