import Reckon.Proofs.Number.Plain
import Reckon.Proofs.Scanner.Classes
import Reckon.Scanner

/-!
Well-formed tokens, one form for each kind, and the scanner that reads exactly these. A token is
read back from its own text as long as the next character does not carry it on: a run of digits,
letters or underscores goes on with its own characters, and `<` and `>` go on to a relational pair.
-/

namespace Reckon

namespace Token

inductive WellFormed : Token → Prop
  | single {c : Char} : (TokenKind.ofChar c).isSingle = true →
    WellFormed ⟨TokenKind.ofChar c, String.singleton c⟩
  | relational {text : String} : text ∈ ["<", ">", "=", "<=", ">=", "<>"] →
    WellFormed ⟨.relational, text⟩
  | number {text : String} : Decimal.IsRun text.toList → Decimal.IsPlain text.toList →
    WellFormed ⟨.number, text⟩
  | identifier {first : Char} {others : List Char} : first.isAlpha = true →
    (∀ c ∈ others, c.isAlphanum = true) → WellFormed ⟨.identifier, String.ofList (first :: others)⟩
  | previous {others : List Char} : (∀ c ∈ others, c = '_') →
    WellFormed ⟨.previous, String.ofList ('_' :: others)⟩

/-- Whether a character behind a token would be read as part of it. -/
def carriedOn (token : Token) (c : Char) : Bool :=
  match token.kind, token.text.toList with
  | .number, _ | .identifier, _ | .previous, _ => token.kind.continues c
  | .relational, [first] => Scanner.isRelationalPair first c
  | _, _ => false

def Ends (token : Token) (rest : List Char) : Prop :=
  ∀ c ∈ rest.head?, token.carriedOn c = false

theorem ends_nil (token : Token) : token.Ends [] :=
  fun _ mem => by contradiction

theorem ends_cons {token : Token} {c : Char} {rest : List Char}
    (other : TokenKind.ofChar c ∉ [.number, .identifier, .previous])
    (unpaired : token.kind = .relational → c ∉ ['=', '>']) : token.Ends (c :: rest) := by
  intro d mem
  obtain rfl := Option.some.inj mem
  simp only [List.mem_cons, List.not_mem_nil, or_false, not_or] at other unpaired
  have digit : c.isDigit = false := by
    rw [Bool.eq_false_iff]
    exact fun digit => other.1 (TokenKind.ofChar_number.mpr (.inl digit))
  unfold carriedOn
  split
  · next kind => simp [kind, TokenKind.continues, other]
  · next kind => simp [kind, TokenKind.continues, other, digit]
  · next kind => simp [kind, TokenKind.continues, other]
  · next kind _ => simp [Scanner.isRelationalPair, unpaired kind]
  · rfl

theorem ends_of_isBlank {c : Char} (blank : Text.isBlank c = true) (token : Token)
    (rest : List Char) : token.Ends (c :: rest) := by
  have invalid := TokenKind.ofChar_of_isBlank blank
  refine ends_cons (by simp [invalid]) fun _ mem => ?_
  have table : ∀ d ∈ ['=', '>'], TokenKind.ofChar d ≠ .invalid := forall_mem_of_all (by decide)
  exact table c mem invalid

theorem ends_of_isOperation {token : Token} {rest : List Char}
    (operation : token.kind.isOperation = true) (unpaired : ∀ c ∈ rest.head?, c ∉ ['=', '>']) :
    token.Ends rest := by
  intro c mem
  have other := unpaired c mem
  simp only [List.mem_cons, List.not_mem_nil, or_false, not_or] at other
  unfold Token.carriedOn
  split
  · next kind => rw [kind] at operation; contradiction
  · next kind => rw [kind] at operation; contradiction
  · next kind => rw [kind] at operation; contradiction
  · simp [Scanner.isRelationalPair, other]
  · rfl

theorem WellFormed.ofChar_of_mem {token : Token} {c : Char} (formed : token.WellFormed)
    (mem : c ∈ token.text.toList) : TokenKind.ofChar c = token.kind ∨
      (token.kind = .identifier ∧ TokenKind.ofChar c = .number) := by
  cases formed with
  | single =>
    rw [String.toList_singleton] at mem
    exact .inl (List.mem_singleton.mp mem ▸ rfl)
  | @relational text known =>
    have table : ∀ text ∈ ["<", ">", "=", "<=", ">=", "<>"],
        text.toList.all (TokenKind.ofChar · = .relational) = true := by decide
    exact .inl (forall_mem_of_all (table text known) c mem)
  | number isRun => exact .inl (TokenKind.ofChar_number.mpr (isRun c mem))
  | identifier letter word =>
    rw [String.toList_ofList, List.mem_cons] at mem
    rcases mem with rfl | later
    · exact .inl (TokenKind.ofChar_identifier.mpr letter)
    · cases (Bool.or_eq_true _ _).mp (word c later) with
      | inl letter => exact .inl (TokenKind.ofChar_identifier.mpr letter)
      | inr digit => exact .inr ⟨rfl, TokenKind.ofChar_number.mpr (.inl digit)⟩
  | previous underscores =>
    rw [String.toList_ofList, List.mem_cons] at mem
    rcases mem with rfl | later
    · exact .inl rfl
    · exact .inl (TokenKind.ofChar_previous.mpr (underscores c later))

theorem WellFormed.eq_single {token : Token} (formed : token.WellFormed)
    (single : token.kind.isSingle = true) :
    ∃ c, token = ⟨TokenKind.ofChar c, String.singleton c⟩ := by
  cases formed with
  | @single c _ => exact ⟨c, rfl⟩
  | _ => contradiction

theorem WellFormed.exists_cons {token : Token} (formed : token.WellFormed) :
    ∃ c others, token.text.toList = c :: others := by
  cases formed with
  | @single c _ => exact ⟨c, [], String.toList_singleton c⟩
  | @relational text known =>
    have table : ∀ text ∈ ["<", ">", "=", "<=", ">=", "<>"], text.toList ≠ [] := by decide
    exact List.exists_cons_of_ne_nil (table text known)
  | number _ plain =>
    obtain ⟨-, c, mem, -⟩ := plain
    exact List.exists_cons_of_ne_nil (List.ne_nil_of_mem mem)
  | @identifier first others => exact ⟨first, others, String.toList_ofList⟩
  | @previous others => exact ⟨'_', others, String.toList_ofList⟩

theorem WellFormed.valid {token : Token} (formed : token.WellFormed) : token.kind ≠ .invalid := by
  cases formed with
  | @single c single =>
    intro (kind : TokenKind.ofChar c = .invalid)
    rw [kind] at single
    contradiction
  | relational | number | identifier | previous => exact TokenKind.noConfusion

end Token

namespace Scanner

variable {cs rest more blanks : List Char} {c first : Char} {kind : TokenKind} {token : Token}

theorem read_blanks (blank : ∀ c ∈ blanks, Text.isBlank c = true) (cs : List Char) :
    read (blanks ++ cs) = read cs := by
  unfold read
  rw [List.dropWhile_append_of_pos blank]

def readAs (kind : TokenKind) (first : Char) (cs : List Char) : Step :=
  match kind with
  | .invalid => .fault (.illegalCharacter first) cs
  | .relational => readRelational first cs
  | .number => readNumber first cs
  | .identifier => .token (run .identifier first cs) (afterRun .identifier cs)
  | .previous => .token (run .previous first cs) (afterRun .previous cs)
  | kind => .token ⟨kind, String.singleton first⟩ cs

theorem read_first (solid : Text.isBlank first = false) (cs : List Char) :
    read (first :: cs) = readAs (TokenKind.ofChar first) first cs := by
  unfold read
  rw [List.dropWhile_cons_of_neg (by simp [solid])]
  rfl

theorem read_of_kind (begins : TokenKind.ofChar first = kind) (valid : kind ≠ .invalid)
    (cs : List Char) : read (first :: cs) = readAs kind first cs := by
  subst begins
  exact read_first (TokenKind.not_isBlank_of_ofChar valid) cs

theorem read_single (single : (TokenKind.ofChar c).isSingle = true) (rest : List Char) :
    read (c :: rest) = .token ⟨TokenKind.ofChar c, String.singleton c⟩ rest := by
  cases kind : TokenKind.ofChar c with
  | operator | boolean | opening | closing | delimiter =>
    exact read_of_kind kind (by decide) rest
  | _ => rw [kind] at single; contradiction

theorem readRelational_pair {second : Char} (pair : isRelationalPair first second = true) :
    readRelational first (second :: rest) =
      .token ⟨.relational, String.ofList [first, second]⟩ rest := by
  rw [readRelational, if_pos pair]

theorem readRelational_alone (alone : ∀ c ∈ rest.head?, isRelationalPair first c = false) :
    readRelational first rest = .token ⟨.relational, String.singleton first⟩ rest := by
  cases rest with
  | nil => rfl
  | cons second rest =>
    rw [readRelational, if_neg]
    rw [alone second rfl]
    exact Bool.false_ne_true

theorem read_relational {text : String} (known : text ∈ ["<", ">", "=", "<=", ">=", "<>"])
    (ends : Token.Ends ⟨.relational, text⟩ rest) :
    read (text.toList ++ rest) = .token ⟨.relational, text⟩ rest := by
  have begins : ∀ c ∈ ['<', '>', '='], ∀ cs, read (c :: cs) = readRelational c cs := by
    intro c mem cs
    have kind : TokenKind.ofChar c = .relational := TokenKind.ofChar_relational.mpr mem
    rw [read_of_kind kind (by decide), readAs]
  simp only [List.mem_cons, List.not_mem_nil, or_false] at known
  rcases known with rfl | rfl | rfl | rfl | rfl | rfl
  · exact (begins '<' (by decide) rest).trans (readRelational_alone ends)
  · exact (begins '>' (by decide) rest).trans (readRelational_alone ends)
  · exact (begins '=' (by decide) rest).trans (readRelational_alone ends)
  · exact (begins '<' (by decide) _).trans (readRelational_pair (by decide))
  · exact (begins '>' (by decide) _).trans (readRelational_pair (by decide))
  · exact (begins '<' (by decide) _).trans (readRelational_pair (by decide))

theorem takeWhile_run {property : Char → Bool} (all : ∀ c ∈ more, property c = true)
    (ends : ∀ c ∈ rest.head?, property c = false) : (more ++ rest).takeWhile property = more := by
  rw [List.takeWhile_append_of_pos all]
  cases rest with
  | nil => rw [List.takeWhile_nil, List.append_nil]
  | cons c rest =>
    have stops : property c = false := ends c rfl
    rw [List.takeWhile_cons_of_neg (by simp [stops]), List.append_nil]

theorem afterRun_eq (all : ∀ c ∈ more, kind.continues c = true)
    (ends : ∀ c ∈ rest.head?, kind.continues c = false) :
    afterRun kind (more ++ rest) = rest := by
  rw [afterRun, List.dropWhile_append_of_pos all]
  cases rest with
  | nil => rfl
  | cons c rest =>
    have stops : kind.continues c = false := ends c rfl
    rw [List.dropWhile_cons_of_neg (by simp [stops])]

theorem run_eq (all : ∀ c ∈ more, kind.continues c = true)
    (ends : ∀ c ∈ rest.head?, kind.continues c = false) :
    run kind first (more ++ rest) = ⟨kind, String.ofList (first :: more)⟩ := by
  rw [run, takeWhile_run all ends]

theorem read_number {text : String} (isRun : Decimal.IsRun text.toList)
    (plain : Decimal.IsPlain text.toList) (ends : Token.Ends ⟨.number, text⟩ rest) :
    read (text.toList ++ rest) = .token ⟨.number, text⟩ rest := by
  obtain ⟨first, more, chars⟩ : ∃ first more, text.toList = first :: more := by
    obtain ⟨-, c, mem, -⟩ := plain
    exact List.exists_cons_of_ne_nil (List.ne_nil_of_mem mem)
  have digits : ∀ c ∈ first :: more, c.isDigit = true ∨ c = '.' := chars ▸ isRun
  rw [List.forall_mem_cons] at digits
  have all : ∀ c ∈ more, TokenKind.continues .number c = true := fun c mem =>
    TokenKind.continues_number.mpr (digits.2 c mem)
  have kind : TokenKind.ofChar first = .number := TokenKind.ofChar_number.mpr digits.1
  have same : run .number first (more ++ rest) = ⟨.number, text⟩ := by
    rw [run_eq all ends, ← chars, String.ofList_toList]
  obtain ⟨value, found⟩ := Option.isSome_iff_exists.mp ((Decimal.read?_isSome isRun).mpr plain)
  rw [chars, List.cons_append, read_of_kind kind (by decide)]
  simp only [readAs, readNumber, same, found, afterRun_eq all ends]

theorem read_identifier (letter : first.isAlpha = true) (word : ∀ c ∈ more, c.isAlphanum = true)
    (ends : Token.Ends ⟨.identifier, String.ofList (first :: more)⟩ rest) :
    read (first :: more ++ rest) = .token ⟨.identifier, String.ofList (first :: more)⟩ rest := by
  have all : ∀ c ∈ more, TokenKind.continues .identifier c = true := fun c mem =>
    TokenKind.continues_identifier.mpr (word c mem)
  have kind : TokenKind.ofChar first = .identifier := TokenKind.ofChar_identifier.mpr letter
  rw [List.cons_append, read_of_kind kind (by decide)]
  simp only [readAs, run_eq all ends, afterRun_eq all ends]

theorem read_previous (underscores : ∀ c ∈ more, c = '_')
    (ends : Token.Ends ⟨.previous, String.ofList ('_' :: more)⟩ rest) :
    read ('_' :: more ++ rest) = .token ⟨.previous, String.ofList ('_' :: more)⟩ rest := by
  have all : ∀ c ∈ more, TokenKind.continues .previous c = true := fun c mem =>
    TokenKind.continues_previous.mpr (underscores c mem)
  have kind : TokenKind.ofChar '_' = .previous := rfl
  rw [List.cons_append, read_of_kind kind (by decide)]
  simp only [readAs, run_eq all ends, afterRun_eq all ends]

theorem read_wellFormed (formed : token.WellFormed) (ends : token.Ends rest) :
    read (token.text.toList ++ rest) = .token token rest := by
  cases formed with
  | @single c single =>
    rw [String.toList_singleton]
    exact read_single single rest
  | relational known => exact read_relational known ends
  | number isRun plain => exact read_number isRun plain ends
  | identifier letter word =>
    rw [String.toList_ofList]
    exact read_identifier letter word ends
  | previous underscores =>
    rw [String.toList_ofList]
    exact read_previous underscores ends

theorem head_of_afterRun (c : Char) (mem : c ∈ (afterRun kind cs).head?) :
    kind.continues c = false := by
  have stops := List.head?_dropWhile_not kind.continues cs
  rw [afterRun] at mem
  rw [Option.mem_def.mp mem] at stops
  exact stops

def Reads (token : Token) (cs rest : List Char) : Prop :=
  token.WellFormed ∧ token.Ends rest ∧ cs = token.text.toList ++ rest

theorem run_append (kind : TokenKind) (first : Char) (cs : List Char) :
    first :: cs = (run kind first cs).text.toList ++ afterRun kind cs := by
  rw [run, afterRun, String.toList_ofList, List.cons_append, List.takeWhile_append_dropWhile]

theorem reads_of_readRelational (relational : first ∈ ['<', '>', '='])
    (found : readRelational first cs = .token token rest) : Reads token (first :: cs) rest := by
  have single : String.singleton first ∈ ["<", ">", "=", "<=", ">=", "<>"] := by
    have table : ∀ s ∈ ['<', '>', '='],
        String.singleton s ∈ ["<", ">", "=", "<=", ">=", "<>"] := forall_mem_of_all (by decide)
    exact table first relational
  unfold readRelational at found
  split at found
  · next second after =>
    split at found
    · next pair =>
      obtain ⟨rfl, rfl⟩ := Step.token.inj found
      have known : String.ofList [first, second] ∈ ["<", ">", "=", "<=", ">=", "<>"] := by
        simp only [isRelationalPair, Bool.or_eq_true, Bool.and_eq_true, decide_eq_true_eq] at pair
        rcases pair with ⟨rfl, rfl | rfl⟩ | ⟨rfl, rfl⟩ <;> decide
      refine ⟨.relational known, fun c _ => ?_, ?_⟩
      · simp [Token.carriedOn]
      · rw [String.toList_ofList]
        rfl
    · next alone =>
      obtain ⟨rfl, rfl⟩ := Step.token.inj found
      refine ⟨.relational single, fun c mem => ?_, ?_⟩
      · obtain rfl := Option.some.inj mem
        simpa [Token.carriedOn] using alone
      · rw [String.toList_singleton]
        rfl
  · obtain ⟨rfl, rfl⟩ := Step.token.inj found
    refine ⟨.relational single, fun c mem => ?_, ?_⟩
    · contradiction
    · rw [String.toList_singleton]
      rfl

theorem reads_of_readNumber (digit : first.isDigit = true ∨ first = '.')
    (found : readNumber first cs = .token token rest) : Reads token (first :: cs) rest := by
  unfold readNumber at found
  split at found
  · next value readable =>
    obtain ⟨rfl, rfl⟩ := Step.token.inj found
    have isRun : Decimal.IsRun (run .number first cs).text.toList := by
      intro c mem
      rw [run, String.toList_ofList, List.mem_cons] at mem
      cases mem with
      | inl here => exact here ▸ digit
      | inr later => exact TokenKind.continues_number.mp (List.mem_takeWhile_imp later)
    have plain := (Decimal.read?_isSome isRun).mp (by rw [readable]; rfl)
    exact ⟨.number isRun plain, head_of_afterRun, run_append ..⟩
  · contradiction

theorem reads_of_readAs (begins : TokenKind.ofChar first = kind)
    (found : readAs kind first cs = .token token rest) : Reads token (first :: cs) rest := by
  cases kind with
  | invalid => contradiction
  | relational =>
    exact reads_of_readRelational (TokenKind.ofChar_relational.mp begins) found
  | number => exact reads_of_readNumber (TokenKind.ofChar_number.mp begins) found
  | identifier =>
    obtain ⟨rfl, rfl⟩ := Step.token.inj found
    refine ⟨.identifier (TokenKind.ofChar_identifier.mp begins) fun c mem => ?_, head_of_afterRun,
      run_append ..⟩
    exact TokenKind.continues_identifier.mp (List.mem_takeWhile_imp mem)
  | previous =>
    obtain ⟨rfl, rfl⟩ := Step.token.inj found
    obtain rfl := TokenKind.ofChar_previous.mp begins
    refine ⟨.previous fun c mem => ?_, head_of_afterRun, run_append ..⟩
    exact TokenKind.continues_previous.mp (List.mem_takeWhile_imp mem)
  | operator | boolean | opening | closing | delimiter =>
    obtain ⟨rfl, rfl⟩ := Step.token.inj found
    refine ⟨begins ▸ .single (by rw [begins]; rfl), fun c _ => rfl, ?_⟩
    rw [String.toList_singleton, List.singleton_append]

/-- A token is read exactly where a well-formed one stands behind blanks and is not carried on. -/
theorem read_eq_token : read cs = .token token rest ↔ ∃ blanks after,
    (∀ c ∈ blanks, Text.isBlank c = true) ∧ cs = blanks ++ after ∧ Reads token after rest := by
  constructor
  · intro found
    have blank : ∀ c ∈ cs.takeWhile Text.isBlank, Text.isBlank c = true := fun c mem =>
      List.mem_takeWhile_imp mem
    refine ⟨cs.takeWhile Text.isBlank, cs.dropWhile Text.isBlank, blank,
      List.takeWhile_append_dropWhile.symm, ?_⟩
    have stops := List.head?_dropWhile_not Text.isBlank cs
    rw [← List.takeWhile_append_dropWhile (p := Text.isBlank) (l := cs), read_blanks blank] at found
    cases behind : cs.dropWhile Text.isBlank with
    | nil =>
      rw [behind] at found
      contradiction
    | cons first after =>
      rw [behind] at found stops
      rw [read_first stops] at found
      exact reads_of_readAs rfl found
  · rintro ⟨blanks, after, blank, rfl, formed, ends, rfl⟩
    rw [read_blanks blank, read_wellFormed formed ends]

end Scanner

end Reckon
