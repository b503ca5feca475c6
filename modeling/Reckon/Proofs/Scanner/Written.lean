import Reckon.Proofs.Scanner.WellFormed

/-!
How a text is written: well-formed tokens one behind the other, with blanks around them, none
carried on by what follows it. Scanning finds the tokens of exactly these texts. A bracket ends
what stands before it, so a text with a bracket in it is written as the two texts around the
bracket are. If the brackets of a text nest, those of its tokens match.
-/

namespace Reckon

namespace Scanner

variable {cs ds rest blanks : List Char} {c : Char} {token : Token} {tokens : List Token}

inductive Written : List Char → List Token → Prop
  | blank {cs : List Char} : (∀ c ∈ cs, Text.isBlank c = true) → Written cs []
  | token {blanks rest : List Char} {token : Token} {tokens : List Token} :
    (∀ c ∈ blanks, Text.isBlank c = true) → token.WellFormed → token.Ends rest →
    Written rest tokens → Written (blanks ++ (token.text.toList ++ rest)) (token :: tokens)

theorem read_eq_finished : read cs = .finished ↔ ∀ c ∈ cs, Text.isBlank c = true := by
  rw [← List.dropWhile_eq_nil_iff]
  constructor
  · intro finished
    cases behind : cs.dropWhile Text.isBlank with
    | nil => rfl
    | cons first after =>
      have stops := List.head?_dropWhile_not Text.isBlank cs
      rw [behind] at stops
      have same : read cs = read (first :: after) := by
        unfold read
        rw [behind,
          List.dropWhile_cons_of_neg (by simp [show Text.isBlank first = false from stops])]
      rw [same, read_first stops] at finished
      unfold readAs readRelational readNumber at finished
      repeat' split at finished
      all_goals contradiction
  · intro behind
    rw [read, behind]

theorem written_of_readAll (whole : (readAll cs).fault = none) :
    Written cs (readAll cs).tokens := by
  fun_induction readAll cs with
  | case1 cs finished => exact .blank (read_eq_finished.mp finished)
  | case2 => contradiction
  | case3 cs token rest found reading ih =>
    obtain ⟨blanks, after, blank, rfl, formed, ends, rfl⟩ := read_eq_token.mp found
    exact .token blank formed ends (ih whole)

theorem readAll_of_finished (finished : read cs = .finished) : readAll cs = ⟨[], none, []⟩ := by
  rw [readAll]
  split <;> simp_all

theorem readAll_of_token (found : read cs = .token token rest) :
    readAll cs = { readAll rest with tokens := token :: (readAll rest).tokens } := by
  rw [readAll]
  split <;> simp_all

theorem Written.readAll_eq (written : Written cs tokens) : readAll cs = ⟨tokens, none, []⟩ := by
  induction written with
  | blank blank => exact readAll_of_finished (read_eq_finished.mpr blank)
  | token blank formed ends _ ih =>
    rw [readAll_of_token (read_eq_token.mpr ⟨_, _, blank, rfl, formed, ends, rfl⟩), ih]

theorem Written.unique {others : List Token} (written : Written cs tokens)
    (written' : Written cs others) : others = tokens :=
  congrArg Reading.tokens (written'.readAll_eq.symm.trans written.readAll_eq)

theorem tokens_eq_ok_iff {text : String} :
    Scanner.tokens text = .ok tokens ↔ Written text.toList tokens := by
  unfold Scanner.tokens
  constructor
  · intro scanned
    dsimp only at scanned
    split at scanned
    · next whole =>
      obtain rfl := Except.ok.inj scanned
      exact written_of_readAll whole
    · contradiction
  · intro written
    rw [written.readAll_eq]

theorem Written.wellFormed (written : Written cs tokens) (mem : token ∈ tokens) :
    token.WellFormed := by
  induction written with
  | blank => contradiction
  | token _ formed _ _ ih =>
    cases List.mem_cons.mp mem with
    | inl here => exact here ▸ formed
    | inr later => exact ih later

theorem Written.length_le (written : Written cs tokens) : tokens.length ≤ cs.length := by
  induction written with
  | blank => exact Nat.zero_le _
  | token _ formed _ _ ih =>
    obtain ⟨c, others, chars⟩ := formed.exists_cons
    simp only [chars, List.length_append, List.length_cons]
    omega

theorem Written.cons (formed : token.WellFormed) (ends : token.Ends rest)
    (written : Written rest tokens) : Written (token.text.toList ++ rest) (token :: tokens) :=
  .token (List.forall_mem_nil _) formed ends written

theorem written_token (formed : token.WellFormed) :
    Written token.text.toList [token] := by
  have alone := Written.cons formed (token.ends_nil) (.blank (List.forall_mem_nil _))
  rwa [List.append_nil] at alone

theorem Written.space (written : Written cs tokens) : Written (' ' :: cs) tokens := by
  have space : Text.isBlank ' ' = true := by decide
  cases written with
  | blank blank => exact .blank (List.forall_mem_cons.mpr ⟨space, blank⟩)
  | token blank formed ends written =>
    exact .token (List.forall_mem_cons.mpr ⟨space, blank⟩) formed ends written

def IsBracket (c : Char) : Prop :=
  TokenKind.ofChar c = .opening ∨ TokenKind.ofChar c = .closing

theorem IsBracket.isSingle (bracket : IsBracket c) : (TokenKind.ofChar c).isSingle = true := by
  cases bracket with | inl kind | inr kind => rw [kind]; rfl

theorem IsBracket.ends (bracket : IsBracket c) (token : Token) : token.Ends (c :: rest) := by
  refine Token.ends_cons ?_ fun _ mem => ?_
  · cases bracket with | inl kind | inr kind => rw [kind]; decide
  · have table : ∀ d ∈ ['=', '>'],
        ¬ (TokenKind.ofChar d = .opening ∨ TokenKind.ofChar d = .closing) :=
      forall_mem_of_all (by decide)
    exact table c mem bracket

theorem IsBracket.token_ends (bracket : IsBracket c) (rest : List Char) :
    Token.Ends ⟨TokenKind.ofChar c, String.singleton c⟩ rest := by
  intro d _
  unfold Token.carriedOn
  cases bracket with | inl kind | inr kind => rw [kind]

theorem IsBracket.not_isBlank (bracket : IsBracket c) : Text.isBlank c = false :=
  TokenKind.not_isBlank_of_ofChar (by cases bracket with | inl kind | inr kind => rw [kind]; decide)

theorem IsBracket.text_eq (bracket : IsBracket c) (formed : token.WellFormed)
    (mem : c ∈ token.text.toList) : token = ⟨TokenKind.ofChar c, String.singleton c⟩ := by
  have kind : TokenKind.ofChar c = token.kind := by
    refine (formed.ofChar_of_mem mem).resolve_right fun ⟨_, number⟩ => ?_
    cases bracket with | inl kind | inr kind => rw [number] at kind; contradiction
  obtain ⟨d, rfl⟩ := formed.eq_single (kind ▸ bracket.isSingle)
  rw [String.toList_singleton, List.mem_singleton] at mem
  rw [mem]

theorem Written.append_bracket (bracket : IsBracket c) {before after : List Token}
    (front : Written cs before) (back : Written ds after) :
    Written (cs ++ c :: ds) (before ++ ⟨TokenKind.ofChar c, String.singleton c⟩ :: after) := by
  induction front with
  | blank blank =>
    have written := Written.token blank (.single bracket.isSingle) (bracket.token_ends ds) back
    rwa [String.toList_singleton] at written
  | @token blanks rest token tokens blank formed ends _ ih =>
    have further : token.Ends (rest ++ c :: ds) := by
      cases rest with
      | nil => exact bracket.ends token
      | cons d rest => exact ends
    have written := Written.token blank formed further ih
    simpa using written

theorem append_eq_of_not_mem {front back : List Char} (absent : c ∉ front)
    (same : front ++ back = cs ++ c :: ds) :
    ∃ middle, cs = front ++ middle ∧ back = middle ++ c :: ds := by
  rcases List.append_eq_append_iff.mp same with ⟨middle, rfl, rfl⟩ | ⟨middle, rfl, tail⟩
  · exact ⟨middle, rfl, rfl⟩
  · cases middle with
    | nil => exact ⟨[], by simp, tail.symm⟩
    | cons d middle =>
      obtain ⟨rfl, -⟩ := List.cons.inj tail
      exact absurd (List.mem_append_right cs List.mem_cons_self) absent

theorem IsBracket.not_mem_blank (bracket : IsBracket c)
    (blank : ∀ c ∈ blanks, Text.isBlank c = true) : c ∉ blanks := fun mem =>
  Bool.false_ne_true (bracket.not_isBlank.symm.trans (blank c mem))

theorem Written.of_append_bracket (bracket : IsBracket c)
    (written : Written (cs ++ c :: ds) tokens) :
    ∃ before after, Written cs before ∧ Written ds after ∧
      tokens = before ++ ⟨TokenKind.ofChar c, String.singleton c⟩ :: after := by
  generalize whole : cs ++ c :: ds = text at written
  induction written generalizing cs with
  | @blank text blank =>
    have mem : c ∈ text := whole ▸ List.mem_append_right cs List.mem_cons_self
    exact absurd mem (bracket.not_mem_blank blank)
  | @token blanks rest token tokens blank formed ends written ih =>
    obtain ⟨front, rfl, split⟩ := append_eq_of_not_mem (bracket.not_mem_blank blank) whole.symm
    by_cases here : c ∈ token.text.toList
    · obtain rfl := bracket.text_eq formed here
      rw [String.toList_singleton, List.singleton_append] at split
      cases front with
      | nil =>
        obtain ⟨-, rfl⟩ := List.cons.inj split
        exact ⟨[], tokens, .blank (by simpa using blank), written, rfl⟩
      | cons d front =>
        obtain ⟨rfl, rfl⟩ := List.cons.inj split
        obtain ⟨before, after, first, second, rfl⟩ := ih rfl
        have longer := Written.token blank formed (bracket.token_ends front) first
        rw [String.toList_singleton] at longer
        exact ⟨_ :: before, after, longer, second, rfl⟩
    · obtain ⟨middle, rfl, rfl⟩ := append_eq_of_not_mem here split
      obtain ⟨before, after, first, second, rfl⟩ := ih rfl
      have shorter : token.Ends middle := by
        cases middle with
        | nil => exact token.ends_nil
        | cons d middle => exact ends
      exact ⟨token :: before, after, .token blank formed shorter first, second, rfl⟩

theorem written_append_bracket (bracket : IsBracket c) :
    Written (cs ++ c :: ds) tokens ↔ ∃ before after, Written cs before ∧ Written ds after ∧
      tokens = before ++ ⟨TokenKind.ofChar c, String.singleton c⟩ :: after := by
  constructor
  · exact Written.of_append_bracket bracket
  · rintro ⟨before, after, front, back, rfl⟩
    exact front.append_bracket bracket back

end Scanner

end Reckon
