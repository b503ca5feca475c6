import Reckon.Proofs.Tree.Retold

/-!
Spellings of a text. Two texts are spelled alike when they have no fault and their tokens are of the
same kinds and the same up to the case of letters, whatever blanks stand between them; brackets may
be of different styles if they nest in both texts. The canonical spelling of a token has its letters
in lower case and its brackets round. Texts spelled alike have the same tokens in canonical spelling,
and their brackets pass or fail the check together.
-/

namespace Reckon

namespace Token

/-- Tokens of one kind that differ in the case of their letters only. -/
structure SameUpToCase (token token' : Token) : Prop where
  kind : token.kind = token'.kind
  text : token.text.toList.map Char.toLower = token'.text.toList.map Char.toLower

/-- Tokens of one kind that differ in the case of their letters or in the style of a bracket only. -/
structure SameUpToStyle (token token' : Token) : Prop where
  kind : token.kind = token'.kind
  text : token.Plain → token.text.toList.map Char.toLower = token'.text.toList.map Char.toLower

instance : DecidableRel SameUpToCase := fun token token' =>
  decidable_of_iff (token.kind = token'.kind ∧
      token.text.toList.map Char.toLower = token'.text.toList.map Char.toLower)
    ⟨fun both => ⟨both.1, both.2⟩, fun same => ⟨same.kind, same.text⟩⟩

instance : DecidableRel SameUpToStyle := fun token token' =>
  decidable_of_iff (token.kind = token'.kind ∧ (token.Plain →
      token.text.toList.map Char.toLower = token'.text.toList.map Char.toLower))
    ⟨fun both => ⟨both.1, both.2⟩, fun same => ⟨same.kind, same.text⟩⟩

def canonical (token : Token) : Token :=
  match token.kind with
  | .identifier => ⟨.identifier, Text.lowercase token.text⟩
  | .opening => ⟨.opening, "("⟩
  | .closing => ⟨.closing, ")"⟩
  | _ => token

variable {token token' : Token} {tokens tokens' : List Token}

theorem SameUpToCase.upToStyle (same : token.SameUpToCase token') : token.SameUpToStyle token' :=
  ⟨same.kind, fun _ => same.text⟩

@[simp] theorem kind_canonical (token : Token) : token.canonical.kind = token.kind := by
  obtain ⟨kind, text⟩ := token
  cases kind <;> rfl

theorem canonical_identifier (named : token.kind = .identifier) :
    token.canonical = ⟨.identifier, Text.lowercase token.text⟩ := by
  rw [canonical, named]

theorem canonical_other (other : token.kind ≠ .identifier) (plain : token.Plain) :
    token.canonical = token := by
  obtain ⟨kind, text⟩ := token
  obtain ⟨opening, closing⟩ := plain
  cases kind <;> first | rfl | contradiction

theorem replacing_canonical : Replacing canonical where
  kind := kind_canonical
  operation token operation := by
    obtain ⟨kind, text⟩ := token
    cases kind <;> first | rfl | contradiction

theorem WellFormed.map_toLower (formed : token.WellFormed) (other : token.kind ≠ .identifier) :
    token.text.toList.map Char.toLower = token.text.toList := by
  rw [List.map_congr_left (g := id), List.map_id]
  intro c mem
  refine Text.toLower_eq_self (Bool.eq_false_iff.mpr fun upper => other ?_)
  have kind := TokenKind.ofChar_identifier.mpr (Text.isAlpha_of_isUpper upper)
  rcases formed.ofChar_of_mem mem with same | ⟨named, -⟩
  · exact same.symm.trans kind
  · exact named

theorem SameUpToCase.eq (same : token.SameUpToCase token') (formed : token.WellFormed)
    (formed' : token'.WellFormed) (other : token.kind ≠ .identifier) : token = token' := by
  have text := same.text
  rw [formed.map_toLower other, formed'.map_toLower (same.kind ▸ other)] at text
  obtain ⟨kind, chars⟩ := token
  obtain ⟨kind', chars'⟩ := token'
  obtain rfl : kind = kind' := same.kind
  obtain rfl : chars = chars' := String.toList_inj.mp text
  rfl

theorem WellFormed.lowercase_eq (formed : token.WellFormed) (named : token.kind = .identifier) :
    Text.lowercase token.text = String.ofList (token.text.toList.map Char.toLower) := by
  obtain ⟨kind, text⟩ := token
  subst named
  obtain ⟨first, others, rfl, -, word⟩ := formed.exists_word
  rw [Text.lowercase_word word, String.toList_ofList]

theorem WellFormed.normalName_canonical (formed : token.WellFormed)
    (named : token.kind = .identifier) :
    Text.normalName token.canonical.text = Text.lowercase token.text := by
  obtain ⟨kind, text⟩ := token
  subst named
  exact formed.normalName_lowercase

theorem SameUpToStyle.lowercase_eq (same : token.SameUpToStyle token') (formed : token.WellFormed)
    (formed' : token'.WellFormed) (named : token.kind = .identifier) :
    Text.lowercase token.text = Text.lowercase token'.text := by
  rw [formed.lowercase_eq named, formed'.lowercase_eq (same.kind ▸ named),
    same.text (Grammar.plain_of_identifier named)]

theorem SameUpToStyle.canonical_eq (same : token.SameUpToStyle token') (formed : token.WellFormed)
    (formed' : token'.WellFormed) : token.canonical = token'.canonical := by
  have kind := same.kind
  by_cases named : token.kind = .identifier
  · have named' := kind ▸ named
    rw [canonical_identifier named, canonical_identifier named', same.lowercase_eq formed formed' named]
  · cases token.bracketing with
    | opens opens => rw [canonical, canonical, ← kind, opens]
    | closes closes => rw [canonical, canonical, ← kind, closes]
    | plain plain =>
      have equal := SameUpToCase.eq ⟨kind, same.text plain⟩ formed formed' named
      rw [equal]

theorem map_canonical_eq (each : List.Forall₂ SameUpToStyle tokens tokens')
    (formed : ∀ token ∈ tokens, token.WellFormed) (formed' : ∀ token ∈ tokens', token.WellFormed) :
    tokens.map canonical = tokens'.map canonical := by
  induction each with
  | nil => rfl
  | cons same _ ih =>
    rw [List.forall_mem_cons] at formed formed'
    rw [List.map_cons, List.map_cons, same.canonical_eq formed.1 formed'.1, ih formed.2 formed'.2]

end Token

namespace Scanner

variable {cs cs' : List Char} {text text' : String} {tokens tokens' : List Token}
variable {related related' : Token → Token → Prop}

def Spelled (related : Token → Token → Prop) (text text' : String) : Prop :=
  ∃ tokens tokens', Scanner.tokens text = .ok tokens ∧ Scanner.tokens text' = .ok tokens' ∧
    List.Forall₂ related tokens tokens'

/-- Formulas that differ in their blanks and in the case of their letters only, or in the style of
their brackets too if these nest in both. -/
inductive Respelled (text text' : String) : Prop
  | upToCase : Spelled Token.SameUpToCase text text' → Respelled text text'
  | upToStyle : Spelled Token.SameUpToStyle text text' → validate text = .ok () →
    validate text' = .ok () → Respelled text text'

/-- Texts without a separator that are spelled alike as a whole, or texts whose parts in front of the
first separator and behind it are spelled alike. -/
inductive RespelledAt (separator : Char) (whole : String → String → Prop) (text text' : String) : Prop
  | uncut : Text.cutFirst separator text = none → Text.cutFirst separator text' = none →
    whole text text' → RespelledAt separator whole text text'
  | cut {front back front' back' : String} : Text.cutFirst separator text = some (front, back) →
    Text.cutFirst separator text' = some (front', back') →
    Spelled Token.SameUpToStyle front front' → Respelled back back' →
    RespelledAt separator whole text text'

/-- Texts that are the same to a reader of canonical tokens. -/
structure Equivalent (text text' : String) : Prop where
  brackets : Bracket.check [] text.toList = Bracket.check [] text'.toList
  tokens : (readAll text.toList).tokens.map Token.canonical =
    (readAll text'.toList).tokens.map Token.canonical
  fault : (readAll text.toList).fault = (readAll text'.toList).fault

instance decidableEach [DecidableRel related] : DecidableRel (List.Forall₂ related)
  | [], [] => isTrue .nil
  | [], _ :: _ => isFalse nofun
  | _ :: _, [] => isFalse nofun
  | token :: tokens, token' :: tokens' =>
    have := decidableEach tokens tokens'
    decidable_of_iff (related token token' ∧ List.Forall₂ related tokens tokens')
      List.forall₂_cons.symm

instance [DecidableRel related] : DecidableRel (Spelled related) := fun text text' =>
  match scanned : Scanner.tokens text, scanned' : Scanner.tokens text' with
  | .ok tokens, .ok tokens' =>
    decidable_of_iff (List.Forall₂ related tokens tokens') <| by simp [Spelled, scanned, scanned']
  | .error _, _ => isFalse <| by simp [Spelled, scanned]
  | .ok _, .error _ => isFalse <| by simp [Spelled, scanned']

instance : DecidableRel Respelled := fun text text' =>
  decidable_of_iff (Spelled Token.SameUpToCase text text' ∨ Spelled Token.SameUpToStyle text text' ∧
      validate text = .ok () ∧ validate text' = .ok ())
    ⟨fun either => either.elim .upToCase fun ⟨spelled, valid, valid'⟩ => .upToStyle spelled valid valid',
      fun respelled => match respelled with
        | .upToCase spelled => .inl spelled
        | .upToStyle spelled valid valid' => .inr ⟨spelled, valid, valid'⟩⟩

instance {separator : Char} {whole : String → String → Prop} [DecidableRel whole] :
    DecidableRel (RespelledAt separator whole) := fun text text' =>
  match found : Text.cutFirst separator text, found' : Text.cutFirst separator text' with
  | none, none => decidable_of_iff (whole text text')
    ⟨.uncut found found', fun respelled => by cases respelled <;> simp_all⟩
  | some (front, back), some (front', back') =>
    decidable_of_iff (Spelled Token.SameUpToStyle front front' ∧ Respelled back back')
      ⟨fun both => .cut found found' both.1 both.2, fun respelled => by cases respelled <;> simp_all⟩
  | none, some _ => isFalse fun respelled => by cases respelled <;> simp_all
  | some _, none => isFalse fun respelled => by cases respelled <;> simp_all

def IsName (name : String) : Prop :=
  Token.WellFormed ⟨.identifier, name⟩ ∧ Text.lowercase name = name

theorem isName_lowercase {word : String} (formed : Token.WellFormed ⟨.identifier, word⟩) :
    IsName (Text.lowercase word) :=
  ⟨formed.lowercase, formed.lowercase.normalName_eq.symm.trans formed.normalName_lowercase⟩

theorem Mentions.isName {name : String} (mentions : Mentions text name) : IsName name := by
  obtain ⟨⟨kind, word⟩, mem, rfl, rfl⟩ := mentions
  exact isName_lowercase (wellFormed_of_mem_readAll mem)

theorem IsName.normalName_eq {name : String} (named : IsName name) : Text.normalName name = name :=
  named.1.normalName_eq.trans named.2

theorem Spelled.exists_written (spelled : Spelled related text text') : ∃ tokens tokens',
    Written text.toList tokens ∧ Written text'.toList tokens' ∧ List.Forall₂ related tokens tokens' := by
  obtain ⟨tokens, tokens', scanned, scanned', each⟩ := spelled
  exact ⟨tokens, tokens', tokens_eq_ok_iff.mp scanned, tokens_eq_ok_iff.mp scanned', each⟩

theorem Spelled.mono (spelled : Spelled related text text')
    (wider : ∀ token token', related token token' → related' token token') :
    Spelled related' text text' := by
  obtain ⟨tokens, tokens', scanned, scanned', each⟩ := spelled
  exact ⟨tokens, tokens', scanned, scanned', each.imp wider⟩

theorem Respelled.spelled (respelled : Respelled text text') :
    Spelled Token.SameUpToStyle text text' := by
  cases respelled with
  | upToCase spelled => exact spelled.mono fun _ _ same => same.upToStyle
  | upToStyle spelled => exact spelled

theorem Written.eq_nil_iff (written : Written cs tokens) :
    tokens = [] ↔ ∀ c ∈ cs, Text.isBlank c = true := by
  constructor
  · rintro rfl
    cases written with
    | blank blank => exact blank
  · intro blank
    exact Written.unique (.blank blank) written

theorem Spelled.isBlankText_eq (spelled : Spelled related text text') :
    Text.isBlankText text = Text.isBlankText text' := by
  obtain ⟨tokens, tokens', written, written', each⟩ := spelled.exists_written
  have empty : tokens = [] ↔ tokens' = [] := by cases each <;> simp
  rw [written.eq_nil_iff, written'.eq_nil_iff] at empty
  rw [Bool.eq_iff_iff, Text.isBlankText, Text.isBlankText, List.all_eq_true, List.all_eq_true]
  exact empty

theorem RespelledAt.isBlankText_eq {separator : Char} {whole : String → String → Prop}
    (respelled : RespelledAt separator whole text text') (solid : Text.isBlank separator = false)
    (spelled : whole text text' → Spelled Token.SameUpToStyle text text') :
    Text.isBlankText text = Text.isBlankText text' := by
  cases respelled with
  | uncut _ _ both => exact (spelled both).isBlankText_eq
  | cut cut cut' => rw [Text.isBlankText_of_cut solid cut, Text.isBlankText_of_cut solid cut']

theorem check_eq (written : Written cs tokens) (written' : Written cs' tokens')
    (each : List.Forall₂ Token.SameUpToCase tokens tokens') (stack : List Bracket.Style) :
    Bracket.check stack cs = Bracket.check stack cs' := by
  induction written generalizing cs' tokens' stack with
  | blank blank =>
    cases each
    have blank' := written'.eq_nil_iff.mp rfl
    have alone := neutral_of_isBlank blank stack []
    have alone' := neutral_of_isBlank blank' stack []
    rw [List.append_nil] at alone alone'
    rw [alone, alone']
  | @token blanks rest token tokens blank formed ends _ ih =>
    cases each with
    | @cons _ token' _ _ same each =>
      cases written' with
      | @token blanks' rest' _ _ blank' formed' ends' written' =>
        rw [neutral_of_isBlank blank, neutral_of_isBlank blank']
        have behind := ih written' each
        by_cases named : token.kind = .identifier
        · have plain := Grammar.plain_of_identifier named
          have plain' := Grammar.plain_of_identifier (same.kind ▸ named)
          rw [formed.neutral plain, formed'.neutral plain', behind]
        · rw [same.eq formed formed' named]
          exact Bracket.check_append_congr behind token'.text.toList stack

theorem Respelled.check_eq (respelled : Respelled text text') :
    Bracket.check [] text.toList = Bracket.check [] text'.toList := by
  cases respelled with
  | upToCase spelled =>
    obtain ⟨tokens, tokens', written, written', each⟩ := spelled.exists_written
    exact Scanner.check_eq written written' each []
  | upToStyle _ valid valid' =>
    rw [Tree.validate_eq_ok.mp valid, Tree.validate_eq_ok.mp valid']

theorem Respelled.equivalent (respelled : Respelled text text') : Equivalent text text' := by
  obtain ⟨tokens, tokens', written, written', each⟩ := respelled.spelled.exists_written
  refine ⟨respelled.check_eq, ?_, ?_⟩
  · rw [written.readAll_eq, written'.readAll_eq]
    exact Token.map_canonical_eq each (fun _ => written.wellFormed) fun _ => written'.wellFormed
  · rw [written.readAll_eq, written'.readAll_eq]

theorem Equivalent.trim (equivalent : Equivalent text text') :
    Equivalent (Text.trim text) (Text.trim text') where
  brackets := by rw [check_trim, check_trim, equivalent.brackets]
  tokens := by rw [(readAll_trim text).1, (readAll_trim text').1, equivalent.tokens]
  fault := by rw [(readAll_trim text).2, (readAll_trim text').2, equivalent.fault]

end Scanner

end Reckon
