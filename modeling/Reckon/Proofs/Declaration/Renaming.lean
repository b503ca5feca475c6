import Mathlib.Data.List.Nodup
import Reckon.FunctionTable
import Reckon.Proofs.Declaration.Reading
import Reckon.Proofs.Tree.Retold

/-!
Renaming the parameters of a declaration in its text. The words of the parameter list and of the
body are replaced where they stand, and the name in front of the list is left alone. As long as the
parameters stay apart, the new text declares the same name with the parameters and the body renamed,
and a lookup finds it where it found the old one.
-/

namespace Reckon

namespace Text

variable {s : String} {stops : Char → Bool} {front rest : List Char} {c : Char}

theorem upTo_eq (whole : s.toList = front ++ c :: rest) (passes : ∀ d ∈ front, stops d = false)
    (stop : stops c = true) : upTo stops s = String.ofList front := by
  have passes' : ∀ d ∈ front, (!stops d) = true := by simpa using passes
  rw [upTo, whole, List.takeWhile_append_of_pos passes']
  simp [stop]

theorem upTo_of_uncut {separator : Char} (uncut : cutFirst separator s = none) : upTo (· = separator) s = s := by
  have passes : ∀ d ∈ s.toList, (!decide (d = separator)) = true := by
    intro d mem
    rw [Bool.not_eq_true', decide_eq_false_iff_not]
    rintro rfl
    exact cutFirst_eq_none.mp uncut mem
  rw [upTo, List.takeWhile_eq_self_iff.mpr passes, String.ofList_toList]

theorem upTo_of_cut {separator : Char} {before after : String}
    (cut : cutFirst separator s = some (before, after)) : upTo (· = separator) s = before := by
  obtain ⟨whole, absent⟩ := cutFirst_eq_some.mp cut
  have passes : ∀ d ∈ before.toList, decide (d = separator) = false := by
    intro d mem
    rw [decide_eq_false_iff_not]
    rintro rfl
    exact absent mem
  rw [upTo_eq whole passes (by simp), String.ofList_toList]

end Text

namespace Declaration

def precedesList (c : Char) : Bool :=
  !(Bracket.opens? c).isSome

def rename (f : String → String) (source : String) : String :=
  match Text.cutFirst '=' source with
  | none => source
  | some (header, body) =>
    String.ofList (header.toList.takeWhile precedesList ++
      Scanner.rename f (header.toList.dropWhile precedesList) ++
        '=' :: Scanner.rename f body.toList)

/-- Puts `word` in the place of every spelling of a name, which is in lower case. -/
def respell (name word text : String) : String :=
  if Text.lowercase text = name then word else text

/-- What becomes of a name in lower case when `word` is put in the place of `name`. -/
def newName (name word other : String) : String :=
  if other = name then Text.lowercase word else other

def renameParameter (parameter word : String) : String → String :=
  rename (respell parameter word)

example : renameParameter "a" "Q2" "a(A, b) = max(b, A)=a" = "a(Q2, b) = max(b, Q2)=Q2" := by
  decide +kernel

/-- A declaration with its parameters and its body renamed: the words of the body by `f`, and the
parameters, which are in lower case, by `g`. -/
structure Renamed (f g : String → String) (declaration declaration' : Declaration) : Prop where
  name : declaration'.name = declaration.name
  parameters : declaration'.parameters = declaration.parameters.map g
  body : Scanner.Retold (Token.rename f) declaration.body declaration'.body

variable {f g : String → String} {listing tokens : List Token} {names parameters : List String}
variable {name source : String}

theorem lowercase_respell (name word text : String) :
    Text.lowercase (respell name word text) = newName name word (Text.lowercase text) := by
  unfold respell newName
  split <;> rfl

theorem renaming_respell {word : String} (identifier : Token.WellFormed ⟨.identifier, word⟩)
    (name : String) : Token.Renaming (respell name word) := by
  intro text formed
  unfold respell
  split
  · exact identifier
  · exact formed

theorem Header.Listing.rename (lower : ∀ text, Text.lowercase (f text) = g (Text.lowercase text))
    (listed : Header.Listing listing names) :
    Header.Listing (listing.map (Token.rename f)) (names.map g) := by
  have entry : ∀ token : Token, token.kind = .identifier →
      Text.lowercase (token.rename f).text = g (Text.lowercase token.text) := by
    intro token named
    rw [Token.rename_identifier named, lower]
  induction listed with
  | last named =>
    rw [List.map_singleton, List.map_singleton, ← entry _ named]
    exact .last (Token.kind_rename.trans named)
  | more named delimits _ ih =>
    rw [List.map_cons, List.map_cons, List.map_cons, ← entry _ named]
    exact .more (Token.kind_rename.trans named) (Token.kind_rename.trans delimits) ih

theorem Header.Written.rename {first opening : Token} {rest : List Token}
    (lower : ∀ text, Text.lowercase (f text) = g (Text.lowercase text))
    (apart : ∀ x ∈ parameters, ∀ y ∈ parameters, g x = g y → x = y)
    (declared : Header.Written (first :: opening :: rest) name parameters) :
    Header.Written (first :: opening :: rest.map (Token.rename f)) name (parameters.map g) := by
  obtain ⟨named, opens, inside, closes, distinct⟩ := declared
  have distinct' := List.Nodup.map_on apart distinct
  rw [List.map_append, List.map_singleton]
  refine .header named opens ?_ (Token.kind_rename.trans closes) distinct'
  cases inside with
  | nothing => exact .nothing
  | listing listed => exact .listing (listed.rename lower)

theorem not_mem_rename {cs : List Char} {c : Char} (words : Token.Renaming f) (absent : c ∉ cs)
    (symbol : c.isAlphanum = false) : c ∉ Scanner.rename f cs := fun mem =>
  (Scanner.mem_rename words mem).elim absent fun word => Bool.false_ne_true (symbol.symm.trans word)

theorem rename_parts {header body : String} (cut : Text.cutFirst '=' source = some (header, body))
    {front list : List Char} {c : Char} (split : header.toList = front ++ c :: list)
    (plain : ∀ d ∈ front, (Bracket.opens? d).isSome = false)
    (opens : (Bracket.opens? c).isSome = true) :
    rename f source = String.ofList (front ++ c :: Scanner.rename f list ++
      '=' :: Scanner.rename f body.toList) := by
  have single : (TokenKind.ofChar c).isSingle = true := by
    rw [ofChar_of_opens opens]
    rfl
  have bracket : Scanner.IsBracket c := .inl (ofChar_of_opens opens)
  have other : (⟨TokenKind.ofChar c, String.singleton c⟩ : Token).kind ≠ .identifier := by
    simp [ofChar_of_opens opens]
  have step := Scanner.rename_of_token (f := f) (List.forall_mem_nil _) (.single single)
    (bracket.token_ends list)
  rw [Token.rename_other other, String.toList_singleton] at step
  have passes : ∀ d ∈ front, precedesList d = true := by simpa [precedesList] using plain
  have stops : precedesList c = false := by simp [precedesList, opens]
  rw [rename, cut]
  dsimp only
  rw [split, List.takeWhile_append_of_pos passes, List.dropWhile_append_of_pos passes,
    List.takeWhile_cons_of_neg (by simp [stops]), List.dropWhile_cons_of_neg (by simp [stops]),
    List.append_nil]
  exact congrArg (fun cs => String.ofList (front ++ cs ++ '=' :: Scanner.rename f body.toList)) step

variable {declaration : Declaration}

theorem read_rename (words : Token.Renaming f)
    (lower : ∀ text, Text.lowercase (f text) = g (Text.lowercase text))
    (found : read source = .ok declaration)
    (apart : ∀ x ∈ declaration.parameters, ∀ y ∈ declaration.parameters, g x = g y → x = y) :
    (∃ renamed, read (rename f source) = .ok renamed ∧ Renamed f g declaration renamed) ∧
      FunctionTable.declaredName (rename f source) = FunctionTable.declaredName source := by
  obtain ⟨header, body, tokens, cut, full, written, declared, sameBody, -⟩ := read_eq_ok_iff.mp found
  obtain ⟨front, c, list, first, rest, split, plain, opens, alone, behind, rfl⟩ :=
    exists_opening written declared
  have parts := rename_parts (f := f) cut split plain opens
  obtain ⟨whole, absent⟩ := Text.cutFirst_eq_some.mp cut
  have cut' : Text.cutFirst '=' (rename f source) = some
      (String.ofList (front ++ c :: Scanner.rename f list),
        String.ofList (Scanner.rename f body.toList)) := by
    rw [split, List.mem_append, List.mem_cons, not_or, not_or] at absent
    rw [Text.cutFirst_eq_some, parts]
    simp only [String.toList_ofList, true_and]
    rw [List.mem_append, List.mem_cons, not_or, not_or]
    exact ⟨absent.1, absent.2.1, not_mem_rename words absent.2.2 (by decide)⟩
  have full' : Text.isBlankText (String.ofList (Scanner.rename f body.toList)) = false := by
    rw [Text.isBlankText, ← Bool.not_eq_true, List.all_eq_true] at full ⊢
    rwa [String.toList_ofList, Scanner.isBlank_rename words]
  have written' : Scanner.Written (String.ofList (front ++ c :: Scanner.rename f list)).toList
      (first :: ⟨TokenKind.ofChar c, String.singleton c⟩ :: rest.map (Token.rename f)) := by
    rw [String.toList_ofList]
    exact alone.append_bracket (.inl (ofChar_of_opens opens)) (behind.rename words)
  constructor
  · refine ⟨⟨declaration.name, declaration.parameters.map g, _, _⟩, read_eq_ok_iff.mpr
      ⟨_, _, _, cut', full', written', declared.rename lower apart, rfl, rfl⟩, rfl, rfl, ?_⟩
    rw [sameBody]
    exact Scanner.retold_rename words body
  · have split' : (String.ofList (front ++ c :: Scanner.rename f list)).toList =
        front ++ c :: Scanner.rename f list := String.toList_ofList
    rw [FunctionTable.declaredName, FunctionTable.declaredName, Text.upTo_of_cut cut',
      Text.upTo_of_cut cut, Text.upTo_eq split' plain opens, Text.upTo_eq split plain opens]

end Declaration

end Reckon
