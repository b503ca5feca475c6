import Reckon.Proofs.Declaration.Header
import Reckon.Proofs.Scanner.Blanks
import Reckon.Proofs.Scanner.Names

/-!
What a declaration is read from. The header is the text in front of the first `=`, and the body is
the text behind it. Blanks around the source make no difference, so both may be taken from the
source as it stands.
-/

namespace Reckon.Declaration

variable {source header body name : String} {declaration : Declaration}

theorem read_of_uncut (uncut : Text.cutFirst '=' source = none) :
    read source = .error (.declaration (Text.trim source) .missingBody) := by
  rw [read, Text.trim_uncut uncut]

theorem read_of_bodiless (cut : Text.cutFirst '=' source = some (header, body))
    (blank : Text.isBlankText body = true) :
    read source = .error (.declaration (Text.trim source) .missingBody) := by
  have cut' := Text.trim_cut (by decide) cut
  rw [read]
  simp only [cut', Text.isBlankText_ofList_trimEnd, String.ofList_toList, blank, if_true]

/-- The header is cut from the trimmed source, and so an error of it names it without the blanks in
front of it. -/
theorem tokens_ofList_dropWhile :
    Scanner.tokens (String.ofList (header.toList.dropWhile Text.isBlank)) =
      (Scanner.tokens header).mapError fun error =>
        ⟨error.fault, String.ofList (header.toList.dropWhile Text.isBlank)⟩ := by
  have blank : ∀ c ∈ header.toList.takeWhile Text.isBlank, Text.isBlank c = true := fun c mem =>
    List.mem_takeWhile_imp mem
  have same : Scanner.readAll header.toList =
      Scanner.readAll (header.toList.dropWhile Text.isBlank) := by
    conv_lhs => rw [← List.takeWhile_append_dropWhile (p := Text.isBlank) (l := header.toList)]
    exact Scanner.readAll_blanks blank
  simp only [Scanner.tokens, String.toList_ofList, same]
  cases (Scanner.readAll (header.toList.dropWhile Text.isBlank)).fault <;> rfl

theorem read_of_full (cut : Text.cutFirst '=' source = some (header, body))
    (full : Text.isBlankText body = false) :
    read source = match Scanner.tokens header with
      | .error error =>
        .error (.read ⟨error.fault, String.ofList (header.toList.dropWhile Text.isBlank)⟩)
      | .ok tokens =>
        match Header.read tokens with
        | .error fault => .error (.declaration (Text.trim source) fault)
        | .ok (name, parameters) => .ok ⟨name, parameters, Text.trim body, Text.trim source⟩ := by
  have cut' := Text.trim_cut (by decide) cut
  rw [read]
  simp only [cut', Text.isBlankText_ofList_trimEnd, Text.trim_ofList_trimEnd, String.ofList_toList,
    full, tokens_ofList_dropWhile]
  cases Scanner.tokens header <;> rfl

theorem read_eq_ok_iff : read source = .ok declaration ↔ ∃ header body tokens,
    Text.cutFirst '=' source = some (header, body) ∧ Text.isBlankText body = false ∧
      Scanner.Written header.toList tokens ∧
        Header.Written tokens declaration.name declaration.parameters ∧
          declaration.body = Text.trim body ∧ declaration.source = Text.trim source := by
  constructor
  · intro found
    cases cut : Text.cutFirst '=' source with
    | none =>
      rw [read_of_uncut cut] at found
      contradiction
    | some parts =>
      obtain ⟨header, body⟩ := parts
      cases full : Text.isBlankText body with
      | true =>
        rw [read_of_bodiless cut full] at found
        contradiction
      | false =>
        rw [read_of_full cut full] at found
        cases scanned : Scanner.tokens header with
        | error error => simp [scanned] at found
        | ok tokens =>
          cases declared : Header.read tokens with
          | error fault => simp [scanned, declared] at found
          | ok declared' =>
            simp only [scanned, declared] at found
            obtain rfl := Except.ok.inj found
            exact ⟨header, body, tokens, rfl, full, Scanner.tokens_eq_ok_iff.mp scanned,
              Header.read_eq_ok_iff.mp declared, rfl, rfl⟩
  · rintro ⟨header, body, tokens, cut, full, written, declared, sameBody, sameSource⟩
    rw [read_of_full cut full, Scanner.tokens_eq_ok_iff.mpr written]
    simp only [Header.read_eq_ok_iff.mpr declared, ← sameBody, ← sameSource]

theorem ofChar_of_opens {c : Char} (opens : (Bracket.opens? c).isSome = true) :
    TokenKind.ofChar c = .opening := by
  unfold Bracket.opens? at opens
  split at opens
  all_goals first | rfl | contradiction

theorem mem_of_written {cs : List Char} {tokens : List Token} {token : Token} {c : Char}
    (written : Scanner.Written cs tokens) (mem : token ∈ tokens) (inside : c ∈ token.text.toList) :
    c ∈ cs := by
  induction written with
  | blank => contradiction
  | token _ _ _ _ ih =>
    rcases List.mem_cons.mp mem with rfl | later
    · simp [inside]
    · simp [ih later]

theorem kind_ne_opening {cs : List Char} {tokens : List Token} {token : Token}
    (written : Scanner.Written cs tokens) (mem : token ∈ tokens)
    (none : ∀ c ∈ cs, (Bracket.opens? c).isSome = false) : token.kind ≠ .opening := by
  intro opens
  obtain ⟨c, rfl⟩ := (written.wellFormed mem).eq_single (by rw [opens]; rfl)
  have among := mem_of_written written mem (c := c) (by simp)
  obtain ⟨style, bracket⟩ := TokenKind.opens_of_ofChar opens
  simpa [bracket] using none c among

theorem exists_eq_singleton {before after tokens : List Token} {token : Token}
    {parameters : List String} (declared : Header.Written tokens name parameters)
    (same : tokens = before ++ token :: after) (opens : token.kind = .opening)
    (none : ∀ token ∈ before, token.kind ≠ .opening) : ∃ first, before = [first] := by
  obtain ⟨named, second, -, -, -⟩ := declared
  match before, same with
  | [], same =>
    obtain ⟨rfl, -⟩ := List.cons.inj same
    rw [opens] at named
    contradiction
  | [first], _ => exact ⟨first, rfl⟩
  | _ :: _ :: _, same =>
    obtain ⟨-, same⟩ := List.cons.inj same
    obtain ⟨rfl, -⟩ := List.cons.inj same
    exact absurd second (none _ (by simp))

theorem front_cases {cs : List Char} {tokens : List Token} (written : Scanner.Written cs tokens) :
    (∀ c ∈ cs, (Bracket.opens? c).isSome = false) ∨
      ∃ front c list before after, cs = front ++ c :: list ∧
        (∀ d ∈ front, (Bracket.opens? d).isSome = false) ∧ (Bracket.opens? c).isSome = true ∧
          Scanner.Written front before ∧ Scanner.Written list after ∧
            tokens = before ++ ⟨TokenKind.ofChar c, String.singleton c⟩ :: after := by
  let plain (c : Char) : Bool := !(Bracket.opens? c).isSome
  have passes : ∀ d ∈ cs.takeWhile plain, (Bracket.opens? d).isSome = false := by
    intro d mem
    simpa [plain] using List.mem_takeWhile_imp mem
  have whole := List.takeWhile_append_dropWhile (p := plain) (l := cs)
  cases behind : cs.dropWhile plain with
  | nil =>
    rw [behind, List.append_nil] at whole
    exact .inl (whole ▸ passes)
  | cons c list =>
    have stops := List.head?_dropWhile_not plain cs
    rw [behind] at stops whole
    have opening : (Bracket.opens? c).isSome = true := by simpa [plain] using stops
    rw [← whole] at written
    obtain ⟨before, after, front, back, same⟩ :=
      written.of_append_bracket (.inl (ofChar_of_opens opening))
    exact .inr ⟨_, c, list, before, after, whole.symm, passes, opening, front, back, same⟩

theorem exists_opening {header : List Char} {tokens : List Token} {parameters : List String}
    (written : Scanner.Written header tokens) (declared : Header.Written tokens name parameters) :
    ∃ front c list first rest, header = front ++ c :: list ∧
      (∀ d ∈ front, (Bracket.opens? d).isSome = false) ∧ (Bracket.opens? c).isSome = true ∧
        Scanner.Written front [first] ∧ Scanner.Written list rest ∧
          tokens = first :: ⟨TokenKind.ofChar c, String.singleton c⟩ :: rest := by
  rcases front_cases written with plain | ⟨_, c, list, _, after, whole, passes, opens, front, back, same⟩
  · obtain ⟨-, second, -, -, -⟩ := declared
    exact absurd second (kind_ne_opening written (by simp) plain)
  · obtain ⟨first, rfl⟩ := exists_eq_singleton declared same (ofChar_of_opens opens)
      fun token mem => kind_ne_opening front mem passes
    exact ⟨_, c, list, first, after, whole, passes, opens, front, back, same⟩

theorem nodup_of_read (found : read source = .ok declaration) : declaration.parameters.Nodup := by
  obtain ⟨_, _, _, -, -, -, declared, -⟩ := read_eq_ok_iff.mp found
  exact declared.nodup

theorem parameter_of_read (found : read source = .ok declaration)
    (mem : name ∈ declaration.parameters) : Text.normalName name = name ∧ name ≠ "" := by
  obtain ⟨_, _, tokens, -, -, written, declared, -⟩ := read_eq_ok_iff.mp found
  obtain ⟨⟨kind, text⟩, among, rfl, rfl⟩ := declared.exists_token mem
  have formed := written.wellFormed among
  exact ⟨formed.normalName_lowercase, formed.lowercase_ne_empty⟩

end Reckon.Declaration
