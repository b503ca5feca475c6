import Mathlib.Data.List.Forall2
import Reckon.Proofs.Declaration.Named
import Reckon.Proofs.Evaluation.Variant
import Reckon.Proofs.Scanner.Respelling

/-!
Sources that are spelled alike. The header of a declaration is read from the kinds of its tokens and
from the lower case of its names, so headers that are spelled alike declare the same name and the
same parameters, or have the same fault. A name is then looked up with the same success in lists of
sources that are spelled alike one by one.
-/

namespace Reckon

namespace Scanner

variable {text text' other other' : String} {tokens : List Token} {related : Token → Token → Prop}

theorem validate_trim : validate (Text.trim text) = .ok () ↔ validate text = .ok () := by
  rw [Tree.validate_eq_ok, Tree.validate_eq_ok, check_trim]

theorem Spelled.of_trim (trimmed : Text.trim text = Text.trim other)
    (trimmed' : Text.trim text' = Text.trim other') (spelled : Spelled related text text') :
    Spelled related other other' := by
  obtain ⟨tokens, tokens', scanned, scanned', each⟩ := spelled
  rw [← tokens_trim, trimmed, tokens_trim] at scanned
  rw [← tokens_trim, trimmed', tokens_trim] at scanned'
  exact ⟨tokens, tokens', scanned, scanned', each⟩

theorem Respelled.of_trim (trimmed : Text.trim text = Text.trim other)
    (trimmed' : Text.trim text' = Text.trim other') (respelled : Respelled text text') :
    Respelled other other' := by
  cases respelled with
  | upToCase spelled => exact .upToCase (spelled.of_trim trimmed trimmed')
  | upToStyle spelled valid valid' =>
    rw [← validate_trim, trimmed, validate_trim] at valid
    rw [← validate_trim, trimmed', validate_trim] at valid'
    exact .upToStyle (spelled.of_trim trimmed trimmed') valid valid'

end Scanner

namespace Declaration

variable {tokens tokens' : List Token} {token token' : Token} {source source' name : String}

namespace Header

theorem step_congr (header : Header) (kind : token.kind = token'.kind)
    (lower : token.kind = .identifier → Text.lowercase token.text = Text.lowercase token'.text) :
    step header token = step header token' := by
  obtain ⟨first, text⟩ := token
  obtain ⟨second, text'⟩ := token'
  obtain rfl : first = second := kind
  cases first with
  | identifier => cases header <;> simp only [step, parameter, lower rfl]
  | _ => cases header <;> rfl

theorem read_congr (each : List.Forall₂ Token.SameUpToStyle tokens tokens')
    (formed : ∀ token ∈ tokens, token.WellFormed) (formed' : ∀ token ∈ tokens', token.WellFormed) :
    read tokens = read tokens' := by
  suffices ∀ header, tokens.foldlM step header = tokens'.foldlM step header by
    rw [read, read, this]
  induction each with
  | nil => exact fun _ => rfl
  | cons same _ ih =>
    intro header
    rw [List.forall_mem_cons] at formed formed'
    have first := step_congr header same.kind (same.lowercase_eq formed.1 formed'.1)
    rw [List.foldlM_cons, List.foldlM_cons, first]
    exact bind_congr (ih formed.2 formed'.2)

end Header

/-- Sources that both lack a `=`, or whose headers and bodies are spelled alike. -/
def Respelled : String → String → Prop :=
  Scanner.RespelledAt '=' (Scanner.Spelled Token.SameUpToStyle)

instance : DecidableRel Respelled :=
  inferInstanceAs (DecidableRel (Scanner.RespelledAt '=' (Scanner.Spelled Token.SameUpToStyle)))

/-- Declarations that differ in the spelling of the body and in their sources only. -/
structure Equivalent (declaration declaration' : Declaration) : Prop where
  name : declaration.name = declaration'.name
  parameters : declaration.parameters = declaration'.parameters
  body : Scanner.Equivalent declaration.body declaration'.body

theorem Respelled.read_alike (respelled : Respelled source source') :
    Failure.Alike Equivalent (read source) (read source') := by
  cases respelled with
  | uncut uncut uncut' =>
    rw [read_of_uncut uncut, read_of_uncut uncut']
    exact .error (Failure.outline_declaration ..)
  | @cut _ back _ _ cut cut' header body =>
    obtain ⟨tokens, tokens', written, written', each⟩ := header.exists_written
    have declared := Header.read_congr each (fun _ => written.wellFormed) fun _ => written'.wellFormed
    have blank := body.spelled.isBlankText_eq
    cases full : Text.isBlankText back with
    | true =>
      rw [read_of_bodiless cut full, read_of_bodiless cut' (blank ▸ full)]
      exact .error (Failure.outline_declaration ..)
    | false =>
      rw [read_of_full cut full, read_of_full cut' (blank ▸ full)]
      simp only [Scanner.tokens_eq_ok_iff.mpr written, Scanner.tokens_eq_ok_iff.mpr written',
        declared]
      split
      · exact .error (Failure.outline_declaration ..)
      · exact .ok ⟨rfl, rfl, body.equivalent.trim⟩

theorem Respelled.header (respelled : Respelled source source') :
    Scanner.Spelled Token.SameUpToStyle (Text.upTo (· = '=') source)
      (Text.upTo (· = '=') source') := by
  cases respelled with
  | uncut uncut uncut' whole => rwa [Text.upTo_of_uncut uncut, Text.upTo_of_uncut uncut']
  | cut cut cut' header => rwa [Text.upTo_of_cut cut, Text.upTo_of_cut cut']

theorem map_frontOf (tokens : List Token) :
    (frontOf tokens).map Token.canonical = frontOf (tokens.map Token.canonical) := by
  rw [frontOf, frontOf, List.takeWhile_map]
  simp [Function.comp_def]

theorem exists_word_iff (tokens : List Token) :
    (∃ word, tokens = [⟨.identifier, word⟩] ∧ Text.lowercase word = name) ↔
      tokens.map Token.canonical = [⟨.identifier, name⟩] := by
  constructor
  · rintro ⟨word, rfl, rfl⟩
    rfl
  · intro same
    obtain ⟨⟨kind, word⟩, rfl, canonical⟩ := List.map_eq_singleton_iff.mp same
    have named := congrArg Token.kind canonical
    rw [Token.kind_canonical] at named
    obtain rfl : kind = .identifier := named
    exact ⟨word, rfl, congrArg Token.text canonical⟩

theorem Respelled.declaredName_iff (respelled : Respelled source source')
    (named : Scanner.IsName name) : FunctionTable.declaredName source = name ↔
      FunctionTable.declaredName source' = name := by
  obtain ⟨tokens, tokens', written, written', each⟩ := respelled.header.exists_written
  have same := Token.map_canonical_eq each (fun _ => written.wellFormed) fun _ => written'.wellFormed
  rw [FunctionTable.declaredName, FunctionTable.declaredName, normalName_upTo_iff written named.1,
    normalName_upTo_iff written' named.1, exists_word_iff, exists_word_iff, map_frontOf, map_frontOf,
    same]

theorem Respelled.trim (respelled : Respelled source source') :
    Respelled (Text.trim source) (Text.trim source') := by
  cases respelled with
  | uncut uncut uncut' whole =>
    exact .uncut (Text.trim_uncut uncut) (Text.trim_uncut uncut')
      (whole.of_trim (Text.trim_trim _).symm (Text.trim_trim _).symm)
  | cut cut cut' header body =>
    refine .cut (Text.trim_cut (by decide) cut) (Text.trim_cut (by decide) cut')
      (header.of_trim ?_ ?_) (body.of_trim ?_ ?_)
    · rw [Text.trim_ofList_dropWhile, String.ofList_toList]
    · rw [Text.trim_ofList_dropWhile, String.ofList_toList]
    · rw [Text.trim_ofList_trimEnd, String.ofList_toList]
    · rw [Text.trim_ofList_trimEnd, String.ofList_toList]

end Declaration

namespace FunctionTable

variable {sources sources' : List String} {name : String}

theorem respelled_kept (each : List.Forall₂ Declaration.Respelled sources sources') :
    List.Forall₂ Declaration.Respelled ((sources.map Text.trim).filter (· ≠ ""))
      ((sources'.map Text.trim).filter (· ≠ "")) := by
  induction each with
  | nil => exact .nil
  | @cons source source' _ _ first _ ih =>
    have same : Text.trim source = "" ↔ Text.trim source' = "" := by
      rw [Text.trim_eq_empty, Text.trim_eq_empty, first.isBlankText_eq (by decide) id]
    rw [List.map_cons, List.map_cons]
    by_cases empty : Text.trim source = ""
    · rwa [List.filter_cons_of_neg (by simp [empty]),
        List.filter_cons_of_neg (by simp [same.mp empty])]
    · have full : Text.trim source' ≠ "" := fun gone => empty (same.mpr gone)
      rw [List.filter_cons_of_pos (by simp [empty]), List.filter_cons_of_pos (by simp [full])]
      exact .cons first.trim ih

theorem find?_alike (each : List.Forall₂ Declaration.Respelled sources sources')
    (named : Scanner.IsName name) :
    Failure.Alike (Option.Rel Declaration.Equivalent) (find? ⟨sources⟩ name)
      (find? ⟨sources'⟩ name) := by
  unfold find?
  rw [named.normalName_eq]
  dsimp only
  induction each with
  | nil => exact .ok .none
  | @cons source source' _ _ first _ ih =>
    have same := first.declaredName_iff named
    rw [List.find?_cons, List.find?_cons]
    by_cases here : declaredName source = name
    · simp only [here, same.mp here, decide_true]
      have read := first.read_alike
      generalize Declaration.read source = found, Declaration.read source' = found' at read ⊢
      cases read with
      | ok both => exact .ok (.some both)
      | error same => exact .error same
    · have other : declaredName source' ≠ name := fun declared => here (same.mpr declared)
      simpa only [here, other, decide_false] using ih

end FunctionTable

end Reckon
