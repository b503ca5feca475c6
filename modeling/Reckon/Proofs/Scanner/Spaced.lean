import Reckon.Proofs.Scanner.Names
import Reckon.Proofs.Scanner.Written

/-!
Tokens written out with blanks between them. Scanning gives back every list of well-formed tokens
that is written this way, whatever the gaps are. The other way round, a text without a fault is the
texts of its tokens and blanks, and its tokens are well formed. So scanning reaches exactly the
lists of well-formed tokens.
-/

namespace Reckon.Scanner

variable {cs blanks : List Char} {tokens : List Token} {pieces : List (Token × List Char)}

def spell (pieces : List (Token × List Char)) : List Char :=
  pieces.flatMap fun (token, gap) => token.text.toList ++ gap

/-- Well-formed tokens with blank gaps, of which only the last one may be missing. -/
inductive Spaced : List (Token × List Char) → Prop
  | nil : Spaced []
  | cons {token : Token} {gap : List Char} {pieces : List (Token × List Char)} :
    token.WellFormed → (∀ c ∈ gap, Text.isBlank c = true) → (gap = [] → pieces = []) →
    Spaced pieces → Spaced ((token, gap) :: pieces)

theorem spell_cons (token : Token) (gap : List Char) :
    spell ((token, gap) :: pieces) = token.text.toList ++ (gap ++ spell pieces) := by
  rw [spell, List.flatMap_cons, List.append_assoc]
  rfl

theorem Written.after_blanks (blank : ∀ c ∈ blanks, Text.isBlank c = true) (written : Written cs tokens) :
    Written (blanks ++ cs) tokens := by
  cases written with
  | blank blank' => exact .blank (List.forall_mem_append.mpr ⟨blank, blank'⟩)
  | token blank' formed ends written =>
    rw [← List.append_assoc]
    exact .token (List.forall_mem_append.mpr ⟨blank, blank'⟩) formed ends written

theorem Spaced.written (spaced : Spaced pieces) : Written (spell pieces) (pieces.map Prod.fst) := by
  induction spaced with
  | nil => exact .blank (List.forall_mem_nil _)
  | @cons token gap pieces formed blank separated _ ih =>
    have ends : token.Ends (gap ++ spell pieces) := by
      cases gap with
      | nil =>
        rw [separated rfl]
        exact token.ends_nil
      | cons c gap => exact Token.ends_of_isBlank (blank c List.mem_cons_self) token _
    rw [spell_cons, List.map_cons]
    exact .cons formed ends (ih.after_blanks blank)

theorem Written.texts_eq (written : Written cs tokens) :
    tokens.flatMap (fun token => token.text.toList) = cs.filter (fun c => !Text.isBlank c) := by
  induction written with
  | blank blank =>
    symm
    rw [List.flatMap_nil, List.filter_eq_nil_iff]
    intro c mem
    simp [blank c mem]
  | @token blanks rest token tokens blank formed _ _ ih =>
    have gone : blanks.filter (fun c => !Text.isBlank c) = [] := by
      rw [List.filter_eq_nil_iff]
      intro c mem
      simp [blank c mem]
    have stays : token.text.toList.filter (fun c => !Text.isBlank c) = token.text.toList := by
      rw [List.filter_eq_self]
      intro c mem
      simp [formed.solid mem]
    rw [List.flatMap_cons, List.filter_append, List.filter_append, gone, stays, ih, List.nil_append]

theorem spaced_map (formed : ∀ token ∈ tokens, token.WellFormed) :
    Spaced (tokens.map fun token => (token, [' '])) := by
  induction tokens with
  | nil => exact .nil
  | cons token tokens ih =>
    rw [List.forall_mem_cons] at formed
    rw [List.map_cons]
    exact .cons formed.1 (List.forall_mem_singleton.mpr rfl) (by simp) (ih formed.2)

/-- Scanning undoes writing tokens out with blanks around and between them. What it reads is the
text without its blanks, in well-formed tokens, and every list of these is read from some text. -/
theorem spaced_roundtrip :
    (∀ (text : String) (lead : List Char) (pieces : List (Token × List Char)),
      (∀ c ∈ lead, Text.isBlank c = true) → Spaced pieces → text.toList = lead ++ spell pieces →
        Scanner.tokens text = .ok (pieces.map Prod.fst)) ∧
    (∀ (text : String) (tokens : List Token), Scanner.tokens text = .ok tokens →
      (∀ token ∈ tokens, token.WellFormed) ∧
        tokens.flatMap (fun token => token.text.toList) =
          text.toList.filter (fun c => !Text.isBlank c)) ∧
    ∀ tokens : List Token, (∃ text, Scanner.tokens text = .ok tokens) ↔
      ∀ token ∈ tokens, token.WellFormed := by
  have reads : ∀ (text : String) (lead : List Char) (pieces : List (Token × List Char)),
      (∀ c ∈ lead, Text.isBlank c = true) → Spaced pieces → text.toList = lead ++ spell pieces →
        Scanner.tokens text = .ok (pieces.map Prod.fst) := by
    intro text lead pieces blank spaced same
    rw [tokens_eq_ok_iff, same]
    exact spaced.written.after_blanks blank
  refine ⟨reads, fun text tokens scanned => ?_, fun tokens => ⟨?_, fun formed => ?_⟩⟩
  · have written := tokens_eq_ok_iff.mp scanned
    exact ⟨fun token => written.wellFormed, written.texts_eq⟩
  · rintro ⟨text, scanned⟩
    exact fun token => (tokens_eq_ok_iff.mp scanned).wellFormed
  · have scanned := reads (String.ofList (spell (tokens.map fun token => (token, [' '])))) []
      _ (List.forall_mem_nil _) (spaced_map formed) (String.toList_ofList)
    rw [List.map_map] at scanned
    exact ⟨_, scanned.trans (congrArg Except.ok (List.map_id tokens))⟩

theorem spaced_roundtrip_of_pairs :
    Spaced [(⟨.relational, "<="⟩, [' ']), (⟨.relational, "="⟩, ['\t', '\u3000']),
      (⟨.identifier, "a1"⟩, ['\n']), (⟨.number, "1."⟩, [])] ∧
    Scanner.tokens " <= =\t\u3000a1\n1." =
      .ok [⟨.relational, "<="⟩, ⟨.relational, "="⟩, ⟨.identifier, "a1"⟩, ⟨.number, "1."⟩] := by
  have word : Token.WellFormed ⟨.identifier, String.ofList ['a', '1']⟩ :=
    .identifier (by decide) (forall_mem_of_all (by decide))
  have number : Token.WellFormed ⟨.number, "1."⟩ :=
    .number (forall_mem_of_all (by decide)) ⟨by decide, '1', by decide, rfl⟩
  have spaced : Spaced [(⟨.relational, "<="⟩, [' ']), (⟨.relational, "="⟩, ['\t', '\u3000']),
      (⟨.identifier, "a1"⟩, ['\n']), (⟨.number, "1."⟩, [])] := by
    refine .cons (.relational (by decide)) (forall_mem_of_all (by decide)) (by simp) ?_
    refine .cons (.relational (by decide)) (forall_mem_of_all (by decide)) (by simp) ?_
    refine .cons word (forall_mem_of_all (by decide)) (by simp) ?_
    exact .cons number (List.forall_mem_nil _) (fun _ => rfl) .nil
  exact ⟨spaced, spaced_roundtrip.1 _ [' '] _ (forall_mem_of_all (by decide)) spaced (by decide)⟩

end Reckon.Scanner
