import Reckon.ReadError
import Reckon.Token

/-!
Spans of tokens, and the places where they come apart. `strip` removes the bracket pairs that
enclose a whole span, found by matching its brackets once. `weakest` finds the operation that a
span is split at: outside all brackets, of the weakest rank, the last one of several. `arguments`
cuts the inside of a call at its delimiters. Bracket styles play no part here.
-/

namespace Reckon.Span

/-- The positions of matching brackets, when the brackets of `stack` are open before `position`.
A closing bracket that nothing opens ends the search. -/
def pairs (position : Nat) (stack : List Nat) : List Token → List (Nat × Nat)
  | [] => []
  | token :: rest =>
    match token.kind, stack with
    | .opening, _ => pairs (position + 1) (position :: stack) rest
    | .closing, start :: below => (start, position) :: pairs (position + 1) below rest
    | .closing, [] => []
    | _, _ => pairs (position + 1) stack rest

/-- How many of the pairs in `matched` enclose a whole span of `length` tokens, one inside the
other, when the first `layer` of them do. -/
def layersFrom (matched : List (Nat × Nat)) (length layer : Nat) : Nat :=
  if 2 * layer < length ∧ matched.lookup layer = some (length - 1 - layer) then
    layersFrom matched length (layer + 1)
  else layer
termination_by length - 2 * layer

def layers (span : List Token) : Nat :=
  layersFrom (pairs 0 [] span) span.length 0

def strip (span : List Token) : List Token :=
  (span.drop (layers span)).take (span.length - 2 * layers span)

theorem length_strip (span : List Token) : (strip span).length ≤ span.length := by
  simp only [strip, List.length_take, List.length_drop]
  omega

def isPart (part : List Char) : List Char → Bool
  | [] => part.isEmpty
  | c :: cs => part.isPrefixOf (c :: cs) || isPart part cs

def tier (tiers : List (List Char)) (text : String) : Nat :=
  tiers.findIdx (isPart text.toList)

def booleanTiers : List (List Char) :=
  [['&'], ['|'], ['?']]

def operatorTiers : List (List Char) :=
  [['/'], ['+', '-'], ['*', '%', '^'], ['~', '!']]

/-- The rank of an operation, weakest first; all relational operations share one rank. -/
def rank? (token : Token) : Option Nat :=
  match token.kind with
  | .boolean => some (tier booleanTiers token.text)
  | .relational => some (booleanTiers.length + 1)
  | .operator => some (booleanTiers.length + 2 + tier operatorTiers token.text)
  | _ => none

structure Cut where
  before : List Token
  operation : Token
  after : List Token

def Cut.span (cut : Cut) : List Token :=
  cut.before ++ cut.operation :: cut.after

structure Candidate where
  rank : Nat
  reversed : List Token
  operation : Token
  after : List Token

def Candidate.cut (candidate : Candidate) : Cut :=
  ⟨candidate.reversed.reverse, candidate.operation, candidate.after⟩

/-- A new candidate replaces the one held unless it is stronger. -/
def Candidate.offer (held : Option Candidate) (candidate : Candidate) : Option Candidate :=
  match held with
  | some best => if candidate.rank ≤ best.rank then some candidate else some best
  | none => some candidate

def search (depth : Nat) (seen : List Token) (held : Option Candidate) :
    List Token → Except ReadFault (Option Cut)
  | [] => .ok (held.map Candidate.cut)
  | token :: rest =>
    match token.kind, depth with
    | .opening, depth => search (depth + 1) (token :: seen) held rest
    | .closing, 0 => .error (.brackets .mismatch)
    | .closing, depth + 1 => search depth (token :: seen) held rest
    | _, 0 =>
      match rank? token with
      | some rank =>
        search 0 (token :: seen) (Candidate.offer held ⟨rank, seen, token, rest⟩) rest
      | none => search 0 (token :: seen) held rest
    | _, depth + 1 => search (depth + 1) (token :: seen) held rest

def weakest (span : List Token) : Except ReadFault (Option Cut) :=
  search 0 [] none span

theorem span_of_search {depth : Nat} {seen tokens : List Token} {held : Option Candidate}
    {cut : Cut} (keeps : ∀ c ∈ held, c.cut.span = seen.reverse ++ tokens)
    (h : search depth seen held tokens = .ok (some cut)) :
    cut.span = seen.reverse ++ tokens := by
  induction tokens generalizing depth seen held with
  | nil =>
    simp only [search, Except.ok.injEq, Option.map_eq_some_iff] at h
    obtain ⟨candidate, mem, rfl⟩ := h
    exact keeps candidate mem
  | cons token rest ih =>
    have moved : (token :: seen).reverse ++ rest = seen.reverse ++ token :: rest := by simp
    have keeps' : ∀ c ∈ held, c.cut.span = (token :: seen).reverse ++ rest :=
      moved ▸ keeps
    rw [← moved]
    unfold search at h
    split at h
    · exact ih keeps' h
    · contradiction
    · exact ih keeps' h
    · split at h
      · refine ih (fun c mem => ?_) h
        unfold Candidate.offer at mem
        split at mem
        · next best =>
          split at mem <;> obtain rfl := by simpa using mem
          · simp [Candidate.cut, Cut.span]
          · exact keeps' _ rfl
        · obtain rfl := by simpa using mem
          simp [Candidate.cut, Cut.span]
      · exact ih keeps' h
    · exact ih keeps' h

theorem span_of_weakest {span : List Token} {cut : Cut} (h : weakest span = .ok (some cut)) :
    cut.span = span :=
  span_of_search (by simp) h

/-- The name and the inside of `NAME ( ... )`, any brackets standing for the round ones. -/
def call? : List Token → Option (Token × List Token)
  | name :: bracket :: rest =>
    match rest.getLast? with
    | some last =>
      if name.kind = .identifier ∧ bracket.kind = .opening ∧ last.kind = .closing then
        some (name, rest.dropLast)
      else none
    | none => none
  | _ => none

/-- The arguments of a call. `stray` says that a closing bracket which nothing opens ended the
reading; what stands before its last delimiter has been read then. -/
structure Arguments where
  spans : List (List Token)
  stray : Bool

/-- Cuts at the delimiters outside brackets, with the tokens of the first argument that were
passed already in `reversed`. -/
def arguments (depth : Nat) (reversed : List Token) : List Token → Arguments
  | [] => ⟨[reversed.reverse], false⟩
  | token :: rest =>
    match token.kind, depth with
    | .opening, depth => arguments (depth + 1) (token :: reversed) rest
    | .closing, 0 => ⟨[], true⟩
    | .closing, depth + 1 => arguments depth (token :: reversed) rest
    | .delimiter, 0 =>
      let further := arguments 0 [] rest
      { further with spans := reversed.reverse :: further.spans }
    | _, depth => arguments depth (token :: reversed) rest

def weight : List (List Token) → Nat
  | [] => 0
  | span :: spans => span.length + 1 + weight spans

theorem weight_arguments (depth : Nat) (reversed tokens : List Token) :
    weight (arguments depth reversed tokens).spans ≤ reversed.length + tokens.length + 1 := by
  induction tokens generalizing depth reversed with
  | nil => simp [arguments, weight]
  | cons token rest ih =>
    unfold arguments
    split
    · refine Nat.le_trans (ih ..) ?_; simp; omega
    · simp [weight]
    · refine Nat.le_trans (ih ..) ?_; simp; omega
    · have := ih 0 []
      simp only [weight, List.length_reverse, List.length_cons, List.length_nil] at this ⊢
      omega
    · refine Nat.le_trans (ih ..) ?_; simp; omega

theorem length_of_call? {span inside : List Token} {name : Token}
    (h : call? span = some (name, inside)) : inside.length + 3 ≤ span.length := by
  unfold call? at h
  split at h
  · next first bracket rest =>
    split at h
    · next last found =>
      split at h
      · obtain ⟨rfl, rfl⟩ := by simpa using h
        have : rest ≠ [] := by rintro rfl; simp at found
        have := List.length_pos_iff.mpr this
        simp only [List.length_dropLast, List.length_cons]
        omega
      · contradiction
    · contradiction
  · contradiction

end Reckon.Span
