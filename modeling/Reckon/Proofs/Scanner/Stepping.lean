import Reckon.Proofs.Scanner.Blanks
import Reckon.Proofs.Scanner.Names

/-!
A scanner call by call. Each call skips the blanks in front of it and consumes what its answer
names, be it a token or a fault, so the calls cut the text into pieces and none of them stalls.
Where a scanner stands does not matter to reading from the beginning, and what that comes to can be
told from the answers: all tokens up to the end of the text, or the first fault.
-/

namespace Reckon.Scanner

/-- What one call of `next` answers; without a token at the end of the text. -/
abbrev Answer :=
  Except ReadError (Option Token)

def named : Answer → List Char
  | .ok (some token) => token.text.toList
  | .error ⟨.illegalCharacter c, _⟩ => [c]
  | .error ⟨.malformedNumber text, _⟩ => text.toList
  | _ => []

def skipped (scanner : Scanner) : List Char :=
  scanner.rest.takeWhile Text.isBlank

/-- The piece of the text that a call takes: the blanks it skips and what its answer names. -/
def piece (scanner : Scanner) : List Char :=
  scanner.skipped ++ named scanner.next.1

def after : Nat → Scanner → Scanner
  | 0, scanner => scanner
  | count + 1, scanner => after count scanner.next.2

def pieces : Nat → Scanner → List (List Char)
  | 0, _ => []
  | count + 1, scanner => scanner.piece :: pieces count scanner.next.2

def answers : Nat → Scanner → List Answer
  | 0, _ => []
  | count + 1, scanner => scanner.next.1 :: answers count scanner.next.2

/-- The scanners that calls and readings from the beginning lead to, in any order. -/
inductive Reached (text : String) : Scanner → Prop
  | start : Reached text (ofText text)
  | next {scanner : Scanner} : Reached text scanner → Reached text scanner.next.2
  | restart {scanner : Scanner} : Reached text scanner → Reached text scanner.restart.2

variable {scanner : Scanner} {text : String} {rest : List Char} {token : Token}
variable {tokens : List Token} {fault : ReadFault} {count : Nat}

theorem next_of_finished (found : read scanner.rest = .finished) :
    scanner.next = (.ok none, { scanner with rest := [] }) := by
  rw [next, found]

theorem next_of_token (found : read scanner.rest = .token token rest) :
    scanner.next = (.ok (some token), { scanner with rest }) := by
  rw [next, found]

theorem next_of_fault (found : read scanner.rest = .fault fault rest) :
    scanner.next = (.error ⟨fault, scanner.text⟩, { scanner with rest }) := by
  rw [next, found]

theorem text_next (scanner : Scanner) : scanner.next.2.text = scanner.text := by
  unfold next
  split <;> rfl

theorem Fails.names {cs : List Char} (fails : Fails fault cs rest) (text : String) :
    cs = named (.error ⟨fault, text⟩) ++ rest ∧ named (.error ⟨fault, text⟩) ≠ [] ∧
      ∀ c ∈ cs.head?, Text.isBlank c = false := by
  cases fails with
  | illegal _ solid => exact ⟨rfl, List.cons_ne_nil _ _, by simpa using solid⟩
  | @malformed first more rest isRun _ _ =>
    have kind : TokenKind.ofChar first = .number :=
      TokenKind.ofChar_number.mpr (isRun first List.mem_cons_self)
    have solid := TokenKind.not_isBlank_of_ofChar (c := first) (by rw [kind]; decide)
    exact ⟨by simp [named], by simp [named], by simpa using solid⟩

theorem rest_eq_piece (scanner : Scanner) :
    scanner.rest = scanner.piece ++ scanner.next.2.rest ∧
      (scanner.next.1 = .ok none ∨ named scanner.next.1 ≠ []) := by
  unfold piece skipped
  cases found : read scanner.rest with
  | finished =>
    have skipped : scanner.rest.takeWhile Text.isBlank = scanner.rest :=
      List.takeWhile_eq_self_iff.mpr (read_eq_finished.mp found)
    simp [next_of_finished found, named, skipped]
  | token token rest =>
    obtain ⟨blanks, behind, blank, whole, formed, -, rfl⟩ := read_eq_token.mp found
    obtain ⟨c, more, chars⟩ := formed.exists_cons
    have solid : Text.isBlank c = false := formed.solid (by simp [chars])
    rw [chars] at whole
    rw [whole, takeWhile_run blank (by simpa using solid), next_of_token found]
    simp [named, chars]
  | fault fault rest =>
    obtain ⟨blanks, behind, blank, whole, fails⟩ := read_eq_fault.mp found
    obtain ⟨split, something, solid⟩ := fails.names scanner.text
    rw [whole, takeWhile_run blank solid, next_of_fault found]
    exact ⟨by rw [List.append_assoc, ← split], .inr something⟩

theorem length_next (going : scanner.next.1 ≠ .ok none) :
    scanner.next.2.rest.length < scanner.rest.length := by
  obtain ⟨whole, ends⟩ := rest_eq_piece scanner
  have something := List.length_pos_iff.mpr (ends.resolve_left going)
  have lengths := congrArg List.length whole
  rw [piece, List.length_append, List.length_append] at lengths
  omega

theorem rest_of_end (ended : scanner.next.1 = .ok none) :
    scanner.next.2.rest = [] ∧ scanner.next.2.next.1 = .ok none := by
  cases found : read scanner.rest with
  | finished =>
    rw [next_of_finished found]
    refine ⟨rfl, ?_⟩
    rw [next_of_finished (read_eq_finished.mpr (by simp))]
  | token token rest =>
    simp [next_of_token found] at ended
  | fault fault rest =>
    simp [next_of_fault found] at ended

theorem rest_eq_pieces (count : Nat) (scanner : Scanner) :
    scanner.rest = (pieces count scanner).flatten ++ (after count scanner).rest := by
  induction count generalizing scanner with
  | zero => rfl
  | succ count ih =>
    rw [pieces, List.flatten_cons, List.append_assoc, after, ← ih, ← (rest_eq_piece scanner).1]

theorem after_succ (count : Nat) (scanner : Scanner) :
    after (count + 1) scanner = (after count scanner).next.2 := by
  induction count generalizing scanner with
  | zero => rfl
  | succ count ih => exact ih scanner.next.2

theorem text_after (count : Nat) (scanner : Scanner) :
    (after count scanner).text = scanner.text := by
  induction count generalizing scanner with
  | zero => rfl
  | succ count ih => rw [after, ih, text_next]

theorem stays_at_end (ended : scanner.next.1 = .ok none) (count : Nat) :
    (after count scanner).next.1 = .ok none := by
  induction count with
  | zero => exact ended
  | succ count ih => rw [after_succ, (rest_of_end ih).2]

theorem exists_end (scanner : Scanner) :
    ∃ first ≤ scanner.rest.length, ∀ count,
      (after count scanner).next.1 = .ok none ↔ first ≤ count := by
  generalize size : scanner.rest.length = bound
  induction bound using Nat.strong_induction_on generalizing scanner with
  | _ bound ih =>
    by_cases ended : scanner.next.1 = .ok none
    · exact ⟨0, Nat.zero_le _, fun count => iff_of_true (stays_at_end ended count) (Nat.zero_le _)⟩
    · have shorter := length_next ended
      rw [size] at shorter
      obtain ⟨first, few, told⟩ := ih _ shorter scanner.next.2 rfl
      refine ⟨first + 1, by omega, fun count => ?_⟩
      cases count with
      | zero => exact iff_of_false ended (Nat.not_succ_le_zero first)
      | succ count => rw [after, told, Nat.succ_le_succ_iff]

def Reading.last (reading : Reading) (text : String) : Answer :=
  match reading.fault with
  | none => .ok none
  | some fault => .error ⟨fault, text⟩

theorem calls_of_readAll (scanner : Scanner) :
    let reading := readAll scanner.rest
    answers (reading.tokens.length + 1) scanner =
        reading.tokens.map (.ok ∘ some) ++ [reading.last scanner.text] ∧
      after (reading.tokens.length + 1) scanner = { scanner with rest := reading.rest } := by
  obtain ⟨text, cs⟩ := scanner
  dsimp only
  fun_induction readAll cs with
  | case1 cs finished =>
    have ended : (Scanner.mk text cs).next = _ := next_of_finished finished
    simp [answers, after, ended, Reading.last]
  | case2 cs fault rest found =>
    have failed : (Scanner.mk text cs).next = _ := next_of_fault found
    simp [answers, after, failed, Reading.last]
  | case3 cs token rest found reading ih =>
    obtain ⟨told, behind⟩ := ih
    have stepped : (Scanner.mk text cs).next = _ := next_of_token found
    rw [List.length_cons, answers, after, stepped]
    exact ⟨congrArg (_ :: ·) told, behind⟩

theorem readAll_of_answers {last : Answer} (other : ∀ token, last ≠ .ok (some token))
    (told : answers (tokens.length + 1) scanner = tokens.map (.ok ∘ some) ++ [last]) :
    (readAll scanner.rest).tokens = tokens ∧ (readAll scanner.rest).last scanner.text = last := by
  induction tokens generalizing scanner with
  | nil =>
    obtain rfl : scanner.next.1 = last := by simpa [answers] using told
    cases found : read scanner.rest with
    | finished => simp [readAll_of_finished found, next_of_finished found, Reading.last]
    | token token rest => exact absurd (by rw [next_of_token found]) (other token)
    | fault fault rest => simp [readAll_of_fault found, next_of_fault found, Reading.last]
  | cons token tokens ih =>
    rw [List.length_cons, answers, List.map_cons, List.cons_append] at told
    obtain ⟨first, later⟩ := List.cons.inj told
    cases found : read scanner.rest with
    | finished => simp [next_of_finished found] at first
    | token other rest =>
      rw [next_of_token found] at first later
      obtain rfl : other = token := by simpa using first
      obtain ⟨same, ends⟩ := ih later
      rw [readAll_of_token found]
      exact ⟨congrArg (_ :: ·) same, ends⟩
    | fault fault rest => simp [next_of_fault found] at first

theorem answers_eq_iff {last : Answer} (other : ∀ token, last ≠ .ok (some token)) :
    answers (tokens.length + 1) scanner = tokens.map (.ok ∘ some) ++ [last] ↔
      (readAll scanner.rest).tokens = tokens ∧ (readAll scanner.rest).last scanner.text = last := by
  refine ⟨readAll_of_answers other, ?_⟩
  rintro ⟨rfl, rfl⟩
  exact (calls_of_readAll scanner).1

theorem tokens_eq_ok_iff_answers : Scanner.tokens text = .ok tokens ↔
    answers (tokens.length + 1) (ofText text) = tokens.map (.ok ∘ some) ++ [.ok none] := by
  rw [answers_eq_iff (by simp), Scanner.tokens, Reading.last, ofText]
  cases (readAll text.toList).fault <;> simp

theorem tokens_eq_error_iff_answers {error : ReadError} : Scanner.tokens text = .error error ↔
    ∃ tokens : List Token, answers (tokens.length + 1) (ofText text) =
      tokens.map (.ok ∘ some) ++ [.error error] := by
  have other : ∀ token, (.error error : Answer) ≠ .ok (some token) := by simp
  simp only [answers_eq_iff other, Scanner.tokens, Reading.last, ofText]
  cases (readAll text.toList).fault <;> simp

theorem Reached.exists_after (reached : Reached text scanner) :
    ∃ count, scanner = after count (ofText text) := by
  induction reached with
  | start => exact ⟨0, rfl⟩
  | next _ ih =>
    obtain ⟨count, rfl⟩ := ih
    exact ⟨count + 1, (after_succ count _).symm⟩
  | restart _ ih =>
    obtain ⟨count, rfl⟩ := ih
    have behind := (calls_of_readAll (ofText text)).2
    refine ⟨(readAll text.toList).tokens.length + 1, Eq.trans ?_ behind.symm⟩
    rw [Scanner.restart, text_after]
    rfl

/-- Calls cut a text into pieces, whatever they answer. A call that does not come to the end of the
text leaves less of it, so the end is told after as many calls as there are characters at the most,
and from then on. The pieces of the calls up to there make up the text. From wherever calls and
readings have led, reading from the beginning comes to what it comes to at first: to all tokens if
no call fails before the end, or else to the fault of the first call that does. -/
theorem stepping_lossless (text : String) :
    (∀ count, (after count (ofText text)).next.1 ≠ .ok none →
      (after (count + 1) (ofText text)).rest.length < (after count (ofText text)).rest.length) ∧
    (∃ first ≤ text.length,
      (∀ count, (after count (ofText text)).next.1 = .ok none ↔ first ≤ count) ∧
      text.toList = (pieces (first + 1) (ofText text)).flatten) ∧
    (∀ count, text.toList =
      (pieces count (ofText text)).flatten ++ (after count (ofText text)).rest) ∧
    (∀ scanner, Reached text scanner → (∃ count, scanner = after count (ofText text)) ∧
      scanner.restart.1 = (ofText text).restart.1) ∧
    (∀ tokens, (ofText text).restart.1 = .ok tokens ↔
      answers (tokens.length + 1) (ofText text) = tokens.map (.ok ∘ some) ++ [.ok none]) ∧
    ∀ error, (ofText text).restart.1 = .error error ↔ ∃ tokens : List Token,
      answers (tokens.length + 1) (ofText text) = tokens.map (.ok ∘ some) ++ [.error error] := by
  refine ⟨fun count going => ?_, ?_, fun count => rest_eq_pieces count (ofText text),
    fun scanner reached => ?_, fun tokens => tokens_eq_ok_iff_answers,
    fun error => tokens_eq_error_iff_answers⟩
  · rw [after_succ]
    exact length_next going
  · obtain ⟨first, few, told⟩ := exists_end (ofText text)
    refine ⟨first, few, told, ?_⟩
    have ended := (rest_of_end ((told first).mpr (Nat.le_refl first))).1
    have whole : text.toList = _ := rest_eq_pieces (first + 1) (ofText text)
    rwa [after_succ, ended, List.append_nil] at whole
  · obtain ⟨count, rfl⟩ := reached.exists_after
    refine ⟨⟨count, rfl⟩, ?_⟩
    rw [restart, text_after]
    rfl

theorem stepping_lossless_of_faults :
    let fresh := ofText "a $1.2.3 <= "
    let led := fresh.next.2.restart.2.next.2
    (after 2 fresh).next.1 = .error ⟨.malformedNumber "1.2.3", "a $1.2.3 <= "⟩ ∧
      (after 3 fresh).rest.length < (after 2 fresh).rest.length ∧
      Reached "a $1.2.3 <= " led ∧
      led.restart.1 = .error ⟨.illegalCharacter '$', "a $1.2.3 <= "⟩ := by
  have malformed : (after 2 (ofText "a $1.2.3 <= ")).next.1 =
      .error ⟨.malformedNumber "1.2.3", "a $1.2.3 <= "⟩ := by decide +kernel
  have told : answers 2 (ofText "a $1.2.3 <= ") =
      [⟨.identifier, "a"⟩].map (.ok ∘ some) ++
        [.error ⟨.illegalCharacter '$', "a $1.2.3 <= "⟩] := by decide +kernel
  obtain ⟨going, -, -, led, -, failed⟩ := stepping_lossless "a $1.2.3 <= "
  have reached : Reached "a $1.2.3 <= " (ofText "a $1.2.3 <= ").next.2.restart.2.next.2 :=
    .next (.restart (.next .start))
  refine ⟨malformed, going 2 (by simp [malformed]), reached, ?_⟩
  rw [(led _ reached).2]
  exact (failed _).mpr ⟨[⟨.identifier, "a"⟩], told⟩

end Reckon.Scanner
