import Reckon.Number.Decimal
import Reckon.ReadError
import Reckon.Text.Blank
import Reckon.Token

/-!
The scanner cuts a text into tokens. `read` skips blanks and reads one token: a relational pair
where there is one, the longest run for numbers, identifiers and the previous value, and a single
character otherwise. A fault consumes what it names, so reading can go on behind it, and every
step but the last shortens the text.
-/

namespace Reckon

structure Scanner where
  text : String
  rest : List Char

namespace Scanner

inductive Step where
  | finished
  | token (token : Token) (rest : List Char)
  | fault (fault : ReadFault) (rest : List Char)

def isRelationalPair (first second : Char) : Bool :=
  (first = '<' && (second = '=' || second = '>')) || (first = '>' && second = '=')

def readRelational (first : Char) (cs : List Char) : Step :=
  match cs with
  | second :: after =>
    if isRelationalPair first second then
      .token ⟨.relational, String.ofList [first, second]⟩ after
    else .token ⟨.relational, String.singleton first⟩ cs
  | [] => .token ⟨.relational, String.singleton first⟩ cs

def run (kind : TokenKind) (first : Char) (cs : List Char) : Token :=
  ⟨kind, String.ofList (first :: cs.takeWhile kind.continues)⟩

def afterRun (kind : TokenKind) (cs : List Char) : List Char :=
  cs.dropWhile kind.continues

/-- A run of digits and points is a number only if it reads as one. -/
def readNumber (first : Char) (cs : List Char) : Step :=
  match Decimal.read? (run .number first cs).text with
  | some _ => .token (run .number first cs) (afterRun .number cs)
  | none => .fault (.malformedNumber (run .number first cs).text) (afterRun .number cs)

def read (cs : List Char) : Step :=
  match cs.dropWhile Text.isBlank with
  | [] => .finished
  | first :: cs =>
    match TokenKind.ofChar first with
    | .invalid => .fault (.illegalCharacter first) cs
    | .relational => readRelational first cs
    | .number => readNumber first cs
    | .identifier => .token (run .identifier first cs) (afterRun .identifier cs)
    | .previous => .token (run .previous first cs) (afterRun .previous cs)
    | kind => .token ⟨kind, String.singleton first⟩ cs

theorem length_afterRun (kind : TokenKind) (cs : List Char) :
    (afterRun kind cs).length ≤ cs.length :=
  (List.dropWhile_suffix kind.continues).length_le

theorem readRelational_shorter {first : Char} {cs rest : List Char} {token : Token}
    (h : readRelational first cs = .token token rest) : rest.length ≤ cs.length := by
  unfold readRelational at h
  split at h
  · split at h <;> injection h with _ same <;> subst same <;> simp
  · injection h with _ same
    exact same ▸ Nat.le_refl _

theorem readNumber_shorter {first : Char} {cs rest : List Char} {token : Token}
    (h : readNumber first cs = .token token rest) : rest.length ≤ cs.length := by
  unfold readNumber at h
  split at h
  · injection h with _ same
    exact same ▸ length_afterRun ..
  · contradiction

theorem read_shorter {cs rest : List Char} {token : Token} (h : read cs = .token token rest) :
    rest.length < cs.length := by
  have skipped := (List.dropWhile_suffix Text.isBlank (l := cs)).length_le
  unfold read at h
  split at h
  · contradiction
  · next first after found =>
    rw [found, List.length_cons] at skipped
    refine Nat.lt_of_lt_of_le (Nat.lt_succ_of_le ?_) skipped
    split at h
    · contradiction
    · exact readRelational_shorter h
    · exact readNumber_shorter h
    · injection h with _ same
      exact same ▸ length_afterRun ..
    · injection h with _ same
      exact same ▸ length_afterRun ..
    · injection h with _ same
      exact same ▸ Nat.le_refl _

/-- The tokens up to the end of the text or the first fault, and the text behind them. -/
structure Reading where
  tokens : List Token
  fault : Option ReadFault
  rest : List Char

def readAll (cs : List Char) : Reading :=
  match _h : read cs with
  | .finished => ⟨[], none, []⟩
  | .fault fault rest => ⟨[], some fault, rest⟩
  | .token token rest =>
    let reading := readAll rest
    { reading with tokens := token :: reading.tokens }
termination_by cs.length
decreasing_by exact read_shorter _h

def tokens (text : String) : Except ReadError (List Token) :=
  let reading := readAll text.toList
  match reading.fault with
  | none => .ok reading.tokens
  | some fault => .error ⟨fault, text⟩

def ofText (text : String) : Scanner :=
  ⟨text, text.toList⟩

def next (scanner : Scanner) : Except ReadError (Option Token) × Scanner :=
  match read scanner.rest with
  | .finished => (.ok none, { scanner with rest := [] })
  | .token token rest => (.ok (some token), { scanner with rest })
  | .fault fault rest => (.error ⟨fault, scanner.text⟩, { scanner with rest })

def restart (scanner : Scanner) : Except ReadError (List Token) × Scanner :=
  (tokens scanner.text, { scanner with rest := (readAll scanner.text.toList).rest })

def validate (text : String) : Except ReadError Unit :=
  match Bracket.check [] text.toList with
  | none => .ok ()
  | some fault => .error ⟨.brackets fault, text⟩

end Scanner

end Reckon
