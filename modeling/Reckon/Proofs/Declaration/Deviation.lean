import Reckon.Proofs.Declaration.Reading
import Reckon.Proofs.Steps

/-!
Where a declaration goes wrong. Tokens begin a header if further tokens make them one, and the
states of a header are reached by exactly the tokens that begin one. A header that is refused is
refused at the first token with which its tokens begin none, or at its end, and what stands in front
of that place decides the fault. A body that is missing comes before any fault of the header, and a
fault of its characters before one of its tokens.
-/

namespace Reckon.Declaration

namespace Header

variable {header next : Header} {token : Token} {tokens before after : List Token}
variable {names : List String} {fault : DeclarationFault}

/-- Tokens that go on to a header with some tokens of a text. -/
def Begins (tokens : List Token) : Prop :=
  ∃ rest name parameters, (∀ token ∈ rest, token.WellFormed) ∧
    Written (tokens ++ rest) name parameters

/-- Tokens that begin a header up to a place: up to a token, or up to the end without being one. -/
inductive Deviates : List Token → List Token → Option Token → Prop
  | token {before after : List Token} {token : Token} : Begins before →
    ¬ Begins (before ++ [token]) → Deviates (before ++ token :: after) before (some token)
  | finish {tokens : List Token} : Begins tokens →
    (∀ name parameters, ¬ Written tokens name parameters) → Deviates tokens tokens none

def faultBehind : TokenKind → Option Token → DeclarationFault
  | .closing, _ => .trailingTokens
  | .identifier, some _ => .expectedDelimiter
  | .delimiter, none => .parameterNotIdentifier
  | _, none => .missingClosing
  | _, some token =>
    if token.kind = .identifier then .duplicateParameter (Text.lowercase token.text)
    else .parameterNotIdentifier

/-- The fault of what is found behind the beginning of a header; `none` is the header's end. -/
def faultAt : List Token → Option Token → DeclarationFault
  | [], _ => .missingName
  | [_], _ => .missingOpening
  | _ :: bracket :: inside, found => faultBehind (inside.getLastD bracket).kind found

theorem exists_longer (names : List String) : ∃ n, ∀ name ∈ names, name.length < n := by
  induction names with
  | nil => exact ⟨0, List.forall_mem_nil _⟩
  | cons name names ih =>
    obtain ⟨n, longer⟩ := ih
    refine ⟨max n (name.length + 1), List.forall_mem_cons.mpr ⟨by omega, fun other mem => ?_⟩⟩
    have := longer other mem
    omega

theorem exists_fresh (names : List String) : ∃ word : String,
    Token.WellFormed ⟨.identifier, word⟩ ∧ Text.lowercase word ∉ names := by
  obtain ⟨n, longer⟩ := exists_longer names
  have letters : ∀ c ∈ List.replicate n 'a', c.isAlphanum = true := by
    intro c mem
    rw [List.eq_of_mem_replicate mem]
    decide
  refine ⟨String.ofList ('a' :: List.replicate n 'a'), .identifier (by decide) letters, ?_⟩
  intro mem
  have short := longer _ mem
  rw [Text.lowercase_word (List.forall_mem_cons.mpr ⟨by decide, letters⟩), String.length_ofList,
    List.length_map, List.length_cons, List.length_replicate] at short
  omega

theorem read_append (tokens rest : List Token) :
    read (tokens ++ rest) = tokens.foldlM step start >>= fun header => readFrom header rest := by
  rw [read, List.foldlM_append, bind_assoc]
  rfl

theorem begins_of_readFrom {declared : String × List String} {rest : List Token}
    (reached : tokens.foldlM step start = .ok header) (formed : ∀ token ∈ rest, token.WellFormed)
    (accepted : readFrom header rest = .ok declared) : Begins tokens := by
  refine ⟨rest, declared.1, declared.2, formed, read_eq_ok_iff.mp ?_⟩
  rw [read_append, reached]
  exact accepted

theorem begins_of_reached (reached : tokens.foldlM step start = .ok header) : Begins tokens := by
  have opening : Token.WellFormed ⟨.opening, "("⟩ := .single (c := '(') rfl
  have closing : Token.WellFormed ⟨.closing, ")"⟩ := .single (c := ')') rfl
  have close (parameters : List String) (name : String) :
      readFrom (.listed name parameters) [⟨.closing, ")"⟩] = .ok (name, parameters) :=
    readFrom_listed.mpr ⟨_, [], rfl, .inr ⟨rfl, rfl, rfl⟩⟩
  obtain ⟨word, identifier, fresh⟩ := exists_fresh (match header with
    | .separated _ parameters => parameters
    | _ => [])
  cases header with
  | start =>
    have accepted : readFrom .start [⟨.identifier, word⟩, ⟨.opening, "("⟩, ⟨.closing, ")"⟩] =
        .ok (Text.lowercase word, []) := rfl
    exact begins_of_readFrom reached (by simp [identifier, opening, closing]) accepted
  | named name =>
    have accepted : readFrom (.named name) [⟨.opening, "("⟩, ⟨.closing, ")"⟩] = .ok (name, []) :=
      rfl
    exact begins_of_readFrom reached (by simp [opening, closing]) accepted
  | opened name =>
    have accepted : readFrom (.opened name) [⟨.closing, ")"⟩] = .ok (name, []) := rfl
    exact begins_of_readFrom reached (by simp [closing]) accepted
  | separated name parameters =>
    have accepted := readFrom_separated.mpr ⟨⟨.identifier, word⟩, _, rfl, rfl, fresh, close _ name⟩
    exact begins_of_readFrom reached (by simp [identifier, closing]) accepted
  | listed name parameters =>
    exact begins_of_readFrom reached (by simp [closing]) (close parameters name)
  | closed name parameters => exact begins_of_readFrom reached (List.forall_mem_nil _) readFrom_nil

theorem begins_iff : Begins tokens ↔ ∃ header, tokens.foldlM step start = .ok header := by
  refine ⟨?_, fun ⟨_, reached⟩ => begins_of_reached reached⟩
  rintro ⟨rest, name, parameters, -, written⟩
  have accepted := read_eq_ok_iff.mpr written
  rw [read_append] at accepted
  cases reached : tokens.foldlM step start with
  | error fault => rw [reached] at accepted; contradiction
  | ok header => exact ⟨header, rfl⟩

/-- What stands in front of the place that a state is reached at. -/
inductive Stands : List Token → Header → Prop
  | start : Stands [] .start
  | named {first : Token} {name : String} : Stands [first] (.named name)
  | opened {first bracket : Token} {name : String} : bracket.kind = .opening →
    Stands [first, bracket] (.opened name)
  | separated {first bracket last : Token} {inside : List Token} {name : String}
    {parameters : List String} : last.kind = .delimiter →
    Stands (first :: bracket :: (inside ++ [last])) (.separated name parameters)
  | listed {first bracket last : Token} {inside : List Token} {name : String}
    {parameters : List String} : last.kind = .identifier →
    Stands (first :: bracket :: (inside ++ [last])) (.listed name parameters)
  | closed {first bracket last : Token} {inside : List Token} {name : String}
    {parameters : List String} : last.kind = .closing →
    Stands (first :: bracket :: (inside ++ [last])) (.closed name parameters)

theorem parameter_eq_ok {name : String} {parameters : List String}
    (listed : parameter name parameters token = .ok next) :
      next = .listed name (parameters ++ [Text.lowercase token.text]) := by
  dsimp only [parameter] at listed
  split at listed
  · contradiction
  · exact (Except.ok.inj listed).symm

theorem parameter_eq_error {name : String} {parameters : List String}
    (twice : parameter name parameters token = .error fault) :
      fault = .duplicateParameter (Text.lowercase token.text) := by
  dsimp only [parameter] at twice
  split at twice
  · exact (Except.error.inj twice).symm
  · contradiction

theorem Stands.concat (stands : Stands before header) (stepped : step header token = .ok next) :
    Stands (before ++ [token]) next := by
  cases stands with
  | start =>
    cases kind : token.kind with
    | identifier =>
      simp only [step, kind, Except.ok.injEq] at stepped
      exact stepped ▸ .named
    | _ => simp [step, kind] at stepped
  | named =>
    cases kind : token.kind with
    | opening =>
      simp only [step, kind, Except.ok.injEq] at stepped
      exact stepped ▸ .opened kind
    | _ => simp [step, kind] at stepped
  | @opened first bracket name _ =>
    have shape : [first, bracket] ++ [token] = first :: bracket :: ([] ++ [token]) := rfl
    rw [shape]
    cases kind : token.kind with
    | closing =>
      simp only [step, kind, Except.ok.injEq] at stepped
      exact stepped ▸ .closed kind
    | identifier =>
      simp only [step, kind] at stepped
      exact parameter_eq_ok stepped ▸ .listed kind
    | _ => simp [step, kind] at stepped
  | separated =>
    cases kind : token.kind with
    | identifier =>
      simp only [step, kind] at stepped
      exact parameter_eq_ok stepped ▸ .listed kind
    | _ => simp [step, kind] at stepped
  | listed =>
    cases kind : token.kind with
    | delimiter =>
      simp only [step, kind, Except.ok.injEq] at stepped
      exact stepped ▸ .separated kind
    | closing =>
      simp only [step, kind, Except.ok.injEq] at stepped
      exact stepped ▸ .closed kind
    | _ => simp [step, kind] at stepped
  | closed => simp [step] at stepped

theorem stands_of_reached (stands : Stands before header)
    (reached : after.foldlM step header = .ok next) : Stands (before ++ after) next := by
  induction after generalizing before header with
  | nil =>
    obtain rfl := Except.ok.inj reached
    rwa [List.append_nil]
  | cons token after ih =>
    obtain ⟨further, stepped, reached⟩ := Steps.exists_of_foldlM_cons reached
    have later := ih (stands.concat stepped) reached
    rwa [List.append_assoc, List.singleton_append] at later

theorem faultAt_concat (first bracket last : Token) (inside : List Token) (found : Option Token) :
    faultAt (first :: bracket :: (inside ++ [last])) found = faultBehind last.kind found := by
  simp [faultAt]

theorem Stands.faultAt_eq (stands : Stands before header)
    (refused : step header token = .error fault) : faultAt before (some token) = fault := by
  cases stands with
  | start => cases kind : token.kind <;> simp_all [step, faultAt]
  | named => cases kind : token.kind <;> simp_all [step, faultAt]
  | opened opens =>
    cases kind : token.kind with
    | closing => simp [step, kind] at refused
    | identifier =>
      simp only [step, kind] at refused
      simp [faultAt, faultBehind, opens, kind, parameter_eq_error refused]
    | _ => simp_all [step, faultAt, faultBehind]
  | separated delimits =>
    rw [faultAt_concat, delimits]
    cases kind : token.kind with
    | identifier =>
      simp only [step, kind] at refused
      simp [faultBehind, kind, parameter_eq_error refused]
    | _ => simp_all [step, faultBehind]
  | listed named =>
    rw [faultAt_concat, named]
    cases kind : token.kind <;> simp_all [step, faultBehind]
  | closed closes =>
    rw [faultAt_concat, closes]
    simp_all [step, faultBehind]

theorem Stands.faultAt_end (stands : Stands before header)
    (refused : header.finish = .error fault) : faultAt before none = fault := by
  cases stands with
  | start | named | opened => simp_all [finish, faultAt, faultBehind]
  | separated last | listed last | closed last => simp_all [finish, faultAt_concat, faultBehind]

theorem read_eq_error_iff : read tokens = .error fault ↔
    ∃ before found, Deviates tokens before found ∧ faultAt before found = fault := by
  have whole : read tokens = tokens.foldlM step start >>= finish := rfl
  constructor
  · intro refused
    cases ran : tokens.foldlM step start with
    | error other =>
      rw [whole, ran] at refused
      obtain rfl := Except.error.inj refused
      obtain ⟨before, token, after, header, rfl, reached, stops⟩ := Steps.foldlM_eq_error_iff.mp ran
      -- Each state that is reached can go on to a header, so the refused token is the first fault.
      refine ⟨before, some token, .token (begins_of_reached reached) fun begins => ?_,
        (stands_of_reached .start reached).faultAt_eq stops⟩
      obtain ⟨next, further⟩ := begins_iff.mp begins
      rw [Steps.foldlM_concat reached, stops] at further
      contradiction
    | ok header =>
      refine ⟨tokens, none, .finish (begins_of_reached ran) fun name parameters written => ?_, ?_⟩
      · rw [read_eq_ok_iff.mpr written] at refused
        contradiction
      · rw [whole, ran] at refused
        exact (stands_of_reached .start ran).faultAt_end refused
  · rintro ⟨before, found, deviates, rfl⟩
    cases deviates with
    | @token _ after token begins stops =>
      obtain ⟨header, reached⟩ := begins_iff.mp begins
      cases stepped : step header token with
      | ok next =>
        rw [← Steps.foldlM_concat reached] at stepped
        exact absurd (begins_of_reached stepped) stops
      | error fault =>
        have stands : Stands before header := stands_of_reached .start reached
        have ran : (before ++ token :: after).foldlM step start = .error fault :=
          Steps.foldlM_eq_error_iff.mpr ⟨before, token, after, header, rfl, reached, stepped⟩
        rw [whole, ran, stands.faultAt_eq stepped]
        rfl
    | finish begins unwritten =>
      obtain ⟨header, reached⟩ := begins_iff.mp begins
      cases ended : header.finish with
      | ok declared =>
        have accepted : read tokens = .ok declared := by rw [whole, reached]; exact ended
        exact absurd (read_eq_ok_iff.mp accepted) (unwritten _ _)
      | error fault =>
        have stands : Stands tokens header := stands_of_reached .start reached
        rw [whole, reached, stands.faultAt_end ended]
        exact ended

end Header

variable {source header body : String} {failure : Failure}

def Split (source header body : String) : Prop :=
  source.toList = header.toList ++ '=' :: body.toList ∧ '=' ∉ header.toList

inductive Refused (source : String) : Failure → Prop
  | unassigned : '=' ∉ source.toList → Refused source (.declaration (Text.trim source) .missingBody)
  | bodiless {header body : String} : Split source header body → Text.isBlankText body = true →
    Refused source (.declaration (Text.trim source) .missingBody)
  | unscanned {header body : String} {fault : ReadFault} : Split source header body →
    Text.isBlankText body = false → Scanner.tokens header = .error ⟨fault, header⟩ →
      Refused source (.read ⟨fault, String.ofList (header.toList.dropWhile Text.isBlank)⟩)
  | undeclared {header body : String} {tokens before : List Token} {found : Option Token} :
    Split source header body → Text.isBlankText body = false → Scanner.tokens header = .ok tokens →
      Header.Deviates tokens before found →
        Refused source (.declaration (Text.trim source) (Header.faultAt before found))

theorem read_trim (source : String) : read (Text.trim source) = read source := by
  rw [read, read, Text.trim_trim]

theorem text_of_tokens {text : String} {error : ReadError}
    (failed : Scanner.tokens text = .error error) : error = ⟨error.fault, text⟩ := by
  rw [Scanner.tokens] at failed
  split at failed
  · contradiction
  · obtain rfl := Except.error.inj failed
    rfl

theorem read_eq_error_iff : read source = .error failure ↔ Refused source failure := by
  constructor
  · intro failed
    cases cut : Text.cutFirst '=' source with
    | none =>
      rw [read_of_uncut cut] at failed
      exact Except.error.inj failed ▸ .unassigned (Text.cutFirst_eq_none.mp cut)
    | some parts =>
      obtain ⟨header, body⟩ := parts
      have split : Split source header body := Text.cutFirst_eq_some.mp cut
      cases full : Text.isBlankText body with
      | true =>
        rw [read_of_bodiless cut full] at failed
        exact Except.error.inj failed ▸ .bodiless split full
      | false =>
        rw [read_of_full cut full] at failed
        cases scanned : Scanner.tokens header with
        | error error =>
          rw [scanned] at failed
          rw [text_of_tokens scanned] at scanned
          exact Except.error.inj failed ▸ .unscanned split full scanned
        | ok tokens =>
          cases declared : Header.read tokens with
          | error fault =>
            simp only [scanned, declared] at failed
            obtain ⟨before, found, deviates, rfl⟩ := Header.read_eq_error_iff.mp declared
            exact Except.error.inj failed ▸ .undeclared split full scanned deviates
          | ok declared' => simp [scanned, declared] at failed
  · intro refused
    cases refused with
    | unassigned absent => exact read_of_uncut (Text.cutFirst_eq_none.mpr absent)
    | bodiless split blank => exact read_of_bodiless (Text.cutFirst_eq_some.mpr split) blank
    | unscanned split full scanned =>
      rw [read_of_full (Text.cutFirst_eq_some.mpr split) full, scanned]
    | undeclared split full scanned deviates =>
      have declared := Header.read_eq_error_iff.mpr ⟨_, _, deviates, rfl⟩
      simp only [read_of_full (Text.cutFirst_eq_some.mpr split) full, scanned, declared]

/-- What is accepted as a declaration, what it declares, and how everything else is refused. A
declaration is read again from the source that it keeps. -/
theorem declared_exactly (source : String) :
    (∀ declaration, read source = .ok declaration ↔ ∃ header body tokens,
      Split source header body ∧ Text.isBlankText body = false ∧
        Scanner.tokens header = .ok tokens ∧
          Header.Written tokens declaration.name declaration.parameters ∧
            declaration.body = Text.trim body ∧ declaration.source = Text.trim source) ∧
    (∀ declaration, read source = .ok declaration → read declaration.source = .ok declaration) ∧
    ∀ failure, read source = .error failure ↔ Refused source failure := by
  refine ⟨fun declaration => ?_, fun declaration found => ?_, fun _ => read_eq_error_iff⟩
  · simp only [read_eq_ok_iff, Text.cutFirst_eq_some, Scanner.tokens_eq_ok_iff, Split]
  · obtain ⟨_, _, _, -, -, -, -, -, same⟩ := read_eq_ok_iff.mp found
    rw [same, read_trim, found]

theorem declared_exactly_of_area :
    let area : Declaration := ⟨"area", ["w", "h"], "w*h", "Area[W, h) = w*h"⟩
    read " Area[W, h) = w*h " = .ok area ∧ read area.source = .ok area ∧
      Refused " f(a$)=1" (.read ⟨.illegalCharacter '$', "f(a$)"⟩) ∧
        Refused "f(a,A,=1" (.declaration "f(a,A,=1" (.duplicateParameter "a")) := by
  intro area
  have found : read " Area[W, h) = w*h " = .ok area := by decide +kernel
  refine ⟨found, (declared_exactly _).2.1 area found, ?_, ?_⟩
  · exact ((declared_exactly _).2.2 _).mp (by decide +kernel)
  · exact ((declared_exactly _).2.2 _).mp (by decide +kernel)

end Reckon.Declaration
