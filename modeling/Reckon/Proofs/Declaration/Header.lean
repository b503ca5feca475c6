import Reckon.Declaration

/-!
The language of headers. A header is an identifier with a list of identifiers in brackets of any
style, delimiters between them, and no name twice. The states that it is read through accept this
language and return the names in lower case.
-/

namespace Reckon.Declaration.Header

variable {header : Header} {token : Token} {tokens listing : List Token} {name owner : String}
variable {seen names parameters : List String} {declared : String × List String}

/-- Identifiers with delimiters between them, and their names. -/
inductive Listing : List Token → List String → Prop
  | last {token : Token} : token.kind = .identifier → Listing [token] [Text.lowercase token.text]
  | more {token delimiter : Token} {tokens : List Token} {names : List String} :
    token.kind = .identifier → delimiter.kind = .delimiter → Listing tokens names →
      Listing (token :: delimiter :: tokens) (Text.lowercase token.text :: names)

inductive Inside : List Token → List String → Prop
  | nothing : Inside [] []
  | listing {tokens : List Token} {names : List String} : Listing tokens names → Inside tokens names

inductive Written : List Token → String → List String → Prop
  | header {first opening closing : Token} {inside : List Token} {parameters : List String} :
    first.kind = .identifier → opening.kind = .opening → Inside inside parameters →
      closing.kind = .closing → parameters.Nodup →
        Written (first :: opening :: (inside ++ [closing])) (Text.lowercase first.text) parameters

theorem Listing.exists_token (listed : Listing listing names) (mem : name ∈ names) :
    ∃ token ∈ listing, token.kind = .identifier ∧ Text.lowercase token.text = name := by
  induction listed with
  | last named => exact ⟨_, List.mem_singleton_self _, named, (List.mem_singleton.mp mem).symm⟩
  | more named _ _ ih =>
    rcases List.mem_cons.mp mem with rfl | later
    · exact ⟨_, List.mem_cons_self, named, rfl⟩
    · obtain ⟨token, among, fits⟩ := ih later
      exact ⟨token, List.mem_cons_of_mem _ (List.mem_cons_of_mem _ among), fits⟩

theorem Written.exists_first (written : Written tokens owner parameters) : ∃ first rest,
    tokens = first :: rest ∧ first.kind = .identifier ∧ Text.lowercase first.text = owner := by
  obtain ⟨named, -, -, -, -⟩ := written
  exact ⟨_, _, rfl, named, rfl⟩

theorem Written.nodup (written : Written tokens owner parameters) : parameters.Nodup := by
  obtain ⟨-, -, -, -, distinct⟩ := written
  exact distinct

theorem Written.exists_token (written : Written tokens owner parameters) (mem : name ∈ parameters) :
    ∃ token ∈ tokens, token.kind = .identifier ∧ Text.lowercase token.text = name := by
  obtain ⟨-, -, inside, -, -⟩ := written
  cases inside with
  | nothing => contradiction
  | listing listed =>
    obtain ⟨token, among, fits⟩ := listed.exists_token mem
    exact ⟨token, by simp [among], fits⟩

/-- What is declared when a header has been read as far as a state and `tokens` are left. -/
def readFrom (header : Header) (tokens : List Token) :
    Except DeclarationFault (String × List String) := do
  (← tokens.foldlM step header).finish

theorem readFrom_nil : readFrom header [] = header.finish :=
  rfl

theorem readFrom_cons :
    readFrom header (token :: tokens) = step header token >>= fun next => readFrom next tokens := by
  rw [readFrom, List.foldlM_cons, bind_assoc]
  rfl

theorem readFrom_closed :
    readFrom (.closed owner seen) tokens = .ok declared ↔ tokens = [] ∧ declared = (owner, seen) := by
  cases tokens with
  | nil => simp [readFrom_nil, finish, eq_comm]
  | cons token tokens => simp [readFrom_cons, step, bind, Except.bind]

theorem readFrom_listed : readFrom (.listed owner seen) tokens = .ok declared ↔
    ∃ token rest, tokens = token :: rest ∧
      ((token.kind = .delimiter ∧ readFrom (.separated owner seen) rest = .ok declared) ∨
        (token.kind = .closing ∧ rest = [] ∧ declared = (owner, seen))) := by
  cases tokens with
  | nil => simp [readFrom_nil, finish]
  | cons token tokens =>
    rw [readFrom_cons]
    cases kind : token.kind <;>
      simp [step, kind, bind, Except.bind, readFrom_closed, and_assoc]

theorem readFrom_parameter :
    (parameter owner seen token >>= fun next => readFrom next tokens) = .ok declared ↔
      Text.lowercase token.text ∉ seen ∧
        readFrom (.listed owner (seen ++ [Text.lowercase token.text])) tokens = .ok declared := by
  by_cases twice : Text.lowercase token.text ∈ seen
  · simp [parameter, twice, bind, Except.bind]
  · simp [parameter, twice, bind, Except.bind]

theorem readFrom_separated : readFrom (.separated owner seen) tokens = .ok declared ↔
    ∃ token rest, tokens = token :: rest ∧ token.kind = .identifier ∧
      Text.lowercase token.text ∉ seen ∧
        readFrom (.listed owner (seen ++ [Text.lowercase token.text])) rest = .ok declared := by
  cases tokens with
  | nil => simp [readFrom_nil, finish]
  | cons token tokens =>
    rw [readFrom_cons]
    cases kind : token.kind with
    | identifier => simp [step, kind, readFrom_parameter, and_assoc]
    | _ => simp [step, kind, bind, Except.bind]

theorem readFrom_opened : readFrom (.opened owner) tokens = .ok declared ↔
    (∃ closing, tokens = [closing] ∧ closing.kind = .closing ∧ declared = (owner, [])) ∨
      readFrom (.separated owner []) tokens = .ok declared := by
  cases tokens with
  | nil => simp [readFrom_nil, finish]
  | cons token tokens =>
    rw [readFrom_cons, readFrom_cons]
    cases kind : token.kind with
    | closing => simp [step, kind, bind, Except.bind, readFrom_closed, and_assoc]
    | identifier => simp [step, kind]
    | _ => simp [step, kind, bind, Except.bind]

theorem readFrom_start : read tokens = .ok declared ↔
    ∃ first opening rest, tokens = first :: opening :: rest ∧ first.kind = .identifier ∧
      opening.kind = .opening ∧
        readFrom (.opened (Text.lowercase first.text)) rest = .ok declared := by
  have start : read tokens = readFrom .start tokens := rfl
  rw [start]
  match tokens with
  | [] => simp [readFrom_nil, finish]
  | [first] =>
    rw [readFrom_cons]
    cases kind : first.kind <;> simp [step, kind, bind, Except.bind, readFrom_nil, finish]
  | first :: opening :: rest =>
    rw [readFrom_cons]
    cases kind : first.kind with
    | identifier =>
      have further : readFrom (.named (Text.lowercase first.text)) (opening :: rest) =
          step (.named (Text.lowercase first.text)) opening >>= fun next => readFrom next rest :=
        readFrom_cons
      cases next : opening.kind <;> simp [step, kind, next, bind, Except.bind, further, and_assoc]
    | _ => simp [step, kind, bind, Except.bind]

theorem listing_of_readFrom (accepted : readFrom (.separated owner seen) tokens = .ok declared) :
    ∃ listing closing names, tokens = listing ++ [closing] ∧ closing.kind = .closing ∧
      Listing listing names ∧ declared = (owner, seen ++ names) ∧
        names.Nodup ∧ ∀ name ∈ names, name ∉ seen := by
  induction length : tokens.length using Nat.strongRecOn generalizing tokens seen with
  | _ _ ih =>
    obtain ⟨token, rest, rfl, named, new, accepted⟩ := readFrom_separated.mp accepted
    obtain ⟨next, rest, rfl, delimits | closes⟩ := readFrom_listed.mp accepted
    · obtain ⟨delimits, accepted⟩ := delimits
      obtain ⟨listing, closing, names, rfl, closes, listed, rfl, distinct, others⟩ :=
        ih rest.length (by simp at length; omega) accepted rfl
      refine ⟨token :: next :: listing, closing, _, rfl, closes, .more named delimits listed,
        by simp, ?_, ?_⟩
      · refine List.nodup_cons.mpr ⟨fun mem => others _ mem ?_, distinct⟩
        simp
      · refine List.forall_mem_cons.mpr ⟨new, fun name mem known => others name mem ?_⟩
        simp [known]
    · obtain ⟨closes, rfl, rfl⟩ := closes
      exact ⟨[token], next, _, rfl, closes, .last named, rfl, by simp, by simpa⟩

theorem readFrom_of_listing {closing : Token} (listed : Listing listing names)
    (closes : closing.kind = .closing) (distinct : names.Nodup)
    (others : ∀ name ∈ names, name ∉ seen) :
    readFrom (.separated owner seen) (listing ++ [closing]) = .ok (owner, seen ++ names) := by
  induction listed generalizing seen with
  | last named =>
    refine readFrom_separated.mpr ⟨_, _, rfl, named, others _ (by simp), ?_⟩
    exact readFrom_listed.mpr ⟨closing, [], rfl, .inr ⟨closes, rfl, rfl⟩⟩
  | @more token delimiter tokens names named delimits _ ih =>
    rw [List.nodup_cons] at distinct
    rw [List.forall_mem_cons] at others
    have later : ∀ name ∈ names, name ∉ seen ++ [Text.lowercase token.text] := by
      intro name mem known
      rcases List.mem_append.mp known with before | here
      · exact others.2 name mem before
      · exact distinct.1 (List.mem_singleton.mp here ▸ mem)
    have accepted := ih distinct.2 later
    rw [List.append_assoc, List.singleton_append] at accepted
    refine readFrom_separated.mpr ⟨token, _, rfl, named, others.1, ?_⟩
    exact readFrom_listed.mpr ⟨delimiter, _, rfl, .inl ⟨delimits, accepted⟩⟩

theorem read_eq_ok_iff : read tokens = .ok (name, parameters) ↔ Written tokens name parameters := by
  constructor
  · intro accepted
    obtain ⟨first, opening, rest, rfl, named, opens, accepted⟩ := readFrom_start.mp accepted
    rcases readFrom_opened.mp accepted with ⟨closing, rfl, closes, declared⟩ | accepted
    · obtain ⟨rfl, rfl⟩ := Prod.mk.inj declared
      exact .header named opens .nothing closes List.nodup_nil
    · obtain ⟨listing, closing, names, rfl, closes, listed, declared, distinct, -⟩ :=
        listing_of_readFrom accepted
      obtain ⟨rfl, rfl⟩ := Prod.mk.inj declared
      exact .header named opens (.listing listed) closes distinct
  · rintro ⟨named, opens, inside, closes, distinct⟩
    refine readFrom_start.mpr ⟨_, _, _, rfl, named, opens, readFrom_opened.mpr ?_⟩
    cases inside with
    | nothing => exact .inl ⟨_, rfl, closes, rfl⟩
    | listing listed => exact .inr (readFrom_of_listing listed closes distinct (by simp))

end Reckon.Declaration.Header
