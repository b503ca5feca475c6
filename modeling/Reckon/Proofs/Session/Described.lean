import Reckon.Proofs.Number.Spelling
import Reckon.Proofs.Number.Whole
import Reckon.Proofs.Session.ReadBack
import Reckon.Proofs.VariableTable.Updates

/-!
Descriptions of values. A value is described by an integer where it is a whole number below
`10 ^ 15` in size, and in the plain layout otherwise. Either text stands for the value again: as a
formula, where a minus sign takes one level more than a number, and as the number of an entry, where
infinities and NaN are known too. Only the sign of a zero is lost.
-/

namespace Reckon

namespace Double

/-- A number with the sign of a zero dropped. -/
def unsignedZero (x : Float) : Float :=
  if x == 0 then 0 else x

variable {x : Float}

theorem unsignedZero_of_nonzero (nonzero : (x == 0) = false) : unsignedZero x = x :=
  if_neg (by simp [nonzero])

theorem unsignedZero_beq (number : x.isNaN = false) : (unsignedZero x == x) = true := by
  unfold unsignedZero
  split
  · next zero =>
    rcases eq_zero_of_beq zero with rfl | rfl <;> decide +kernel
  · rw [Float.isNaN_eq_decide_eq_nan] at number
    exact Float.beq_self_iff.mpr (of_decide_eq_false number)

theorem eq_whole (finite : x.isFinite) (whole : (WholePart.fraction x == 0) = true)
    (nonzero : (x == 0) = false) : WholePart.size x ≠ 0 ∧
      withSign (isNegative x) (nearest (WholePart.size x) 1) = x := by
  have equal := WholePart.beq_truncate finite whole
  have same : withSign (isNegative x) (nearest (WholePart.size x) 1) = x := by
    obtain ⟨-, -, same | ⟨same, -⟩ | ⟨same, -⟩⟩ := Float.beq_iff_ne_nan_and_eq.mp equal
    · exact same.symm
    · exact absurd (same ▸ nonzero) (by decide +kernel)
    · exact absurd (same ▸ nonzero) (by decide +kernel)
  refine ⟨fun none => ?_, same⟩
  rw [none] at same
  rw [← same] at nonzero
  cases negative : isNegative x with
  | false => exact absurd (negative ▸ nonzero) (by decide +kernel)
  | true => exact absurd (negative ▸ nonzero) (by decide +kernel)

end Double

namespace Session

open Double

variable {x : Float}

theorem integer_eq (small : x.abs < 1000000000000000) :
    integer x = if isNegative x then -(WholePart.size x : Int) else WholePart.size x := by
  have finite := (WholePart.scale_le_of_lt small).1
  have below := WholePart.size_lt small
  have bounds : Int64.minValue.toInt = -0x8000000000000000 ∧
      Int64.maxValue.toInt = 0x7fffffffffffffff := by decide
  unfold integer WholePart.clamped
  rw [isNaN_of_isFinite finite, finite, bounds.1, bounds.2]
  unfold leadingBit at below
  simp only [Bool.false_eq_true, if_false, if_true]
  split <;> omega

theorem spells_integer (finite : x.isFinite) (whole : (WholePart.fraction x == 0) = true)
    (small : x.abs < 1000000000000000) (nonzero : (x == 0) = false) :
    Decimal.Spells (toString (integer x)) x := by
  obtain ⟨present, same⟩ := eq_whole finite whole nonzero
  have sized : (integer x).natAbs = WholePart.size x ∧
      decide (integer x < 0) = isNegative x := by
    rw [integer_eq small]
    cases isNegative x with
    | false => simp
    | true => simp; omega
  have spells := Decimal.spells_toString (integer x)
  rwa [sized.1, sized.2, Decimal.value_whole present, same] at spells

theorem spells_describe (finite : x.isFinite) :
    Decimal.Spells (describe x) (unsignedZero x) := by
  cases zero : x == 0 with
  | true =>
    have zero_spells : Decimal.Spells "0" 0 := Decimal.spells_toString 0
    rcases eq_zero_of_beq zero with rfl | rfl
    · exact zero_spells
    · exact zero_spells
  | false =>
    rw [unsignedZero_of_nonzero zero]
    unfold describe
    split
    · next whole =>
      rw [Bool.and_eq_true, decide_eq_true_eq] at whole
      exact spells_integer finite whole.1 whole.2 zero
    · exact Layout.spells_plain finite

end Session

namespace Decimal.Spells

variable {text : String} {x : Float}

theorem mem_chars (spells : Spells text x) {c : Char} (mem : c ∈ text.toList) :
    c.isDigit = true ∨ c = '.' ∨ c = '-' := by
  obtain ⟨negative, digits, _, rfl, run, -, -⟩ := spells
  rw [String.toList_ofList] at mem
  cases negative with
  | false => exact (run c mem).imp_right .inl
  | true =>
    rcases List.mem_cons.mp mem with minus | later
    · exact .inr (.inr minus)
    · exact (run c later).imp_right .inl

theorem solid (spells : Spells text x) {c : Char} (mem : c ∈ text.toList) :
    Text.isBlank c = false := by
  refine TokenKind.not_isBlank_of_ofChar ?_
  rcases spells.mem_chars mem with digit | rfl | rfl
  · rw [TokenKind.ofChar_number.mpr (.inl digit)]
    decide
  · decide
  · decide

theorem not_blank (spells : Spells text x) : Text.isBlankText text = false := by
  have solid := fun c => spells.solid (c := c)
  obtain ⟨negative, digits, _, rfl, run, reads, -⟩ := spells
  obtain ⟨-, c, mem, -⟩ := (readDigits_isSome run).mp (reads ▸ rfl)
  refine Bool.eq_false_iff.mpr fun blank => ?_
  have here : c ∈ (String.ofList (if negative then '-' :: digits else digits)).toList := by
    rw [String.toList_ofList]
    cases negative with
    | false => exact mem
    | true => exact List.mem_cons_of_mem _ mem
  have found := List.all_eq_true.mp blank c here
  rw [solid c here] at found
  contradiction

theorem trim (spells : Spells text x) : Text.trim text = text :=
  Text.trim_eq_self fun _ mem => spells.solid mem

theorem isPlain {digits : List Char} (run : IsRun digits) {size : Float}
    (reads : readDigits digits = some size) : IsPlain digits :=
  (readDigits_isSome run).mp (reads ▸ rfl)

end Decimal.Spells

namespace Tree

variable {digits : List Char} {maxDepth level : Nat}

def minus : Token :=
  ⟨.operator, "-"⟩

theorem wellFormed_number (run : Decimal.IsRun digits) (plain : Decimal.IsPlain digits) :
    Token.WellFormed ⟨.number, String.ofList digits⟩ :=
  .number (by rwa [String.toList_ofList]) (by rwa [String.toList_ofList])

theorem read_number (run : Decimal.IsRun digits) (plain : Decimal.IsPlain digits)
    (room : level < maxDepth) : read maxDepth level (String.ofList digits) =
      .ok (Node.leaf ⟨.number, String.ofList digits⟩) :=
  read_token (wellFormed_number run plain) (by simp [Token.Plain]) room

theorem read_minus (run : Decimal.IsRun digits) (plain : Decimal.IsPlain digits)
    (room : level + 2 ≤ maxDepth) : read maxDepth level (String.ofList ('-' :: digits)) =
      .ok ⟨minus, [], [Node.leaf ⟨.number, String.ofList digits⟩]⟩ := by
  have written : Scanner.Written ('-' :: digits)
      [minus, ⟨.number, String.ofList digits⟩] := by
    have sign : minus.WellFormed := .single (c := '-') rfl
    have behind := Scanner.written_token (wellFormed_number run plain)
    rw [String.toList_ofList] at behind
    exact .cons sign (fun _ _ => rfl) behind
  have operand : Grammar.Expression Grammar.primary [⟨.number, String.ofList digits⟩]
      (Node.leaf ⟨.number, String.ofList digits⟩) := .token (by simp [Token.Plain]) rfl
  have expression : Grammar.Expression 5 [minus, ⟨.number, String.ofList digits⟩]
      ⟨minus, [], [Node.leaf ⟨.number, String.ofList digits⟩]⟩ :=
    .operation rfl .missing (.given (operand.weaken (by decide) (Nat.le_refl _)))
  have neutral : Bracket.Neutral ('-' :: digits) := by
    refine Bracket.neutral_of_plain fun c mem => ?_
    rcases List.mem_cons.mp mem with rfl | later
    · decide
    · have kind := TokenKind.ofChar_number.mpr (run c later)
      exact TokenKind.not_bracket_of_ofChar (by rw [kind]; decide) (by rw [kind]; decide)
  refine read_eq_ok_iff.mpr ⟨?_, _, ?_, expression.weaken (by decide) (by decide), ?_⟩
  · rw [String.toList_ofList]
    exact neutral.nested
  · rwa [String.toList_ofList]
  · simpa [Node.need, Node.needMost, Node.leaf] using room

end Tree

namespace Evaluation

variable {m : Type → Type} [Monad m] [LawfulMonad m] {env : Environment m} {maxDepth : Nat}
variable {text : String} {x : Float}

theorem evaluate_number (reads : Decimal.read? text = some x) (level : Nat) :
    evaluate env level (Node.leaf ⟨.number, text⟩) = pure x := by
  rw [Node.leaf, evaluate_head env level (.inl rfl)]
  simp only [head, reads]

theorem reading_spelled (spells : Decimal.Spells text x) (room : 2 ≤ maxDepth) :
    Outcome.reading maxDepth 0 text (evaluate env 0) = pure x := by
  obtain ⟨negative, digits, size, rfl, run, reads, rfl⟩ := spells
  have plain := Decimal.Spells.isPlain run reads
  have number : Decimal.read? (String.ofList digits) = some size :=
    Decimal.Spells.read? ⟨false, digits, size, rfl, run, reads, rfl⟩
  cases negative with
  | false =>
    rw [Outcome.reading, if_neg Bool.false_ne_true, Tree.read_number run plain (by omega)]
    exact evaluate_number number 0
  | true =>
    have signed : evaluate env 0 ⟨Tree.minus, [], [Node.leaf ⟨.number, String.ofList digits⟩]⟩ =
        Operation.applyPrefixed Tree.minus 0
          [evaluate env 1 (Node.leaf ⟨.number, String.ofList digits⟩)] :=
      evaluate_head env 0 (.inr (by decide)) _
    rw [Outcome.reading, if_pos rfl, Tree.read_minus run plain (by omega)]
    dsimp only
    rw [signed, evaluate_number number, Operation.applyPrefixed_one]
    exact pure_bind size fun size => pure (-size)

end Evaluation

namespace Session

variable {x : Float} {text : String}

theorem read_spelled (spells : Decimal.Spells text x) : Statement.read text = .ok (none, text) := by
  have uncut : ':' ∉ text.toList := fun mem => absurd (spells.mem_chars mem) (by decide)
  rw [Statement.read, Text.cutFirst_eq_none.mpr uncut]

theorem toList_spelled (spells : Decimal.Spells text x) : (Entries.text text).toList = [text] := by
  have uncut : ';' ∉ text.toList := fun mem => absurd (spells.mem_chars mem) (by decide)
  rw [Entries.toList, Text.pieces, Entries.separator, List.splitOn_eq_singleton uncut,
    List.map_singleton, String.ofList_toList]

variable {m : Type → Type} [Monad m] [LawfulMonad m] (session : Session m)

theorem pass_spelled (spells : Decimal.Spells text x) (alone : session.statements = [text])
    (room : 2 ≤ session.maxDepth) : session.pass = pure x := by
  have full : Statement.isBlank text ≠ true := by
    rw [Statement.isBlank, spells.not_blank]
    exact Bool.false_ne_true
  rw [← session.finish_start, alone, session.finish_stated full (read_spelled spells),
    Scope.compute, Evaluation.reading_spelled spells room, pure_bind, session.finish_nil]
  rfl

end Session

namespace VariableTable

variable {x : Float} {name : String}

theorem read?_trim_describe (x : Float) :
    Decimal.read? (Text.trim (Session.describe x)) = some (Double.unsignedZero x) := by
  by_cases finite : x.isFinite
  · have spells := Session.spells_describe finite
    rw [spells.trim, spells.read?]
  · rcases Double.infinite_cases finite with rfl | rfl | rfl <;> decide +kernel

theorem states_describe (named : Text.isBlankText name = false) (first : '=' ∉ name.toList) :
    States (name ++ "=" ++ Session.describe x) name (Double.unsignedZero x) :=
  ⟨named, first, Session.describe x, by simp, read?_trim_describe x⟩

end VariableTable

namespace Session

open Double

variable {m : Type → Type} [Monad m] [LawfulMonad m]

theorem unsignedZero_infinite {v : Float} (infinite : v.isFinite = false) :
    unsignedZero v = v := by
  rcases infinite_cases (Bool.eq_false_iff.mp infinite) with rfl | rfl | rfl <;> decide +kernel

/-- What a session's value is described by stands for the value, but for the sign of a zero. The
description of a finite value is a statement with this value where there is room for two levels, and
behind a name and an equals sign the description of any value binds the name to it. -/
theorem describe_reads_back (session : Session m) (v : Float) :
    session.asText =
      (do let (outcome, session) ← session.value; return (outcome.map describe, session)) ∧
    (v.isFinite = true → (unsignedZero v == v) = true ∧ (2 ≤ session.maxDepth →
      ∀ entries ∈ [Entries.text (describe v), .list [describe v]],
        (session.setText entries).pass = pure (unsignedZero v))) ∧
    (v.isFinite = false → unsignedZero v = v) ∧
    ∀ name, Text.isBlankText name = false → '=' ∉ name.toList →
      ∀ entries : Entries, entries.toList = [name ++ "=" ++ describe v] →
        ∃ bindings, session.addVariables entries = ({ session with bindings }, none) ∧
          bindings.get? name = some (unsignedZero v) := by
  refine ⟨rfl, fun finite => ?_, unsignedZero_infinite, ?_⟩
  · refine ⟨unsignedZero_beq (isNaN_of_isFinite finite), fun room entries mem => ?_⟩
    have spells := spells_describe finite
    have alone : entries.toList = [describe v] := by
      simp only [List.mem_cons, List.not_mem_nil, or_false] at mem
      rcases mem with rfl | rfl
      · exact toList_spelled spells
      · rfl
    exact pass_spelled (session.setText entries) spells alone room
  · intro name named first entries single
    have states := VariableTable.states_describe (x := v) named first
    have kept : Text.normalName name ≠ "" := by
      rw [ne_eq, Text.normalName_eq_empty, named]
      exact Bool.false_ne_true
    refine ⟨session.bindings.set name (unsignedZero v), ?_, VariableTable.get?_set_same rfl kept⟩
    rw [addVariables, single, VariableTable.load, VariableTable.readEntry_of_states states]
    rfl

theorem describe_reads_back_of_values :
    describe (-0.1) = "-0.1" ∧
    ((start (pure 0 : Id Float)).setText (.text "-0.1")).pass = pure (-0.1) ∧
    ((start (pure 0 : Id Float)).addVariables (.list ["top=inf"])).2 = none ∧
    ((start (pure 0 : Id Float)).addVariables (.list ["zero=0"])).1.bindings.get? "zero" = some 0 := by
  have text : describe (-0.1) = "-0.1" := by decide +kernel
  have top : describe infinity = "inf" := by decide +kernel
  have zero : describe (-0) = "0" := by decide +kernel
  have kept : unsignedZero (-0.1) = -0.1 := by decide +kernel
  have dropped : unsignedZero (-0) = 0 := by decide +kernel
  let session := start (pure 0 : Id Float)
  obtain ⟨-, stated, -, -⟩ := describe_reads_back session (-0.1)
  obtain ⟨-, -, -, bound⟩ := describe_reads_back session infinity
  obtain ⟨-, -, -, bound'⟩ := describe_reads_back session (-0)
  rw [text, kept] at stated
  obtain ⟨_, loaded, -⟩ := bound "top" (by decide) (by decide) (.list ["top=inf"]) (by rw [top]; rfl)
  obtain ⟨_, loaded', found⟩ := bound' "zero" (by decide) (by decide) (.list ["zero=0"])
    (by rw [zero]; rfl)
  refine ⟨text, ?_, congrArg Prod.snd loaded, ?_⟩
  · exact (stated (by decide +kernel)).2 (by decide) (.text "-0.1") (.head _)
  · rw [loaded', ← dropped]
    exact found

end Session

end Reckon
