import Reckon.Proofs.Span.Nested
import Reckon.Proofs.Tree.Following

/-!
The spans that building comes to. Building that notes them has the outcome of building that does
not. In a text whose brackets nest, the brackets of each of these spans nest, so the search for the
weakest operation never meets a bracket that nothing opens. Only a call can: when the bracket behind
the name closes in front of the last one of the span, the last one is taken for its end.
-/

namespace Reckon.Tree

abbrev Noting :=
  ExceptT ReadFault (StateM (List (List Token)))

def note (span : List Token) : Noting Unit :=
  modify (span :: ·)

/-- Building that notes each span at the beginning: those that are built a level deeper, and those
that are left over on the left of an operation. -/
def buildNoting (maxDepth level : Nat) (span : List Token) : Noting Node := do
  note span
  if maxDepth ≤ level then throw (.nestingTooDeep maxDepth)
  else
    match _whole : part span with
    | .fault fault => throw fault
    | .leaf token => return Node.leaf token
    | .operation cut => do
      let right ← sideIn cut.after (buildNoting maxDepth (level + 1) cut.after)
      let left ← sideIn cut.before (buildNoting maxDepth level cut.before)
      return ⟨cut.operation, left, right⟩
    | .call name arguments => do
      let right ← arguments.spans.attach.mapM fun argument =>
        argumentIn name.text argument.1 (buildNoting maxDepth (level + 1) argument.1)
      if arguments.stray then throw (.brackets .mismatch)
      else return ⟨name, [], right⟩
termination_by span.length
decreasing_by
  all_goals refine length_lt_of_mem_children ?_
  all_goals rw [_whole]
  · simp [Part.children]
  · simp [Part.children]
  · exact argument.2

structure Sound (span : List Token) : Prop where
  nested : Span.WellNested span
  balanced : Span.Balanced span
  formed : ∀ token ∈ span, token.WellFormed

/-- A name with brackets behind it, the first of which is closed in front of the last one, and no
operation outside the brackets. -/
def ClosesEarly (span : List Token) : Prop :=
  (∃ name bracket front close back last,
    span = name :: bracket :: (front ++ close :: (back ++ [last])) ∧
      name.kind = .identifier ∧ bracket.kind = .opening ∧ Span.Balanced front ∧
      close.kind = .closing ∧ last.kind = .closing) ∧
  ∀ token ∈ Span.outside 0 span, token.kind.isOperation = false

variable {maxDepth level : Nat} {span child : List Token} {name : Token}
variable {arguments : Span.Arguments} {fault : ReadFault}

theorem weakest_of_part_call (call : part span = .call name arguments) :
    Span.weakest (Span.strip span) = .ok none := by
  unfold part at call
  split at call
  · contradiction
  · contradiction
  · split at call
    · contradiction
    · contradiction
    · next unsplit => exact unsplit

theorem Sound.of_infix (sound : Sound span) (part : child <:+: span)
    (balanced : Span.Balanced child) : Sound child :=
  ⟨sound.nested.of_infix sound.formed sound.balanced part balanced, balanced,
    fun token mem => sound.formed token (part.subset mem)⟩

theorem exists_inside_of_part_call (balanced : Span.Balanced span)
    (call : part span = .call name arguments) : ∃ bracket inside last,
      Span.strip span = name :: bracket :: (inside ++ [last]) ∧ name.kind = .identifier ∧
        bracket.kind = .opening ∧ last.kind = .closing ∧
        arguments = Span.arguments 0 [] inside ∧
        ∀ final, Span.depthAfter 0 inside = some final → final = 0 := by
  obtain ⟨inside, called, rfl⟩ := call_of_part_call call
  obtain ⟨bracket, last, shape, named, opens, closes⟩ := Span.call?_eq_some.mp called
  refine ⟨bracket, inside, last, shape, named, opens, closes, rfl, fun final reached => ?_⟩
  have plain : name.Plain := by simp [Token.Plain, named]
  have whole := balanced.strip
  rw [shape, Span.balanced_cons_plain plain] at whole
  have inner := Span.Balanced.of_enclosed opens closes whole (by rw [reached]; rfl)
  exact Option.some.inj (reached.symm.trans inner)

theorem Sound.of_mem_children (sound : Sound span) (mem : child ∈ (part span).children) :
    Sound child := by
  have stripped := sound.of_infix (Span.strip_infix span) sound.balanced.strip
  cases whole : part span with
  | fault fault => rw [whole] at mem; contradiction
  | leaf token => rw [whole] at mem; contradiction
  | operation cut =>
    rw [whole, Part.children, List.mem_cons, List.mem_singleton] at mem
    obtain ⟨same, rank, weakest⟩ :=
      Span.isWeakest_of_weakest stripped.balanced (weakest_of_part_operation whole)
    rw [← same, Span.Cut.span] at stripped
    rcases mem with rfl | rfl
    · exact stripped.of_infix (List.prefix_append _ _).isInfix weakest.balanced
    · refine stripped.of_infix ?_ (weakest.balanced_after stripped.balanced)
      exact ((List.suffix_cons _ _).trans (List.suffix_append _ _)).isInfix
  | call name arguments =>
    obtain ⟨bracket, inside, last, shape, -, -, -, rfl, closed⟩ :=
      exists_inside_of_part_call sound.balanced whole
    rw [whole] at mem
    obtain ⟨balanced, inner⟩ := Span.balanced_of_mem_arguments Span.balanced_nil closed mem
    rw [shape] at stripped
    refine stripped.of_infix (inner.trans ?_) balanced
    exact ⟨[name, bracket], [last], by simp⟩

theorem closesEarly_of_stray (balanced : Span.Balanced span)
    (call : part span = .call name arguments) (stray : arguments.stray = true) :
    ClosesEarly (Span.strip span) := by
  obtain ⟨bracket, inside, last, shape, named, opens, closes, rfl, -⟩ :=
    exists_inside_of_part_call balanced call
  obtain ⟨front, close, back, rfl, closes', inner⟩ := Span.exists_closing_of_stray stray
  refine ⟨⟨name, bracket, front, close, back, last, ?_, named, opens, inner, closes', closes⟩, ?_⟩
  · rw [shape, List.append_assoc, List.cons_append]
  · rcases Span.weakest_of_balanced balanced.strip with ⟨-, unranked⟩ | ⟨cut, rank, found, -⟩
    · intro token mem
      have none := unranked token mem
      unfold Span.rank? at none
      cases kind : token.kind <;> simp_all [TokenKind.isOperation]
    · rw [weakest_of_part_call call] at found
      exact absurd (Except.ok.inj found) (by simp)

theorem exists_weakest (balanced : Span.Balanced span) :
    ∃ found, Span.weakest (Span.strip span) = .ok found := by
  rcases Span.weakest_of_balanced balanced.strip with ⟨found, -⟩ | ⟨cut, -, found, -⟩
  · exact ⟨none, found⟩
  · exact ⟨some cut, found⟩

theorem fault_of_part (balanced : Span.Balanced span) (whole : part span = .fault fault) :
    fault ≠ .brackets .mismatch := by
  obtain ⟨found, searched⟩ := exists_weakest balanced
  unfold part at whole
  split at whole
  · exact Part.fault.inj whole ▸ ReadFault.noConfusion
  · contradiction
  · split at whole
    · next failed => rw [failed] at searched; contradiction
    · contradiction
    · split at whole
      · exact Part.fault.inj whole ▸ ReadFault.noConfusion
      · contradiction
      · contradiction

/-- The outcome is the plain one, the spans noted are sound, and one of them closes early if the
outcome is a mismatch, unless the span whose parts are built does. -/
def Notes {α : Type} (early : Prop) (noting : Noting α) (outcome : Except ReadFault α) : Prop :=
  ∀ seen, ∃ noted, noting.run.run seen = (outcome, noted ++ seen) ∧ (∀ span ∈ noted, Sound span) ∧
    (outcome = .error (.brackets .mismatch) →
      early ∨ ∃ span ∈ noted, ClosesEarly (Span.strip span))

section Notes

variable {α β : Type} {early : Prop} {noting : Noting α} {outcome : Except ReadFault α}

theorem Notes.ok (a : α) : Notes early (pure a) (.ok a) :=
  fun _ => ⟨[], rfl, by simp, by simp⟩

theorem Notes.thrown (explained : fault = .brackets .mismatch → early) :
    Notes early (throw fault : Noting α) (.error fault) :=
  fun _ => ⟨[], rfl, by simp, fun failed => .inl (explained (Except.error.inj failed))⟩

theorem Notes.weaken (notes : Notes False noting outcome) : Notes early noting outcome := by
  intro seen
  obtain ⟨noted, ran, sound, explained⟩ := notes seen
  exact ⟨noted, ran, sound, fun failed => .inr ((explained failed).resolve_left id)⟩

theorem Notes.bind {next : α → Noting β} {next' : α → Except ReadFault β}
    (first : Notes early noting outcome) (later : ∀ a, Notes early (next a) (next' a)) :
    Notes early (noting >>= next) (outcome >>= next') := by
  intro seen
  obtain ⟨noted, ran, sound, explained⟩ := first seen
  rw [ExceptT.run_bind, StateT.run_bind, ran]
  cases outcome with
  | error fault =>
    refine ⟨noted, rfl, sound, fun failed => explained ?_⟩
    exact congrArg Except.error (Except.error.inj failed)
  | ok a =>
    obtain ⟨further, ran', sound', explained'⟩ := later a (noted ++ seen)
    refine ⟨further ++ noted, ?_, List.forall_mem_append.mpr ⟨sound', sound⟩, fun failed => ?_⟩
    · rw [List.append_assoc]
      exact ran'
    · refine (explained' failed).imp_right fun ⟨span, mem, closes⟩ => ?_
      exact ⟨span, List.mem_append_left noted mem, closes⟩

theorem Notes.noted (sound : Sound span)
    (notes : Notes (ClosesEarly (Span.strip span)) noting outcome) :
    Notes False (do note span; noting) outcome := by
  intro seen
  obtain ⟨noted, ran, sounds, explained⟩ := notes (span :: seen)
  refine ⟨noted ++ [span], ?_, List.forall_mem_append.mpr ⟨sounds, by simpa using sound⟩,
    fun failed => ?_⟩
  · rw [List.append_assoc]
    exact ran
  · rcases explained failed with here | ⟨other, mem, closes⟩
    · exact .inr ⟨span, by simp, here⟩
    · exact .inr ⟨other, List.mem_append_left [span] mem, closes⟩

def notes (early : Prop) : Following Noting where
  Rel := Notes early
  ok := .ok
  empty _ := .thrown fun same => ReadFault.noConfusion same
  bind := .bind

end Notes

theorem notes_build (maxDepth level : Nat) (sound : Sound span) :
    Notes False (buildNoting maxDepth level span) (build maxDepth level span) := by
  induction span using part_induction generalizing level with
  | step span ih =>
    have each : ∀ child ∈ (part span).children, ∀ level, Notes (ClosesEarly (Span.strip span))
        (buildNoting maxDepth level child) (build maxDepth level child) := fun child mem level =>
      (ih child mem level (sound.of_mem_children mem)).weaken
    rw [buildNoting, build_eq]
    refine .noted sound ?_
    by_cases full : maxDepth ≤ level
    · rw [if_pos full, if_pos full]
      exact .thrown fun same => ReadFault.noConfusion same
    · rw [if_neg full, if_neg full]
      split
      · next fault whole =>
        rw [whole]
        exact .thrown fun same => absurd same (fault_of_part sound.balanced whole)
      · next token whole => rw [whole]; exact .ok _
      · next cut whole =>
        rw [whole] at each ⊢
        have after := each cut.after (by simp [Part.children]) (level + 1)
        have before := each cut.before (by simp [Part.children]) level
        exact ((notes _).side after).bind fun _ => ((notes _).side before).bind fun _ => .ok _
      · next name arguments whole =>
        -- the arguments in front of a stray bracket are built before it is told
        have early := closesEarly_of_stray sound.balanced whole
        rw [whole] at each ⊢
        refine .bind ?_ fun right => ?_
        · rw [List.mapM_subtype (g := fun span =>
            argumentIn name.text span (buildNoting maxDepth (level + 1) span)) fun _ _ => rfl,
            List.unattach_attach]
          exact (notes _).arguments fun span mem => each span mem (level + 1)
        · split
          · next stray => exact .thrown fun _ => early stray
          · exact .ok _

theorem sound_of_text {text : String} {tokens : List Token} (valid : Scanner.validate text = .ok ())
    (scanned : Scanner.tokens text = .ok tokens) : Sound tokens := by
  have nested := validate_eq_ok.mp valid
  have written := Scanner.tokens_eq_ok_iff.mp scanned
  refine ⟨Span.wellNested_iff.mpr ?_, depthAfter_of_nested written nested,
    fun token mem => written.wellFormed mem⟩
  rwa [← Span.check_of_written written]

/-- In a text whose brackets nest, the brackets of all spans that building comes to nest, under
every limit and from every level, and the search for the weakest operation does not fail. When the
outcome is a mismatch, one of the spans is a call without its enclosing brackets, the first bracket
of which is closed in front of the last one. -/
theorem visited_nested {text : String} {tokens : List Token}
    (valid : Scanner.validate text = .ok ()) (scanned : Scanner.tokens text = .ok tokens)
    (maxDepth level : Nat) :
    ∃ noted, (buildNoting maxDepth level tokens).run.run [] =
        (build maxDepth level tokens, noted) ∧
      (∀ span ∈ noted, Span.WellNested span ∧
        ∃ found, Span.weakest (Span.strip span) = .ok found) ∧
      (read maxDepth level text = .error ⟨.brackets .mismatch, text⟩ →
        ∃ span ∈ noted, ClosesEarly (Span.strip span)) := by
  obtain ⟨noted, ran, sound, explained⟩ :=
    notes_build maxDepth level (sound_of_text valid scanned) []
  rw [List.append_nil] at ran
  refine ⟨noted, ran, fun span mem => ?_, fun failed => ?_⟩
  · exact ⟨(sound span mem).nested, exists_weakest (sound span mem).balanced⟩
  · refine (explained ?_).resolve_left id
    unfold read at failed
    rw [valid, scanned] at failed
    cases built : build maxDepth level tokens with
    | ok tree => simp [bind, Except.bind, built] at failed
    | error fault => simpa [bind, Except.bind, built] using failed

theorem visited_nested_of_two_pairs :
    Scanner.validate "f(1)(2)" = .ok () ∧ ∃ tokens, Scanner.tokens "f(1)(2)" = .ok tokens ∧
      ∃ noted, (buildNoting defaultMaxDepth 0 tokens).run.run [] =
          (build defaultMaxDepth 0 tokens, noted) ∧
        (∀ span ∈ noted, Span.WellNested span) ∧
        read defaultMaxDepth 0 "f(1)(2)" = .error ⟨.brackets .mismatch, "f(1)(2)"⟩ ∧
        ∃ span ∈ noted, ClosesEarly (Span.strip span) := by
  have valid : Scanner.validate "f(1)(2)" = .ok () := by decide +kernel
  have scanned : Scanner.tokens "f(1)(2)" = .ok [⟨.identifier, "f"⟩, ⟨.opening, "("⟩,
    ⟨.number, "1"⟩, ⟨.closing, ")"⟩, ⟨.opening, "("⟩, ⟨.number, "2"⟩, ⟨.closing, ")"⟩] := by
    decide +kernel
  have failed : read defaultMaxDepth 0 "f(1)(2)" = .error ⟨.brackets .mismatch, "f(1)(2)"⟩ := by
    have outcome : (read defaultMaxDepth 0 "f(1)(2)").map (fun _ => ()) =
        .error ⟨.brackets .mismatch, "f(1)(2)"⟩ := by decide +kernel
    cases found : read defaultMaxDepth 0 "f(1)(2)" with
    | ok tree => simp [found, Except.map] at outcome
    | error error => simpa [found, Except.map] using outcome
  obtain ⟨noted, ran, nested, early⟩ := visited_nested valid scanned defaultMaxDepth 0
  exact ⟨valid, _, scanned, noted, ran, fun span mem => (nested span mem).1, failed, early failed⟩

end Reckon.Tree
