import Reckon.Proofs.Span.Balance

/-!
Stripping one pair at a time. `peel` matches the brackets of a span from scratch, takes off the pair
that encloses it, and starts again with what is left. `strip` matches once and comes to the same, for
balanced spans and for all others. With every read, write and subtraction of positions checked, the
one scan still comes to that: a position outside of the span is never looked at.
-/

namespace Reckon.Span

variable {token : Token} {span rest : List Token} {position start : Nat} {stack : List Nat}

/-- The positions of matching brackets, each closing bracket with the nearest open one. A closing
bracket that nothing opens is passed over. -/
def matching (position : Nat) (stack : List Nat) : List Token → List (Nat × Nat)
  | [] => []
  | token :: rest =>
    match token.kind, stack with
    | .opening, _ => matching (position + 1) (position :: stack) rest
    | .closing, start :: below => (start, position) :: matching (position + 1) below rest
    | _, _ => matching (position + 1) stack rest

/-- The bracket that a span begins with is closed where the span ends. -/
def Enclosed (span : List Token) : Prop :=
  2 ≤ span.length ∧ (matching 0 [] span).lookup 0 = some (span.length - 1)

instance (span : List Token) : Decidable (Enclosed span) :=
  inferInstanceAs (Decidable (2 ≤ span.length ∧ (matching 0 [] span).lookup 0 = _))

def peel (span : List Token) : List Token :=
  if Enclosed span then peel span.tail.dropLast else span
termination_by span.length
decreasing_by
  next enclosed =>
    rw [List.length_dropLast, List.length_tail]
    have := enclosed.1
    omega

@[simp] theorem matching_opening (opens : token.kind = .opening) :
    matching position stack (token :: rest) = matching (position + 1) (position :: stack) rest := by
  simp only [matching, opens]

@[simp] theorem matching_closing (closes : token.kind = .closing) :
    matching position (start :: stack) (token :: rest) =
      (start, position) :: matching (position + 1) stack rest := by
  simp only [matching, closes]

@[simp] theorem matching_closing_nil (closes : token.kind = .closing) :
    matching position [] (token :: rest) = matching (position + 1) [] rest := by
  simp only [matching, closes]

@[simp] theorem matching_plain (plain : token.Plain) :
    matching position stack (token :: rest) = matching (position + 1) stack rest := by
  obtain ⟨opens, closes⟩ := plain
  cases kind : token.kind <;> simp_all [matching]

theorem lookup_matching (fresh : start ∉ stack) (earlier : start < position) :
    (matching position (stack ++ [start]) span).lookup start =
      (pairs position (stack ++ [start]) span).lookup start := by
  induction span generalizing position stack with
  | nil => rfl
  | cons token rest ih =>
    cases token.bracketing with
    | opens opens =>
      have fresh' : start ∉ position :: stack := by
        simp only [List.mem_cons, not_or]
        exact ⟨by omega, fresh⟩
      rw [matching_opening opens, pairs_opening opens, ← List.cons_append]
      exact ih fresh' (by omega)
    | closes closes =>
      cases stack with
      | nil =>
        rw [List.nil_append, matching_closing closes, pairs_closing closes, List.lookup_cons_self,
          List.lookup_cons_self]
      | cons top stack =>
        rw [List.mem_cons, not_or] at fresh
        rw [List.cons_append, matching_closing closes, pairs_closing closes, List.lookup_cons,
          List.lookup_cons, beq_false_of_ne fresh.1]
        exact ih fresh.2 (by omega)
    | plain plain =>
      rw [matching_plain plain, pairs_plain plain]
      exact ih fresh (by omega)

theorem lookup_matching_fresh (fresh : start ∉ stack) (earlier : start < position) :
    (matching position stack span).lookup start = none := by
  induction span generalizing position stack with
  | nil => rfl
  | cons token rest ih =>
    cases token.bracketing with
    | opens opens =>
      have fresh' : start ∉ position :: stack := by
        simp only [List.mem_cons, not_or]
        exact ⟨by omega, fresh⟩
      rw [matching_opening opens]
      exact ih fresh' (by omega)
    | closes closes =>
      cases stack with
      | nil =>
        rw [matching_closing_nil closes]
        exact ih fresh (by omega)
      | cons top stack =>
        rw [List.mem_cons, not_or] at fresh
        rw [matching_closing closes, List.lookup_cons, beq_false_of_ne fresh.1]
        exact ih fresh.2 (by omega)
    | plain plain =>
      rw [matching_plain plain]
      exact ih fresh (by omega)

theorem lookup_matching_zero (other : token.kind ≠ .opening) :
    (matching 0 [] (token :: rest)).lookup 0 = none := by
  cases token.bracketing with
  | opens opens => exact absurd opens other
  | closes closes =>
    rw [matching_closing_nil closes]
    exact lookup_matching_fresh List.not_mem_nil (by omega)
  | plain plain =>
    rw [matching_plain plain]
    exact lookup_matching_fresh List.not_mem_nil (by omega)

theorem enclosed_iff : Enclosed span ↔ ∃ bracket inside last, Encloses bracket inside last span := by
  constructor
  · rintro ⟨long, found⟩
    have nonempty : span ≠ [] := by
      rintro rfl
      exact absurd long (by decide)
    obtain ⟨token, rest, rfl⟩ := List.exists_cons_of_ne_nil nonempty
    by_cases opens : token.kind = .opening
    · refine encloses_of_lookup nonempty ?_
      rw [matching_opening opens] at found
      rw [pairs_opening opens, ← found]
      exact (lookup_matching List.not_mem_nil (by omega)).symm
    · rw [lookup_matching_zero opens] at found
      contradiction
  · rintro ⟨bracket, inside, last, rfl, opens, closes, balanced⟩
    have same : (matching 1 ([] ++ [0]) (inside ++ [last])).lookup 0 =
        (pairs 1 ([] ++ [0]) (inside ++ [last])).lookup 0 :=
      lookup_matching List.not_mem_nil (by omega)
    have matched := pairs_enclosed opens closes balanced
    rw [pairs_opening opens] at matched
    refine ⟨by simp, ?_⟩
    rw [matching_opening opens]
    refine same.trans ?_
    rw [List.nil_append, matched, lookup_shifted_zero]
    simp

theorem peel_enclosed {bracket last : Token} {inside : List Token}
    (encloses : Encloses bracket inside last span) : peel span = peel inside := by
  have enclosed : Enclosed span := enclosed_iff.mpr ⟨bracket, inside, last, encloses⟩
  obtain ⟨rfl, -⟩ := encloses
  rw [peel, if_pos enclosed, List.tail_cons, List.dropLast_concat]

theorem not_enclosed_of_kept (kept : strip span = span) : ¬ Enclosed span := by
  intro enclosed
  obtain ⟨bracket, inside, last, encloses⟩ := enclosed_iff.mp enclosed
  have shorter := length_strip inside
  rw [← strip_enclosed encloses, kept, encloses.1] at shorter
  simp only [List.length_cons, List.length_append] at shorter
  omega

theorem strip_eq_peel (span : List Token) : strip span = peel span := by
  induction span using strip_induction with
  | kept span same => rw [same, peel, if_neg (not_enclosed_of_kept same)]
  | enclosed bracket inside last span encloses strips ih => rw [strips, ih, peel_enclosed encloses]

theorem two_layers_le (span : List Token) : 2 * layers span ≤ span.length := by
  rcases layers_or_encloses span with none | ⟨bracket, inside, last, encloses⟩
  · omega
  · have length : span.length = inside.length + 2 := by
      rw [encloses.1]
      simp
    have fits := two_layers_le inside
    rw [layers_enclosed encloses]
    omega
termination_by span.length
decreasing_by omega

theorem exists_around_strip (span : List Token) : ∃ front back,
    span = front ++ (strip span ++ back) ∧
      front.length = layers span ∧ back.length = layers span := by
  have fits := two_layers_le span
  refine ⟨span.take (layers span), span.drop (span.length - layers span), ?_, ?_, ?_⟩
  · have ends : span.length - layers span = layers span + (span.length - 2 * layers span) := by omega
    rw [ends, ← List.drop_drop, strip, List.take_append_drop, List.take_append_drop]
  · rw [List.length_take]
    omega
  · rw [List.length_drop]
    omega

def minus? (position other : Nat) : Option Nat :=
  if other ≤ position then some (position - other) else none

def slice? (span : List Token) (first behind : Nat) : Option (List Token) :=
  if first ≤ behind ∧ behind ≤ span.length then some ((span.drop first).take (behind - first))
  else none

def closers? (position : Nat) (stack : List Nat) (closes : List (Option Nat)) :
    List Token → Option (List (Option Nat))
  | [] => some closes
  | token :: rest =>
    match token.kind, stack with
    | .opening, _ => closers? (position + 1) (position :: stack) closes rest
    | .closing, start :: below =>
      if start < closes.length then
        closers? (position + 1) below (closes.set start (some position)) rest
      else none
    | .closing, [] => some closes
    | _, _ => closers? (position + 1) stack closes rest

def layersIn? (closes : List (Option Nat)) (length layer : Nat) : Option Nat :=
  if 2 * layer < length then do
    let close ← closes[layer]?
    let last ← minus? length 1
    let partner ← minus? last layer
    if close = some partner then layersIn? closes length (layer + 1) else return layer
  else return layer
termination_by length - 2 * layer

/-- The one scan of `strip` over an array of positions, in which nothing out of range has a value. -/
def stripChecked? (span : List Token) : Option (List Token) :=
  if 2 ≤ span.length ∧ (span.head?.map (·.kind)) = some .opening ∧
      (span.getLast?.map (·.kind)) = some .closing then do
    let closes ← closers? 0 [] (List.replicate span.length none) span
    let layer ← layersIn? closes span.length 0
    slice? span layer (← minus? span.length layer)
  else return span

theorem minus?_of_le {other : Nat} (le : other ≤ position) :
    minus? position other = some (position - other) :=
  if_pos le

theorem closers?_eq (closes : List (Option Nat)) (ends : position + span.length = closes.length)
    (distinct : stack.Nodup) (earlier : ∀ start ∈ stack, start < position) :
    ∃ final, closers? position stack closes span = some final ∧ final.length = closes.length ∧
      ∀ place, final[place]? =
        match (pairs position stack span).lookup place with
        | some close => some (some close)
        | none => closes[place]? := by
  induction span generalizing position stack closes with
  | nil => exact ⟨closes, rfl, rfl, fun place => rfl⟩
  | cons token rest ih =>
    rw [List.length_cons] at ends
    have ends' : position + 1 + rest.length = closes.length := by omega
    cases token.bracketing with
    | opens opens =>
      have fresh : (position :: stack).Nodup :=
        List.nodup_cons.mpr ⟨fun mem => absurd (earlier position mem) (by omega), distinct⟩
      have before : ∀ start ∈ position :: stack, start < position + 1 := by
        rw [List.forall_mem_cons]
        exact ⟨by omega, fun start mem => Nat.lt_succ_of_lt (earlier start mem)⟩
      obtain ⟨final, scanned, size, places⟩ := ih closes ends' fresh before
      refine ⟨final, ?_, size, ?_⟩
      · simpa only [closers?, opens] using scanned
      · rwa [pairs_opening opens]
    | closes closed =>
      cases stack with
      | nil =>
        refine ⟨closes, by simp only [closers?, closed], rfl, fun place => ?_⟩
        rw [pairs_closing_nil closed]
        rfl
      | cons start stack =>
        rw [List.nodup_cons] at distinct
        rw [List.forall_mem_cons] at earlier
        have inside : start < closes.length := by omega
        obtain ⟨final, scanned, size, places⟩ := ih (closes.set start (some position))
          (by rwa [List.length_set]) distinct.2
          (fun other mem => Nat.lt_succ_of_lt (earlier.2 other mem))
        rw [List.length_set] at size
        refine ⟨final, ?_, size, fun place => ?_⟩
        · simpa only [closers?, closed, if_pos inside] using scanned
        · rw [places, pairs_closing closed, List.lookup_cons]
          -- The bracket at `start` is closed here, and no later pair begins with it.
          by_cases here : place = start
          · subst here
            have once : (pairs (position + 1) stack rest).lookup place = none := by
              rw [List.lookup_eq_none_iff]
              intro pair mem
              rw [bne_iff_ne]
              rintro rfl
              rcases start_mem_of_mem_pairs mem with old | new
              · exact distinct.1 old
              · omega
            rw [once, beq_self_eq_true]
            simp [inside]
          · rw [beq_false_of_ne here, List.getElem?_set_ne (Ne.symm here)]
    | plain plain =>
      obtain ⟨final, scanned, size, places⟩ := ih closes ends' distinct
        (fun start mem => Nat.lt_succ_of_lt (earlier start mem))
      refine ⟨final, ?_, size, ?_⟩
      · obtain ⟨opens, closed⟩ := plain
        cases kind : token.kind <;> simp_all [closers?]
      · rwa [pairs_plain plain]

theorem layersIn?_eq {closes : List (Option Nat)} {matched : List (Nat × Nat)} {length : Nat}
    (places : ∀ place < length, closes[place]? = some (matched.lookup place)) (layer : Nat) :
    layersIn? closes length layer = some (layersFrom matched length layer) := by
  fun_induction layersFrom matched length layer with
  | case1 layer encloses ih =>
    obtain ⟨room, found⟩ := encloses
    rw [layersIn?, if_pos room, places layer (by omega), minus?_of_le (by omega)]
    simp [minus?_of_le (show layer ≤ length - 1 by omega), found, ih]
  | case2 layer stops =>
    rw [layersIn?]
    by_cases room : 2 * layer < length
    · have other : matched.lookup layer ≠ some (length - 1 - layer) := fun found =>
        stops ⟨room, found⟩
      rw [if_pos room, places layer (by omega), minus?_of_le (by omega)]
      simp [minus?_of_le (show layer ≤ length - 1 by omega), other]
    · rw [if_neg room]
      rfl

theorem stripChecked?_eq (span : List Token) : stripChecked? span = some (strip span) := by
  unfold stripChecked?
  split
  · have ends : 0 + span.length = (List.replicate span.length (none : Option Nat)).length := by simp
    obtain ⟨closes, scanned, -, places⟩ := closers?_eq _ ends List.nodup_nil (by simp)
    have counted : layersIn? closes span.length 0 = some (layers span) := by
      refine layersIn?_eq (fun place inside => ?_) 0
      rw [places]
      cases (pairs 0 [] span).lookup place with
      | some close => rfl
      | none => simp [inside]
    have fits := two_layers_le span
    have size : span.length - layers span - layers span = span.length - 2 * layers span := by omega
    simp only [scanned, counted, minus?_of_le (show layers span ≤ span.length by omega),
      Option.bind_eq_bind, Option.bind_some]
    rw [slice?, if_pos ⟨by omega, by omega⟩, size, strip]
  · next other =>
    rcases strip_or_encloses span with same | ⟨bracket, inside, last, rfl, opens, closed, -⟩
    · rw [same]
      rfl
    · refine absurd ⟨by simp, by simp [opens], ?_⟩ other
      rw [← List.cons_append, List.getLast?_concat, Option.map_some, closed]

/-- The one scan comes to what is left when enclosing pairs are taken off one at a time, the brackets
matched anew each time. Every position in it is in range, the tokens left stand together in the
middle of the span, no pair encloses them, and nothing more is stripped. -/
theorem strip_peels (span : List Token) :
    strip span = peel span ∧ stripChecked? span = some (strip span) ∧
    (∃ front back, span = front ++ (strip span ++ back) ∧ front.length = back.length) ∧
    ¬ Enclosed (strip span) ∧ strip (strip span) = strip span := by
  obtain ⟨front, back, whole, before, behind⟩ := exists_around_strip span
  exact ⟨strip_eq_peel span, stripChecked?_eq span, ⟨front, back, whole, before.trans behind.symm⟩,
    not_enclosed_of_kept (strip_strip span), strip_strip span⟩

/-- Two pairs of crossed styles around a token. -/
example : peel [⟨.opening, "("⟩, ⟨.opening, "["⟩, ⟨.number, "1"⟩, ⟨.closing, ")"⟩, ⟨.closing, "]"⟩] =
    [⟨.number, "1"⟩] := by
  simp [peel, Enclosed, matching, List.lookup]

end Reckon.Span
