import Reckon.Tree.Span

/-!
Bracket depth along a span. A span is balanced when no bracket closes that nothing opens and none
stays open; the styles of brackets play no part. `strip` takes the enclosing pairs off one at a
time: a span that a pair encloses strips to what its inside strips to, and every other span stays
as it is, balanced or not.
-/

namespace Reckon

def Token.Plain (token : Token) : Prop :=
  token.kind ≠ .opening ∧ token.kind ≠ .closing

instance (token : Token) : Decidable token.Plain :=
  inferInstanceAs (Decidable (token.kind ≠ .opening ∧ token.kind ≠ .closing))

inductive Token.Bracketing (token : Token) : Prop
  | opens (opens : token.kind = .opening)
  | closes (closes : token.kind = .closing)
  | plain (plain : token.Plain)

theorem Token.bracketing (token : Token) : token.Bracketing := by
  by_cases opens : token.kind = .opening
  · exact .opens opens
  · by_cases closes : token.kind = .closing
    · exact .closes closes
    · exact .plain ⟨opens, closes⟩

namespace Span

/-- How many brackets are open behind some tokens when `depth` are open before them; `none` when
a bracket closes that nothing opens. -/
def depthAfter (depth : Nat) : List Token → Option Nat
  | [] => some depth
  | token :: rest =>
    match token.kind, depth with
    | .opening, depth => depthAfter (depth + 1) rest
    | .closing, 0 => none
    | .closing, depth + 1 => depthAfter depth rest
    | _, depth => depthAfter depth rest

variable {token : Token} {rest left right span : List Token} {depth final : Nat}

@[simp] theorem depthAfter_opening (opens : token.kind = .opening) :
    depthAfter depth (token :: rest) = depthAfter (depth + 1) rest := by
  simp only [depthAfter, opens]

@[simp] theorem depthAfter_closing (closes : token.kind = .closing) :
    depthAfter (depth + 1) (token :: rest) = depthAfter depth rest := by
  simp only [depthAfter, closes]

@[simp] theorem depthAfter_closing_zero (closes : token.kind = .closing) :
    depthAfter 0 (token :: rest) = none := by
  simp only [depthAfter, closes]

@[simp] theorem depthAfter_plain (plain : token.Plain) :
    depthAfter depth (token :: rest) = depthAfter depth rest := by
  obtain ⟨opens, closes⟩ := plain
  cases kind : token.kind <;> simp_all [depthAfter]

theorem depthAfter_append (depth : Nat) (left right : List Token) :
    depthAfter depth (left ++ right) = (depthAfter depth left).bind (depthAfter · right) := by
  induction left generalizing depth with
  | nil => rfl
  | cons token rest ih =>
    rw [List.cons_append]
    cases token.bracketing with
    | opens opens =>
      rw [depthAfter_opening opens, depthAfter_opening opens, ih]
    | closes closes =>
      cases depth with
      | zero => rw [depthAfter_closing_zero closes, depthAfter_closing_zero closes]; rfl
      | succ depth => rw [depthAfter_closing closes, depthAfter_closing closes, ih]
    | plain plain =>
      rw [depthAfter_plain plain, depthAfter_plain plain, ih]

/-- How tokens lead from one depth to another without closing what is open further out. -/
inductive Leads (final : Nat) : Nat → List Token → Prop
  | nil : Leads final final []
  | opens {depth : Nat} {token : Token} {rest : List Token} (opens : token.kind = .opening)
    (leads : Leads final (depth + 1) rest) : Leads final depth (token :: rest)
  | closes {depth : Nat} {token : Token} {rest : List Token} (closes : token.kind = .closing)
    (leads : Leads final depth rest) : Leads final (depth + 1) (token :: rest)
  | plain {depth : Nat} {token : Token} {rest : List Token} (plain : token.Plain)
    (leads : Leads final depth rest) : Leads final depth (token :: rest)

theorem leads_of_depthAfter (h : depthAfter depth span = some final) : Leads final depth span := by
  induction span generalizing depth with
  | nil =>
    obtain rfl := Option.some.inj h
    exact .nil
  | cons token rest ih =>
    cases token.bracketing with
    | opens opens =>
      rw [depthAfter_opening opens] at h
      exact .opens opens (ih h)
    | closes closes =>
      cases depth with
      | zero => rw [depthAfter_closing_zero closes] at h; contradiction
      | succ depth =>
        rw [depthAfter_closing closes] at h
        exact .closes closes (ih h)
    | plain plain =>
      rw [depthAfter_plain plain] at h
      exact .plain plain (ih h)

theorem depthAfter_add (more : Nat) (h : depthAfter depth span = some final) :
    depthAfter (depth + more) span = some (final + more) := by
  replace h := leads_of_depthAfter h
  induction h with
  | nil => rfl
  | opens opens _ ih =>
    rw [Nat.add_right_comm] at ih
    rw [depthAfter_opening opens, ih]
  | closes closes _ ih => rw [Nat.add_right_comm, depthAfter_closing closes, ih]
  | plain plain _ ih => rw [depthAfter_plain plain, ih]

def Balanced (span : List Token) : Prop :=
  depthAfter 0 span = some 0

theorem Balanced.depthAfter_eq (balanced : Balanced span) (depth : Nat) :
    depthAfter depth span = some depth := by
  simpa only [Nat.zero_add] using depthAfter_add depth balanced

@[simp] theorem balanced_nil : Balanced [] :=
  rfl

theorem balanced_plain (plain : token.Plain) : Balanced [token] :=
  depthAfter_plain plain

theorem Balanced.append_iff (balanced : Balanced left) :
    Balanced (left ++ right) ↔ Balanced right := by
  rw [Balanced, depthAfter_append, balanced.depthAfter_eq]
  rfl

theorem Balanced.append (first : Balanced left) (second : Balanced right) :
    Balanced (left ++ right) :=
  first.append_iff.mpr second

theorem Balanced.plain (balanced : Balanced [token]) : token.Plain := by
  cases token.bracketing with
  | opens opens => rw [Balanced, depthAfter_opening opens] at balanced; contradiction
  | closes closes => rw [Balanced, depthAfter_closing_zero closes] at balanced; contradiction
  | plain plain => exact plain

theorem balanced_cons_plain (plain : token.Plain) :
    Balanced (token :: rest) ↔ Balanced rest :=
  (balanced_plain plain).append_iff

theorem Balanced.enclose {bracket last : Token} (opens : bracket.kind = .opening)
    (closes : last.kind = .closing) (balanced : Balanced span) :
    Balanced (bracket :: (span ++ [last])) := by
  rw [Balanced, depthAfter_opening opens, depthAfter_append, balanced.depthAfter_eq]
  exact depthAfter_closing closes

theorem Balanced.of_enclosed {bracket last : Token} (opens : bracket.kind = .opening)
    (closes : last.kind = .closing) (balanced : Balanced (bracket :: (span ++ [last])))
    (inside : (depthAfter 0 span).isSome) : Balanced span := by
  obtain ⟨final, reached⟩ := Option.isSome_iff_exists.mp inside
  have deeper := depthAfter_add 1 reached
  rw [Balanced, depthAfter_opening opens, depthAfter_append, deeper, Option.bind_some,
    depthAfter_closing closes] at balanced
  obtain rfl := Option.some.inj balanced
  exact reached

variable {position start close : Nat} {stack outer : List Nat}

@[simp] theorem pairs_opening (opens : token.kind = .opening) :
    pairs position stack (token :: rest) = pairs (position + 1) (position :: stack) rest := by
  simp only [pairs, opens]

@[simp] theorem pairs_closing (closes : token.kind = .closing) :
    pairs position (start :: stack) (token :: rest) =
      (start, position) :: pairs (position + 1) stack rest := by
  simp only [pairs, closes]

@[simp] theorem pairs_closing_nil (closes : token.kind = .closing) :
    pairs position [] (token :: rest) = [] := by
  simp only [pairs, closes]

@[simp] theorem pairs_plain (plain : token.Plain) :
    pairs position stack (token :: rest) = pairs (position + 1) stack rest := by
  obtain ⟨opens, closes⟩ := plain
  cases kind : token.kind <;> simp_all [pairs]

theorem pairs_append (h : depthAfter stack.length left = some 0) :
    pairs position (stack ++ outer) (left ++ right) =
      pairs position stack left ++ pairs (position + left.length) outer right := by
  induction left generalizing position stack with
  | nil =>
    obtain rfl := List.length_eq_zero_iff.mp (Option.some.inj h)
    rfl
  | cons token rest ih =>
    have ends : position + (token :: rest).length = position + 1 + rest.length := by
      simp only [List.length_cons]
      omega
    rw [List.cons_append, ends]
    cases token.bracketing with
    | opens opens =>
      rw [depthAfter_opening opens] at h
      rw [pairs_opening opens, pairs_opening opens, ← List.cons_append]
      exact ih h
    | closes closes =>
      cases stack with
      | nil => rw [List.length_nil, depthAfter_closing_zero closes] at h; contradiction
      | cons start stack =>
        rw [List.length_cons, depthAfter_closing closes] at h
        rw [List.cons_append, pairs_closing closes, pairs_closing closes, ih h, List.cons_append]
    | plain plain =>
      rw [depthAfter_plain plain] at h
      rw [pairs_plain plain, pairs_plain plain, ih h]

def shifted (pair : Nat × Nat) : Nat × Nat :=
  (pair.1 + 1, pair.2 + 1)

theorem pairs_shifted (position : Nat) (stack : List Nat) (span : List Token) :
    pairs (position + 1) (stack.map (· + 1)) span = (pairs position stack span).map shifted := by
  induction span generalizing position stack with
  | nil => rfl
  | cons token rest ih =>
    cases token.bracketing with
    | opens opens =>
      rw [pairs_opening opens, pairs_opening opens, ← ih, List.map_cons]
    | closes closes =>
      cases stack with
      | nil => rw [List.map_nil, pairs_closing_nil closes, pairs_closing_nil closes, List.map_nil]
      | cons start stack =>
        rw [List.map_cons, pairs_closing closes, pairs_closing closes, List.map_cons, ih]
        rfl
    | plain plain =>
      rw [pairs_plain plain, pairs_plain plain, ih]

theorem pairs_enclosed {bracket last : Token} (opens : bracket.kind = .opening)
    (closes : last.kind = .closing) (balanced : Balanced span) :
    pairs 0 [] (bracket :: (span ++ [last])) =
      (pairs 0 [] span).map shifted ++ [(0, span.length + 1)] := by
  have closed : depthAfter ([] : List Nat).length span = some 0 := balanced
  have inside : pairs 1 ([] ++ [0]) (span ++ [last]) =
      pairs 1 [] span ++ pairs (1 + span.length) [0] [last] := pairs_append closed
  rw [pairs_opening opens, ← pairs_shifted, Nat.zero_add]
  refine inside.trans ?_
  rw [pairs_closing closes, Nat.add_comm 1]
  rfl

theorem start_mem_of_mem_pairs {pair : Nat × Nat} (mem : pair ∈ pairs position stack span) :
    pair.1 ∈ stack ∨ position ≤ pair.1 := by
  induction span generalizing position stack with
  | nil => simp [pairs] at mem
  | cons token rest ih =>
    cases token.bracketing with
    | opens opens =>
      rw [pairs_opening opens] at mem
      rcases ih mem with old | new
      · rcases List.mem_cons.mp old with here | below
        · exact .inr (Nat.le_of_eq here.symm)
        · exact .inl below
      · exact .inr (by omega)
    | closes closes =>
      cases stack with
      | nil => simp [pairs_closing_nil closes] at mem
      | cons start stack =>
        rw [pairs_closing closes] at mem
        rcases List.mem_cons.mp mem with rfl | later
        · exact .inl List.mem_cons_self
        · rcases ih later with old | new
          · exact .inl (List.mem_cons_of_mem start old)
          · exact .inr (by omega)
    | plain plain =>
      rw [pairs_plain plain] at mem
      rcases ih mem with old | new
      · exact .inl old
      · exact .inr (by omega)

theorem closing_of_lookup (fresh : start ∉ stack) (earlier : start < position)
    (h : (pairs position (stack ++ [start]) span).lookup start = some close) :
    ∃ inside last after, span = inside ++ last :: after ∧ last.kind = .closing ∧
      depthAfter stack.length inside = some 0 ∧ close = position + inside.length := by
  induction span generalizing position stack with
  | nil => simp [pairs] at h
  | cons token rest ih =>
    cases token.bracketing with
    | opens opens =>
      rw [pairs_opening opens, ← List.cons_append] at h
      have fresh' : start ∉ position :: stack := by
        simp only [List.mem_cons, not_or]
        exact ⟨by omega, fresh⟩
      obtain ⟨inside, last, after, rfl, closes, reached, rfl⟩ := ih fresh' (by omega) h
      refine ⟨token :: inside, last, after, rfl, closes, ?_, by simp only [List.length_cons]; omega⟩
      rw [depthAfter_opening opens]
      exact reached
    | closes closes =>
      cases stack with
      | nil =>
        rw [List.nil_append, pairs_closing closes, List.lookup_cons_self] at h
        exact ⟨[], token, rest, rfl, closes, rfl, (Option.some.inj h).symm⟩
      | cons top stack =>
        rw [List.mem_cons, not_or] at fresh
        rw [List.cons_append, pairs_closing closes,
          List.lookup_cons, beq_false_of_ne fresh.1] at h
        obtain ⟨inside, last, after, rfl, closes', reached, rfl⟩ := ih fresh.2 (by omega) h
        refine ⟨token :: inside, last, after, rfl, closes', ?_,
          by simp only [List.length_cons]; omega⟩
        rw [List.length_cons, depthAfter_closing closes]
        exact reached
    | plain plain =>
      rw [pairs_plain plain] at h
      obtain ⟨inside, last, after, rfl, closes, reached, rfl⟩ := ih fresh (by omega) h
      refine ⟨token :: inside, last, after, rfl, closes, ?_, by simp only [List.length_cons]; omega⟩
      rw [depthAfter_plain plain]
      exact reached

def Encloses (bracket : Token) (inside : List Token) (last : Token) (span : List Token) : Prop :=
  span = bracket :: (inside ++ [last]) ∧ bracket.kind = .opening ∧ last.kind = .closing ∧
    Balanced inside

theorem encloses_of_lookup (nonempty : span ≠ [])
    (h : (pairs 0 [] span).lookup 0 = some (span.length - 1)) :
    ∃ bracket inside last, Encloses bracket inside last span := by
  obtain ⟨token, rest, rfl⟩ := List.exists_cons_of_ne_nil nonempty
  by_cases opens : token.kind = .opening
  · rw [pairs_opening opens] at h
    have fresh : 0 ∉ ([] : List Nat) := List.not_mem_nil
    obtain ⟨inside, last, after, rfl, closes, balanced, ends⟩ :=
      closing_of_lookup fresh (by omega) h
    have nothing : after = [] := by
      rw [← List.length_eq_zero_iff]
      simp only [List.length_cons, List.length_append] at ends
      omega
    subst nothing
    exact ⟨token, inside, last, rfl, opens, closes, balanced⟩
  · have later : ∀ pair ∈ pairs 0 [] (token :: rest), pair.1 ≠ 0 := by
      intro pair mem
      by_cases closes : token.kind = .closing
      · simp [pairs_closing_nil closes] at mem
      · rw [pairs_plain ⟨opens, closes⟩] at mem
        rcases start_mem_of_mem_pairs mem with old | new
        · simp at old
        · omega
    have absent : (pairs 0 [] (token :: rest)).lookup 0 = none := by
      rw [List.lookup_eq_none_iff]
      intro pair mem
      exact bne_iff_ne.mpr (later pair mem).symm
    rw [absent] at h
    contradiction

theorem layersFrom_le (matched : List (Nat × Nat)) (length layer : Nat)
    (h : 2 * layer ≤ length + 1) : 2 * layersFrom matched length layer ≤ length + 1 := by
  fun_induction layersFrom matched length layer with
  | case1 layer _ ih => exact ih (by omega)
  | case2 => exact h

theorem lookup_shifted (matched : List (Nat × Nat)) (length layer : Nat) :
    (matched.map shifted ++ [(0, length + 1)]).lookup (layer + 1) =
      (matched.lookup layer).map (· + 1) := by
  induction matched with
  | nil => simp
  | cons pair matched ih =>
    obtain ⟨start, close⟩ := pair
    simp only [List.map_cons, List.cons_append, List.lookup_cons, shifted]
    by_cases same : layer = start
    · simp [same]
    · have other : (layer + 1 == start + 1) = false := by simpa using same
      rw [other, beq_false_of_ne same]
      exact ih

theorem lookup_shifted_zero (matched : List (Nat × Nat)) (length : Nat) :
    (matched.map shifted ++ [(0, length + 1)]).lookup 0 = some (length + 1) := by
  induction matched with
  | nil => simp
  | cons pair matched ih =>
    simp only [List.map_cons, List.cons_append, List.lookup_cons, shifted]
    exact ih

theorem layersFrom_shifted (matched : List (Nat × Nat)) (length layer : Nat) :
    layersFrom (matched.map shifted ++ [(0, length + 1)]) (length + 2) (layer + 1) =
      layersFrom matched length layer + 1 := by
  fun_induction layersFrom matched length layer with
  | case1 layer encloses ih =>
    rw [layersFrom, if_pos, ih]
    refine ⟨by omega, ?_⟩
    rw [lookup_shifted, encloses.2, Option.map_some]
    congr 1
    omega
  | case2 layer stops =>
    rw [layersFrom, if_neg]
    rw [lookup_shifted]
    rintro ⟨room, found⟩
    obtain ⟨close, found, shift⟩ := Option.map_eq_some_iff.mp found
    exact stops ⟨by omega, by rw [found]; congr 1; omega⟩

theorem layers_enclosed {bracket last : Token} {inside : List Token}
    (encloses : Encloses bracket inside last span) : layers span = layers inside + 1 := by
  obtain ⟨rfl, opens, closes, balanced⟩ := encloses
  have length : (bracket :: (inside ++ [last])).length = inside.length + 2 := by simp
  rw [layers, pairs_enclosed opens closes balanced, length, layersFrom, if_pos,
    layersFrom_shifted, layers]
  refine ⟨by omega, ?_⟩
  rw [lookup_shifted_zero]
  congr 1

theorem strip_enclosed {bracket last : Token} {inside : List Token}
    (encloses : Encloses bracket inside last span) : strip span = strip inside := by
  have one := layers_enclosed encloses
  obtain ⟨rfl, -⟩ := encloses
  have few : 2 * layers inside ≤ inside.length + 1 := layersFrom_le _ _ _ (by omega)
  have inner : layers inside ≤ inside.length := by
    by_cases empty : inside.length = 0 <;> omega
  have length : (bracket :: (inside ++ [last])).length = inside.length + 2 := by simp
  have fits : inside.length - 2 * layers inside ≤ (inside.drop (layers inside)).length := by
    rw [List.length_drop]
    omega
  have size : inside.length + 2 - 2 * (layers inside + 1) = inside.length - 2 * layers inside := by
    omega
  rw [strip, strip, one, length, size, List.drop_succ_cons, List.drop_append_of_le_length inner,
    List.take_append_of_le_length fits]

theorem layers_or_encloses (span : List Token) :
    layers span = 0 ∨ ∃ bracket inside last, Encloses bracket inside last span := by
  by_cases first : 0 < span.length ∧ (pairs 0 [] span).lookup 0 = some (span.length - 1)
  · exact .inr (encloses_of_lookup (List.length_pos_iff.mp first.1) first.2)
  · left
    rw [layers, layersFrom, if_neg]
    rintro ⟨room, found⟩
    exact first ⟨by omega, found⟩

theorem strip_or_encloses (span : List Token) :
    strip span = span ∨ ∃ bracket inside last, Encloses bracket inside last span := by
  refine (layers_or_encloses span).imp_left fun none => ?_
  simp [strip, none]

theorem strip_of_unpaired (unpaired : pairs 0 [] span = []) : strip span = span := by
  have none : layers span = 0 := by
    rw [layers, unpaired, layersFrom]
    simp
  rw [strip, none]
  simp

/-- Induction along the enclosing pairs of a span, from the outermost to the stripped span. -/
theorem strip_induction {motive : List Token → Prop} (span : List Token)
    (kept : ∀ span, strip span = span → motive span)
    (enclosed : ∀ bracket inside last span, Encloses bracket inside last span →
      strip span = strip inside → motive inside → motive span) : motive span := by
  rcases strip_or_encloses span with same | ⟨bracket, inside, last, encloses⟩
  · exact kept span same
  · have shorter : inside.length < span.length := by
      rw [encloses.1]
      simp only [List.length_cons, List.length_append]
      omega
    exact enclosed bracket inside last span encloses (strip_enclosed encloses)
      (strip_induction inside kept enclosed)
termination_by span.length

theorem mem_of_mem_strip (mem : token ∈ strip span) : token ∈ span :=
  List.mem_of_mem_drop (List.mem_of_mem_take mem)

theorem mem_strip_of_plain (plain : token.Plain) (mem : token ∈ span) : token ∈ strip span := by
  induction span using strip_induction with
  | kept span same => exact same.symm ▸ mem
  | enclosed bracket inside last span encloses strips ih =>
    obtain ⟨rfl, opens, closes, -⟩ := encloses
    rw [List.mem_cons, List.mem_append, List.mem_singleton] at mem
    rw [strips]
    rcases mem with rfl | inside | rfl
    · exact absurd opens plain.1
    · exact ih inside
    · exact absurd closes plain.2

theorem Balanced.strip (balanced : Balanced span) : Balanced (strip span) := by
  induction span using strip_induction with
  | kept span same => rw [same]; exact balanced
  | enclosed bracket inside last span encloses strips ih =>
    rw [strips]
    exact ih encloses.2.2.2

theorem strip_strip (span : List Token) : Span.strip (Span.strip span) = Span.strip span := by
  induction span using strip_induction with
  | kept span same => rw [same, same]
  | enclosed bracket inside last span _ strips ih => rw [strips, ih]

end Span

end Reckon
