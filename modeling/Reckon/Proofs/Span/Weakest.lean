import Reckon.Proofs.Span.Balance

/-!
What the search for the weakest operation finds in a balanced span: the last one of those that no
operation outside the brackets is weaker than, and nothing only when no operation stands outside
the brackets. A span has at most one such place, so the description is complete.
-/

namespace Reckon.Span

variable {token : Token} {rest left right span : List Token} {depth final rank : Nat}

/-- The tokens of a span that stand in none of its brackets, when `depth` brackets are open. -/
def outside (depth : Nat) : List Token → List Token
  | [] => []
  | token :: rest =>
    match token.kind, depth with
    | .opening, depth => outside (depth + 1) rest
    | .closing, depth => outside (depth - 1) rest
    | _, 0 => token :: outside 0 rest
    | _, depth + 1 => outside (depth + 1) rest

@[simp] theorem outside_opening (opens : token.kind = .opening) :
    outside depth (token :: rest) = outside (depth + 1) rest := by
  simp only [outside, opens]

@[simp] theorem outside_closing (closes : token.kind = .closing) :
    outside (depth + 1) (token :: rest) = outside depth rest := by
  simp only [outside, closes, Nat.add_sub_cancel]

@[simp] theorem outside_plain (plain : token.Plain) :
    outside 0 (token :: rest) = token :: outside 0 rest := by
  obtain ⟨opens, closes⟩ := plain
  cases kind : token.kind <;> simp_all [outside]

@[simp] theorem outside_plain_deeper (plain : token.Plain) :
    outside (depth + 1) (token :: rest) = outside (depth + 1) rest := by
  obtain ⟨opens, closes⟩ := plain
  cases kind : token.kind <;> simp_all [outside]

theorem mem_of_mem_outside (mem : token ∈ outside depth span) : token ∈ span := by
  induction span generalizing depth with
  | nil => contradiction
  | cons first rest ih =>
    cases first.bracketing with
    | opens opens =>
      rw [outside_opening opens] at mem
      exact List.mem_cons_of_mem first (ih mem)
    | closes closes =>
      simp only [outside, closes] at mem
      exact List.mem_cons_of_mem first (ih mem)
    | plain plain =>
      cases depth with
      | zero =>
        rw [outside_plain plain] at mem
        cases List.mem_cons.mp mem with
        | inl here => exact here ▸ List.mem_cons_self
        | inr later => exact List.mem_cons_of_mem first (ih later)
      | succ depth =>
        rw [outside_plain_deeper plain] at mem
        exact List.mem_cons_of_mem first (ih mem)

theorem outside_append (h : depthAfter depth left = some final) :
    outside depth (left ++ right) = outside depth left ++ outside final right := by
  replace h := leads_of_depthAfter h
  induction h with
  | nil => rfl
  | opens opens _ ih =>
    rw [List.cons_append, outside_opening opens, outside_opening opens, ih]
  | closes closes _ ih =>
    rw [List.cons_append, outside_closing closes, outside_closing closes, ih]
  | @plain depth _ _ plain _ ih =>
    rw [List.cons_append]
    cases depth with
    | zero => rw [outside_plain plain, outside_plain plain, ih, List.cons_append]
    | succ depth => rw [outside_plain_deeper plain, outside_plain_deeper plain, ih]

theorem outside_deeper (h : (depthAfter depth span).isSome) : outside (depth + 1) span = [] := by
  replace h := Option.isSome_iff_exists.mp h
  obtain ⟨final, h⟩ := h
  replace h := leads_of_depthAfter h
  induction h with
  | nil => rfl
  | opens opens _ ih => rw [outside_opening opens, ih]
  | closes closes _ ih => rw [outside_closing closes, ih]
  | plain plain _ ih => rw [outside_plain_deeper plain, ih]

theorem outside_enclosed {bracket last : Token} {inside : List Token}
    (encloses : Encloses bracket inside last span) : outside 0 span = [] := by
  obtain ⟨rfl, opens, closes, balanced⟩ := encloses
  rw [outside_opening opens, outside_append (balanced.depthAfter_eq 1), outside_closing closes,
    outside_deeper (by rw [balanced]; rfl)]
  rfl

theorem strip_of_mem_outside (mem : token ∈ outside 0 span) : strip span = span := by
  rcases strip_or_encloses span with same | ⟨bracket, inside, last, encloses⟩
  · exact same
  · rw [outside_enclosed encloses] at mem
    contradiction

def NoneBelow (rank : Nat) (span : List Token) : Prop :=
  ∀ token ∈ outside 0 span, ∀ r, rank? token = some r → rank ≤ r

theorem NoneBelow.mono {lower : Nat} (le : lower ≤ rank) (none : NoneBelow rank span) :
    NoneBelow lower span :=
  fun token mem r found => Nat.le_trans le (none token mem r found)

theorem noneBelow_append (balanced : Balanced left) :
    NoneBelow rank (left ++ right) ↔ NoneBelow rank left ∧ NoneBelow rank right := by
  simp only [NoneBelow, outside_append balanced, List.mem_append, or_imp, forall_and]

/-- The place where a span is split: nothing outside brackets is weaker than the operation, and
nothing behind it is as weak. -/
structure Cut.IsWeakest (cut : Cut) (rank : Nat) : Prop where
  balanced : Balanced cut.before
  ranked : rank? cut.operation = some rank
  before : NoneBelow rank cut.before
  after : NoneBelow (rank + 1) cut.after

theorem plain_of_rank (ranked : rank? token = some rank) : token.Plain := by
  constructor <;> intro kind <;> simp [rank?, kind] at ranked

theorem Cut.IsWeakest.balanced_after {cut : Cut} (weakest : cut.IsWeakest rank)
    (balanced : Balanced cut.span) : Balanced cut.after := by
  rw [Cut.span, weakest.balanced.append_iff, balanced_cons_plain (plain_of_rank weakest.ranked)]
    at balanced
  exact balanced

theorem Cut.IsWeakest.mem_outside {cut : Cut} (weakest : cut.IsWeakest rank) :
    cut.operation ∈ outside 0 cut.span := by
  rw [Cut.span, outside_append weakest.balanced, outside_plain (plain_of_rank weakest.ranked)]
  simp

theorem Cut.IsWeakest.not_earlier {cut other : Cut} {rank' : Nat} {middle : List Token}
    (weakest : cut.IsWeakest rank) (weakest' : other.IsWeakest rank')
    (front : other.before = cut.before ++ cut.operation :: middle)
    (back : cut.after = middle ++ other.operation :: other.after) : False := by
  have plain := plain_of_rank weakest.ranked
  have below := weakest'.before
  rw [front, noneBelow_append weakest.balanced, NoneBelow, NoneBelow, outside_plain plain] at below
  have down : rank' ≤ rank := below.2 cut.operation List.mem_cons_self rank weakest.ranked
  have between : Balanced (cut.operation :: middle) :=
    weakest.balanced.append_iff.mp (front ▸ weakest'.balanced)
  rw [balanced_cons_plain plain] at between
  have above := weakest.after
  rw [back, noneBelow_append between, NoneBelow, NoneBelow,
    outside_plain (plain_of_rank weakest'.ranked)] at above
  have up : rank + 1 ≤ rank' := above.2 other.operation List.mem_cons_self rank' weakest'.ranked
  omega

theorem Cut.IsWeakest.eq_of_append {cut other : Cut} {rank' : Nat} {middle : List Token}
    (weakest : cut.IsWeakest rank) (weakest' : other.IsWeakest rank')
    (front : other.before = cut.before ++ middle)
    (back : cut.operation :: cut.after = middle ++ other.operation :: other.after) :
    cut = other := by
  cases middle with
  | nil =>
    obtain ⟨before, operation, after⟩ := cut
    obtain ⟨before', operation', after'⟩ := other
    have fields : operation = operation' ∧ after = after' := List.cons.inj back
    have begins : before' = before := front.trans (List.append_nil before)
    rw [fields.1, fields.2, begins]
  | cons token middle =>
    obtain ⟨rfl, tail⟩ := List.cons.inj back
    exact (weakest.not_earlier weakest' front tail).elim

theorem Cut.IsWeakest.unique {cut other : Cut} {rank' : Nat} (weakest : cut.IsWeakest rank)
    (weakest' : other.IsWeakest rank') (same : cut.span = other.span) : cut = other := by
  cases List.append_eq_append_iff.mp same with
  | inl longer =>
    obtain ⟨middle, front, back⟩ := longer
    exact weakest.eq_of_append weakest' front back
  | inr shorter =>
    obtain ⟨middle, front, back⟩ := shorter
    exact (weakest'.eq_of_append weakest front back).symm

theorem search_opening {seen : List Token} {held : Option Candidate}
    (opens : token.kind = .opening) :
    search depth seen held (token :: rest) = search (depth + 1) (token :: seen) held rest := by
  simp only [search, opens]

theorem search_closing {seen : List Token} {held : Option Candidate}
    (closes : token.kind = .closing) :
    search (depth + 1) seen held (token :: rest) = search depth (token :: seen) held rest := by
  simp only [search, closes]

theorem search_plain {seen : List Token} {held : Option Candidate} (plain : token.Plain) :
    search 0 seen held (token :: rest) =
      match rank? token with
      | some rank => search 0 (token :: seen) (Candidate.offer held ⟨rank, seen, token, rest⟩) rest
      | none => search 0 (token :: seen) held rest := by
  obtain ⟨opens, closes⟩ := plain
  cases ranked : rank? token <;> cases kind : token.kind <;> simp_all [search]

theorem search_plain_deeper {seen : List Token} {held : Option Candidate} (plain : token.Plain) :
    search (depth + 1) seen held (token :: rest) =
      search (depth + 1) (token :: seen) held rest := by
  obtain ⟨opens, closes⟩ := plain
  cases kind : token.kind <;> simp_all [search]

theorem isOperation_of_rank (ranked : rank? token = some rank) : token.kind.isOperation = true := by
  unfold rank? at ranked
  split at ranked <;> simp_all [TokenKind.isOperation]

theorem isOperation_of_search {seen tokens : List Token} {held : Option Candidate} {cut : Cut}
    (holds : ∀ candidate ∈ held, candidate.operation.kind.isOperation = true)
    (found : search depth seen held tokens = .ok (some cut)) :
    cut.operation.kind.isOperation = true := by
  induction tokens generalizing depth seen held with
  | nil =>
    simp only [search, Except.ok.injEq, Option.map_eq_some_iff] at found
    obtain ⟨candidate, mem, rfl⟩ := found
    exact holds candidate mem
  | cons token rest ih =>
    unfold search at found
    split at found
    · exact ih holds found
    · contradiction
    · exact ih holds found
    · split at found
      · next rank ranked =>
        refine ih (fun candidate mem => ?_) found
        have operation := isOperation_of_rank ranked
        unfold Candidate.offer at mem
        split at mem
        · next best =>
          split at mem
          · exact Option.mem_some.mp mem ▸ operation
          · exact holds candidate mem
        · exact Option.mem_some.mp mem ▸ operation
      · exact ih holds found
    · exact ih holds found

theorem isOperation_of_weakest {cut : Cut} (found : weakest span = .ok (some cut)) :
    cut.operation.kind.isOperation = true :=
  isOperation_of_search (fun _ mem => absurd mem (by simp)) found

/-- What a search holds behind `done`, the tokens it has passed: the weakest cut of `done`, with
the tokens still to come behind it, or nothing if `done` has no operation outside brackets. -/
def Holds (done rest : List Token) : Option Candidate → Prop
  | none => ∀ token ∈ outside 0 done, rank? token = none
  | some held => ∃ passed, done = held.cut.before ++ held.operation :: passed ∧
      held.after = passed ++ rest ∧
      Cut.IsWeakest ⟨held.cut.before, held.operation, passed⟩ held.rank

theorem Holds.pass {done : List Token} {held : Option Candidate}
    (reached : depthAfter 0 done = some depth)
    (quiet : ∀ t ∈ outside depth [token], rank? t = none)
    (holds : Holds done (token :: rest) held) : Holds (done ++ [token]) rest held := by
  cases held with
  | none =>
    intro t mem
    rw [outside_append reached, List.mem_append] at mem
    exact mem.elim (holds t) (quiet t)
  | some held =>
    obtain ⟨passed, rfl, after, weakest⟩ := holds
    have inner : depthAfter 0 passed = some depth := by
      rw [depthAfter_append, weakest.balanced.depthAfter_eq, Option.bind_some,
        depthAfter_plain (plain_of_rank weakest.ranked)] at reached
      exact reached
    refine ⟨passed ++ [token], by simp, by simp [after], weakest.balanced, weakest.ranked,
      weakest.before, ?_⟩
    intro t mem r found
    rw [outside_append inner, List.mem_append] at mem
    rcases mem with old | new
    · exact weakest.after t old r found
    · rw [quiet t new] at found
      contradiction

theorem Holds.offer {seen : List Token} {held : Option Candidate} (ranked : rank? token = some rank)
    (reached : Balanced seen.reverse) (holds : Holds seen.reverse (token :: rest) held) :
    Holds (seen.reverse ++ [token]) rest (Candidate.offer held ⟨rank, seen, token, rest⟩) := by
  have fresh : NoneBelow rank seen.reverse →
      Holds (seen.reverse ++ [token]) rest (some ⟨rank, seen, token, rest⟩) := fun before =>
    ⟨[], rfl, rfl, reached, ranked, before, fun t mem => absurd mem List.not_mem_nil⟩
  cases held with
  | none =>
    refine fresh fun t mem r found => ?_
    rw [holds t mem] at found
    contradiction
  | some held =>
    rw [Candidate.offer]
    obtain ⟨passed, split, after, weakest⟩ := holds
    have plain := plain_of_rank weakest.ranked
    split
    · next weaker =>
      refine fresh ?_
      rw [split, noneBelow_append weakest.balanced]
      refine ⟨weakest.before.mono weaker, ?_⟩
      intro t mem r found
      rw [outside_plain plain] at mem
      rcases List.mem_cons.mp mem with rfl | later
      · obtain rfl := Option.some.inj (weakest.ranked.symm.trans found)
        exact weaker
      · exact Nat.le_trans weaker (Nat.le_of_succ_le (weakest.after t later r found))
    · next stronger =>
      have inner : Balanced passed := by
        rw [split, weakest.balanced.append_iff, balanced_cons_plain plain] at reached
        exact reached
      refine ⟨passed ++ [token], by simp [split], by simp [after], weakest.balanced,
        weakest.ranked, weakest.before, ?_⟩
      rw [noneBelow_append inner]
      refine ⟨weakest.after, ?_⟩
      intro t mem r found
      rw [outside_plain (plain_of_rank ranked)] at mem
      obtain rfl := List.mem_singleton.mp mem
      obtain rfl := Option.some.inj (ranked.symm.trans found)
      exact Nat.lt_of_not_le stronger

theorem search_holds {seen tokens : List Token} {held : Option Candidate}
    (reached : depthAfter 0 seen.reverse = some depth) (closed : depthAfter depth tokens = some 0)
    (holds : Holds seen.reverse tokens held) :
    ∃ found, search depth seen held tokens = .ok (found.map Candidate.cut) ∧
      Holds (seen.reverse ++ tokens) [] found := by
  -- What is held stays the weakest cut of the tokens passed so far.
  induction tokens generalizing depth seen held with
  | nil => exact ⟨held, rfl, by simpa using holds⟩
  | cons token rest ih =>
    have moved : seen.reverse ++ token :: rest = (token :: seen).reverse ++ rest := by simp
    have behind : (token :: seen).reverse = seen.reverse ++ [token] := by simp
    have further : depthAfter 0 (token :: seen).reverse = depthAfter depth [token] := by
      rw [behind, depthAfter_append, reached]
      rfl
    have quiet : (∀ t ∈ outside depth [token], rank? t = none) →
        Holds (token :: seen).reverse rest held := fun quiet => behind ▸ holds.pass reached quiet
    have none_outside : outside depth [token] = [] → Holds (token :: seen).reverse rest held :=
      fun nothing => quiet (by rw [nothing]; simp)
    rw [moved]
    cases token.bracketing with
    | opens opens =>
      rw [depthAfter_opening opens] at further closed
      rw [search_opening opens]
      exact ih further closed (none_outside (outside_opening opens))
    | closes closes =>
      cases depth with
      | zero => rw [depthAfter_closing_zero closes] at closed; contradiction
      | succ depth =>
        rw [depthAfter_closing closes] at further closed
        rw [search_closing closes]
        exact ih further closed (none_outside (outside_closing closes))
    | plain plain =>
      rw [depthAfter_plain plain] at further closed
      cases depth with
      | zero =>
        rw [search_plain plain]
        cases ranked : rank? token with
        | none =>
          exact ih further closed (quiet (by rw [outside_plain plain]; simp [outside, ranked]))
        | some rank => exact ih further closed (behind ▸ holds.offer ranked reached)
      | succ depth =>
        rw [search_plain_deeper plain]
        exact ih further closed (none_outside (outside_plain_deeper plain))

theorem weakest_of_balanced (balanced : Balanced span) :
    (weakest span = .ok none ∧ ∀ token ∈ outside 0 span, rank? token = none) ∨
      ∃ cut rank, weakest span = .ok (some cut) ∧ cut.span = span ∧ cut.IsWeakest rank := by
  have start : Holds ([] : List Token).reverse span none :=
    fun token mem => absurd mem List.not_mem_nil
  obtain ⟨found, searched, holds⟩ := search_holds rfl balanced start
  cases found with
  | none => exact .inl ⟨searched, holds⟩
  | some found =>
    obtain ⟨passed, whole, after, weakest⟩ := holds
    rw [List.append_nil] at after
    subst after
    exact .inr ⟨found.cut, found.rank, searched, whole.symm, weakest⟩

theorem isWeakest_of_weakest {cut : Cut} (balanced : Balanced span)
    (found : weakest span = .ok (some cut)) : cut.span = span ∧ ∃ rank, cut.IsWeakest rank := by
  rcases weakest_of_balanced balanced with ⟨absent, -⟩ | ⟨other, rank, present, whole, weakest⟩
  · rw [absent] at found
    exact absurd (Except.ok.inj found) (by simp)
  · rw [present] at found
    obtain rfl := Option.some.inj (Except.ok.inj found)
    exact ⟨whole, rank, weakest⟩

theorem weakest_eq_none (balanced : Balanced span)
    (unranked : ∀ token ∈ outside 0 span, rank? token = none) : weakest span = .ok none := by
  rcases weakest_of_balanced balanced with ⟨found, -⟩ | ⟨cut, rank, -, rfl, weakest⟩
  · exact found
  · have ranked := weakest.ranked
    rw [unranked _ weakest.mem_outside] at ranked
    contradiction

theorem weakest_eq_some {cut : Cut} (weakest : cut.IsWeakest rank) (balanced : Balanced cut.span) :
    Span.weakest cut.span = .ok (some cut) := by
  rcases weakest_of_balanced balanced with ⟨-, none⟩ | ⟨other, rank', found, same, weakest'⟩
  · have unranked := none _ weakest.mem_outside
    rw [weakest.ranked] at unranked
    contradiction
  · rw [found, weakest'.unique weakest same]

end Reckon.Span
