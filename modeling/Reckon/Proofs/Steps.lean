/-!
Runs of steps that may fail. A run over a list goes over each beginning of the list, and a run that
fails does so at one item, behind a beginning that it has gone over.
-/

namespace Reckon.Steps

variable {α σ ε : Type} {step : σ → α → Except ε σ} {front rest items : List α} {item : α}
  {start next final : σ} {fault : ε}

theorem foldlM_append_of_ok (ran : front.foldlM step start = .ok next) :
    (front ++ rest).foldlM step start = rest.foldlM step next := by
  rw [List.foldlM_append, ran]
  rfl

theorem foldlM_cons_of_ok (stepped : step start item = .ok next) :
    (item :: rest).foldlM step start = rest.foldlM step next := by
  rw [List.foldlM_cons, stepped]
  rfl

theorem foldlM_concat (ran : front.foldlM step start = .ok next) :
    (front ++ [item]).foldlM step start = step next item := by
  rw [foldlM_append_of_ok ran, List.foldlM_cons]
  exact bind_pure _

theorem exists_of_foldlM_append (ran : (front ++ rest).foldlM step start = .ok final) :
    ∃ next, front.foldlM step start = .ok next ∧ rest.foldlM step next = .ok final := by
  rw [List.foldlM_append] at ran
  cases first : front.foldlM step start with
  | error fault => rw [first] at ran; contradiction
  | ok next => exact ⟨next, rfl, by rwa [first] at ran⟩

theorem exists_of_foldlM_cons (ran : (item :: rest).foldlM step start = .ok final) :
    ∃ next, step start item = .ok next ∧ rest.foldlM step next = .ok final := by
  rw [List.foldlM_cons] at ran
  cases first : step start item with
  | error fault => rw [first] at ran; contradiction
  | ok next => exact ⟨next, rfl, by rwa [first] at ran⟩

theorem foldlM_eq_error_iff : items.foldlM step start = .error fault ↔ ∃ front item rest next,
    items = front ++ item :: rest ∧ front.foldlM step start = .ok next ∧
      step next item = .error fault := by
  constructor
  · intro failed
    induction items generalizing start with
    | nil => contradiction
    | cons item rest ih =>
      cases first : step start item with
      | error other =>
        rw [List.foldlM_cons, first] at failed
        exact ⟨[], item, rest, start, rfl, rfl, first.trans failed⟩
      | ok next =>
        rw [foldlM_cons_of_ok first] at failed
        obtain ⟨front, stop, rest, last, rfl, ran, stops⟩ := ih failed
        exact ⟨item :: front, stop, rest, last, rfl, (foldlM_cons_of_ok first).trans ran, stops⟩
  · rintro ⟨front, item, rest, next, rfl, ran, stops⟩
    rw [foldlM_append_of_ok ran, List.foldlM_cons, stops]
    rfl

end Reckon.Steps
