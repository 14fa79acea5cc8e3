import Mathlib.Algebra.BigOperators.Group.Finset.Piecewise
import Mathlib.Data.Fintype.Card
import Mathlib.Data.List.FinRange
import Mathlib.Order.Bounds.Basic

/-!
# Tables with a fixed number of slots

A C array of `n` records is a function `Fin n → α`, written to with
`Function.update`. What programs do with such a table:

* `first p` — a loop `for (i = 0; i < n; i++)` that stops at the first slot
  with `p`;
* `count p` — how many slots satisfy `p`, the number a separate counter of the
  program is meant to hold; `count_update` says how one write moves it;
* a loop that keeps the smallest value seen: `foldl_least`;
* a loop over all slots in which each round only touches its own slot:
  `foldl_slots` computes its result slot by slot.
-/

namespace Slots

universe u v

variable {n : ℕ} {α : Type u}

/-! ## The first slot with a property -/

section First

variable {p : Fin n → Prop} [DecidablePred p]

/-- The lowest index with `p`, as a search loop from `0` upwards finds it. -/
def first (p : Fin n → Prop) [DecidablePred p] : Option (Fin n) :=
  (List.finRange n).find? fun i => decide (p i)

/-- The slot that is found is one that is looked for. -/
theorem first_spec {i : Fin n} (h : first p = some i) : p i := by
  simpa using List.find?_some h

/-- None is found if there is none. -/
theorem first_eq_none : first p = none ↔ ∀ i, ¬ p i := by
  simp [first, List.find?_eq_none, List.mem_finRange]

end First

/-! ## Counting slots -/

section Count

/-- The number of slots with `p`. -/
def count (p : Fin n → Prop) [DecidablePred p] : ℕ := (Finset.univ.filter p).card

variable {p : α → Prop} [DecidablePred p]

/-- Nothing is counted if there is nothing to count. -/
theorem count_eq_zero {q : Fin n → Prop} [DecidablePred q] : count q = 0 ↔ ∀ i, ¬ q i := by
  simp [count, Finset.filter_eq_empty_iff]

/-- There are no more than all slots. -/
theorem count_le (q : Fin n → Prop) [DecidablePred q] : count q ≤ n := by
  simpa [count] using Finset.card_filter_le (Finset.univ : Finset (Fin n)) q

/-- Where every slot is counted the count is that of all slots. -/
theorem count_eq_of_forall {q : Fin n → Prop} [DecidablePred q] (h : ∀ i, q i) : count q = n := by
  simp [count, h]

/-- One write changes the count by what the slot stops and starts to hold. -/
theorem count_update (s : Fin n → α) (i : Fin n) (x : α) :
    count (fun j => p (Function.update s i x j)) + (if p (s i) then 1 else 0) =
      count (fun j => p (s j)) + (if p x then 1 else 0) := by
  have hsplit : ∀ t : Fin n → α, count (fun j => p (t j)) =
      (if p (t i) then 1 else 0) + ∑ j ∈ Finset.univ.erase i, if p (t j) then 1 else 0 := by
    intro t
    rw [count, Finset.card_filter, ← Finset.add_sum_erase _ _ (Finset.mem_univ i)]
  have hrest : (∑ j ∈ Finset.univ.erase i, if p (Function.update s i x j) then 1 else 0) =
      ∑ j ∈ Finset.univ.erase i, if p (s j) then 1 else 0 := by
    refine Finset.sum_congr rfl fun j hj => ?_
    rw [Function.update_of_ne (Finset.ne_of_mem_erase hj)]
  rw [hsplit, hsplit s, hrest, Function.update_self]
  omega

end Count

/-! ## The least value -/

section Least

variable {β : Type v} [LinearOrder β]

theorem foldl_least_aux (f : Fin n → β) (l : List (Fin n)) (a : β) :
    IsLeast {v | v = a ∨ ∃ i ∈ l, f i = v}
      (l.foldl (fun v i => if v > f i then f i else v) a) := by
  induction l generalizing a with
  | nil => exact ⟨.inl rfl, by rintro v (rfl | ⟨i, hi, -⟩); exacts [le_rfl, nomatch hi]⟩
  | cons i l ih =>
    rw [List.foldl_cons]
    have hmin : (if a > f i then f i else a) = min a (f i) := by
      rw [min_def]
      split
      · rw [if_neg (by simpa using ‹a > f i›)]
      · rw [if_pos (by simpa using ‹¬ a > f i›)]
    obtain ⟨hmem, hle⟩ := ih (if a > f i then f i else a)
    rw [hmin] at hmem hle ⊢
    constructor
    · obtain hv | ⟨j, hj, hv⟩ := hmem
      · obtain ha | ha := min_choice a (f i)
        · exact .inl (hv.trans ha)
        · exact .inr ⟨i, List.mem_cons_self, (hv.trans ha).symm⟩
      · exact .inr ⟨j, List.mem_cons_of_mem i hj, hv⟩
    · rintro v (rfl | ⟨j, hj, rfl⟩)
      · exact (hle (.inl rfl)).trans (min_le_left _ _)
      · obtain rfl | hj := List.mem_cons.mp hj
        · exact (hle (.inl rfl)).trans (min_le_right _ _)
        · exact hle (.inr ⟨j, hj, rfl⟩)

/-- A loop that keeps the smallest value seen, started from a bound, computes the
least of the bound and the values in the table. -/
theorem foldl_least (f : Fin n → β) (a : β) :
    IsLeast {v | v = a ∨ ∃ i, f i = v}
      ((List.finRange n).foldl (fun v i => if v > f i then f i else v) a) := by
  have h := foldl_least_aux f (List.finRange n) a
  simp only [List.mem_finRange, true_and] at h
  exact h

end Least

/-! ## Loops over all slots -/

section Loop

variable {σ : Type v}

theorem foldl_slots_aux (get : σ → Fin n → α) (g : α → α) (body : σ → Fin n → σ)
    (hself : ∀ s i, get (body s i) i = g (get s i))
    (hne : ∀ s i j, j ≠ i → get (body s i) j = get s j) (j : Fin n) :
    ∀ (l : List (Fin n)) (s : σ), l.Nodup →
      get (l.foldl body s) j = if j ∈ l then g (get s j) else get s j := by
  intro l
  induction l with
  | nil => intro s _; simp
  | cons i l ih =>
    intro s hnd
    obtain ⟨hi, hnd'⟩ := List.nodup_cons.mp hnd
    rw [List.foldl_cons, ih _ hnd']
    by_cases hj : j = i
    · subst hj
      simp [hi, hself]
    · simp [hj, hne s i j hj]

/-- A loop over the whole table whose round `i` reads and writes slot `i` only
acts on every slot on its own. -/
theorem foldl_slots (get : σ → Fin n → α) (g : α → α) (body : σ → Fin n → σ)
    (hself : ∀ s i, get (body s i) i = g (get s i))
    (hne : ∀ s i j, j ≠ i → get (body s i) j = get s j) (s : σ) (j : Fin n) :
    get ((List.finRange n).foldl body s) j = g (get s j) := by
  rw [foldl_slots_aux get g body hself hne j _ s (List.nodup_finRange n)]
  simp [List.mem_finRange]

end Loop

end Slots
