import Mathlib.Data.Finset.Sort

/-!
# The greatest elements of a finite set

`greatest m s` are the elements of `s` that fewer than `m` others exceed. They are what is
left of the sorted elements when all but the last `m` are dropped (`toFinset_drop_sort`), so
there are `min m s.card` of them.
-/

namespace Greatest

universe u

variable {α : Type u} [LinearOrder α] {m : ℕ} {s t : Finset α}

/-- The `m` greatest elements of a finite set. -/
def greatest (m : ℕ) (s : Finset α) : Finset α := s.filter fun a => (s.filter (a < ·)).card < m

theorem greatest_subset (m : ℕ) (s : Finset α) : greatest m s ⊆ s := Finset.filter_subset _ _

/-- Those that exceed an element come behind it. -/
theorem filter_lt_sort {i : ℕ} (hi : i < s.sort.length) :
    s.filter (s.sort[i] < ·) = (s.sort.drop (i + 1)).toFinset := by
  have hmono := s.sortedLT_sort.strictMono_get
  ext a
  rw [Finset.mem_filter, ← Finset.mem_sort (· ≤ ·), List.mem_toFinset, List.mem_drop_iff_getElem]
  constructor
  · rintro ⟨ha, hlt⟩
    obtain ⟨j, hj, rfl⟩ := List.mem_iff_getElem.mp ha
    have hij : i < j := (hmono.lt_iff_lt (a := ⟨i, hi⟩) (b := ⟨j, hj⟩)).mp hlt
    have hidx : i + 1 + (j - (i + 1)) = j := Nat.add_sub_cancel' hij
    exact ⟨j - (i + 1), by omega, getElem_congr_idx hidx⟩
  · rintro ⟨j, hj, rfl⟩
    exact ⟨List.getElem_mem _, hmono (Fin.mk_lt_mk.mpr (by omega))⟩

theorem nodup_drop_sort (k : ℕ) (s : Finset α) : (s.sort.drop k).Nodup :=
  (s.sort_nodup (· ≤ ·)).sublist (List.drop_sublist k _)

/-- The greatest elements are the last ones in order. -/
theorem toFinset_drop_sort (m : ℕ) (s : Finset α) :
    (s.sort.drop (s.card - m)).toFinset = greatest m s := by
  have hlen := s.length_sort (· ≤ ·)
  ext a
  rw [List.mem_toFinset, List.mem_drop_iff_getElem, greatest, Finset.mem_filter,
    ← Finset.mem_sort (· ≤ ·)]
  constructor
  · rintro ⟨j, hj, rfl⟩
    refine ⟨List.getElem_mem _, ?_⟩
    rw [filter_lt_sort, List.toFinset_card_of_nodup (nodup_drop_sort _ s), List.length_drop]
    omega
  · rintro ⟨ha, hcard⟩
    obtain ⟨i, hi, rfl⟩ := List.mem_iff_getElem.mp ha
    rw [filter_lt_sort, List.toFinset_card_of_nodup (nodup_drop_sort _ s),
      List.length_drop] at hcard
    have hidx : s.card - m + (i - (s.card - m)) = i := by omega
    exact ⟨i - (s.card - m), by omega, getElem_congr_idx hidx⟩

theorem card_greatest (m : ℕ) (s : Finset α) : (greatest m s).card = min m s.card := by
  rw [← toFinset_drop_sort, List.toFinset_card_of_nodup (nodup_drop_sort _ s), List.length_drop,
    Finset.length_sort]
  omega

theorem greatest_eq_self (h : s.card ≤ m) : greatest m s = s :=
  Finset.eq_of_subset_of_card_le (greatest_subset m s) (by rw [card_greatest, Nat.min_eq_right h])

/-- What is exceeded by an element that is left out is exceeded by all that are not. -/
theorem card_le_of_not_mem {a b : α} (hb : b ∈ s) (hout : b ∉ greatest m s) (hab : a ≤ b) :
    m ≤ ((greatest m s).filter (a < ·)).card := by
  have hmany : m ≤ (s.filter (b < ·)).card :=
    not_lt.mp fun h => hout (Finset.mem_filter.mpr ⟨hb, h⟩)
  have hall : ∀ c ∈ greatest m s, a < c := by
    intro c hc
    by_contra hca
    have hcb : c ≤ b := (not_lt.mp hca).trans hab
    have hsub : s.filter (b < ·) ⊆ s.filter (c < ·) := by
      intro d hd
      obtain ⟨hds, hbd⟩ := Finset.mem_filter.mp hd
      exact Finset.mem_filter.mpr ⟨hds, lt_of_le_of_lt hcb hbd⟩
    have hfew := (Finset.mem_filter.mp hc).2
    exact absurd (Finset.card_le_card hsub) (by omega)
  rw [Finset.filter_true_of_mem hall, card_greatest]
  exact le_min le_rfl (hmany.trans (Finset.card_filter_le _ _))

variable [DecidableEq α]

/-- The others are the first ones in order. -/
theorem sdiff_take_sort (m : ℕ) (s : Finset α) :
    s \ (s.sort.take (s.card - m)).toFinset = greatest m s := by
  rw [← toFinset_drop_sort]
  have hdisjoint := List.disjoint_take_drop (s.sort_nodup (· ≤ ·)) (le_refl (s.card - m))
  have hmem : ∀ a, a ∈ s ↔ a ∈ s.sort.take (s.card - m) ∨ a ∈ s.sort.drop (s.card - m) := by
    intro a
    rw [← List.mem_append, List.take_append_drop, Finset.mem_sort]
  ext a
  simp only [Finset.mem_sdiff, List.mem_toFinset, hmem]
  constructor
  · rintro ⟨h | h, hnot⟩
    · exact absurd h hnot
    · exact h
  · exact fun h => ⟨.inr h, fun htake => hdisjoint htake h⟩

/-- An element that as many exceed in a larger set is as great there. -/
theorem greatest_inter_subset (hst : s ⊆ t) : greatest m t ∩ s ⊆ greatest m s := by
  intro a ha
  obtain ⟨hmem, hs⟩ := Finset.mem_inter.mp ha
  have hle := Finset.card_le_card (Finset.filter_subset_filter (a < ·) hst)
  exact Finset.mem_filter.mpr ⟨hs, lt_of_le_of_lt hle (Finset.mem_filter.mp hmem).2⟩

/-- The greatest of some new elements and the greatest old ones are the greatest of all. -/
theorem greatest_union (s t : Finset α) : greatest m (t ∪ greatest m s) = greatest m (t ∪ s) := by
  have hsub : t ∪ greatest m s ⊆ t ∪ s := Finset.union_subset_union_right (greatest_subset m s)
  ext a
  constructor
  · intro ha
    obtain ⟨hmem, hcard⟩ := Finset.mem_filter.mp ha
    refine Finset.mem_filter.mpr ⟨hsub hmem, ?_⟩
    by_cases hout : ∃ b ∈ s, b ∉ greatest m s ∧ a ≤ b
    · -- then there are enough greater ones among the greatest
      obtain ⟨b, hb, hb', hab⟩ := hout
      have hle := card_le_of_not_mem hb hb' hab
      have hright : greatest m s ⊆ t ∪ greatest m s := Finset.subset_union_right
      have hmono := Finset.card_le_card (Finset.filter_subset_filter (a < ·) hright)
      omega
    · have hlow : ∀ b ∈ s, b ∉ greatest m s → b < a := fun b hb hb' =>
        not_le.mp fun hab => hout ⟨b, hb, hb', hab⟩
      refine lt_of_le_of_lt (Finset.card_le_card fun b hb => ?_) hcard
      obtain ⟨hb, hab⟩ := Finset.mem_filter.mp hb
      refine Finset.mem_filter.mpr ⟨?_, hab⟩
      obtain hb | hb := Finset.mem_union.mp hb
      · exact Finset.mem_union_left _ hb
      · refine Finset.mem_union_right _ ?_
        by_contra hb'
        exact lt_asymm hab (hlow b hb hb')
  · intro ha
    obtain ⟨hmem, -⟩ := Finset.mem_filter.mp ha
    refine greatest_inter_subset hsub (Finset.mem_inter.mpr ⟨ha, ?_⟩)
    obtain h | h := Finset.mem_union.mp hmem
    · exact Finset.mem_union_left _ h
    · exact Finset.mem_union_right _ (greatest_inter_subset Finset.subset_union_right
        (Finset.mem_inter.mpr ⟨ha, h⟩))

end Greatest
