import Mathlib.Data.List.TakeWhile

/-!
# Fields between separators

The fields of a list are its longest parts without separators. They are what is left of the
parts that `List.splitOnP` gives when the empty ones are dropped; `fields_dropWhile` and
`fields_eq_cons` find the next one the way a scanner does, which first skips separators and
then goes on to the next separator.
-/

namespace Fields

universe u

variable {α : Type u} {p : α → Bool} {l : List α}

/-- The longest parts of a list without separators. -/
def fields (p : α → Bool) (l : List α) : List (List α) := (l.splitOnP p).filter (! ·.isEmpty)

@[simp] theorem fields_nil : fields p [] = [] := rfl

/-- A separator in front makes no difference. -/
theorem fields_cons {a : α} (ha : p a = true) : fields p (a :: l) = fields p l := by
  rw [fields, fields, List.splitOnP_cons_eq_if_modifyHead, if_pos ha,
    List.filter_cons_of_neg (by simp)]

theorem fields_dropWhile (l : List α) : fields p (l.dropWhile p) = fields p l := by
  induction l with
  | nil => rfl
  | cons a l ih =>
    by_cases ha : p a = true
    · rw [List.dropWhile_cons_of_pos ha, ih, fields_cons ha]
    · rw [List.dropWhile_cons_of_neg ha]

/-- The first field ends at a separator or at the end of the list. -/
theorem fields_append {field rest : List α} (hne : field ≠ []) (hfield : ∀ a ∈ field, p a = false)
    (hrest : ∀ a ∈ rest.head?, p a = true) : fields p (field ++ rest) = field :: fields p rest := by
  cases rest with
  | nil => simp [fields, List.splitOnP_eq_singleton hfield, hne]
  | cons a rest =>
    have ha : p a = true := hrest a rfl
    rw [fields_cons ha, fields, List.splitOnP_append_cons_of_forall_mem hfield a ha]
    simp [fields, hne]

/-- A list without separators is a field. -/
theorem fields_single {field : List α} (hne : field ≠ []) (hfield : ∀ a ∈ field, p a = false) :
    fields p field = [field] := by
  have hsingle := @fields_append _ p field [] hne hfield nofun
  rwa [List.append_nil, fields_nil] at hsingle

/-- Separators in front make no difference. -/
theorem fields_skip {sep : List α} (hsep : ∀ a ∈ sep, p a = true) :
    fields p (sep ++ l) = fields p l := by
  induction sep with
  | nil => rfl
  | cons a sep ih =>
    obtain ⟨ha, hsep⟩ := List.forall_mem_cons.mp hsep
    rw [List.cons_append, fields_cons ha, ih hsep]

/-- What has been joined with separators is split into the same items. -/
theorem fields_intercalate {sep : List α} {items : List (List α)} (hne : sep ≠ [])
    (hsep : ∀ a ∈ sep, p a = true)
    (hitems : ∀ item ∈ items, item ≠ [] ∧ ∀ a ∈ item, p a = false) :
    fields p (sep.intercalate items) = items := by
  induction items with
  | nil => rfl
  | cons item items ih =>
    obtain ⟨⟨hitem, hfree⟩, hrest⟩ := List.forall_mem_cons.mp hitems
    cases items with
    | nil =>
      rw [List.intercalate_singleton, fields_single hitem hfree]
    | cons next items =>
      have hhead : ∀ a ∈ (sep ++ sep.intercalate (next :: items)).head?, p a = true := by
        obtain ⟨a, sep, rfl⟩ := List.exists_cons_of_ne_nil hne
        intro b hb
        obtain rfl := Option.some.inj hb
        exact hsep a List.mem_cons_self
      rw [List.intercalate_cons_cons, List.append_assoc, fields_append hitem hfree hhead,
        fields_skip hsep, ih hrest]

/-- The first field of a list that begins with one. -/
theorem fields_eq_cons {a : α} (ha : p a = false) :
    fields p (a :: l) =
      (a :: l).takeWhile (fun b => ! p b) :: fields p ((a :: l).dropWhile fun b => ! p b) := by
  have hsplit := List.takeWhile_append_dropWhile (p := fun b => ! p b) (l := a :: l)
  refine (congrArg (fields p) hsplit.symm).trans (fields_append ?_ ?_ ?_)
  · simp [ha]
  · intro b hb
    simpa using List.mem_takeWhile_imp hb
  · intro b hb
    have hstop := List.head?_dropWhile_not (fun c => ! p c) (a :: l)
    rw [Option.mem_def.mp hb] at hstop
    simpa using hstop

/-- There are no more fields than elements. -/
theorem length_fields_le (l : List α) : (fields p l).length ≤ l.length := by
  induction hlen : l.length using Nat.strong_induction_on generalizing l with
  | _ n ih =>
    cases l with
    | nil => simp
    | cons a l =>
      rw [List.length_cons] at hlen
      by_cases ha : p a = true
      · rw [fields_cons ha]
        exact (ih l.length (by omega) l rfl).trans (by omega)
      · rw [fields_eq_cons (Bool.eq_false_iff.mpr ha), List.length_cons,
          List.dropWhile_cons_of_pos (by simpa using ha)]
        have hle : (l.dropWhile fun b => ! p b).length ≤ l.length :=
          (List.dropWhile_suffix _).length_le
        have hrest := ih _ (by omega) (l.dropWhile fun b => ! p b) rfl
        omega

/-- The parts of a split have only elements of the list that are no separators. -/
theorem mem_splitOnP {part : List α} (h : part ∈ l.splitOnP p) :
    ∀ b ∈ part, b ∈ l ∧ p b = false := by
  induction l generalizing part with
  | nil => simp_all
  | cons a l ih =>
    have hrest {part} (hpart : part ∈ l.splitOnP p) : ∀ b ∈ part, b ∈ a :: l ∧ p b = false :=
      fun b hb => (ih hpart b hb).imp_left (List.mem_cons_of_mem a)
    rw [List.splitOnP_cons_eq_if_modifyHead] at h
    split at h <;> rename_i ha
    · obtain rfl | h := List.mem_cons.mp h
      · simp
      · exact hrest h
    · obtain ⟨first, parts, hparts⟩ := List.exists_cons_of_ne_nil (List.splitOnP_ne_nil p l)
      rw [hparts] at h hrest
      obtain rfl | h := List.mem_cons.mp h
      · intro b hb
        obtain rfl | hb := List.mem_cons.mp hb
        · exact ⟨List.mem_cons_self, Bool.eq_false_iff.mpr ha⟩
        · exact hrest List.mem_cons_self b hb
      · exact hrest (List.mem_cons_of_mem _ h)

/-- A field is not empty and has no separator in it. -/
theorem mem_fields {field : List α} (h : field ∈ fields p l) :
    field ≠ [] ∧ ∀ b ∈ field, b ∈ l ∧ p b = false := by
  obtain ⟨hpart, hne⟩ := List.mem_filter.mp h
  exact ⟨by simpa using hne, mem_splitOnP hpart⟩

end Fields
