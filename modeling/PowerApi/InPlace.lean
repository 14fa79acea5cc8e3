import PowerApi.CStrings
import PowerApi.Traced

/-!
# Strings in memory

`StringAt` is a string that begins at a position and goes on to the first zero byte, whatever
is behind it. `strlen` walks to its end.
-/

namespace PowerApi

namespace InPlace

open Traced

/-! ## Strings -/

/-- The string begins at position `i`. -/
structure StringAt (mem : ℤ → UInt8) (i : ℤ) (s : Bytes) : Prop where
  cells : Cells mem i (s ++ [0])
  ne_zero : ∀ c ∈ s, c ≠ 0

section StringAt

variable {mem : ℤ → UInt8} {i : ℤ} {s s' : Bytes} {c : UInt8}

theorem stringAt_nil : StringAt mem i [] ↔ mem i = 0 :=
  ⟨fun h => h.cells.1, fun h => ⟨⟨h, trivial⟩, nofun⟩⟩

theorem stringAt_cons : StringAt mem i (c :: s) ↔ c ≠ 0 ∧ mem i = c ∧ StringAt mem (i + 1) s := by
  constructor
  · intro h
    obtain ⟨hc, hs⟩ := List.forall_mem_cons.mp h.ne_zero
    exact ⟨hc, h.cells.1, h.cells.2, hs⟩
  · rintro ⟨hc, hi, h⟩
    exact ⟨⟨hi, h.cells⟩, List.forall_mem_cons.mpr ⟨hc, h.ne_zero⟩⟩

/-- At most one string begins at a position. -/
theorem StringAt.unique (h : StringAt mem i s) (h' : StringAt mem i s') : s = s' := by
  induction s generalizing i s' with
  | nil =>
    cases s' with
    | nil => rfl
    | cons c s' =>
      obtain ⟨hc, hi, -⟩ := stringAt_cons.mp h'
      exact absurd (hi.symm.trans (stringAt_nil.mp h)) hc
  | cons c s ih =>
    obtain ⟨hc, hi, hs⟩ := stringAt_cons.mp h
    cases s' with
    | nil => exact absurd (hi.symm.trans (stringAt_nil.mp h')) hc
    | cons c' s' =>
      obtain ⟨-, hi', hs'⟩ := stringAt_cons.mp h'
      rw [hi.symm.trans hi', ih hs hs']

/-- The rest of a string is a string. -/
theorem StringAt.drop (h : StringAt mem i s) {k : ℕ} (hk : k ≤ s.length) :
    StringAt mem (i + k) (s.drop k) := by
  have hcells := h.cells
  rw [← List.take_append_drop k s, List.append_assoc, cells_append, List.length_take,
    Nat.min_eq_left hk] at hcells
  exact ⟨hcells.2, fun c hc => h.ne_zero c (List.mem_of_mem_drop hc)⟩

/-- A character of the string. -/
theorem StringAt.getElem (h : StringAt mem i s) {k : ℕ} (hk : k < s.length) :
    mem (i + k) = s[k] := by
  have hcell := cells_iff.mp h.cells k (by rw [List.length_append]; omega)
  rwa [List.getElem_append_left hk] at hcell

/-- Its end. -/
theorem StringAt.end_eq (h : StringAt mem i s) : mem (i + s.length) = 0 := by
  simpa using cells_iff.mp h.cells s.length (by simp)

/-- A zero byte behind characters makes them a string. -/
theorem stringAt_update (hcells : Cells mem i s) (hs : ∀ c ∈ s, c ≠ 0) :
    StringAt (Function.update mem (i + s.length) 0) i s := by
  refine ⟨cells_append.mpr ⟨?_, Function.update_self .., trivial⟩, hs⟩
  exact hcells.congr fun j _ hj => Function.update_of_ne (ne_of_lt hj) ..

/-- A zero byte in the string ends it there. -/
theorem StringAt.cut {x y : Bytes} (h : StringAt mem i (x ++ y)) :
    StringAt (Function.update mem (i + x.length) 0) i x := by
  have hcells := h.cells
  rw [List.append_assoc, cells_append] at hcells
  exact stringAt_update hcells.1 fun c hc => h.ne_zero c (List.mem_append_left y hc)

/-- No end before. -/
theorem StringAt.ne_end (h : StringAt mem i s) {k : ℕ} (hk : k < s.length) : mem (i + k) ≠ 0 := by
  rw [h.getElem hk]
  exact h.ne_zero _ (List.getElem_mem hk)

end StringAt

/-- `strlen`. -/
def strlen (fuel : ℕ) (t : Traced UInt8) (s : ℤ) : Option (ℤ × Traced UInt8) :=
  (scan (fun _ => true) (· ≠ 0) (· + 1) fuel s t).map fun (p, t) => (p - s, t)

theorem strlen_eq {t : Traced UInt8} {i : ℤ} {s : Bytes} (h : StringAt t.mem i s) {fuel : ℕ}
    (hfuel : s.length < fuel) :
    ∃ t', strlen fuel t i = some ((s.length : ℤ), t') ∧ t'.mem = t.mem ∧
      ∀ rd wr, t.Inside rd wr → (∀ k ≤ s.length, i + (k : ℤ) ∈ rd) → t'.Inside rd wr := by
  obtain ⟨t', heq, hmem, hin⟩ := @scan_eq _ t (fun _ => true) (· ≠ 0) (· + 1) fuel
    (fun k : ℕ => i + k) s.length (fun k _ => by push_cast; omega)
    (fun k hk => ⟨rfl, decide_eq_true (h.ne_end hk)⟩) (.inr (by simpa using h.end_eq)) hfuel
  refine ⟨t', ?_, hmem, hin⟩
  rw [Nat.cast_zero, Int.add_zero] at heq
  rw [strlen, heq, Option.map_some]
  dsimp only
  rw [add_sub_cancel_left]

end InPlace

end PowerApi
