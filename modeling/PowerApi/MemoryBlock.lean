import Mathlib.Data.List.GetD
import Mathlib.Logic.Nontrivial.Basic

/-!
# Blocks of memory and what is written to them

A block that an allocator hands out already holds something. A `Write` assigns
some cells of a block, `fill` is the block after a list of writes and `contents`
its first cells. Every cell either keeps what it held or has a value that does
not depend on it, so that the contents of a block can be told from the writes
alone if and only if these cover all of it (`contents_fill_eq_iff`).
-/

namespace MemoryBlock

universe u

variable {α : Type u}

/-- An assignment to the cells from `off` on. -/
structure Write (α : Type u) where
  off : ℕ
  data : List α
  deriving DecidableEq, Repr

namespace Write

/-- The write assigns this cell. -/
def Covers (w : Write α) (i : ℕ) : Prop := w.off ≤ i ∧ i < w.off + w.data.length

instance (w : Write α) (i : ℕ) : Decidable (w.Covers i) :=
  inferInstanceAs (Decidable (_ ∧ _))

/-- The block after the write. -/
def apply (w : Write α) (mem : ℕ → α) : ℕ → α :=
  fun i => if i < w.off then mem i else w.data.getD (i - w.off) (mem i)

theorem apply_of_not_covers {w : Write α} {i : ℕ} (h : ¬ w.Covers i) (mem : ℕ → α) :
    w.apply mem i = mem i := by
  rw [apply]
  by_cases hlt : i < w.off
  · rw [if_pos hlt]
  · rw [if_neg hlt]
    refine List.getD_eq_default _ _ ?_
    have hge : w.off + w.data.length ≤ i :=
      Nat.not_lt.mp fun hin => h ⟨Nat.not_lt.mp hlt, hin⟩
    omega

theorem apply_of_covers {w : Write α} {i : ℕ} (h : w.Covers i) (mem mem' : ℕ → α) :
    w.apply mem i = w.apply mem' i := by
  obtain ⟨hle, hlt⟩ := h
  have hin : i - w.off < w.data.length := by omega
  rw [apply, apply, if_neg (Nat.not_lt.mpr hle), if_neg (Nat.not_lt.mpr hle),
    List.getD_eq_getElem _ _ hin, List.getD_eq_getElem _ _ hin]

/-- What one cell held before matters at most to that cell. -/
theorem apply_congr (w : Write α) {mem mem' : ℕ → α} {i : ℕ} (h : mem i = mem' i) :
    w.apply mem i = w.apply mem' i := by
  rw [apply, apply, h]

end Write

/-- The block after some writes, the first one first. -/
def fill (ws : List (Write α)) (mem : ℕ → α) : ℕ → α :=
  ws.foldl (fun mem w => w.apply mem) mem

/-- The first `size` cells of a block. -/
def contents (size : ℕ) (mem : ℕ → α) : List α := (List.range size).map mem

@[simp] theorem length_contents (size : ℕ) (mem : ℕ → α) : (contents size mem).length = size := by
  simp [contents]

theorem take_contents {n size : ℕ} (h : n ≤ size) (mem : ℕ → α) :
    (contents size mem).take n = contents n mem := by
  rw [contents, ← List.map_take, List.take_range, Nat.min_eq_left h, contents]

theorem contents_eq_iff {size : ℕ} {mem mem' : ℕ → α} :
    contents size mem = contents size mem' ↔ ∀ i < size, mem i = mem' i := by
  simp [contents]

@[simp] theorem fill_nil (mem : ℕ → α) : fill [] mem = mem := rfl

@[simp] theorem fill_cons (w : Write α) (ws : List (Write α)) (mem : ℕ → α) :
    fill (w :: ws) mem = fill ws (w.apply mem) := rfl

theorem fill_congr {ws : List (Write α)} {mem mem' : ℕ → α} {i : ℕ} (h : mem i = mem' i) :
    fill ws mem i = fill ws mem' i := by
  induction ws generalizing mem mem' with
  | nil => exact h
  | cons w ws ih => exact ih (w.apply_congr h)

/-- What holds of a cell and survives every write holds in the end. -/
theorem fill_induction {P : α → Prop} {ws : List (Write α)} {mem : ℕ → α} {i : ℕ}
    (hmem : P (mem i)) (hws : ∀ w ∈ ws, ∀ mem : ℕ → α, P (mem i) → P (w.apply mem i)) :
    P (fill ws mem i) := by
  induction ws generalizing mem with
  | nil => exact hmem
  | cons w ws ih =>
    exact ih (hws w List.mem_cons_self mem hmem) fun v hv => hws v (List.mem_cons_of_mem w hv)

/-- A cell that no write assigns keeps what it held. -/
theorem fill_of_not_covered {ws : List (Write α)} {i : ℕ} (h : ∀ w ∈ ws, ¬ w.Covers i)
    (mem : ℕ → α) : fill ws mem i = mem i := by
  induction ws generalizing mem with
  | nil => rfl
  | cons w ws ih =>
    rw [fill_cons, ih fun w' hw' => h w' (List.mem_cons_of_mem _ hw'),
      w.apply_of_not_covers (h w List.mem_cons_self)]

/-- A cell that some write assigns has a value of its own. -/
theorem fill_of_covered {ws : List (Write α)} {i : ℕ} (h : ∃ w ∈ ws, w.Covers i)
    (mem mem' : ℕ → α) : fill ws mem i = fill ws mem' i := by
  obtain ⟨w, hw, hcovers⟩ := h
  induction ws generalizing mem mem' with
  | nil => cases hw
  | cons v ws ih =>
    rcases List.mem_cons.mp hw with rfl | hw
    · rw [fill_cons, fill_cons]
      exact fill_congr (w.apply_of_covers hcovers mem mem')
    · exact ih _ _ hw

/-- The contents of a block do not depend on what it held if and only if all of them
are written. -/
theorem contents_fill_eq_iff [Nontrivial α] {ws : List (Write α)} {size : ℕ} :
    (∀ mem mem' : ℕ → α, contents size (fill ws mem) = contents size (fill ws mem')) ↔
      ∀ i < size, ∃ w ∈ ws, w.Covers i := by
  constructor
  · intro h i hi
    by_contra hnot
    have hnone : ∀ w ∈ ws, ¬ w.Covers i := fun w hw hcovers => hnot ⟨w, hw, hcovers⟩
    obtain ⟨a, b, hab⟩ := exists_pair_ne α
    have hcell := contents_eq_iff.mp (h (fun _ => a) fun _ => b) i hi
    rw [fill_of_not_covered hnone, fill_of_not_covered hnone] at hcell
    exact hab hcell
  · intro h mem mem'
    exact contents_eq_iff.mpr fun i hi => fill_of_covered (h i hi) mem mem'

/-- The cells of a block from `off` on. -/
def region (off len : ℕ) (mem : ℕ → α) : List α := (List.range len).map fun i => mem (off + i)

theorem region_eq_iff {off len : ℕ} {mem mem' : ℕ → α} :
    region off len mem = region off len mem' ↔ ∀ i < len, mem (off + i) = mem' (off + i) := by
  simp [region]

/-- What a write assigns is there. -/
theorem region_apply (w : Write α) (mem : ℕ → α) :
    region w.off w.data.length (w.apply mem) = w.data := by
  refine List.ext_getElem (by simp [region]) fun i _ h => ?_
  have hbehind : ¬ w.off + i < w.off := by omega
  simp only [region, List.getElem_map, List.getElem_range, Write.apply, if_neg hbehind,
    Nat.add_sub_cancel_left]
  exact List.getD_eq_getElem _ _ h

/-- It stays there if no later write assigns any of it. -/
theorem region_fill {w : Write α} {ws ws' : List (Write α)} (mem : ℕ → α)
    (h : ∀ v ∈ ws', ∀ i < w.data.length, ¬ v.Covers (w.off + i)) :
    region w.off w.data.length (fill (ws ++ w :: ws') mem) = w.data := by
  have hfill : fill (ws ++ w :: ws') mem = fill ws' (w.apply (fill ws mem)) := List.foldl_append
  rw [hfill]
  refine Eq.trans (region_eq_iff.mpr fun i hi => ?_) (region_apply w (fill ws mem))
  exact fill_of_not_covered (fun v hv => h v hv i hi) _

/-- Writes that are apart from each other are all there in the end. -/
theorem region_fill_of_pairwise {ws : List (Write α)}
    (h : ws.Pairwise fun w v => ∀ i < w.data.length, ¬ v.Covers (w.off + i)) {w : Write α}
    (hw : w ∈ ws) (mem : ℕ → α) : region w.off w.data.length (fill ws mem) = w.data := by
  obtain ⟨ws₁, ws₂, rfl⟩ := List.append_of_mem hw
  have htail := (List.pairwise_append.mp h).2.1
  exact region_fill mem (List.pairwise_cons.mp htail).1

theorem region_contents {size off len : ℕ} (h : off + len ≤ size) (mem : ℕ → α) :
    ((contents size mem).drop off).take len = region off len mem := by
  refine List.ext_getElem (by simp [region]; omega) fun i hi _ => ?_
  simp [region, contents]
end MemoryBlock
