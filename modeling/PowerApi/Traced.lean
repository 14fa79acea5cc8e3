import Mathlib.Data.Set.Defs
import Mathlib.Logic.Function.Basic
import Mathlib.Tactic.Linarith

/-!
# Memory with a record of its accesses

Cells are numbered by integers, so that a cursor can also leave a block at its front. A
`Traced` memory keeps beside its contents which cells were read and which were written;
`Inside` bounds them. `scan` is the loop that moves a cursor while a test passes: `scan_eq`
says where it stops, `scan_reads` what it has read by then.

`Copied` is the invariant of a loop that copies cells in place, one by one from the front, to
where they begin or to cells before: what it still has to read is what was there at first.
-/

universe u

/-- A memory, the cells that were read, and the cells that were written. -/
structure Traced (α : Type u) where
  mem : ℤ → α
  reads : List ℤ
  writes : List ℤ

namespace Traced

variable {α : Type u}

/-- Nothing has been accessed. -/
def start (mem : ℤ → α) : Traced α := ⟨mem, [], []⟩

/-- A cell is read; what is in it is `t.mem i`. -/
def read (t : Traced α) (i : ℤ) : Traced α := { t with reads := i :: t.reads }

/-- A cell is written. -/
def write (t : Traced α) (i : ℤ) (a : α) : Traced α :=
  ⟨Function.update t.mem i a, t.reads, i :: t.writes⟩

@[simp] theorem mem_start (mem : ℤ → α) : (start mem).mem = mem := rfl

@[simp] theorem mem_read (t : Traced α) (i : ℤ) : (t.read i).mem = t.mem := rfl

@[simp] theorem mem_write (t : Traced α) (i : ℤ) (a : α) :
    (t.write i a).mem = Function.update t.mem i a := rfl

/-- Only these cells were read, and only those written. -/
structure Inside (t : Traced α) (rd wr : Set ℤ) : Prop where
  reads : ∀ i ∈ t.reads, i ∈ rd
  writes : ∀ i ∈ t.writes, i ∈ wr

variable {t : Traced α} {rd wr : Set ℤ} {i : ℤ}

theorem inside_start (mem : ℤ → α) (rd wr : Set ℤ) : (start mem).Inside rd wr := ⟨nofun, nofun⟩

theorem Inside.read (h : t.Inside rd wr) (hi : i ∈ rd) : (t.read i).Inside rd wr :=
  ⟨List.forall_mem_cons.mpr ⟨hi, h.reads⟩, h.writes⟩

theorem Inside.write (h : t.Inside rd wr) (hi : i ∈ wr) (a : α) : (t.write i a).Inside rd wr :=
  ⟨h.reads, List.forall_mem_cons.mpr ⟨hi, h.writes⟩⟩

/-! ## Lists in cells -/

/-- The list is in the cells from `i` on. -/
def Cells (mem : ℤ → α) : ℤ → List α → Prop
  | _, [] => True
  | i, x :: xs => mem i = x ∧ Cells mem (i + 1) xs

theorem cells_append {mem : ℤ → α} {xs ys : List α} :
    Cells mem i (xs ++ ys) ↔ Cells mem i xs ∧ Cells mem (i + xs.length) ys := by
  induction xs generalizing i with
  | nil => simp [Cells]
  | cons x xs ih =>
    have hlen : i + 1 + (xs.length : ℤ) = i + ((x :: xs).length : ℤ) := by
      rw [List.length_cons]
      omega
    rw [List.cons_append, Cells, Cells, ih, hlen, and_assoc]

/-- Every element is in its cell. -/
theorem cells_iff {mem : ℤ → α} {xs : List α} :
    Cells mem i xs ↔ ∀ (k : ℕ) (hk : k < xs.length), mem (i + k) = xs[k] := by
  induction xs generalizing i with
  | nil => simp [Cells]
  | cons x xs ih =>
    rw [Cells, ih]
    constructor
    · rintro ⟨hx, hxs⟩ (_ | k) hk
      · simpa using hx
      · have hpos : i + ((k + 1 : ℕ) : ℤ) = i + 1 + (k : ℤ) := by omega
        rw [hpos]
        exact hxs k (Nat.lt_of_succ_lt_succ hk)
    · intro h
      refine ⟨by simpa using h 0 (Nat.succ_pos _), fun k hk => ?_⟩
      have hpos : i + 1 + (k : ℤ) = i + ((k + 1 : ℕ) : ℤ) := by omega
      rw [hpos]
      exact h (k + 1) (Nat.succ_lt_succ hk)

/-- Only the cells of the list matter. -/
theorem Cells.congr {mem mem' : ℤ → α} {xs : List α} (h : Cells mem i xs)
    (hsame : ∀ j, i ≤ j → j < i + xs.length → mem' j = mem j) : Cells mem' i xs :=
  cells_iff.mpr fun k hk =>
    (hsame (i + k) (by omega) (by omega)).trans (cells_iff.mp h k hk)

/-! ## Moving a cursor -/

/-- Move a cursor while it may go on and the test passes. -/
def scan (more : ℤ → Bool) (test : α → Bool) (next : ℤ → ℤ) :
    ℕ → ℤ → Traced α → Option (ℤ × Traced α)
  | 0, _, _ => none
  | fuel + 1, i, t =>
    if more i then
      if test (t.mem i) then scan more test next fuel (next i) (t.read i) else some (i, t.read i)
    else some (i, t)

variable {more : ℤ → Bool} {test : α → Bool} {next : ℤ → ℤ} {fuel : ℕ}

/-- It stops at the first position where it may not go on or the test fails, and has read no
others than those up to there. -/
theorem scan_eq {pos : ℕ → ℤ} {n : ℕ} (hnext : ∀ k < n, next (pos k) = pos (k + 1))
    (hrun : ∀ k < n, more (pos k) = true ∧ test (t.mem (pos k)) = true)
    (hstop : more (pos n) = false ∨ test (t.mem (pos n)) = false) (hfuel : n < fuel) :
    ∃ t', scan more test next fuel (pos 0) t = some (pos n, t') ∧ t'.mem = t.mem ∧
      ∀ rd wr, t.Inside rd wr → (∀ k ≤ n, pos k ∈ rd) → t'.Inside rd wr := by
  induction n generalizing pos t fuel with
  | zero =>
    obtain ⟨fuel, rfl⟩ := Nat.exists_eq_succ_of_ne_zero (Nat.ne_of_gt hfuel)
    rw [scan]
    cases hmore : more (pos 0) with
    | false => exact ⟨t, if_neg nofun, rfl, fun _ _ h _ => h⟩
    | true =>
      have htest : test (t.mem (pos 0)) = false := hstop.resolve_left (by simp [hmore])
      rw [if_pos rfl, htest]
      exact ⟨_, rfl, rfl, fun _ _ h hpos => h.read (hpos 0 le_rfl)⟩
  | succ n ih =>
    obtain ⟨fuel, rfl⟩ := Nat.exists_eq_succ_of_ne_zero (Nat.ne_of_gt (Nat.zero_lt_of_lt hfuel))
    obtain ⟨hmore, htest⟩ := hrun 0 (Nat.succ_pos n)
    obtain ⟨t', heq, hmem, hin⟩ := @ih (t.read (pos 0)) fuel (fun k => pos (k + 1))
      (fun k hk => hnext (k + 1) (Nat.succ_lt_succ hk))
      (fun k hk => hrun (k + 1) (Nat.succ_lt_succ hk)) hstop (Nat.lt_of_succ_lt_succ hfuel)
    rw [scan, if_pos hmore, if_pos htest, hnext 0 (Nat.succ_pos n)]
    refine ⟨t', heq, hmem, fun rd wr h hpos => ?_⟩
    exact hin rd wr (h.read (hpos 0 (Nat.zero_le _))) fun k hk => hpos (k + 1) (Nat.succ_le_succ hk)

/-- More time changes nothing. -/
theorem scan_fuel {fuel' : ℕ} {r : ℤ × Traced α} (h : scan more test next fuel i t = some r)
    (hle : fuel ≤ fuel') : scan more test next fuel' i t = some r := by
  induction fuel generalizing i t fuel' with
  | zero => cases h
  | succ fuel ih =>
    obtain ⟨fuel', rfl⟩ := Nat.exists_eq_succ_of_ne_zero (Nat.ne_of_gt (Nat.zero_lt_of_lt hle))
    rw [scan] at h ⊢
    split at h
    · rename_i hmore
      rw [if_pos hmore]
      split at h
      · rename_i htest
        rw [if_pos htest]
        exact @ih (t.read i) (next i) fuel' h (Nat.le_of_succ_le_succ hle)
      · rename_i htest
        rwa [if_neg htest]
    · rename_i hmore
      rwa [if_neg hmore]

/-- What has been read stays read. -/
theorem scan_mono {r : ℤ × Traced α} (h : scan more test next fuel i t = some r) :
    ∀ j ∈ t.reads, j ∈ r.2.reads := by
  induction fuel generalizing i t with
  | zero => cases h
  | succ fuel ih =>
    rw [scan] at h
    split at h
    · split at h
      · exact fun j hj => ih h j (List.mem_cons_of_mem i hj)
      · cases h
        exact fun j hj => List.mem_cons_of_mem i hj
    · cases h
      exact fun j hj => hj

/-- Nothing is written. -/
theorem scan_mem {r : ℤ × Traced α} (h : scan more test next fuel i t = some r) :
    r.2.mem = t.mem := by
  induction fuel generalizing i t with
  | zero => cases h
  | succ fuel ih =>
    rw [scan] at h
    split at h
    · split at h
      · exact @ih (t.read i) (next i) h
      · cases h
        rfl
    · cases h
      rfl

/-- A cursor that may always go on reads the position behind those where the test passes. -/
theorem scan_reads {r : ℤ × Traced α} {pos : ℕ → ℤ} {n : ℕ}
    (h : scan (fun _ => true) test next fuel (pos 0) t = some r)
    (hnext : ∀ k < n, next (pos k) = pos (k + 1)) (hrun : ∀ k < n, test (t.mem (pos k)) = true) :
    pos n ∈ r.2.reads := by
  induction n generalizing pos t fuel with
  | zero =>
    cases fuel with
    | zero => cases h
    | succ fuel =>
      rw [scan, if_pos rfl] at h
      split at h
      · exact scan_mono h (pos 0) List.mem_cons_self
      · cases h
        exact List.mem_cons_self
  | succ n ih =>
    cases fuel with
    | zero => cases h
    | succ fuel =>
      rw [scan, if_pos rfl, if_pos (hrun 0 (Nat.succ_pos n)), hnext 0 (Nat.succ_pos n)] at h
      exact @ih (t.read (pos 0)) fuel (fun k => pos (k + 1)) h
        (fun k hk => hnext (k + 1) (Nat.succ_lt_succ hk))
        fun k hk => hrun (k + 1) (Nat.succ_lt_succ hk)

/-- A cursor that stops has stopped at the first such position. -/
theorem scan_stop {r : ℤ × Traced α} {pos : ℕ → ℤ} {n : ℕ}
    (h : scan more test next fuel (pos 0) t = some r) (hnext : ∀ k < n, next (pos k) = pos (k + 1))
    (hrun : ∀ k < n, more (pos k) = true ∧ test (t.mem (pos k)) = true)
    (hstop : more (pos n) = false ∨ test (t.mem (pos n)) = false) : r.1 = pos n := by
  induction n generalizing pos t fuel with
  | zero =>
    cases fuel with
    | zero => cases h
    | succ fuel =>
      rw [scan] at h
      split at h
      · rename_i hmore
        have htest := hstop.resolve_left (by simp [hmore])
        rw [htest] at h
        cases h
        rfl
      · cases h
        rfl
  | succ n ih =>
    cases fuel with
    | zero => cases h
    | succ fuel =>
      obtain ⟨hmore, htest⟩ := hrun 0 (Nat.succ_pos n)
      rw [scan, if_pos hmore, if_pos htest, hnext 0 (Nat.succ_pos n)] at h
      exact @ih (t.read (pos 0)) fuel (fun k => pos (k + 1)) h
        (fun k hk => hnext (k + 1) (Nat.succ_lt_succ hk))
        (fun k hk => hrun (k + 1) (Nat.succ_lt_succ hk)) hstop

/-! ## Copying in place -/

/-- The first `k` cells from `src` on have been copied to `dst` on, the first one first. -/
def Copied (mem₀ mem : ℤ → α) (dst src : ℤ) (k : ℕ) : Prop :=
  ∀ i, mem i = if dst ≤ i ∧ i < dst + k then mem₀ (i + (src - dst)) else mem₀ i

variable {mem₀ mem : ℤ → α} {dst src : ℤ} {k : ℕ}

theorem copied_zero (mem : ℤ → α) (dst src : ℤ) : Copied mem mem dst src 0 :=
  fun i => (if_neg (by omega)).symm

/-- The cells behind are as they were. -/
theorem Copied.behind (h : Copied mem₀ mem dst src k) (hi : dst + k ≤ i) : mem i = mem₀ i := by
  rw [h, if_neg (by omega)]

/-- The next cell is copied. -/
theorem Copied.step (h : Copied mem₀ mem dst src k) (hle : dst ≤ src) :
    Copied mem₀ (Function.update mem (dst + k) (mem (src + k))) dst src (k + 1) := by
  intro i
  by_cases hi : i = dst + k
  · subst hi
    have hsrc : dst + k + (src - dst) = src + k := by omega
    rw [Function.update_self, if_pos (by omega), hsrc, h.behind (by omega)]
  · rw [Function.update_of_ne hi, h]
    by_cases hin : dst ≤ i ∧ i < dst + k
    · rw [if_pos hin, if_pos (by omega)]
    · rw [if_neg hin, if_neg (by omega)]

/-- A list that was in the cells from `src` on is in those from `dst` on. -/
theorem Copied.cells {xs : List α} (h : Copied mem₀ mem dst src k) (hxs : Cells mem₀ src xs)
    (hk : xs.length ≤ k) : Cells mem dst xs := by
  refine cells_iff.mpr fun j hj => ?_
  have hpos : dst + j + (src - dst) = src + j := by omega
  rw [h, if_pos (by omega), hpos]
  exact cells_iff.mp hxs j hj

end Traced
