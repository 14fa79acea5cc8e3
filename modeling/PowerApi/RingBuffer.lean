import Mathlib.Data.Fin.Basic
import Mathlib.Data.Fin.VecNotation
import Mathlib.Algebra.Group.Fin.Basic
import Mathlib.Tactic.Abel
import Mathlib.Data.List.Basic

/-!
# Ring buffers over a bounded FIFO

A ring of `N` cells with a `head` and a `tail` index: the cells `head + 1`, …,
`tail` (indices wrap) are occupied, oldest first, so a ring of `N` cells holds
at most `N - 1` elements and is empty when the indices meet.

`slots` reads the occupied cells off in order. The three ways a queue moves are
`write` (one cell behind the tail), `drop` (the oldest cell is given up) and
their combination; `slots_write` and `slots_drop` say what each does to the
contents, in terms of lists.
-/

universe u

/-- A ring of `N` cells. -/
structure RingBuffer (N : ℕ) (α : Type u) where
  head : Fin N
  tail : Fin N
  cell : Fin N → Option α

namespace RingBuffer

open scoped Fin.NatCast

variable {N : ℕ} [NeZero N] {α : Type u}

/-- The `k` cells behind index `h`, in order. -/
def walk (f : Fin N → Option α) : ℕ → Fin N → List (Option α)
  | 0, _ => []
  | k + 1, h => f (h + 1) :: walk f k (h + 1)

@[simp] theorem length_walk (f : Fin N → Option α) (k : ℕ) (h : Fin N) :
    (walk f k h).length = k := by
  induction k generalizing h with
  | zero => rfl
  | succ k ih => simp [walk, ih]

/-- Extend a walk by one cell at its end. -/
theorem walk_succ (f : Fin N → Option α) (k : ℕ) (h : Fin N) :
    walk f (k + 1) h = walk f k h ++ [f (h + ((k + 1 : ℕ) : Fin N))] := by
  induction k generalizing h with
  | zero => simp [walk]
  | succ k ih =>
    rw [walk, ih (h + 1), walk, List.cons_append]
    have hidx : h + 1 + ((k + 1 : ℕ) : Fin N) = h + ((k + 1 + 1 : ℕ) : Fin N) := by
      push_cast
      abel
    rw [hidx]

/-- A write outside the walked cells is not seen. -/
theorem walk_update {f : Fin N → Option α} {k : ℕ} {h t : Fin N} {x : Option α}
    (hout : ∀ i, i < k → t ≠ h + ((i + 1 : ℕ) : Fin N)) :
    walk (Function.update f t x) k h = walk f k h := by
  induction k generalizing h with
  | zero => rfl
  | succ k ih =>
    have h0 : h + 1 ≠ t := by
      have := hout 0 (by omega)
      simpa using this.symm
    rw [walk, walk, Function.update_of_ne h0, ih]
    intro i hi heq
    refine hout (i + 1) (by omega) ?_
    rw [heq]
    push_cast
    abel

/-- How many cells are occupied. -/
def size (b : RingBuffer N α) : ℕ := (b.tail - b.head).val

/-- The occupied cells, oldest first. -/
def slots (b : RingBuffer N α) : List (Option α) := walk b.cell b.size b.head

/-- The elements held, oldest first. -/
def toList (b : RingBuffer N α) : List α := b.slots.reduceOption

/-- No occupied cell is empty. -/
def WF (b : RingBuffer N α) : Prop := ∀ x ∈ b.slots, x.isSome

/-- All indices at 0, all cells empty. -/
def empty : RingBuffer N α := ⟨0, 0, fun _ => none⟩

omit [NeZero N] in
theorem size_lt (b : RingBuffer N α) : b.size < N := (b.tail - b.head).isLt

@[simp] theorem length_slots (b : RingBuffer N α) : b.slots.length = b.size := length_walk _ _ _

theorem size_eq_zero {b : RingBuffer N α} : b.size = 0 ↔ b.head = b.tail := by
  rw [size, Fin.val_eq_zero_iff, sub_eq_zero, eq_comm]

/-- The tail is `size` cells behind the head. -/
theorem tail_eq (b : RingBuffer N α) : b.tail = b.head + ((b.size : ℕ) : Fin N) := by
  rw [size, Fin.cast_val_eq_self]
  abel

theorem slots_eq_nil {b : RingBuffer N α} : b.slots = [] ↔ b.head = b.tail := by
  rw [← List.length_eq_zero_iff, length_slots, size_eq_zero]

/-- Small offsets from one index are different cells. -/
theorem offset_inj {h : Fin N} {i j : ℕ} (hi : i < N) (hj : j < N)
    (heq : h + ((i : ℕ) : Fin N) = h + ((j : ℕ) : Fin N)) : i = j := by
  have hc := congrArg Fin.val (add_left_cancel heq)
  rwa [Fin.val_natCast, Fin.val_natCast, Nat.mod_eq_of_lt hi, Nat.mod_eq_of_lt hj] at hc

/-! ## Moving the tail -/

/-- Store behind the tail. -/
def write (b : RingBuffer N α) (m : α) : RingBuffer N α :=
  { b with tail := b.tail + 1, cell := Function.update b.cell (b.tail + 1) (some m) }

theorem size_write {b : RingBuffer N α} (m : α) (hfull : b.tail + 1 ≠ b.head) :
    (b.write m).size = b.size + 1 := by
  have hsub : (b.write m).tail - (b.write m).head = (b.tail - b.head) + 1 := by
    simp only [write]
    abel
  have hlt : b.size + 1 < N := by
    refine lt_of_le_of_ne (Nat.succ_le_of_lt b.size_lt) fun heq => hfull ?_
    have hN : ((b.size + 1 : ℕ) : Fin N) = 0 := by rw [heq]; exact Fin.natCast_self N
    rw [tail_eq b, add_assoc, ← Nat.cast_one, ← Nat.cast_add, hN, add_zero]
  rw [size, hsub]
  have hcast : (b.tail - b.head) + 1 = ((b.size + 1 : ℕ) : Fin N) := by
    rw [Nat.cast_add, Nat.cast_one, size, Fin.cast_val_eq_self]
  rw [hcast, Fin.val_natCast, Nat.mod_eq_of_lt hlt]

/-- Writing to a ring that is not full appends. -/
theorem slots_write {b : RingBuffer N α} (m : α) (hfull : b.tail + 1 ≠ b.head) :
    (b.write m).slots = b.slots ++ [some m] := by
  have hsz := size_write m hfull
  have hlt : b.size + 1 < N := hsz ▸ (b.write m).size_lt
  have htail : b.tail + 1 = b.head + ((b.size + 1 : ℕ) : Fin N) := by
    rw [tail_eq b, Nat.cast_add, Nat.cast_one, add_assoc]
  rw [slots, hsz, walk_succ, slots]
  have hlast : (b.write m).cell ((b.write m).head + ((b.size + 1 : ℕ) : Fin N)) = some m := by
    simp only [write, htail, Function.update_self]
  rw [hlast]
  congr 1
  simp only [write]
  refine walk_update fun i hi heq => ?_
  rw [htail] at heq
  have := offset_inj hlt (by omega) heq
  omega

/-! ## Moving the head -/

/-- Give up the oldest cell. -/
def drop (b : RingBuffer N α) : RingBuffer N α :=
  { b with head := b.head + 1, cell := Function.update b.cell (b.head + 1) none }

theorem size_drop {b : RingBuffer N α} (hne : b.head ≠ b.tail) : b.size = b.drop.size + 1 := by
  have hpos : 0 < b.size := Nat.pos_of_ne_zero fun h => hne (size_eq_zero.mp h)
  have hsub : b.drop.tail - b.drop.head = ((b.size - 1 : ℕ) : Fin N) := by
    have hsplit : ((b.size : ℕ) : Fin N) = ((b.size - 1 : ℕ) : Fin N) + 1 := by
      conv_lhs => rw [← Nat.sub_add_cancel hpos, Nat.cast_add, Nat.cast_one]
    have htail := tail_eq b
    simp only [drop]
    rw [htail, hsplit]
    abel
  have hlt := b.size_lt
  have hval : b.drop.size = b.size - 1 := by
    rw [size, hsub, Fin.val_natCast, Nat.mod_eq_of_lt (by omega)]
  omega

/-- Dropping from a nonempty ring removes the oldest cell and nothing else. -/
theorem slots_drop {b : RingBuffer N α} (hne : b.head ≠ b.tail) :
    b.slots = b.cell (b.head + 1) :: b.drop.slots := by
  have hsz := size_drop hne
  have hlt := b.size_lt
  rw [slots, hsz, walk]
  congr 1
  refine (walk_update (k := b.drop.size) fun i hi heq => ?_).symm
  have hidx : b.head + 1 + ((i + 1 : ℕ) : Fin N) = b.head + ((1 + (i + 1) : ℕ) : Fin N) := by
    rw [Nat.cast_add 1, Nat.cast_one, add_assoc]
  rw [hidx, ← Nat.cast_one] at heq
  have := offset_inj (i := 1) (j := 1 + (i + 1)) (by omega) (by omega) heq
  omega

/-- Behind a drop there is room for a write. -/
theorem drop_not_full {b : RingBuffer N α} (hne : b.head ≠ b.tail) :
    b.drop.tail + 1 ≠ b.drop.head := by
  intro heq
  simp only [drop] at heq
  exact hne (add_right_cancel heq).symm

end RingBuffer
