import Mathlib.Data.BitVec

/-!
# Cyclic redundancy checks

A register of `w` bits is divided by a polynomial bit by bit, the lowest bit first: `step`
shifts the register down and subtracts the polynomial if a bit falls out. A symbol of `k`
bits is added to the low end of the register, which is then divided `k` times (`feed`).

`step` is linear, and as long as zeros fall out it only shifts. So `k` steps are those of
the low `k` bits, which a table can hold, and a shift of the others (`steps_eq_low`).
-/

namespace Crc

variable {w k : ℕ} (poly : BitVec w)

/-- One step of the division. -/
def step (crc : BitVec w) : BitVec w :=
  if crc.getLsbD 0 then (crc >>> 1) ^^^ poly else crc >>> 1

/-- Some steps of the division. -/
def steps : ℕ → BitVec w → BitVec w
  | 0, crc => crc
  | n + 1, crc => steps n (step poly crc)

/-- A symbol goes into the register. -/
def feed (crc : BitVec w) (b : BitVec k) : BitVec w := steps poly k (crc ^^^ b.setWidth w)

/-- The check value of some symbols, from an initial register and with a mask at the end. -/
def checksum (init xorOut : BitVec w) (symbols : List (BitVec k)) : BitVec w :=
  symbols.foldl (feed poly) init ^^^ xorOut

variable {poly}

/-! ## The division is linear -/

theorem step_xor (x y : BitVec w) : step poly (x ^^^ y) = step poly x ^^^ step poly y := by
  simp only [step, BitVec.getLsbD_xor, BitVec.ushiftRight_xor_distrib]
  cases x.getLsbD 0 <;> cases y.getLsbD 0
  · simp
  · simp [BitVec.xor_assoc]
  · simp only [Bool.xor_false, if_true, Bool.false_eq_true, if_false]
    rw [BitVec.xor_assoc, BitVec.xor_comm _ poly, BitVec.xor_assoc]
  · -- the polynomial is subtracted on both sides
    simp only [Bool.xor_self, Bool.false_eq_true, if_false, if_true]
    rw [BitVec.xor_assoc, BitVec.xor_comm (y >>> 1), ← BitVec.xor_assoc poly, BitVec.xor_self,
      BitVec.zero_xor]

theorem steps_xor (n : ℕ) (x y : BitVec w) :
    steps poly n (x ^^^ y) = steps poly n x ^^^ steps poly n y := by
  induction n generalizing x y with
  | zero => rfl
  | succ n ih =>
    rw [steps, step_xor, ih]
    rfl

/-- As long as zeros fall out, the register is shifted. -/
theorem steps_of_low_clear {n : ℕ} {x : BitVec w} (h : ∀ i < n, x.getLsbD i = false) :
    steps poly n x = x >>> n := by
  induction n generalizing x with
  | zero => simp [steps]
  | succ n ih =>
    have hstep : step poly x = x >>> 1 := by simp [step, h 0 n.succ_pos]
    rw [steps, hstep, ih]
    · rw [← BitVec.shiftRight_add, Nat.add_comm]
    · intro i hi
      rw [BitVec.getLsbD_ushiftRight]
      exact h (1 + i) (by omega)

/-! ## The table -/

/-- The low `k` bits of a register. -/
def low (k : ℕ) (x : BitVec w) : BitVec w := (x.setWidth k).setWidth w

/-- Division by as many steps as the table is wide. -/
theorem steps_eq_low (k : ℕ) (x : BitVec w) :
    steps poly k x = steps poly k (low k x) ^^^ (x >>> k) := by
  have hsplit : x = low k x ^^^ (x ^^^ low k x) := by
    rw [BitVec.xor_comm x, ← BitVec.xor_assoc, BitVec.xor_self, BitVec.zero_xor]
  have hclear : ∀ i < k, (x ^^^ low k x).getLsbD i = false := by
    intro i hi
    by_cases hw : i < w
    · simp [low, hi, hw]
    · simp [low, hi, hw, BitVec.getLsbD_of_ge x i (by omega)]
  have hshift : (x ^^^ low k x) >>> k = x >>> k := by
    apply BitVec.eq_of_getLsbD_eq
    intro i hi
    simp [low, BitVec.getLsbD_ushiftRight, BitVec.getLsbD_xor]
  conv_lhs => rw [hsplit]
  rw [steps_xor, steps_of_low_clear hclear, hshift]

/-- What a table of the divisions of all symbols is good for: the steps of a symbol are one
access and a shift. -/
theorem feed_eq_table (hk : k ≤ w) (crc : BitVec w) (b : BitVec k) :
    feed poly crc b =
      steps poly k ((crc.setWidth k ^^^ b).setWidth w) ^^^ (crc >>> k) := by
  have hlow : low k (crc ^^^ b.setWidth w) = (crc.setWidth k ^^^ b).setWidth w := by
    rw [low, BitVec.setWidth_xor, BitVec.setWidth_setWidth_of_le _ hk, BitVec.setWidth_eq]
  have hshift : (crc ^^^ b.setWidth w) >>> k = crc >>> k := by
    rw [BitVec.ushiftRight_xor_distrib]
    apply BitVec.eq_of_getLsbD_eq
    intro i hi
    simp
  rw [feed, steps_eq_low, hlow, hshift]

end Crc
