import PowerApi.Buffer
import PowerApi.BoundedFifo

/-!
# The message queue over whole runs (`pwrbuffer.c`, queue part)

`queueStep` is one call of `AddToBufferTail` or `PopFromBufferHead`, with what it
hands back: the message released to make room, or the message returned. The
ring refines the bounded queue of 63 elements: `queue_refines` carries
`BoundedFifo.step` through every sequence of calls.

`ResetPwrMsgBuffer` gives the cells from `head` up to, not including, `tail` to
`ReleasePwrMsg`. The occupied cells are those behind `head` up to and including
`tail`: the cell it starts at is always empty (`HeadFree`), and the newest
message is never reached.
-/

namespace PowerApi

open RingBuffer BoundedFifo

universe u

variable {α : Type u}

/-- One call on a queue, and what it hands back. -/
def queueStep (smb : PwrMsgBuffer α) : Op α → PwrMsgBuffer α × Out α
  | .add newMsg =>
    let (smb', released) := addToBufferTail smb newMsg
    (smb', .released released)
  | .pop =>
    let (returned, smb') := popFromBufferHead smb
    (smb', .returned returned)

/-- How many messages a queue can hold. -/
abbrev pwrBufferCapacity : ℕ := pwrBufferSize - 1

/-! ## Refinement -/

/-- The ring `smb` holds exactly the messages `l`, oldest first. -/
def Holds (smb : PwrMsgBuffer α) (l : List α) : Prop := smb.slots = l.map some

theorem Holds.toList {smb : PwrMsgBuffer α} {l : List α} (h : Holds smb l) : smb.toList = l := by
  rw [RingBuffer.toList, h, List.reduceOption, List.filterMap_map, Function.id_comp,
    List.filterMap_some]

theorem Holds.isEmptyBuffer {smb : PwrMsgBuffer α} {l : List α} (h : Holds smb l) :
    isEmptyBuffer smb = true ↔ l = [] := by
  rw [isEmptyBuffer_iff, ← slots_eq_nil, h, List.map_eq_nil_iff]

theorem holds_initPwrMsgBuffer : Holds (initPwrMsgBuffer : PwrMsgBuffer α) [] := rfl

theorem Holds.size {smb : PwrMsgBuffer α} {l : List α} (h : Holds smb l) :
    l.length = smb.size := by
  rw [← length_slots, h, List.length_map]

/-- The ring is full when the index behind the tail is the head. -/
theorem size_eq_of_full {smb : PwrMsgBuffer α} :
    smb.tail + 1 = smb.head ↔ smb.size = pwrBufferCapacity := by
  have hlt := smb.size_lt
  rw [RingBuffer.size]
  constructor
  · intro h
    rw [← h]
    simp
  · intro h
    have htail := smb.tail_eq
    rw [RingBuffer.size, h] at htail
    rw [htail, add_assoc]
    exact add_eq_left.mpr (by decide)

/-- An add, with what it releases. -/
theorem addToBufferTail_eq (smb : PwrMsgBuffer α) (m : α) :
    addToBufferTail smb m =
      if smb.tail + 1 = smb.head then (smb.drop.write m, smb.cell (smb.head + 1))
      else (smb.write m, none) := by
  by_cases hfull : smb.tail + 1 = smb.head
  · simp only [addToBufferTail, if_pos hfull, deleteFromHead]
    rw [if_neg (by rw [isEmptyBuffer_iff]; exact head_ne_tail_of_full hfull)]
    rfl
  · simp only [addToBufferTail, if_neg hfull]
    rfl

/-- The oldest message of a ring that is not empty, and what is behind it. -/
theorem Holds.drop {smb : PwrMsgBuffer α} {l : List α} (h : Holds smb l)
    (hne : smb.head ≠ smb.tail) :
    smb.cell (smb.head + 1) = l.head? ∧ Holds smb.drop l.tail := by
  have hcells : smb.cell (smb.head + 1) :: smb.drop.slots = l.map some :=
    (slots_drop hne).symm.trans h
  cases l with
  | nil => cases hcells
  | cons m l =>
    obtain ⟨hm, hrest⟩ := List.cons.inj hcells
    exact ⟨hm, hrest⟩

theorem Holds.write {smb : PwrMsgBuffer α} {l : List α} (m : α) (h : Holds smb l)
    (hroom : smb.tail + 1 ≠ smb.head) : Holds (smb.write m) (l ++ [m]) := by
  rw [Holds, slots_write m hroom, h, List.map_append]
  rfl

/-- A call on the ring answers as the list of 63 does, and leaves it holding the
list that this leaves. -/
theorem Holds.step {smb : PwrMsgBuffer α} {l : List α} (op : Op α) (h : Holds smb l) :
    (queueStep smb op).2 = (BoundedFifo.step pwrBufferCapacity l op).2 ∧
      Holds (queueStep smb op).1 (BoundedFifo.step pwrBufferCapacity l op).1 := by
  cases op with
  | add m =>
    rw [queueStep, addToBufferTail_eq, BoundedFifo.step, h.size]
    by_cases hfull : smb.tail + 1 = smb.head
    · have hne := head_ne_tail_of_full hfull
      obtain ⟨hold, hrest⟩ := h.drop hne
      rw [if_pos hfull, if_pos (size_eq_of_full.mp hfull)]
      exact ⟨congrArg Out.released hold, hrest.write m (drop_not_full hne)⟩
    · rw [if_neg hfull, if_neg (mt size_eq_of_full.mpr hfull)]
      exact ⟨rfl, h.write m hfull⟩
  | pop =>
    rw [queueStep, popFromBufferHead_eq, BoundedFifo.step]
    by_cases hempty : smb.head = smb.tail
    · rw [if_pos hempty]
      obtain rfl := h.isEmptyBuffer.mp (isEmptyBuffer_iff.mpr hempty)
      exact ⟨rfl, h⟩
    · rw [if_neg hempty]
      obtain ⟨hold, hrest⟩ := h.drop hempty
      exact ⟨congrArg Out.returned hold, hrest⟩

/-- A queue after `InitPwrMsgBuffer` and the given calls, and what they handed back. -/
def queueRun (ops : List (Op α)) : PwrMsgBuffer α × List (Out α) :=
  Mealy.run queueStep initPwrMsgBuffer ops

/-- Every sequence of calls is answered as by the list, which the ring then holds. -/
theorem queueRun_simulates (ops : List (Op α)) :
    (queueRun ops).2 = (Mealy.run (BoundedFifo.step pwrBufferCapacity) [] ops).2 ∧
      Holds (queueRun ops).1 (Mealy.run (BoundedFifo.step pwrBufferCapacity) [] ops).1 :=
  Mealy.run_simulation (R := Holds) (fun op h => h.step op) ops holds_initPwrMsgBuffer

/-- What left the queue, in order, and then what it holds, is what was added. -/
theorem queueRun_conserves (ops : List (Op α)) :
    leftBy (queueRun ops).2 ++ (queueRun ops).1.toList = addedBy ops := by
  obtain ⟨hout, hend⟩ := queueRun_simulates ops
  rw [hout, hend.toList, conservation, List.nil_append]

/-- The queue is a bounded FIFO of 63 messages: it answers every sequence of adds
and pops as the list does, holds what the list holds, is empty when the list is,
never holds more than 63, and what left it and what it holds are together exactly
what was added, in the order it was added. -/
theorem queue_refines (ops : List (Op α)) :
    let fifo := Mealy.run (BoundedFifo.step pwrBufferCapacity) [] ops
    (queueRun ops).2 = fifo.2 ∧
      (queueRun ops).1.toList = fifo.1 ∧
      (isEmptyBuffer (queueRun ops).1 = true ↔ fifo.1 = []) ∧
      fifo.1.length ≤ 63 ∧
      leftBy (queueRun ops).2 ++ (queueRun ops).1.toList = addedBy ops := by
  obtain ⟨hout, hend⟩ := queueRun_simulates ops
  exact ⟨hout, hend.toList, hend.isEmptyBuffer, length_run_le (by decide) ops (Nat.zero_le _),
    queueRun_conserves ops⟩

/-! ## Resetting a queue -/

/-- The index gets closer to the tail until it meets it. -/
theorem distance_succ {i tail : Fin pwrBufferSize} (h : i ≠ tail) :
    (tail - i).val = (tail - (i + 1)).val + 1 :=
  size_drop (b := ⟨i, tail, fun _ => (none : Option Unit)⟩) h

/-- The loop of `ResetPwrMsgBuffer` from index `i` on, with what it releases. -/
def releaseUpTo (tail : Fin pwrBufferSize) (cell : Fin pwrBufferSize → Option α)
    (i : Fin pwrBufferSize) : (Fin pwrBufferSize → Option α) × List α :=
  if i = tail then (cell, [])
  else
    let r := releaseUpTo tail (Function.update cell i none) (i + 1)
    (r.1, (cell i).toList ++ r.2)
termination_by (tail - i).val
decreasing_by
  have := distance_succ ‹_›
  omega

/-- `ResetPwrMsgBuffer`, with what it releases. The indices stay as they are. -/
def resetPwrMsgBuffer (smb : PwrMsgBuffer α) : PwrMsgBuffer α × List α :=
  let r := releaseUpTo smb.tail smb.cell smb.head
  ({ smb with cell := r.1 }, r.2)

/-- The loop releases the cells from `i` up to, not including, the tail. -/
theorem releaseUpTo_released {tail : Fin pwrBufferSize} {k : ℕ} :
    ∀ {i : Fin pwrBufferSize} {cell : Fin pwrBufferSize → Option α}, (tail - i).val = k →
      (releaseUpTo tail cell i).2 = (walk cell k (i - 1)).reduceOption := by
  induction k with
  | zero =>
    intro i cell hk
    have hi : i = tail := (sub_eq_zero.mp (Fin.val_eq_zero_iff.mp hk)).symm
    rw [releaseUpTo, if_pos hi]
    rfl
  | succ k ih =>
    intro i cell hk
    have hi : i ≠ tail := by
      rintro rfl
      simp at hk
    have hnext : (tail - (i + 1)).val = k := by
      have := distance_succ hi
      omega
    -- the cell just cleared is not met again on the rest of the way round
    have hunseen : walk (Function.update cell i none) k i = walk cell k i := by
      refine walk_update fun j hj heq => ?_
      have hlt := (tail - i).isLt
      have := offset_inj (h := i) (i := 0) (j := j + 1) (by decide) (by omega) (by simpa using heq)
      omega
    rw [releaseUpTo, if_neg hi]
    change (cell i).toList ++ (releaseUpTo tail (Function.update cell i none) (i + 1)).2 = _
    rw [ih hnext, add_sub_cancel_right, hunseen, walk, sub_add_cancel]
    cases cell i <;> rfl

/-- The cell that `head` points to holds nothing. -/
def HeadFree (smb : PwrMsgBuffer α) : Prop := smb.cell smb.head = none

theorem HeadFree.drop (smb : PwrMsgBuffer α) : HeadFree smb.drop := by
  rw [HeadFree, RingBuffer.drop]
  exact Function.update_self ..

theorem HeadFree.write {smb : PwrMsgBuffer α} (m : α) (h : HeadFree smb)
    (hroom : smb.tail + 1 ≠ smb.head) : HeadFree (smb.write m) := by
  rw [HeadFree, RingBuffer.write]
  exact (Function.update_of_ne hroom.symm ..).trans h

theorem HeadFree.step {smb : PwrMsgBuffer α} (op : Op α) (h : HeadFree smb) :
    HeadFree (queueStep smb op).1 := by
  cases op with
  | add m =>
    rw [queueStep, addToBufferTail_eq]
    by_cases hfull : smb.tail + 1 = smb.head
    · rw [if_pos hfull]
      exact (HeadFree.drop smb).write m (drop_not_full (head_ne_tail_of_full hfull))
    · rw [if_neg hfull]
      exact h.write m hfull
  | pop =>
    rw [queueStep, popFromBufferHead_eq]
    by_cases hempty : smb.head = smb.tail
    · rw [if_pos hempty]
      exact h
    · rw [if_neg hempty]
      exact HeadFree.drop smb

/-- The reset releases all messages but the newest. -/
theorem resetPwrMsgBuffer_released {smb : PwrMsgBuffer α} {l : List α} (h : Holds smb l)
    (hfree : HeadFree smb) : (resetPwrMsgBuffer smb).2 = l.dropLast := by
  rw [resetPwrMsgBuffer, releaseUpTo_released (k := smb.size) rfl]
  have hslots : walk smb.cell smb.size smb.head = l.map some := h
  cases hsize : smb.size with
  | zero =>
    rw [hsize] at hslots
    obtain rfl := List.map_eq_nil_iff.mp hslots.symm
    rfl
  | succ k =>
    rw [hsize, walk_succ] at hslots
    have hcells : walk smb.cell k smb.head = l.dropLast.map some := by
      rw [List.map_dropLast, ← hslots, List.dropLast_concat]
    rw [walk, sub_add_cancel, hfree, hcells, List.reduceOption_cons_of_none, List.reduceOption,
      List.filterMap_map, Function.id_comp, List.filterMap_some]

theorem headFree_queueRun (ops : List (Op α)) : HeadFree (queueRun ops).1 :=
  Mealy.run_invariant (I := HeadFree) (fun h => h.step _) ops rfl

/-- The reset accounts for every message ever added, each exactly once, exactly
if it finds the queue empty: the newest message held is never released. -/
theorem queue_reset_releases_iff (ops : List (Op α)) :
    (leftBy (queueRun ops).2 ++ (resetPwrMsgBuffer (queueRun ops).1).2).Perm (addedBy ops) ↔
      isEmptyBuffer (queueRun ops).1 = true := by
  have hend := (queueRun_simulates ops).2
  have hadded := queueRun_conserves ops
  rw [hend.toList] at hadded
  rw [resetPwrMsgBuffer_released hend (headFree_queueRun ops), ← hadded,
    List.perm_append_left_iff, hend.isEmptyBuffer]
  constructor
  · intro hperm
    have := hperm.length_eq
    rw [List.length_dropLast] at this
    exact List.length_eq_zero_iff.mp (by omega)
  · intro hnil
    rw [hnil]
    exact List.Perm.refl _

/-- One message added and then a reset: the message is not released. -/
theorem queue_reset_keeps_message :
    ¬ ∀ ops : List (Op ℕ),
      (leftBy (queueRun ops).2 ++ (resetPwrMsgBuffer (queueRun ops).1).2).Perm (addedBy ops) := by
  intro h
  have hempty : (resetPwrMsgBuffer (queueRun [Op.add 7]).1).2 = [] := by
    have hend := (queueRun_simulates [Op.add 7]).2
    rw [resetPwrMsgBuffer_released hend (headFree_queueRun _)]
    rfl
  have hperm := h [.add 7]
  rw [hempty] at hperm
  exact absurd hperm (by decide)

end PowerApi
