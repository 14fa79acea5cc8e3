import PowerApi.RingBuffer
import PowerApi.Msg

/-!
# The message queue (`pwrbuffer.h`, `pwrbuffer.c`, queue part)

`PwrMsgBuffer` is the ring that both processes queue messages in: 64 cells, of
which 63 can be occupied. The functions are generic in what a queue entry is,
so that a proof can queue messages together with their history.

`addToBufferTail` on a full queue first releases the oldest entry; it returns
what it released. The theorems describe every operation by its effect on the
list of queued entries.
-/

namespace PowerApi

universe u

variable {α : Type u}

/-- `PWR_BUFFER_SIZE`. -/
abbrev pwrBufferSize : ℕ := 64

instance instNeZeroPwrBufferSize : NeZero pwrBufferSize := ⟨by decide⟩

/-- `PwrMsgBuffer`. -/
abbrev PwrMsgBuffer (α : Type u) : Type u := RingBuffer pwrBufferSize α

/-- `InitPwrMsgBuffer`: all of it zeroed. -/
def initPwrMsgBuffer : PwrMsgBuffer α := RingBuffer.empty

/-- `IsEmptyBuffer`. -/
def isEmptyBuffer (smb : PwrMsgBuffer α) : Bool := smb.head == smb.tail

/-- `DeleteFromHead`, with the entry that it releases. -/
def deleteFromHead (smb : PwrMsgBuffer α) : PwrMsgBuffer α × Option α :=
  if isEmptyBuffer smb then (smb, none)
  else
    let t := smb.head + 1
    ({ smb with head := t, cell := Function.update smb.cell t none }, smb.cell t)

/-- `AddToBufferTail`, with the entry that it releases to make room. -/
def addToBufferTail (smb : PwrMsgBuffer α) (newMsg : α) : PwrMsgBuffer α × Option α :=
  let t := smb.tail + 1
  let (smb', released) := if t = smb.head then deleteFromHead smb else (smb, none)
  ({ smb' with cell := Function.update smb'.cell t (some newMsg), tail := t }, released)

/-- `PopFromBufferHead`. -/
def popFromBufferHead (smb : PwrMsgBuffer α) : Option α × PwrMsgBuffer α :=
  if isEmptyBuffer smb then (none, smb)
  else
    let t := smb.head + 1
    (smb.cell t, { smb with head := t, cell := Function.update smb.cell t none })

/-- The queue after `AddToBufferTail`, whatever was released for it. -/
def enqueue (smb : PwrMsgBuffer α) (newMsg : α) : PwrMsgBuffer α :=
  (addToBufferTail smb newMsg).1

open RingBuffer

theorem isEmptyBuffer_iff {smb : PwrMsgBuffer α} : isEmptyBuffer smb = true ↔ smb.head = smb.tail := by
  simp [isEmptyBuffer]

@[simp] theorem toList_initPwrMsgBuffer : (initPwrMsgBuffer : PwrMsgBuffer α).toList = [] := rfl

/-- A full queue is not empty. -/
theorem head_ne_tail_of_full {smb : PwrMsgBuffer α} (h : smb.tail + 1 = smb.head) :
    smb.head ≠ smb.tail := by
  intro heq
  rw [← heq] at h
  exact absurd (left_eq_add.mp h.symm) (by decide)

/-- A pop takes the oldest entry, an empty queue gives NULL. -/
theorem popFromBufferHead_eq (smb : PwrMsgBuffer α) :
    popFromBufferHead smb =
      if smb.head = smb.tail then (none, smb) else (smb.cell (smb.head + 1), smb.drop) := by
  by_cases h : smb.head = smb.tail
  · rw [if_pos h, popFromBufferHead, if_pos (isEmptyBuffer_iff.mpr h)]
  · rw [if_neg h, popFromBufferHead, if_neg (by rw [isEmptyBuffer_iff]; exact h)]
    rfl

/-- An add is a write, behind a drop of the oldest entry if the queue is full. -/
theorem enqueue_eq (smb : PwrMsgBuffer α) (m : α) :
    enqueue smb m = if smb.tail + 1 = smb.head then smb.drop.write m else smb.write m := by
  by_cases h : smb.tail + 1 = smb.head
  · rw [if_pos h, enqueue, addToBufferTail]
    simp only [if_pos h, deleteFromHead]
    rw [if_neg (by rw [isEmptyBuffer_iff]; exact head_ne_tail_of_full h)]
    rfl
  · rw [if_neg h, enqueue, addToBufferTail]
    simp only [if_neg h]
    rfl

/-! ## Effect on the queued entries -/

theorem toList_drop_suffix (smb : PwrMsgBuffer α) (hne : smb.head ≠ smb.tail) :
    smb.drop.toList <:+ smb.toList := by
  rw [toList, toList, slots_drop hne]
  rcases smb.cell (smb.head + 1) with _ | m
  · simp only [List.reduceOption_cons_of_none]
    exact List.suffix_refl _
  · rw [List.reduceOption_cons_of_some]
    exact List.suffix_cons _ _

theorem toList_write (smb : PwrMsgBuffer α) (m : α) (h : smb.tail + 1 ≠ smb.head) :
    (smb.write m).toList = smb.toList ++ [m] := by
  simp only [toList, slots_write m h, List.reduceOption_append, List.reduceOption_singleton,
    Option.toList_some]

/-- An add to a queue with room appends. -/
theorem toList_enqueue_of_room {smb : PwrMsgBuffer α} {m : α} (h : smb.tail + 1 ≠ smb.head) :
    (enqueue smb m).toList = smb.toList ++ [m] := by
  rw [enqueue_eq, if_neg h, toList_write _ _ h]

/-- Whatever is released, an add keeps a suffix of the queue and appends. -/
theorem toList_enqueue (smb : PwrMsgBuffer α) (m : α) :
    ∃ l, l <:+ smb.toList ∧ (enqueue smb m).toList = l ++ [m] := by
  by_cases h : smb.tail + 1 = smb.head
  · have hne := head_ne_tail_of_full h
    refine ⟨smb.drop.toList, toList_drop_suffix smb hne, ?_⟩
    rw [enqueue_eq, if_pos h, toList_write _ _ (drop_not_full hne)]
  · exact ⟨smb.toList, List.suffix_refl _, toList_enqueue_of_room h⟩

theorem mem_toList_enqueue {smb : PwrMsgBuffer α} {m x : α} (hx : x ∈ (enqueue smb m).toList) :
    x ∈ smb.toList ∨ x = m := by
  obtain ⟨l, hl, heq⟩ := toList_enqueue smb m
  rw [heq] at hx
  rcases List.mem_append.mp hx with hx | hx
  · exact .inl (hl.mem hx)
  · exact .inr (List.mem_singleton.mp hx)

/-- What an add releases was queued. -/
theorem mem_of_released {smb : PwrMsgBuffer α} {m x : α} (h : (addToBufferTail smb m).2 = some x) :
    x ∈ smb.toList := by
  by_cases hfull : smb.tail + 1 = smb.head
  · have hne := head_ne_tail_of_full hfull
    simp only [addToBufferTail, if_pos hfull, deleteFromHead] at h
    rw [if_neg (by rw [isEmptyBuffer_iff]; exact hne)] at h
    have hcell : smb.cell (smb.head + 1) = some x := h
    rw [toList, slots_drop hne, hcell, List.reduceOption_cons_of_some]
    exact List.mem_cons_self
  · simp only [addToBufferTail, if_neg hfull] at h
    cases h

/-- A successful pop splits off the first entry. -/
theorem toList_of_pop_some {smb smb' : PwrMsgBuffer α} {m : α}
    (h : popFromBufferHead smb = (some m, smb')) : smb.toList = m :: smb'.toList := by
  rw [popFromBufferHead_eq] at h
  by_cases he : smb.head = smb.tail
  · rw [if_pos he] at h
    cases h
  · rw [if_neg he] at h
    obtain ⟨hm, rfl⟩ := Prod.mk.inj h
    rw [toList, slots_drop he, hm, List.reduceOption_cons_of_some]
    rfl

/-- A pop that gives NULL leaves the entries as they are. -/
theorem toList_of_pop_none {smb smb' : PwrMsgBuffer α}
    (h : popFromBufferHead smb = (none, smb')) : smb'.toList = smb.toList := by
  rw [popFromBufferHead_eq] at h
  by_cases he : smb.head = smb.tail
  · rw [if_pos he] at h
    obtain ⟨-, rfl⟩ := Prod.mk.inj h
    rfl
  · rw [if_neg he] at h
    obtain ⟨hm, rfl⟩ := Prod.mk.inj h
    conv_rhs => rw [toList, slots_drop he, hm, List.reduceOption_cons_of_none]
    rfl

/-- The tail moves by one cell with every add. -/
theorem tail_enqueue (smb : PwrMsgBuffer α) (m : α) : (enqueue smb m).tail = smb.tail + 1 := by
  rw [enqueue_eq]
  split <;> rfl

/-- The entry at the tail is the one that was added. -/
theorem cell_enqueue (smb : PwrMsgBuffer α) (m : α) :
    (enqueue smb m).cell (smb.tail + 1) = some m := by
  rw [enqueue_eq]
  split <;> exact Function.update_self ..

theorem enqueue_inj {smb : PwrMsgBuffer α} {m m' : α} (h : enqueue smb m = enqueue smb m') :
    m = m' := by
  have hcell := cell_enqueue smb m
  rw [h, cell_enqueue] at hcell
  exact (Option.some.inj hcell).symm

/-- No add leaves the queue as it was. -/
theorem enqueue_ne_self (smb : PwrMsgBuffer α) (m : α) : smb ≠ enqueue smb m := by
  intro h
  have ht := tail_enqueue smb m
  rw [← h] at ht
  exact absurd (left_eq_add.mp ht) (by decide)

end PowerApi
