import Mathlib.Data.List.Basic

/-!
# Machines with outputs, and the bounded queue as one of them

`Mealy.run` executes a total machine on a list of inputs and collects what it
answers. `Mealy.run_simulation` is the proof rule for refinement: two machines
that answer alike from related states, and stay related, answer every list of
inputs alike.

`BoundedFifo.step` is the queue that keeps at most `cap` elements, as a list,
oldest first: adding to a full one gives up the oldest. `BoundedFifo.conservation`
says what every run of it does with the elements: those that left, in the order
they left, and then those still held, are exactly those that came in.
-/

namespace Mealy

universe u v w

variable {σ : Type u} {τ : Type u} {ι : Type v} {ω : Type w}

/-- The final state, and the outputs in order. -/
def run (step : σ → ι → σ × ω) : σ → List ι → σ × List ω
  | s, [] => (s, [])
  | s, i :: is =>
    let t := step s i
    let r := run step t.1 is
    (r.1, t.2 :: r.2)

@[simp] theorem run_nil (step : σ → ι → σ × ω) (s : σ) : run step s [] = (s, []) := rfl

@[simp] theorem run_cons (step : σ → ι → σ × ω) (s : σ) (i : ι) (is : List ι) :
    run step s (i :: is) =
      ((run step (step s i).1 is).1, (step s i).2 :: (run step (step s i).1 is).2) := rfl

/-- What every step keeps, every run keeps. -/
theorem run_invariant {step : σ → ι → σ × ω} {I : σ → Prop}
    (hstep : ∀ {s i}, I s → I (step s i).1) (is : List ι) {s : σ} (hI : I s) :
    I (run step s is).1 := by
  induction is generalizing s with
  | nil => exact hI
  | cons i is ih => exact ih (hstep hI)

/-- **Simulation.** Machines that answer alike in related states and stay related
answer every run alike and end in related states. -/
theorem run_simulation {step₁ : σ → ι → σ × ω} {step₂ : τ → ι → τ × ω} {R : σ → τ → Prop}
    (hstep : ∀ {s t} (i), R s t → (step₁ s i).2 = (step₂ t i).2 ∧ R (step₁ s i).1 (step₂ t i).1)
    (is : List ι) {s : σ} {t : τ} (hR : R s t) :
    (run step₁ s is).2 = (run step₂ t is).2 ∧ R (run step₁ s is).1 (run step₂ t is).1 := by
  induction is generalizing s t with
  | nil => exact ⟨rfl, hR⟩
  | cons i is ih =>
    obtain ⟨hout, hR'⟩ := hstep i hR
    obtain ⟨houts, hend⟩ := ih hR'
    exact ⟨by rw [run_cons, run_cons, hout, houts], hend⟩

end Mealy

namespace BoundedFifo

universe u

variable {α : Type u}

/-- What is done to a queue. -/
inductive Op (α : Type u) where
  | add (x : α)
  | pop

/-- What a queue answers: to an add the element given up for it, to a pop the
element handed out. -/
inductive Out (α : Type u) where
  | released (x : Option α)
  | returned (x : Option α)

/-- The element that an add brings in. -/
def Op.added : Op α → Option α
  | .add x => some x
  | .pop => none

/-- The element that left the queue, on either way out. -/
def Out.left : Out α → Option α
  | .released x => x
  | .returned x => x

/-- The queue of at most `cap` elements. -/
def step (cap : ℕ) : List α → Op α → List α × Out α
  | l, .add x => if l.length = cap then (l.tail ++ [x], .released l.head?)
      else (l ++ [x], .released none)
  | l, .pop => (l.tail, .returned l.head?)

/-- The elements brought in by a list of operations. -/
def addedBy (ops : List (Op α)) : List α := ops.filterMap Op.added

/-- The elements that left with a list of answers, in the order they left. -/
def leftBy (outs : List (Out α)) : List α := outs.filterMap Out.left

@[simp] theorem addedBy_nil : addedBy ([] : List (Op α)) = [] := rfl

@[simp] theorem addedBy_cons (op : Op α) (ops : List (Op α)) :
    addedBy (op :: ops) = op.added.toList ++ addedBy ops := by
  rw [addedBy, List.filterMap_cons]
  cases op.added <;> rfl

@[simp] theorem leftBy_nil : leftBy ([] : List (Out α)) = [] := rfl

@[simp] theorem leftBy_cons (out : Out α) (outs : List (Out α)) :
    leftBy (out :: outs) = out.left.toList ++ leftBy outs := by
  rw [leftBy, List.filterMap_cons]
  cases out.left <;> rfl

theorem head?_append_tail (l : List α) : l.head?.toList ++ l.tail = l := by
  cases l <;> rfl

/-- One operation loses nothing and makes nothing up. -/
theorem step_conserves (cap : ℕ) (l : List α) (op : Op α) :
    (step cap l op).2.left.toList ++ (step cap l op).1 = l ++ op.added.toList := by
  cases op with
  | add x =>
    rw [step]
    split
    · change l.head?.toList ++ (l.tail ++ [x]) = l ++ [x]
      rw [← List.append_assoc, head?_append_tail]
    · rfl
  | pop =>
    change l.head?.toList ++ l.tail = l ++ []
    rw [head?_append_tail, List.append_nil]

/-- **Conservation.** What left, in order, and then what is still held, is what
was held and then what came in. -/
theorem conservation (cap : ℕ) (ops : List (Op α)) (l : List α) :
    leftBy (Mealy.run (step cap) l ops).2 ++ (Mealy.run (step cap) l ops).1 = l ++ addedBy ops := by
  induction ops generalizing l with
  | nil => simp
  | cons op ops ih =>
    rw [Mealy.run_cons, leftBy_cons, addedBy_cons, List.append_assoc, ih, ← List.append_assoc,
      step_conserves, List.append_assoc]

/-- A queue never holds more than its capacity. -/
theorem length_step_le {cap : ℕ} {l : List α} {op : Op α} (hcap : 0 < cap) (h : l.length ≤ cap) :
    (step cap l op).1.length ≤ cap := by
  cases op with
  | add x =>
    rw [step]
    split <;> simp <;> omega
  | pop =>
    rw [step, List.length_tail]
    omega

theorem length_run_le {cap : ℕ} {l : List α} (hcap : 0 < cap) (ops : List (Op α))
    (h : l.length ≤ cap) : (Mealy.run (step cap) l ops).1.length ≤ cap :=
  Mealy.run_invariant (I := fun l : List α => l.length ≤ cap) (length_step_le hcap) ops h

end BoundedFifo
