import PowerApi.Transition
import Mathlib

/-!
# Objects behind a lock, each with a thread of its own

A program keeps blocks of memory that are created and freed under one lock. Each has a thread that
reads and writes it *without* the lock, until it is told to stop.

* `Prog`: what the holder of the lock does, access by access; `Worker`: what a thread does with
  its block. All threads take turns, one access at a time (`step`), and an access to memory that
  is not there is the end (`fault`).
* `view`: the part of a block that only the holder of the lock writes. `Prog.wp` is the weakest
  precondition of a program as if it ran alone, on what the views of the blocks are.
* `run_refines`: that is enough. If each operation, as if it ran alone, does what an abstract one
  does, then in all runs nothing is accessed that is not there, and the operations do, one after
  the other, what the abstract ones do.
* `exists_run_idle`: and the operation under way can always be brought to its end.
-/

namespace Workers

open Transition

/-- What the holder of the lock does, and a result of type `α`. -/
inductive Prog (β ω γ E α : Type) where
  | ret (r : α)
  | fault
  /-- read or write what all operations share -/
  | get (k : γ → Prog β ω γ E α)
  | modify (f : γ → γ) (k : Prog β ω γ E α)
  /-- read or write a block -/
  | read (a : ℕ) (k : ω → Prog β ω γ E α)
  | write (a : ℕ) (f : β → β) (k : Prog β ω γ E α)
  /-- something that the environment answers -/
  | ask (k : E → Prog β ω γ E α)
  | malloc (k : Option ℕ → Prog β ω γ E α)
  | free (a : ℕ) (k : Prog β ω γ E α)
  /-- start a thread for a block, or wait for the end of one -/
  | create (a : ℕ) (k : Option ℕ → Prog β ω γ E α)
  | join (t : ℕ) (k : Prog β ω γ E α)

/-- What a thread does with its block: one round, at the end of which it goes on with the next or
ends. -/
inductive Worker (β E O L : Type) where
  | done (next : Option L)
  | read (k : β → Worker β E O L)
  | write (f : β → β) (k : Worker β E O L)
  | ask (k : E → Worker β E O L)
  | emit (o : O) (k : Worker β E O L)

/-! ## Programs in sequence -/

namespace Prog

variable {β ω γ E α α' : Type}

/-- One program after another. -/
protected def bind : Prog β ω γ E α → (α → Prog β ω γ E α') → Prog β ω γ E α'
  | ret r, f => f r
  | fault, _ => fault
  | get k, f => get fun g => (k g).bind f
  | modify g k, f => modify g (k.bind f)
  | read a k, f => read a fun w => (k w).bind f
  | write a g k, f => write a g (k.bind f)
  | ask k, f => ask fun e => (k e).bind f
  | malloc k, f => malloc fun o => (k o).bind f
  | free a k, f => free a (k.bind f)
  | create a k, f => create a fun o => (k o).bind f
  | join t k, f => join t (k.bind f)

instance : Monad (Prog β ω γ E) where
  pure := ret
  bind := Prog.bind

end Prog

/-! ## The machine -/

/-- The code: what the holder of the lock does for each request, and what a thread does at its
start and in each round. -/
structure Code (β ω γ E O L Q ρ : Type) where
  view : β → ω
  prog : Q → Prog β ω γ E ρ
  start : Worker β E O L
  loop : L → Worker β E O L

/-- The memory, the threads that are not joined yet and the operation under way. -/
structure State (β ω γ E O L Q ρ : Type) where
  heap : ℕ → Option β
  globals : γ
  /-- the block of a thread, and what it has left to do until it ends -/
  threads : ℕ → Option (ℕ × Option (Worker β E O L))
  op : Option (Q × Prog β ω γ E ρ)
  /-- the operations that are done, with their results -/
  log : List (Q × ρ)
  sent : List O
  fault : Bool

/-- What the environment answers to the holder of the lock: a block that is not in use, with what
it happens to hold, and the name of a new thread. -/
structure Answer (β E : Type) where
  env : E
  block : Option (ℕ × β)
  thread : Option ℕ

/-- Who moves. -/
inductive Event (β E Q : Type) where
  | start (q : Q)
  | op (answer : Answer β E)
  | worker (t : ℕ) (e : E)

variable {β ω γ E O L Q ρ : Type}

/-- No block and no thread. -/
def State.init (g : γ) : State β ω γ E O L Q ρ :=
  ⟨fun _ => none, g, fun _ => none, none, [], [], false⟩

/-- The next access of the holder of the lock. -/
def stepOp (c : Code β ω γ E O L Q ρ) (s : State β ω γ E O L Q ρ) (q : Q) (ans : Answer β E) :
    Prog β ω γ E ρ → Option (State β ω γ E O L Q ρ)
  | .ret r => some { s with op := none, log := s.log ++ [(q, r)] }
  | .fault => some { s with fault := true }
  | .get k => some { s with op := some (q, k s.globals) }
  | .modify f k => some { s with globals := f s.globals, op := some (q, k) }
  | .read a k =>
    match s.heap a with
    | none => some { s with fault := true }
    | some b => some { s with op := some (q, k (c.view b)) }
  | .write a f k =>
    match s.heap a with
    | none => some { s with fault := true }
    | some b => some { s with heap := Function.update s.heap a (some (f b)), op := some (q, k) }
  | .ask k => some { s with op := some (q, k ans.env) }
  | .malloc k =>
    match ans.block with
    | none => some { s with op := some (q, k none) }
    | some (a, b) =>
      if (s.heap a).isSome then none
      else some { s with heap := Function.update s.heap a (some b), op := some (q, k (some a)) }
  | .free a k =>
    match s.heap a with
    | none => some { s with fault := true }
    | some _ => some { s with heap := Function.update s.heap a none, op := some (q, k) }
  | .create a k =>
    match ans.thread with
    | none => some { s with op := some (q, k none) }
    | some t =>
      if (s.threads t).isSome then none
      else
        some { s with
          threads := Function.update s.threads t (some (a, some c.start))
          op := some (q, k (some t)) }
  | .join t k =>
    match s.threads t with
    | none => some { s with fault := true }
    | some (_, some _) => none
    | some (_, none) =>
      some { s with threads := Function.update s.threads t none, op := some (q, k) }

/-- The next access of a thread. -/
def stepWorker (c : Code β ω γ E O L Q ρ) (s : State β ω γ E O L Q ρ) (t a : ℕ) (e : E) :
    Worker β E O L → State β ω γ E O L Q ρ
  | .done none => { s with threads := Function.update s.threads t (some (a, none)) }
  | .done (some l) =>
    { s with threads := Function.update s.threads t (some (a, some (c.loop l))) }
  | .read k =>
    match s.heap a with
    | none => { s with fault := true }
    | some b => { s with threads := Function.update s.threads t (some (a, some (k b))) }
  | .write f k =>
    match s.heap a with
    | none => { s with fault := true }
    | some b =>
      { s with
        heap := Function.update s.heap a (some (f b))
        threads := Function.update s.threads t (some (a, some k)) }
  | .ask k => { s with threads := Function.update s.threads t (some (a, some (k e))) }
  | .emit o k =>
    { s with
      threads := Function.update s.threads t (some (a, some k))
      sent := s.sent ++ [o] }

/-- One of the threads makes one access; `none` if it has to wait or has nothing to do. -/
def step (c : Code β ω γ E O L Q ρ) (s : State β ω γ E O L Q ρ) (e : Event β E Q) :
    Option (State β ω γ E O L Q ρ) :=
  if s.fault then none
  else
    match e with
    | .start q => if s.op.isSome then none else some { s with op := some (q, c.prog q) }
    | .op ans => s.op.bind fun (q, p) => stepOp c s q ans p
    | .worker t e =>
      match s.threads t with
      | some (a, some w) => some (stepWorker c s t a e w)
      | _ => none

/-! ## Programs as if they ran alone -/

/-- What only the holder of the lock changes: the views of the blocks, what is shared, and the
block of each thread. -/
structure Memory (ω γ : Type) where
  heap : ℕ → Option ω
  globals : γ
  threads : ℕ → Option ℕ

def State.memory (view : β → ω) (s : State β ω γ E O L Q ρ) : Memory ω γ :=
  ⟨Option.map view ∘ s.heap, s.globals, Option.map Prod.fst ∘ s.threads⟩

namespace Prog

/-- The weakest precondition of a program. A block may be freed if no thread has it, and a thread
may be waited for if its block tells it to stop. -/
def wp (view : β → ω) (stops : ω → Prop) {α : Type} :
    Prog β ω γ E α → (α → Memory ω γ → Prop) → Memory ω γ → Prop
  | ret r, post, m => post r m
  | fault, _, _ => False
  | get k, post, m => (k m.globals).wp view stops post m
  | modify f k, post, m => k.wp view stops post { m with globals := f m.globals }
  | read a k, post, m => ∃ w, m.heap a = some w ∧ (k w).wp view stops post m
  | write a f k, post, m =>
    ∃ w w', m.heap a = some w ∧ (∀ b, view b = w → view (f b) = w') ∧
      k.wp view stops post { m with heap := Function.update m.heap a (some w') }
  | ask k, post, m => ∀ e, (k e).wp view stops post m
  | malloc k, post, m =>
    (k none).wp view stops post m ∧
      ∀ a w, m.heap a = none →
        (k (some a)).wp view stops post { m with heap := Function.update m.heap a (some w) }
  | free a k, post, m =>
    (∃ w, m.heap a = some w) ∧ (∀ t, m.threads t ≠ some a) ∧
      k.wp view stops post { m with heap := Function.update m.heap a none }
  | create a k, post, m =>
    (∃ w, m.heap a = some w) ∧ (k none).wp view stops post m ∧
      ∀ t, m.threads t = none →
        (k (some t)).wp view stops post { m with threads := Function.update m.threads t (some a) }
  | join t k, post, m =>
    ∃ a w, m.threads t = some a ∧ m.heap a = some w ∧ stops w ∧
      k.wp view stops post { m with threads := Function.update m.threads t none }

section Rules

variable {view : β → ω} {stops : ω → Prop} {α α' : Type} {m : Memory ω γ}

@[simp] theorem wp_pure {r : α} {post : α → Memory ω γ → Prop} :
    (pure r : Prog β ω γ E α).wp view stops post m ↔ post r m := Iff.rfl

/-- A sequence of programs. -/
@[simp] theorem wp_bind {p : Prog β ω γ E α} {f : α → Prog β ω γ E α'}
    {post : α' → Memory ω γ → Prop} : (p >>= f).wp view stops post m ↔
      p.wp view stops (fun r m' => (f r).wp view stops post m') m := by
  change (p.bind f).wp view stops post m ↔ _
  induction p generalizing m with
  | ret r => exact Iff.rfl
  | fault => exact Iff.rfl
  | get k ih => exact ih m.globals
  | modify g k ih => exact ih
  | read a k ih => exact exists_congr fun w => and_congr_right fun _ => ih w
  | write a g k ih =>
    exact exists_congr fun w => exists_congr fun w' =>
      and_congr_right fun _ => and_congr_right fun _ => ih
  | ask k ih => exact forall_congr' fun e => ih e
  | malloc k ih =>
    exact and_congr (ih none) (forall_congr' fun a => forall_congr' fun w =>
      forall_congr' fun _ => ih (some a))
  | free a k ih => exact and_congr_right fun _ => and_congr_right fun _ => ih
  | create a k ih =>
    exact and_congr_right fun _ => and_congr (ih none) (forall_congr' fun t =>
      forall_congr' fun _ => ih (some t))
  | join t k ih =>
    exact exists_congr fun a => exists_congr fun w => and_congr_right fun _ =>
      and_congr_right fun _ => and_congr_right fun _ => ih

end Rules

end Prog

namespace Worker

/-- A thread writes only what is not in the view of its block. -/
def Sound (view : β → ω) : Worker β E O L → Prop
  | done _ => True
  | read k => ∀ b, (k b).Sound view
  | write f k => (∀ b, view (f b) = view b) ∧ k.Sound view
  | ask k => ∀ e, (k e).Sound view
  | emit _ k => k.Sound view

/-- With this view of its block the thread ends in this round. -/
def Ends (view : β → ω) (w : ω) : Worker β E O L → Prop
  | done next => next = none
  | read k => ∀ b, view b = w → (k b).Ends view w
  | write _ k => k.Ends view w
  | ask k => ∀ e, (k e).Ends view w
  | emit _ k => k.Ends view w

end Worker

/-! ## Refinement -/

/-- A log, entry by entry, is one of abstract operations. -/
inductive Performs {A : Type} (Does : Q → A → ρ → A → Prop) (a₀ : A) : List (Q × ρ) → A → Prop
  | nil : Performs Does a₀ [] a₀
  | snoc {l a q r a'} : Performs Does a₀ l a → Does q a r a' → Performs Does a₀ (l ++ [(q, r)]) a'

/-- The last entry of a log. -/
theorem Performs.of_snoc {A : Type} {Does : Q → A → ρ → A → Prop} {a₀ a' : A} {l : List (Q × ρ)}
    {q : Q} {r : ρ} (h : Performs Does a₀ (l ++ [(q, r)]) a') :
    ∃ a, Performs Does a₀ l a ∧ Does q a r a' := by
  generalize hlog : l ++ [(q, r)] = log at h
  cases h with
  | nil => simp at hlog
  | snoc hl hdoes =>
    obtain ⟨rfl, hlast⟩ := List.append_inj' hlog rfl
    obtain ⟨rfl, rfl⟩ := Prod.mk.inj (List.singleton_inj.mp hlast)
    exact ⟨_, hl, hdoes⟩

/-- Each operation, as if it ran alone, does what the abstract one does; the threads leave the
views alone and stop when they are told to. -/
structure Code.Correct (c : Code β ω γ E O L Q ρ) {A : Type} (stops : ω → Prop)
    (Rep : A → Memory ω γ → Prop) (Does : Q → A → ρ → A → Prop) : Prop where
  prog : ∀ q a m, Rep a m →
    (c.prog q).wp c.view stops (fun r m' => ∃ a', Does q a r a' ∧ Rep a' m') m
  start : c.start.Sound c.view
  loop : ∀ l, (c.loop l).Sound c.view
  ends : ∀ l w, stops w → (c.loop l).Ends c.view w

section Refinement

variable {c : Code β ω γ E O L Q ρ} {A : Type} {stops : ω → Prop} {Rep : A → Memory ω γ → Prop}
  {Does : Q → A → ρ → A → Prop} {a₀ : A} {s s' : State β ω γ E O L Q ρ}

/-- What is left of the operation under way, as if it ran alone, does what the abstract one does
from here. -/
def Follows (c : Code β ω γ E O L Q ρ) (stops : ω → Prop) (Rep : A → Memory ω γ → Prop)
    (Does : Q → A → ρ → A → Prop) (a : A) (op : Option (Q × Prog β ω γ E ρ)) (m : Memory ω γ) :
    Prop :=
  match op with
  | none => Rep a m
  | some (q, p) => p.wp c.view stops (fun r m' => ∃ a', Does q a r a' ∧ Rep a' m') m

/-- The threads have their blocks, and write only what is not in the view. -/
def Staffed (c : Code β ω γ E O L Q ρ) (s : State β ω γ E O L Q ρ) : Prop :=
  ∀ t a o, s.threads t = some (a, o) →
    (∃ b, s.heap a = some b) ∧ ∀ w, o = some w → w.Sound c.view

/-- The invariant of all runs. -/
structure Inv (c : Code β ω γ E O L Q ρ) (stops : ω → Prop) (Rep : A → Memory ω γ → Prop)
    (Does : Q → A → ρ → A → Prop) (a₀ : A) (s : State β ω γ E O L Q ρ) : Prop where
  fault : s.fault = false
  staffed : Staffed c s
  follows : ∃ a, Performs Does a₀ s.log a ∧
    Follows c stops Rep Does a s.op (s.memory c.view)

theorem memory_heap (view : β → ω) (a : ℕ) :
    (s.memory view).heap a = (s.heap a).map view := rfl

theorem memory_threads (view : β → ω) (t : ℕ) :
    (s.memory view).threads t = (s.threads t).map Prod.fst := rfl

/-- What stands at an address, if its view does. -/
theorem heap_of_memory {view : β → ω} {a : ℕ} {w : ω} (h : (s.memory view).heap a = some w) :
    ∃ b, s.heap a = some b ∧ view b = w := Option.map_eq_some_iff.mp h

/-- A block is written, or a new one put at a free address. -/
theorem Staffed.store (h : Staffed c s) {a : ℕ} {b : β}
    (hheap : s'.heap = Function.update s.heap a (some b)) (hthreads : s'.threads = s.threads) :
    Staffed c s' := by
  intro t x u ht
  rw [hthreads] at ht
  obtain ⟨hx, hsound⟩ := h t x u ht
  refine ⟨?_, hsound⟩
  rw [hheap]
  by_cases hxa : x = a
  · subst hxa
    exact ⟨b, Function.update_self ..⟩
  · rw [Function.update_of_ne hxa]
    exact hx

/-- A block that no thread has is freed. -/
theorem Staffed.erase (h : Staffed c s) {a : ℕ}
    (hfree : ∀ t, (s.memory c.view).threads t ≠ some a)
    (hheap : s'.heap = Function.update s.heap a none) (hthreads : s'.threads = s.threads) :
    Staffed c s' := by
  intro t x u ht
  rw [hthreads] at ht
  obtain ⟨hx, hsound⟩ := h t x u ht
  refine ⟨?_, hsound⟩
  have hxa : x ≠ a := by
    rintro rfl
    exact hfree t (by rw [memory_threads, ht]; rfl)
  rw [hheap, Function.update_of_ne hxa]
  exact hx

/-- A thread begins, or goes on. -/
theorem Staffed.goOn (h : Staffed c s) {t a : ℕ} {u : Option (Worker β E O L)} {b : β}
    (hb : s'.heap a = some b) (hu : ∀ w, u = some w → w.Sound c.view)
    (hthreads : s'.threads = Function.update s.threads t (some (a, u)))
    (hheap : s'.heap = s.heap) : Staffed c s' := by
  intro x y v hx
  rw [hthreads] at hx
  by_cases hxt : x = t
  · subst hxt
    rw [Function.update_self] at hx
    obtain ⟨rfl, rfl⟩ := Prod.mk.inj (Option.some.inj hx)
    exact ⟨⟨b, hb⟩, hu⟩
  · rw [Function.update_of_ne hxt] at hx
    rw [hheap]
    exact h x y v hx

/-- The end of a thread was waited for. -/
theorem Staffed.joined (h : Staffed c s) {t : ℕ}
    (hthreads : s'.threads = Function.update s.threads t none) (hheap : s'.heap = s.heap) :
    Staffed c s' := by
  intro x y v hx
  rw [hthreads] at hx
  rw [hheap]
  by_cases hxt : x = t
  · subst hxt
    rw [Function.update_self] at hx
    cases hx
  · rw [Function.update_of_ne hxt] at hx
    exact h x y v hx

/-- The holder of the lock makes its next access. -/
theorem Inv.stepOp (hc : c.Correct stops Rep Does) (h : Inv c stops Rep Does a₀ s) {q : Q}
    {p : Prog β ω γ E ρ} (hop : s.op = some (q, p)) {ans : Answer β E}
    (hs : stepOp c s q ans p = some s') : Inv c stops Rep Does a₀ s' := by
  obtain ⟨hfault, hstaff, a, hlog, hfollows⟩ := h
  rw [hop] at hfollows
  cases p with
  | ret r =>
    obtain rfl := Option.some.inj hs
    obtain ⟨a', hdoes, hrep⟩ := hfollows
    exact ⟨hfault, hstaff, a', hlog.snoc hdoes, hrep⟩
  | fault => exact hfollows.elim
  | get k =>
    obtain rfl := Option.some.inj hs
    exact ⟨hfault, hstaff, a, hlog, hfollows⟩
  | modify f k =>
    obtain rfl := Option.some.inj hs
    exact ⟨hfault, hstaff, a, hlog, hfollows⟩
  | read x k =>
    obtain ⟨w, hw, hk⟩ := hfollows
    obtain ⟨b, hb, rfl⟩ := heap_of_memory hw
    rw [Workers.stepOp, hb] at hs
    obtain rfl := Option.some.inj hs
    exact ⟨hfault, hstaff, a, hlog, hk⟩
  | write x f k =>
    obtain ⟨w, w', hw, hview, hk⟩ := hfollows
    obtain ⟨b, hb, hbw⟩ := heap_of_memory hw
    rw [Workers.stepOp, hb] at hs
    obtain rfl := Option.some.inj hs
    refine ⟨hfault, hstaff.store rfl rfl, a, hlog, ?_⟩
    rw [Follows, State.memory, Function.comp_update, Option.map_some, hview b hbw]
    exact hk
  | ask k =>
    obtain rfl := Option.some.inj hs
    exact ⟨hfault, hstaff, a, hlog, hfollows ans.env⟩
  | malloc k =>
    rw [Workers.stepOp] at hs
    rcases hblock : ans.block with _ | ⟨x, b⟩
    · rw [hblock] at hs
      obtain rfl := Option.some.inj hs
      exact ⟨hfault, hstaff, a, hlog, hfollows.1⟩
    · rw [hblock] at hs
      cases hx : s.heap x with
      | some b' => simp [hx] at hs
      | none =>
        simp only [hx, Option.isSome_none, Bool.false_eq_true, if_false] at hs
        obtain rfl := Option.some.inj hs
        refine ⟨hfault, hstaff.store rfl rfl, a, hlog, ?_⟩
        rw [Follows, State.memory, Function.comp_update]
        exact hfollows.2 x (c.view b) (by rw [memory_heap, hx]; rfl)
  | free x k =>
    obtain ⟨⟨w, hw⟩, hfree, hk⟩ := hfollows
    obtain ⟨b, hb, -⟩ := heap_of_memory hw
    rw [Workers.stepOp, hb] at hs
    obtain rfl := Option.some.inj hs
    refine ⟨hfault, hstaff.erase hfree rfl rfl, a, hlog, ?_⟩
    rw [Follows, State.memory, Function.comp_update]
    exact hk
  | create x k =>
    obtain ⟨⟨w, hw⟩, hnone, hsome⟩ := hfollows
    obtain ⟨b, hb, -⟩ := heap_of_memory hw
    rw [Workers.stepOp] at hs
    cases hthread : ans.thread with
    | none =>
      rw [hthread] at hs
      obtain rfl := Option.some.inj hs
      exact ⟨hfault, hstaff, a, hlog, hnone⟩
    | some t =>
      rw [hthread] at hs
      cases ht : s.threads t with
      | some u => simp [ht] at hs
      | none =>
        simp only [ht, Option.isSome_none, Bool.false_eq_true, if_false] at hs
        obtain rfl := Option.some.inj hs
        refine ⟨hfault, hstaff.goOn hb ?_ rfl rfl, a, hlog, ?_⟩
        · rintro w ⟨⟩
          exact hc.start
        · rw [Follows, State.memory, Function.comp_update]
          exact hsome t (by rw [memory_threads, ht]; rfl)
  | join t k =>
    obtain ⟨x, w, ht, hw, -, hk⟩ := hfollows
    obtain ⟨⟨x', o⟩, ho, rfl⟩ := Option.map_eq_some_iff.mp ht
    rw [Workers.stepOp, ho] at hs
    cases o with
    | some u => cases hs
    | none =>
      obtain rfl := Option.some.inj hs
      refine ⟨hfault, hstaff.joined rfl rfl, a, hlog, ?_⟩
      rw [Follows, State.memory, Function.comp_update]
      exact hk

/-- What a thread's access leaves as it was. -/
structure Apart (c : Code β ω γ E O L Q ρ) (s s' : State β ω γ E O L Q ρ) : Prop where
  fault : s'.fault = s.fault
  op : s'.op = s.op
  log : s'.log = s.log
  memory : s'.memory c.view = s.memory c.view

/-- A thread goes on with its program. -/
theorem apart_update {t a : ℕ} {o o' : Option (Worker β E O L)}
    (ht : s.threads t = some (a, o)) (hfault : s'.fault = s.fault) (hop : s'.op = s.op)
    (hlog : s'.log = s.log) (hglobals : s'.globals = s.globals)
    (hheap : ∀ x, (s'.heap x).map c.view = (s.heap x).map c.view)
    (hthreads : s'.threads = Function.update s.threads t (some (a, o'))) : Apart c s s' := by
  refine ⟨hfault, hop, hlog, ?_⟩
  rw [State.memory, State.memory, hglobals, hthreads, Function.comp_update, Option.map_some]
  have hsame : Function.update (Option.map Prod.fst ∘ s.threads) t (some a) =
      Option.map Prod.fst ∘ s.threads := by
    rw [Function.update_eq_self_iff, Function.comp_apply, ht, Option.map_some]
  rw [show (Option.map c.view ∘ s'.heap) = Option.map c.view ∘ s.heap from funext hheap]
  exact congrArg _ hsame

/-- A thread makes its next access to its block: all that the operations see stays as it was. -/
theorem stepWorker_apart (hc : c.Correct stops Rep Does) (hstaff : Staffed c s) {t a : ℕ}
    {w : Worker β E O L} (ht : s.threads t = some (a, some w)) (e : E) :
    Apart c s (stepWorker c s t a e w) ∧ Staffed c (stepWorker c s t a e w) := by
  obtain ⟨⟨b, hb⟩, hsound⟩ := hstaff t a _ ht
  have hw := hsound w rfl
  cases w with
  | done next =>
    cases next with
    | none =>
      refine ⟨apart_update ht rfl rfl rfl rfl (fun _ => rfl) rfl, hstaff.goOn hb ?_ rfl rfl⟩
      rintro w ⟨⟩
    | some l =>
      refine ⟨apart_update ht rfl rfl rfl rfl (fun _ => rfl) rfl, hstaff.goOn hb ?_ rfl rfl⟩
      rintro w ⟨⟩
      exact hc.loop l
  | read k =>
    rw [stepWorker, hb]
    refine ⟨apart_update ht rfl rfl rfl rfl (fun _ => rfl) rfl, hstaff.goOn hb ?_ rfl rfl⟩
    rintro w ⟨⟩
    exact hw b
  | write f k =>
    rw [stepWorker, hb]
    constructor
    · refine apart_update ht rfl rfl rfl rfl (fun x => ?_) rfl
      dsimp only
      by_cases hx : x = a
      · subst hx
        rw [Function.update_self, hb, Option.map_some, Option.map_some, hw.1 b]
      · rw [Function.update_of_ne hx]
    · have hheap : Staffed c { s with heap := Function.update s.heap a (some (f b)) } :=
        hstaff.store rfl rfl
      refine hheap.goOn (Function.update_self ..) ?_ rfl rfl
      rintro w ⟨⟩
      exact hw.2
  | ask k =>
    refine ⟨apart_update ht rfl rfl rfl rfl (fun _ => rfl) rfl, hstaff.goOn hb ?_ rfl rfl⟩
    rintro w ⟨⟩
    exact hw e
  | emit o k =>
    refine ⟨apart_update ht rfl rfl rfl rfl (fun _ => rfl) rfl, hstaff.goOn hb ?_ rfl rfl⟩
    rintro w ⟨⟩
    exact hw

theorem Inv.apart (h : Inv c stops Rep Does a₀ s) (hs : Apart c s s') (hstaff : Staffed c s') :
    Inv c stops Rep Does a₀ s' := by
  refine ⟨hs.fault.trans h.fault, hstaff, ?_⟩
  rw [hs.log, hs.op, hs.memory]
  exact h.follows

theorem Inv.step (hc : c.Correct stops Rep Does) (h : Inv c stops Rep Does a₀ s)
    {e : Event β E Q} (hs : step c s e = some s') : Inv c stops Rep Does a₀ s' := by
  unfold Workers.step at hs
  rw [if_neg (by simp [h.fault])] at hs
  cases e with
  | start q =>
    dsimp only at hs
    cases hop : s.op with
    | some x => simp [hop] at hs
    | none =>
      simp only [hop, Option.isSome_none, Bool.false_eq_true, if_false] at hs
      obtain rfl := Option.some.inj hs
      obtain ⟨a, hlog, hrep⟩ := h.follows
      rw [hop] at hrep
      exact ⟨h.fault, h.staffed, a, hlog, hc.prog q a _ hrep⟩
  | op ans =>
    obtain ⟨⟨q, p⟩, hop, hstep⟩ := Option.bind_eq_some_iff.mp hs
    exact h.stepOp hc hop hstep
  | worker t e =>
    dsimp only at hs
    rcases ht : s.threads t with _ | ⟨a, _ | w⟩
    · simp [ht] at hs
    · simp [ht] at hs
    · rw [ht] at hs
      obtain rfl := Option.some.inj hs
      obtain ⟨hapart, hstaff⟩ := stepWorker_apart hc h.staffed ht e
      exact h.apart hapart hstaff

theorem inv_init (g : γ) (hrep : Rep a₀ ⟨fun _ => none, g, fun _ => none⟩) :
    Inv c stops Rep Does a₀ (State.init g) :=
  ⟨rfl, nofun, a₀, .nil, hrep⟩

/-- **Refinement**: in every run nothing is accessed that is not there, and the operations that
are done did, one after the other, what the abstract ones do. -/
theorem run_refines (hc : c.Correct stops Rep Does) {g : γ}
    (hrep : Rep a₀ ⟨fun _ => none, g, fun _ => none⟩) {events : List (Event β E Q)}
    (h : run (step c) (State.init g) events = some s) : Inv c stops Rep Does a₀ s :=
  run_invariant (fun hI he => Inv.step hc hI he) (inv_init g hrep) h

/-! ## Progress -/

theorem Apart.trans {s'' : State β ω γ E O L Q ρ} (h : Apart c s s') (h' : Apart c s' s'') :
    Apart c s s'' :=
  ⟨h'.fault.trans h.fault, h'.op.trans h.op, h'.log.trans h.log, h'.memory.trans h.memory⟩

theorem step_worker (h : Inv c stops Rep Does a₀ s) {t a : ℕ} {w : Worker β E O L}
    (ht : s.threads t = some (a, some w)) (e : E) :
    step c s (.worker t e) = some (stepWorker c s t a e w) := by
  unfold Workers.step
  rw [if_neg (by simp [h.fault])]
  simp only [ht]

theorem step_op (h : Inv c stops Rep Does a₀ s) {q : Q} {p : Prog β ω γ E ρ}
    (hop : s.op = some (q, p)) (ans : Answer β E) :
    step c s (.op ans) = stepOp c s q ans p := by
  unfold Workers.step
  rw [if_neg (by simp [h.fault])]
  simp only [hop, Option.bind_some]

/-- Runs of one thread alone, after which the invariant holds and the operation under way is
where it was. -/
def WorkerRuns (c : Code β ω γ E O L Q ρ) (stops : ω → Prop) (Rep : A → Memory ω γ → Prop)
    (Does : Q → A → ρ → A → Prop) (a₀ : A) (s s' : State β ω γ E O L Q ρ) : Prop :=
  (∃ events, run (step c) s events = some s') ∧ Inv c stops Rep Does a₀ s' ∧ Apart c s s'

theorem WorkerRuns.trans {s'' : State β ω γ E O L Q ρ}
    (h : WorkerRuns c stops Rep Does a₀ s s') (h' : WorkerRuns c stops Rep Does a₀ s' s'') :
    WorkerRuns c stops Rep Does a₀ s s'' := by
  obtain ⟨⟨es, hes⟩, -, hapart⟩ := h
  obtain ⟨⟨fs, hfs⟩, hinv, hapart'⟩ := h'
  exact ⟨⟨es ++ fs, run_append.mpr ⟨s', hes, hfs⟩⟩, hinv, hapart.trans hapart'⟩

theorem workerRuns_step (hc : c.Correct stops Rep Does) (h : Inv c stops Rep Does a₀ s) {t a : ℕ}
    {w : Worker β E O L} (ht : s.threads t = some (a, some w)) (e : E) :
    WorkerRuns c stops Rep Does a₀ s (stepWorker c s t a e w) := by
  refine ⟨⟨[.worker t e], ?_⟩, Inv.step hc h (step_worker h ht e),
    (stepWorker_apart hc h.staffed ht e).1⟩
  rw [run_cons_eq_some]
  exact ⟨_, step_worker h ht e, rfl⟩

/-- A thread that runs alone comes to the end of its round, and if its block tells it to stop and
the round began so, it will end. -/
theorem exists_workerRuns_done [Inhabited E] (hc : c.Correct stops Rep Does) {t a : ℕ}
    {w : Worker β E O L} (h : Inv c stops Rep Does a₀ s)
    (ht : s.threads t = some (a, some w)) :
    ∃ s' next, WorkerRuns c stops Rep Does a₀ s s' ∧
      s'.threads t = some (a, some (.done next)) ∧
      ∀ v, (s.memory c.view).heap a = some v → w.Ends c.view v → next = none := by
  induction w generalizing s with
  | done next =>
    refine ⟨s, next, ⟨⟨[], rfl⟩, h, rfl, rfl, rfl, rfl⟩, ht, ?_⟩
    exact fun _ _ hends => hends
  | read k ih =>
    obtain ⟨⟨b, hb⟩, -⟩ := h.staffed t a _ ht
    have hruns := workerRuns_step hc h ht default
    rw [stepWorker, hb] at hruns
    obtain ⟨s', next, hruns', ht', hends⟩ := ih b hruns.2.1 (Function.update_self ..)
    refine ⟨s', next, hruns.trans hruns', ht', ?_⟩
    intro v hv hread
    rw [memory_heap, hb] at hv
    refine hends v ?_ (hread b (Option.some.inj hv))
    rw [memory_heap, hb]
    exact hv
  | write f k ih =>
    obtain ⟨⟨b, hb⟩, -⟩ := h.staffed t a _ ht
    have hruns := workerRuns_step hc h ht default
    rw [stepWorker, hb] at hruns
    obtain ⟨s', next, hruns', ht', hends⟩ := ih hruns.2.1 (Function.update_self ..)
    refine ⟨s', next, hruns.trans hruns', ht', ?_⟩
    intro v hv hwrite
    refine hends v ?_ hwrite
    rw [hruns.2.2.memory]
    exact hv
  | ask k ih =>
    have hruns := workerRuns_step hc h ht default
    obtain ⟨s', next, hruns', ht', hends⟩ := ih default hruns.2.1 (Function.update_self ..)
    exact ⟨s', next, hruns.trans hruns', ht', fun v hv hask => hends v hv (hask default)⟩
  | emit o k ih =>
    have hruns := workerRuns_step hc h ht default
    obtain ⟨s', next, hruns', ht', hends⟩ := ih hruns.2.1 (Function.update_self ..)
    exact ⟨s', next, hruns.trans hruns', ht', hends⟩

/-- A thread whose block tells it to stop ends, if it runs: it finishes its round, and in the
next one it sees that it has to. -/
theorem exists_workerRuns_end [Inhabited E] (hc : c.Correct stops Rep Does) {t a : ℕ} {v : ω}
    {o : Option (Worker β E O L)} (h : Inv c stops Rep Does a₀ s)
    (ht : s.threads t = some (a, o)) (hv : (s.memory c.view).heap a = some v) (hstops : stops v) :
    ∃ s', WorkerRuns c stops Rep Does a₀ s s' ∧ s'.threads t = some (a, none) := by
  cases o with
  | none => exact ⟨s, ⟨⟨[], rfl⟩, h, rfl, rfl, rfl, rfl⟩, ht⟩
  | some w =>
    obtain ⟨s₁, next, hruns₁, ht₁, -⟩ := exists_workerRuns_done hc h ht
    have hruns₂ := workerRuns_step hc hruns₁.2.1 ht₁ default
    cases next with
    | none => exact ⟨_, hruns₁.trans hruns₂, Function.update_self ..⟩
    | some l =>
      obtain ⟨s₃, next, hruns₃, ht₃, hends⟩ :=
        exists_workerRuns_done hc hruns₂.2.1 (Function.update_self ..)
      have hnone : next = none := by
        refine hends v ?_ (hc.ends l v hstops)
        rw [hruns₂.2.2.memory, hruns₁.2.2.memory]
        exact hv
      subst hnone
      have hruns₄ := workerRuns_step hc hruns₃.2.1 ht₃ default
      exact ⟨_, ((hruns₁.trans hruns₂).trans hruns₃).trans hruns₄, Function.update_self ..⟩

/-- The holder of the lock goes on. -/
theorem exists_run_op (hc : c.Correct stops Rep Does) (h : Inv c stops Rep Does a₀ s) {q : Q}
    {p : Prog β ω γ E ρ} (hop : s.op = some (q, p)) (ans : Answer β E)
    (hs : Workers.stepOp c s q ans p = some s')
    (hrest : Inv c stops Rep Does a₀ s' →
      ∃ events s'', run (step c) s' events = some s'' ∧ s''.op = none) :
    ∃ events s'', run (step c) s events = some s'' ∧ s''.op = none := by
  obtain ⟨events, s'', hrun, hidle⟩ := hrest (h.stepOp hc hop hs)
  refine ⟨.op ans :: events, s'', ?_, hidle⟩
  rw [run_cons_eq_some]
  exact ⟨s', (step_op h hop ans).trans hs, hrun⟩

/-- **Progress**: the operation under way can be brought to its end. -/
theorem exists_run_idle [Inhabited E] (hc : c.Correct stops Rep Does)
    (h : Inv c stops Rep Does a₀ s) :
    ∃ events s', run (step c) s events = some s' ∧ s'.op = none := by
  rcases hop : s.op with _ | ⟨q, p⟩
  · exact ⟨[], s, rfl, hop⟩
  let ans : Answer β E := ⟨default, none, none⟩
  induction p generalizing s with
  | ret r => exact exists_run_op hc h hop ans rfl fun _ => ⟨[], _, rfl, rfl⟩
  | fault =>
    obtain ⟨a, -, hfollows⟩ := h.follows
    rw [hop] at hfollows
    exact hfollows.elim
  | get k ih => exact exists_run_op hc h hop ans rfl fun h' => ih _ h' rfl
  | modify f k ih => exact exists_run_op hc h hop ans rfl fun h' => ih h' rfl
  | read x k ih =>
    obtain ⟨a, -, hfollows⟩ := h.follows
    rw [hop] at hfollows
    obtain ⟨w, hw, -⟩ := hfollows
    obtain ⟨b, hb, -⟩ := heap_of_memory hw
    have hread : Workers.stepOp c s q ans (.read x k) =
        some { s with op := some (q, k (c.view b)) } := by
      rw [Workers.stepOp, hb]
    exact exists_run_op hc h hop ans hread fun h' => ih (c.view b) h' rfl
  | write x f k ih =>
    obtain ⟨a, -, hfollows⟩ := h.follows
    rw [hop] at hfollows
    obtain ⟨w, -, hw, -⟩ := hfollows
    obtain ⟨b, hb, -⟩ := heap_of_memory hw
    have hwrite : Workers.stepOp c s q ans (.write x f k) =
        some { s with heap := Function.update s.heap x (some (f b)), op := some (q, k) } := by
      rw [Workers.stepOp, hb]
    exact exists_run_op hc h hop ans hwrite fun h' => ih h' rfl
  | ask k ih => exact exists_run_op hc h hop ans rfl fun h' => ih default h' rfl
  | malloc k ih => exact exists_run_op hc h hop ans rfl fun h' => ih none h' rfl
  | free x k ih =>
    obtain ⟨a, -, hfollows⟩ := h.follows
    rw [hop] at hfollows
    obtain ⟨⟨w, hw⟩, -⟩ := hfollows
    obtain ⟨b, hb, -⟩ := heap_of_memory hw
    have hfree : Workers.stepOp c s q ans (.free x k) =
        some { s with heap := Function.update s.heap x none, op := some (q, k) } := by
      rw [Workers.stepOp, hb]
    exact exists_run_op hc h hop ans hfree fun h' => ih h' rfl
  | create x k ih => exact exists_run_op hc h hop ans rfl fun h' => ih none h' rfl
  | join t k ih =>
    obtain ⟨a, -, hfollows⟩ := h.follows
    rw [hop] at hfollows
    obtain ⟨x, w, ht, hw, hstops, -⟩ := hfollows
    obtain ⟨⟨x', o⟩, ho, rfl⟩ := Option.map_eq_some_iff.mp ht
    obtain ⟨s', ⟨⟨events, hrun⟩, h', hapart⟩, hended⟩ := exists_workerRuns_end hc h ho hw hstops
    have hop' : s'.op = some (q, .join t k) := hapart.op.trans hop
    have hjoin : Workers.stepOp c s' q ans (.join t k) =
        some { s' with threads := Function.update s'.threads t none, op := some (q, k) } := by
      rw [Workers.stepOp, hended]
    obtain ⟨events', s'', hrun', hidle⟩ := exists_run_op hc h' hop' ans hjoin fun h'' => ih h'' rfl
    exact ⟨events ++ events', s'', run_append.mpr ⟨s', hrun, hrun'⟩, hidle⟩

end Refinement

end Workers
