import PowerApi.Transition
import Mathlib

/-!
# Threads and locks, and why ranks keep them from deadlock

A program is what it does with its locks and with other threads: a list of `Act`s. `step` lets one
thread of a `ThreadSystem` do its next act, and gives `none` if it has to wait: for a lock that
another holds, or for the end of a thread. That a thread is joined is like a lock that it holds
from its start to its end, so that locks and threads have ranks of one order.

* `Ordered`: a program takes nothing unless its rank is above that of all it holds, and gives
  back what it took last.
* `exists_waitsFor_free`: if all programs are ordered, then in every state that is reached a
  thread that has to wait does so, over however many others, for one that need not.
* `Within`: programs put together from others are ordered if these are; the programs are
  languages here, for which branches are sums and loops are stars.
-/

namespace Locks

open Transition Computability

universe u v

/-- What a thread does with the locks and with the other threads. -/
inductive Act (L : Type u) (T : Type v) where
  | lock (l : L)
  | unlock (l : L)
  | spawn (t : T)
  | join (t : T)
  deriving DecidableEq

/-- The threads and the locks. -/
structure ThreadSystem (L : Type u) (T : Type v) where
  /-- what a thread has left to do, once it is started -/
  todo : T → Option (List (Act L T))
  owner : L → Option T

variable {L : Type u} {T : Type v}

namespace ThreadSystem

/-- The thread is started and has not come to its end. -/
def Alive (s : ThreadSystem L T) (t : T) : Prop := ∃ a as, s.todo t = some (a :: as)

/-- A thread waits for the one that has the lock, or for the end of one. -/
inductive WaitsFor (s : ThreadSystem L T) (t u : T) : Prop where
  | lock {l as} : s.todo t = some (.lock l :: as) → s.owner l = some u → WaitsFor s t u
  | join {as} : s.todo t = some (.join u :: as) → s.Alive u → WaitsFor s t u

variable [DecidableEq L] [DecidableEq T]

/-- One thread is started, and no lock is taken. -/
def start (prog : T → List (Act L T)) (main : T) : ThreadSystem L T where
  todo := Function.update (fun _ => none) main (some (prog main))
  owner := fun _ => none

/-- A thread does its next act. A thread that was never started need not be waited for. -/
def step (prog : T → List (Act L T)) (s : ThreadSystem L T) (t : T) : Option (ThreadSystem L T) :=
  match s.todo t with
  | none => none
  | some [] => none
  | some (.lock l :: as) =>
    if s.owner l = none then
      some ⟨Function.update s.todo t (some as), Function.update s.owner l (some t)⟩
    else none
  | some (.unlock l :: as) =>
    some ⟨Function.update s.todo t (some as), Function.update s.owner l none⟩
  | some (.spawn u :: as) =>
    if s.todo u = none then
      some ⟨Function.update (Function.update s.todo t (some as)) u (some (prog u)), s.owner⟩
    else some ⟨Function.update s.todo t (some as), s.owner⟩
  | some (.join u :: as) =>
    if s.todo u = none ∨ s.todo u = some [] then
      some ⟨Function.update s.todo t (some as), s.owner⟩
    else none

/-- A thread that is alive can move, or has to wait for another. -/
theorem isSome_step_or_waitsFor (prog : T → List (Act L T)) {s : ThreadSystem L T} {t : T}
    (h : s.Alive t) : (step prog s t).isSome ∨ ∃ u, s.WaitsFor t u := by
  obtain ⟨a, as, ht⟩ := h
  cases a with
  | lock l =>
    cases hl : s.owner l with
    | none => exact .inl (by simp [step, ht, hl])
    | some u => exact .inr ⟨u, .lock ht hl⟩
  | unlock l => exact .inl (by simp [step, ht])
  | spawn u =>
    left
    rw [step, ht]
    dsimp only
    split <;> rfl
  | join u =>
    rcases hu : s.todo u with _ | _ | ⟨b, bs⟩
    · exact .inl (by simp [step, ht, hu])
    · exact .inl (by simp [step, ht, hu])
    · exact .inr ⟨u, .join ht ⟨b, bs, hu⟩⟩

end ThreadSystem

open ThreadSystem

/-! ## Ranks -/

section Ranks

variable (rank : L → ℕ) (rankT : T → ℕ)

/-- What is left of the program of a thread of rank `floor` that holds the locks `held`: what it
waits for ranks above all that it holds and above itself, and it gives all locks back, the one it
took last first. -/
def Ordered (floor : ℕ) : List L → List (Act L T) → Prop
  | held, [] => held = []
  | held, .lock l :: as =>
    floor < rank l ∧ (∀ k ∈ held, rank k < rank l) ∧ Ordered floor (l :: held) as
  | held, .unlock l :: as => ∃ rest, held = l :: rest ∧ Ordered floor rest as
  | held, .spawn _ :: as => Ordered floor held as
  | held, .join u :: as =>
    floor < rankT u ∧ (∀ k ∈ held, rank k < rankT u) ∧ Ordered floor held as

/-- The locks that a thread has, and what it has left to do, are in order. -/
structure Holds (s : ThreadSystem L T) (t : T) (held : List L) : Prop where
  nodup : held.Nodup
  owner : ∀ l, s.owner l = some t ↔ l ∈ held
  ordered : Ordered rank rankT (rankT t) held ((s.todo t).getD [])

/-- The locks of every thread are in order. -/
def Sound (s : ThreadSystem L T) : Prop := ∀ t, ∃ held, Holds rank rankT s t held

/-- The rank of what a thread waits for. -/
def wanted (s : ThreadSystem L T) (t : T) : ℕ :=
  match s.todo t with
  | some (.lock l :: _) => rank l
  | some (.join u :: _) => rankT u
  | _ => 0

end Ranks

section Steps

variable {rank : L → ℕ} {rankT : T → ℕ} {s s' : ThreadSystem L T} {t : T} {held : List L}

/-- One thread moves, and the others keep their locks. -/
theorem Sound.moved (h : Sound rank rankT s) (held : List L) (ht : Holds rank rankT s' t held)
    (htodo : ∀ v ≠ t, s'.todo v = s.todo v)
    (howner : ∀ v ≠ t, ∀ l, s'.owner l = some v ↔ s.owner l = some v) : Sound rank rankT s' := by
  intro v
  by_cases hv : v = t
  · exact hv ▸ ⟨held, ht⟩
  · obtain ⟨heldv, hnodup, hlocks, hordered⟩ := h v
    exact ⟨heldv, hnodup, fun l => (howner v hv l).trans (hlocks l), by rwa [htodo v hv]⟩

/-- A thread that is not started has no locks. -/
theorem Holds.eq_nil (h : Holds rank rankT s t held) (ht : s.todo t = none) : held = [] := by
  have hordered := h.ordered
  rwa [ht] at hordered

variable [DecidableEq T]

/-- A thread does an act that is not about locks. -/
theorem Sound.proceed (h : Sound rank rankT s) (ht : Holds rank rankT s t held)
    (as : List (Act L T)) (hrest : Ordered rank rankT (rankT t) held as) :
    Sound rank rankT ⟨Function.update s.todo t (some as), s.owner⟩ :=
  h.moved held ⟨ht.nodup, ht.owner, by simpa using hrest⟩ (fun _ hv => Function.update_of_ne hv ..)
    fun _ _ _ => Iff.rfl

/-- A thread is started. -/
theorem Sound.spawn (h : Sound rank rankT s) {prog : List (Act L T)} (ht : s.todo t = none)
    (hprog : Ordered rank rankT (rankT t) [] prog) :
    Sound rank rankT ⟨Function.update s.todo t (some prog), s.owner⟩ := by
  obtain ⟨held, hheld⟩ := h t
  obtain rfl := hheld.eq_nil ht
  exact h.proceed hheld prog hprog

theorem sound_start {prog : T → List (Act L T)} {main : T}
    (h : Ordered rank rankT (rankT main) [] (prog main)) :
    Sound rank rankT (start prog main) := by
  have hnone : Sound rank rankT (⟨fun _ => none, fun _ => none⟩ : ThreadSystem L T) :=
    fun t => ⟨[], List.nodup_nil, by simp, rfl⟩
  exact hnone.spawn rfl h

variable [DecidableEq L] {prog : T → List (Act L T)}

theorem Sound.lock (h : Sound rank rankT s) (ht : Holds rank rankT s t held) {l : L}
    {as : List (Act L T)} (hfree : s.owner l = none)
    (hrest : Ordered rank rankT (rankT t) (l :: held) as) :
    Sound rank rankT
      ⟨Function.update s.todo t (some as), Function.update s.owner l (some t)⟩ := by
  have hnew : l ∉ held := fun hmem => by
    rw [(ht.owner l).mpr hmem] at hfree
    cases hfree
  refine h.moved (l :: held) ⟨List.nodup_cons.mpr ⟨hnew, ht.nodup⟩, fun k => ?_,
    by simpa using hrest⟩ (fun _ hv => Function.update_of_ne hv ..) fun v hv k => ?_
  · by_cases hk : k = l
    · simp [hk]
    · simp [hk, ht.owner]
  · by_cases hk : k = l
    · simp [hk, hfree, Ne.symm hv]
    · simp [hk]

theorem Sound.unlock (h : Sound rank rankT s) {l : L} (ht : Holds rank rankT s t (l :: held))
    {as : List (Act L T)} (hrest : Ordered rank rankT (rankT t) held as) :
    Sound rank rankT ⟨Function.update s.todo t (some as), Function.update s.owner l none⟩ := by
  obtain ⟨hnot, hnodup⟩ := List.nodup_cons.mp ht.nodup
  have hl := (ht.owner l).mpr List.mem_cons_self
  refine h.moved held ⟨hnodup, fun k => ?_, by simpa using hrest⟩
    (fun _ hv => Function.update_of_ne hv ..) fun v hv k => ?_
  · by_cases hk : k = l
    · simp [hk, hnot]
    · simp [hk, ht.owner]
  · by_cases hk : k = l
    · simp [hk, hl, Ne.symm hv]
    · simp [hk]

/-- A step leaves the locks of every thread in order. -/
theorem Sound.step (hprog : ∀ t, Ordered rank rankT (rankT t) [] (prog t))
    (h : Sound rank rankT s) (hs : step prog s t = some s') : Sound rank rankT s' := by
  obtain ⟨held, hheld⟩ := h t
  have hordered := hheld.ordered
  rcases ht : s.todo t with _ | _ | ⟨a, as⟩ <;> simp only [ThreadSystem.step, ht] at hs
  · cases hs
  · cases hs
  rw [ht, Option.getD_some] at hordered
  cases a with
  | lock l =>
    obtain ⟨hfree, hs⟩ := Option.ite_none_right_eq_some.mp hs
    obtain rfl := Option.some.inj hs
    exact h.lock hheld hfree hordered.2.2
  | unlock l =>
    obtain rfl := Option.some.inj hs
    obtain ⟨rest, rfl, hrest⟩ := hordered
    exact h.unlock hheld hrest
  | spawn u =>
    have hsound := h.proceed hheld as hordered
    dsimp only at hs
    split at hs
    · rename_i hnew
      obtain rfl := Option.some.inj hs
      have hut : u ≠ t := fun hut => by
        rw [hut, ht] at hnew
        cases hnew
      exact hsound.spawn ((Function.update_of_ne hut ..).trans hnew) (hprog u)
    · obtain rfl := Option.some.inj hs
      exact hsound
  | join u =>
    obtain ⟨-, hs⟩ := Option.ite_none_right_eq_some.mp hs
    obtain rfl := Option.some.inj hs
    exact h.proceed hheld as hordered.2.2

end Steps

/-! ## Who is waited for -/

section Waiting

variable {rank : L → ℕ} {rankT : T → ℕ} {s : ThreadSystem L T} {t u v : T}

/-- A thread that has a lock has not come to its end. -/
theorem ThreadSystem.WaitsFor.alive (h : s.WaitsFor t u) (hs : Sound rank rankT s) : s.Alive u := by
  cases h with
  | lock _ howner =>
    obtain ⟨held, hheld⟩ := hs u
    have hmem := (hheld.owner _).mp howner
    have hordered := hheld.ordered
    rcases hu : s.todo u with _ | _ | ⟨a, as⟩
    · rw [hheld.eq_nil hu] at hmem
      cases hmem
    · rw [hu] at hordered
      rw [show held = [] from hordered] at hmem
      cases hmem
    · exact ⟨a, as, hu⟩
  | join _ halive => exact halive

/-- What a thread waits for is of a higher rank than all it has, and than itself. -/
theorem Holds.lt_wanted {held : List L} (h : Holds rank rankT s u held) (hwait : s.WaitsFor u v) :
    rankT u < wanted rank rankT s u ∧ ∀ k ∈ held, rank k < wanted rank rankT s u := by
  have hordered := h.ordered
  cases hwait with
  | lock hu _ =>
    rw [hu] at hordered
    rw [wanted, hu]
    exact ⟨hordered.1, hordered.2.1⟩
  | join hu _ =>
    rw [hu] at hordered
    rw [wanted, hu]
    exact ⟨hordered.1, hordered.2.1⟩

/-- Along a chain of threads that wait for each other, the ranks rise. -/
theorem wanted_lt (hs : Sound rank rankT s) (h : s.WaitsFor t u) (h' : s.WaitsFor u v) :
    wanted rank rankT s t < wanted rank rankT s u := by
  obtain ⟨held, hheld⟩ := hs u
  obtain ⟨hself, hlocks⟩ := hheld.lt_wanted h'
  cases h with
  | lock ht howner =>
    rw [wanted, ht]
    exact hlocks _ ((hheld.owner _).mp howner)
  | join ht _ =>
    rw [wanted, ht]
    exact hself

variable [DecidableEq L] [DecidableEq T] {prog : T → List (Act L T)} {N : ℕ}

/-- A thread that waits does so for one that can move. -/
theorem Sound.exists_free (hs : Sound rank rankT s) (prog : T → List (Act L T))
    (hrank : ∀ l, rank l ≤ N)
    (hrankT : ∀ t, rankT t ≤ N) (h : s.WaitsFor t u) :
    ∃ v, Relation.TransGen s.WaitsFor t v ∧ (ThreadSystem.step prog s v).isSome := by
  -- the further the chain has come, the fewer ranks are left
  induction hn : N - wanted rank rankT s t using Nat.strong_induction_on generalizing t u with
  | h n ih =>
    obtain hfree | ⟨v, hv⟩ := isSome_step_or_waitsFor prog (h.alive hs)
    · exact ⟨u, .single h, hfree⟩
    · have hlt := wanted_lt hs h hv
      have hle : wanted rank rankT s u ≤ N := by
        cases hv with
        | lock hu _ =>
          rw [wanted, hu]
          exact hrank _
        | join hu _ =>
          rw [wanted, hu]
          exact hrankT _
      obtain ⟨w, hw, hfree⟩ := ih _ (by omega) hv rfl
      exact ⟨w, .head h hw, hfree⟩

/-- **Ranks keep threads from deadlock.** Whatever the order in which threads have moved, one that
is alive can move, or waits, over however many others, for one that can. -/
theorem exists_waitsFor_free (hprog : ∀ t, Ordered rank rankT (rankT t) [] (prog t))
    (hrank : ∀ l, rank l ≤ N) (hrankT : ∀ t, rankT t ≤ N) {main : T} {events : List T}
    (h : run (step prog) (start prog main) events = some s) (ht : s.Alive t) :
    ∃ u, Relation.ReflTransGen s.WaitsFor t u ∧ (step prog s u).isSome := by
  have hs : Sound rank rankT s :=
    run_invariant (fun hs hstep => Sound.step hprog hs hstep) (sound_start (hprog main)) h
  obtain hfree | ⟨u, hu⟩ := isSome_step_or_waitsFor prog ht
  · exact ⟨t, .refl, hfree⟩
  · obtain ⟨v, hv, hfree⟩ := hs.exists_free prog hrank hrankT hu
    exact ⟨v, hv.to_reflTransGen, hfree⟩

end Waiting

/-! ## Programs put together from others -/

section Within

variable (rank : L → ℕ) (rankT : T → ℕ)

/-- Whatever of ranks below `r` a thread holds, it can do what the language says, and then goes on
with the same locks. -/
def Within (r : ℕ) (p : Language (Act L T)) : Prop :=
  ∀ w ∈ p, ∀ floor held rest, floor < r → (∀ k ∈ held, rank k < r) →
    Ordered rank rankT floor held rest → Ordered rank rankT floor held (w ++ rest)

/-- A lock is taken for the time of something else. -/
def critical (l : L) (p : Language (Act L T)) : Language (Act L T) :=
  {[.lock l]} * p * {[.unlock l]}

theorem mem_critical {l : L} {p : Language (Act L T)} {w : List (Act L T)} (hw : w ∈ p) :
    .lock l :: (w ++ [.unlock l]) ∈ critical l p :=
  have hlock : [Act.lock l] ∈ ({[.lock l]} : Language (Act L T)) := rfl
  have hunlock : [Act.unlock l] ∈ ({[.unlock l]} : Language (Act L T)) := rfl
  Language.append_mem_mul (Language.append_mem_mul hlock hw) hunlock

/-- A lock may be taken for nothing else. -/
theorem mem_critical_one (l : L) : [Act.lock l, .unlock l] ∈ (critical l 1 : Language (Act L T)) :=
  mem_critical Language.nil_mem_one

/-- A loop may be left after one round. -/
theorem mem_kstar_of_mem {α : Type} {p : Language α} {w : List α} (hw : w ∈ p) : w ∈ p∗ :=
  le_kstar (a := p) hw

variable {rank rankT} {r r' : ℕ} {p q : Language (Act L T)}

theorem Within.ordered (h : Within rank rankT r p) {w : List (Act L T)} (hw : w ∈ p) {floor : ℕ}
    (hfloor : floor < r) : Ordered rank rankT floor [] w := by
  have hw' := h w hw floor [] [] hfloor (by simp) rfl
  rwa [List.append_nil] at hw'

theorem Within.mono (h : Within rank rankT r p) (hr : r' ≤ r) : Within rank rankT r' p :=
  fun w hw floor held rest hfloor hheld =>
    h w hw floor held rest (by omega) fun k hk => (hheld k hk).trans_le hr

theorem within_one : Within rank rankT r (1 : Language (Act L T)) := by
  intro w hw floor held rest _ _ hrest
  obtain rfl := (Language.mem_one w).mp hw
  exact hrest

theorem Within.add (hp : Within rank rankT r p) (hq : Within rank rankT r q) :
    Within rank rankT r (p + q) := by
  rintro w (hw | hw)
  · exact hp w hw
  · exact hq w hw

theorem Within.mul (hp : Within rank rankT r p) (hq : Within rank rankT r q) :
    Within rank rankT r (p * q) := by
  intro w hw floor held rest hfloor hheld hrest
  obtain ⟨a, ha, b, hb, rfl⟩ := Language.mem_mul.mp hw
  rw [List.append_assoc]
  exact hp a ha floor held _ hfloor hheld (hq b hb floor held rest hfloor hheld hrest)

theorem Within.kstar (hp : Within rank rankT r p) : Within rank rankT r p∗ := by
  intro w hw floor held rest hfloor hheld hrest
  obtain ⟨ws, rfl, hws⟩ := Language.mem_kstar.mp hw
  clear hw
  induction ws with
  | nil => exact hrest
  | cons a ws ih =>
    rw [List.flatten_cons, List.append_assoc]
    exact hp a (hws a List.mem_cons_self) floor held _ hfloor hheld
      (ih fun b hb => hws b (List.mem_cons_of_mem a hb))

theorem Within.iSup {ι : Type} {p : ι → Language (Act L T)} (h : ∀ i, Within rank rankT r (p i)) :
    Within rank rankT r (⨆ i, p i) := by
  intro w hw
  obtain ⟨i, hi⟩ := Language.mem_iSup.mp hw
  exact h i w hi

theorem within_spawn (t : T) : Within rank rankT r ({[.spawn t]} : Language (Act L T)) := by
  rintro w rfl floor held rest _ _ hrest
  exact hrest

theorem within_join {t : T} (ht : r ≤ rankT t) :
    Within rank rankT r ({[.join t]} : Language (Act L T)) := by
  rintro w rfl floor held rest hfloor hheld hrest
  exact ⟨by omega, fun k hk => (hheld k hk).trans_le ht, hrest⟩

theorem Within.critical {l : L} (hl : r ≤ rank l) (h : Within rank rankT (rank l + 1) p) :
    Within rank rankT r (critical l p) := by
  intro w hw floor held rest hfloor hheld hrest
  obtain ⟨a, ha, _, rfl, rfl⟩ := Language.mem_mul.mp hw
  obtain ⟨_, rfl, b, hb, rfl⟩ := Language.mem_mul.mp ha
  simp only [List.append_assoc, List.singleton_append]
  have hbelow : ∀ k ∈ held, rank k < rank l := fun k hk => (hheld k hk).trans_le hl
  refine ⟨by omega, hbelow, h b hb floor (l :: held) _ (by omega) (fun k hk => ?_)
    ⟨held, rfl, hrest⟩⟩
  obtain rfl | hk := List.mem_cons.mp hk
  · omega
  · exact (hbelow k hk).trans_le (by omega)

end Within

end Locks
