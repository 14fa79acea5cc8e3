import PowerApi.TaskInterval
import PowerApi.Metadata
import PowerApi.CpuService

/-!
# The rounds of a collection task (`taskservice.c`)

The thread of a task sleeps for what is left of the interval since the last round began,
looks at the clock and sends what it measures to the subscribers to whom it is due. How
long to sleep and who is due are both told from `GetTimeDistance`, which takes the
microseconds in its own way: towards zero, so that a distance whose microseconds have to
borrow a second is rounded up and any other is rounded down.

* `served_again_iff`: a subscriber with the interval of the task is served in every round
  if and only if the two roundings do not come apart.
* `sleeps_right_iff`: the sleep is the one meant if and only if its microseconds are an
  `int`.
-/

namespace PowerApi

/-! ## The clock -/

namespace TimeVal

/-- As `gettimeofday` fills it in. -/
def Normal (t : TimeVal) : Prop := 0 ≤ t.usec ∧ t.usec < 1000000

instance (t : TimeVal) : Decidable t.Normal := inferInstanceAs (Decidable (_ ∧ _))

/-- The time in microseconds. -/
def micros (t : TimeVal) : Int := t.sec * 1000000 + t.usec

end TimeVal

theorem tdiv_thousand {u : Int} :
    (0 ≤ u → u.tdiv 1000 = u / 1000) ∧ (u < 0 → u.tdiv 1000 = -(-u / 1000)) := by
  constructor
  · exact fun h => Int.tdiv_eq_ediv_of_nonneg h
  · intro h
    rw [← Int.tdiv_eq_ediv_of_nonneg (by omega), Int.neg_tdiv, neg_neg]

section Clock

variable {before now : TimeVal} {interval : Int}

/-- Where the microseconds do not borrow, the distance is rounded down. -/
theorem le_getTimeDistance (hphase : before.usec ≤ now.usec) :
    interval ≤ getTimeDistance now before ↔ 1000 * interval ≤ now.micros - before.micros := by
  rw [getTimeDistance, tdiv_thousand.1 (by omega), TimeVal.micros, TimeVal.micros]
  omega

/-- Where they borrow it is rounded up. -/
theorem le_getTimeDistance_of_borrow (hphase : now.usec < before.usec) :
    interval ≤ getTimeDistance now before ↔
      1000 * (interval - 1) < now.micros - before.micros := by
  rw [getTimeDistance, tdiv_thousand.2 (by omega), TimeVal.micros, TimeVal.micros]
  omega

end Clock

/-! ## Sending to the subscribers -/

namespace CollTask

/-- Data go to the subscriber in a slot. -/
def served (task : CollTask) (i : Fin maxClientNum) (startTime : TimeVal) : CollTask :=
  { task with
    subscriberList := Function.update task.subscriberList i
      { task.subscriberList i with lastSent := startTime } }

@[simp] theorem served_self (task : CollTask) (i : Fin maxClientNum) (startTime : TimeVal) :
    (task.served i startTime).subscriberList i =
      { task.subscriberList i with lastSent := startTime } := Function.update_self ..

theorem served_of_ne {task : CollTask} {i j : Fin maxClientNum} (h : i ≠ j) (startTime : TimeVal) :
    (task.served j startTime).subscriberList i = task.subscriberList i := Function.update_of_ne h ..

@[simp] theorem served_interval (task : CollTask) (i : Fin maxClientNum) (startTime : TimeVal) :
    (task.served i startTime).interval = task.interval := rfl

/-- `SendMetadataToSubscribers` from some slot on: the task, and the slots to whose subscribers
data are sent. A subscriber is left out if there is no memory for a copy of the data. -/
def sendFrom (startTime : TimeVal) (mallocOk : Fin maxClientNum → Bool) :
    List (Fin maxClientNum) → CollTask → CollTask × List (Fin maxClientNum)
  | [], task => (task, [])
  | i :: is, task =>
    if Server.dueTo (task.subscriberList i) startTime ∧ mallocOk i = true then
      let rest := sendFrom startTime mallocOk is (task.served i startTime)
      (rest.1, i :: rest.2)
    else sendFrom startTime mallocOk is task

/-- `SendMetadataToSubscribers`. -/
def sendMetadataToSubscribers (task : CollTask) (startTime : TimeVal)
    (mallocOk : Fin maxClientNum → Bool) : CollTask × List (Fin maxClientNum) :=
  sendFrom startTime mallocOk (List.finRange maxClientNum) task

section Send

variable {startTime : TimeVal} {mallocOk : Fin maxClientNum → Bool} {i : Fin maxClientNum}
  {is : List (Fin maxClientNum)}

@[simp] theorem sendFrom_interval (task : CollTask) :
    (sendFrom startTime mallocOk is task).1.interval = task.interval := by
  induction is generalizing task with
  | nil => rfl
  | cons j is ih =>
    rw [sendFrom]
    split <;> simp [ih]

/-- A slot whose turn does not come is left alone. -/
theorem sendFrom_of_not_mem (hi : i ∉ is) (task : CollTask) :
    (sendFrom startTime mallocOk is task).1.subscriberList i = task.subscriberList i ∧
      i ∉ (sendFrom startTime mallocOk is task).2 := by
  induction is generalizing task with
  | nil => simp [sendFrom]
  | cons j is ih =>
    rw [List.mem_cons, not_or] at hi
    rw [sendFrom]
    split
    · have hserved := ih hi.2 (task.served j startTime)
      rw [served_of_ne hi.1] at hserved
      simpa [hi.1] using hserved
    · exact ih hi.2 task

/-- Every slot has its turn. -/
theorem sendFrom_of_mem (hnodup : is.Nodup) (hi : i ∈ is) (task : CollTask) :
    (sendFrom startTime mallocOk is task).1.subscriberList i =
        (if Server.dueTo (task.subscriberList i) startTime ∧ mallocOk i = true then
          { task.subscriberList i with lastSent := startTime }
        else task.subscriberList i) ∧
      (i ∈ (sendFrom startTime mallocOk is task).2 ↔
        Server.dueTo (task.subscriberList i) startTime ∧ mallocOk i = true) := by
  induction is generalizing task with
  | nil => cases hi
  | cons j is ih =>
    obtain ⟨hj, hnodup⟩ := List.nodup_cons.mp hnodup
    rw [sendFrom]
    obtain rfl | hmem := List.mem_cons.mp hi
    · -- its own turn; the loop does not come back to the slot
      split <;> rename_i hdue
      · have hrest := @sendFrom_of_not_mem startTime mallocOk i is hj (task.served i startTime)
        simpa [hdue] using hrest.1
      · have hrest := @sendFrom_of_not_mem startTime mallocOk i is hj task
        simpa [hdue] using hrest
    · have hij : i ≠ j := fun h => hj (h ▸ hmem)
      split
      · have hrest := ih hnodup hmem (task.served j startTime)
        rw [served_of_ne hij] at hrest
        simpa [hij] using hrest
      · exact ih hnodup hmem task

end Send

theorem sendMetadataToSubscribers_slot (task : CollTask) (startTime : TimeVal)
    (mallocOk : Fin maxClientNum → Bool) (i : Fin maxClientNum) :
    (task.sendMetadataToSubscribers startTime mallocOk).1.subscriberList i =
        (if Server.dueTo (task.subscriberList i) startTime ∧ mallocOk i = true then
          { task.subscriberList i with lastSent := startTime }
        else task.subscriberList i) ∧
      (i ∈ (task.sendMetadataToSubscribers startTime mallocOk).2 ↔
        Server.dueTo (task.subscriberList i) startTime ∧ mallocOk i = true) :=
  sendFrom_of_mem (List.nodup_finRange _) (List.mem_finRange i) task

end CollTask

/-! ## A round -/

/-- What a round finds: the clock when it begins, the clock after the sleep, and whether
`malloc` gives the copies for the subscribers. -/
structure Round where
  after : TimeVal
  now : TimeVal
  mallocOk : Fin maxClientNum → Bool

/-- The thread of a task in `RunDcTaskProcess`, with the beginning of the last round. -/
structure Sampling where
  task : CollTask
  before : TimeVal

namespace Sampling

/-- Clock readings, after a sleep as long as it is meant to be. -/
structure Awake (s : Sampling) (e : Round) : Prop where
  before_normal : s.before.Normal
  after_normal : e.after.Normal
  now_normal : e.now.Normal
  after_le : s.before.micros ≤ e.after.micros
  now_le : e.after.micros +
    1000 * max 0 (s.task.interval - getTimeDistance e.after s.before) ≤ e.now.micros

instance (s : Sampling) (e : Round) : Decidable (s.Awake e) :=
  decidable_of_iff (s.before.Normal ∧ e.after.Normal ∧ e.now.Normal ∧
      s.before.micros ≤ e.after.micros ∧ e.after.micros +
        1000 * max 0 (s.task.interval - getTimeDistance e.after s.before) ≤ e.now.micros)
    ⟨fun ⟨h1, h2, h3, h4, h5⟩ => ⟨h1, h2, h3, h4, h5⟩,
      fun ⟨h1, h2, h3, h4, h5⟩ => ⟨h1, h2, h3, h4, h5⟩⟩

/-- A turn of the loop of `RunDcTaskProcess` in which there are data to send. -/
def turn (s : Sampling) (e : Round) : Sampling × List (Fin maxClientNum) :=
  let sent := s.task.sendMetadataToSubscribers e.now e.mallocOk
  (⟨sent.1, e.now⟩, sent.2)

/-- The subscriber in a slot has the interval of the task and was served in the last round. -/
structure Follows (i : Fin maxClientNum) (s : Sampling) : Prop where
  taken : (s.task.subscriberList i).sysId ≠ 0
  interval : (s.task.subscriberList i).interval = s.task.interval
  lastSent : (s.task.subscriberList i).lastSent = s.before

/-- The round is far enough from the last one, and the subscriber is served if there is memory
for its copy of the data. -/
structure ServedAgain (i : Fin maxClientNum) (s : Sampling) (e : Round) : Prop where
  distance : s.task.interval ≤ getTimeDistance e.now s.before
  sent : e.mallocOk i = true → i ∈ (s.turn e).2

/-- The two roundings do not come apart: the distance of which the sleep was the rest was not
rounded up, or that of the whole round is rounded up too, or the sleep took longer. -/
def InPhase (s : Sampling) (e : Round) : Prop :=
  s.before.usec ≤ e.after.usec ∨ e.now.usec < s.before.usec ∨
    s.before.micros + 1000 * s.task.interval ≤ e.now.micros

instance (s : Sampling) (e : Round) : Decidable (s.InPhase e) :=
  inferInstanceAs (Decidable (_ ∨ _ ∨ _))

section Round

variable {s : Sampling} {e : Round} {i : Fin maxClientNum}

theorem distance_iff_inPhase (h : s.Awake e) :
    s.task.interval ≤ getTimeDistance e.now s.before ↔ s.InPhase e := by
  obtain ⟨hbefore, hafter, hnow, hle, hsleep⟩ := h
  rw [InPhase]
  by_cases hborrow : e.now.usec < s.before.usec
  · -- the round is rounded up: at most 999 microseconds of the sleep are missing
    rw [le_getTimeDistance_of_borrow hborrow]
    refine iff_of_true ?_ (.inr (.inl hborrow))
    have hmax := le_max_right 0 (s.task.interval - getTimeDistance e.after s.before)
    by_cases hphase : s.before.usec ≤ e.after.usec
    · have hdist := (le_getTimeDistance hphase).mp le_rfl
      omega
    · have hdist := (le_getTimeDistance_of_borrow (not_le.mp hphase)).mp le_rfl
      omega
  · rw [le_getTimeDistance (not_lt.mp hborrow)]
    have hmax := le_max_right 0 (s.task.interval - getTimeDistance e.after s.before)
    by_cases hphase : s.before.usec ≤ e.after.usec
    · have hdist := (le_getTimeDistance hphase).mp le_rfl
      exact iff_of_true (by omega) (.inl hphase)
    · rw [or_iff_right hphase, or_iff_right hborrow]
      omega

/-- **The subscriber is served again** if and only if the roundings do not come apart. -/
theorem served_again_iff (h : s.Follows i) (hawake : s.Awake e) :
    s.ServedAgain i e ↔ s.InPhase e := by
  rw [← distance_iff_inPhase hawake]
  refine ⟨fun hserved => hserved.distance, fun hdist => ⟨hdist, fun hok => ?_⟩⟩
  refine (s.task.sendMetadataToSubscribers_slot e.now e.mallocOk i).2.mpr ⟨⟨h.taken, ?_⟩, hok⟩
  rwa [h.interval, h.lastSent]

/-- Client 1 samples every 1001 ms. -/
def sampler : Sampling where
  task := CollTask.new ⟨1, 1001⟩ 1 ⟨0, 999⟩
  before := ⟨0, 999⟩

/-- The round begins when the last one has taken 999.001 ms, which is rounded up, and goes on
1 ms later. -/
def earlyRound : Round := ⟨⟨1, 0⟩, ⟨1, 1000⟩, fun _ => true⟩

/-- The clock has gone on a little further. -/
def lateRound : Round := ⟨⟨1, 0⟩, ⟨1, 2000⟩, fun _ => true⟩

theorem follows_sampler : sampler.Follows 0 := ⟨by decide, rfl, rfl⟩

theorem served_again_iff_lateRound : sampler.ServedAgain 0 lateRound :=
  (served_again_iff follows_sampler (by decide)).mpr (by decide)

theorem earlyRound_not_served :
    ∃ (s : Sampling) (e : Round) (i : Fin maxClientNum),
      s.task.interval ∈ Set.Icc minDcInterval maxDcInterval ∧ s.Follows i ∧ s.Awake e ∧
        e.mallocOk i = true ∧ ¬ s.ServedAgain i e :=
  ⟨sampler, earlyRound, 0, ⟨by decide, by decide⟩, follows_sampler, by decide, rfl,
    fun h => absurd h.distance (by decide)⟩

/-! ### Round after round -/

/-- A turn of the loop, if the clock goes on as it should. -/
def step (s : Sampling) (e : Round) : Option Sampling :=
  if s.Awake e then some (s.turn e).1 else none

theorem step_eq_some {s' : Sampling} : step s e = some s' ↔ s.Awake e ∧ (s.turn e).1 = s' := by
  rw [step, Option.ite_none_right_eq_some, Option.some.injEq]

/-- The subscriber has the interval of the task, which is not 0. -/
structure Paced (i : Fin maxClientNum) (s : Sampling) : Prop where
  taken : (s.task.subscriberList i).sysId ≠ 0
  interval : (s.task.subscriberList i).interval = s.task.interval
  pos : 0 < s.task.interval

theorem Paced.turn (h : s.Paced i) : (s.turn e).1.Paced i := by
  obtain ⟨htaken, hinterval, hpos⟩ := h
  have hslot := (s.task.sendMetadataToSubscribers_slot e.now e.mallocOk i).1
  constructor
  · rw [Sampling.turn, hslot]
    split <;> exact htaken
  · rw [Sampling.turn, hslot]
    dsimp only
    rw [CollTask.sendMetadataToSubscribers, CollTask.sendFrom_interval]
    split <;> exact hinterval
  · simpa [Sampling.turn, CollTask.sendMetadataToSubscribers] using hpos

/-- A round does not begin when the last one did. -/
theorem Awake.now_ne (h : s.Awake e) (hpos : 0 < s.task.interval) : e.now ≠ s.before := by
  intro hnow
  obtain ⟨hbefore, hafter, -, hle, hsleep⟩ := h
  rw [hnow] at hsleep
  have hmax := le_max_left 0 (s.task.interval - getTimeDistance e.after s.before)
  have hmax' := le_max_right 0 (s.task.interval - getTimeDistance e.after s.before)
  obtain ⟨hlo, hhi⟩ := hbefore
  obtain ⟨hlo', hhi'⟩ := hafter
  have hphase : s.before.usec ≤ e.after.usec := by
    simp only [TimeVal.micros] at hle hsleep
    omega
  have hdist := (le_getTimeDistance hphase).mp (show s.task.interval ≤ _ by omega)
  omega

/-- The round leaves the subscriber served exactly if it is in phase and has memory for the copy. -/
theorem follows_turn (hpaced : s.Paced i) (h : s.Follows i) (hawake : s.Awake e) :
    (s.turn e).1.Follows i ↔ s.InPhase e ∧ e.mallocOk i = true := by
  obtain ⟨htaken, hinterval, -⟩ := hpaced.turn (e := e)
  rw [← distance_iff_inPhase hawake]
  have hslot := (s.task.sendMetadataToSubscribers_slot e.now e.mallocOk i).1
  have hdue : Server.dueTo (s.task.subscriberList i) e.now ↔
      s.task.interval ≤ getTimeDistance e.now s.before := by
    rw [Server.dueTo, h.interval, h.lastSent]
    exact and_iff_right h.taken
  rw [← hdue]
  constructor
  · rintro ⟨-, -, hlast⟩
    by_contra hnot
    rw [turn, hslot, if_neg hnot, h.lastSent] at hlast
    exact hawake.now_ne hpaced.pos hlast.symm
  · intro hserved
    refine ⟨htaken, hinterval, ?_⟩
    rw [turn, hslot, if_pos hserved]

/-- **No sample is skipped in a run of rounds** if and only if every round is in phase and has
memory for the copy. -/
theorem served_every_round {es : List Round} (hpaced : s.Paced i) (h : s.Follows i) :
    Transition.Along step (fun _ _ s' => s'.Follows i) s es ↔
      Transition.Along step (fun s e _ => s.InPhase e ∧ e.mallocOk i = true) s es := by
  refine Transition.along_iff (J := Paced i) ?_ ?_ hpaced h
  · intro s e s' hs hstep
    obtain ⟨-, rfl⟩ := step_eq_some.mp hstep
    exact hs.turn
  · intro s e s' hs hfollows hstep
    obtain ⟨hawake, rfl⟩ := step_eq_some.mp hstep
    exact follows_turn hs hfollows hawake

end Round

end Sampling

/-! ## How long a round sleeps -/

/-- What `RunDcTaskProcess` computes for an `int`, before it is cut down to one: `sleepTime`,
and the argument of `usleep` if there is a call. -/
def roundInts (interval : Int) (after before : TimeVal) : List Int :=
  let sleepTime := interval - getTimeDistance after before
  if 0 < wrapInt sleepTime then [sleepTime, thousand * wrapInt sleepTime] else [sleepTime]

/-- The microseconds that `usleep` gets, as an unsigned number of 32 bits; 0 if it is not
called. -/
def roundSleep (interval : Int) (after before : TimeVal) : Int :=
  let sleepTime := wrapInt (interval - getTimeDistance after before)
  if 0 < sleepTime then wrapInt (thousand * sleepTime) % 2 ^ 32 else 0

/-! ### The intervals of tasks -/

/-- The interval of a task is one that the API admits, or 0 after a delete that has read a free
slot. -/
def CollTask.Admitted (t : CollTask) : Prop :=
  t.Ranged ∧ 0 ≤ t.interval ∧ t.interval ≤ maxDcInterval

namespace CollTask

theorem Ranged.interval_le {t : CollTask} (h : t.Ranged) (i : Fin maxClientNum) :
    0 ≤ (t.subscriberList i).interval ∧ (t.subscriberList i).interval ≤ maxDcInterval := by
  by_cases hi : (t.subscriberList i).sysId = 0
  · rw [h.of_free hi]
    decide
  · obtain ⟨hlo, hhi⟩ := h.of_taken hi
    exact ⟨le_trans (by decide) hlo, hhi⟩

theorem Admitted.updataTaskInterval {t : CollTask} (h : t.Admitted)
    (o : Option (Fin maxClientNum)) : (t.updataTaskInterval o).Admitted := by
  obtain ⟨hranged, hint⟩ := h
  refine ⟨hranged.updataTaskInterval o, ?_⟩
  cases o with
  | none =>
    obtain ⟨hmem, -⟩ := Slots.foldl_least (fun i => (t.subscriberList i).interval) maxDcInterval
    obtain hv | ⟨i, hv⟩ := hmem
    · rw [CollTask.updataTaskInterval, hv]
      exact ⟨show (0 : Int) ≤ maxDcInterval by decide, le_rfl⟩
    · rw [CollTask.updataTaskInterval, ← hv]
      exact hranged.interval_le i
  | some i =>
    rw [CollTask.updataTaskInterval]
    split
    · exact hranged.interval_le i
    · exact hint

theorem Admitted.addSubscriber {t : CollTask} (h : t.Admitted) {info : BasicDcTaskInfo}
    {s : UInt32} (hs : s ≠ 0) (hv : info.interval ∈ Set.Icc minDcInterval maxDcInterval)
    (now : TimeVal) : (t.addSubscriber info s now).2.Admitted := by
  obtain ⟨hranged, hint⟩ := h
  obtain ⟨i, hid, ht⟩ | ⟨-, i, -, ht⟩ | ⟨-, ht⟩ := t.addSubscriber_cases info s now
  · rw [ht]
    apply Admitted.updataTaskInterval
    exact ⟨hranged.update rfl (by rwa [hid, if_neg hs]), hint⟩
  · rw [ht]
    apply Admitted.updataTaskInterval
    exact ⟨hranged.update rfl (by rwa [if_neg hs]), hint⟩
  · rw [ht]
    exact ⟨hranged, hint⟩

theorem Admitted.withoutSubscriber {t t' : CollTask} (h : t.Admitted) {s : UInt32}
    (ht' : t.withoutSubscriber s = some t') : t'.Admitted := by
  rw [CollTask.withoutSubscriber] at ht'
  split at ht'
  · cases ht'
  · obtain rfl := Option.some.inj ht'
    refine Admitted.updataTaskInterval ⟨h.1.clearSubscriber s, ?_⟩ none
    obtain ⟨i, -, ht⟩ | ⟨-, ht⟩ := t.clearSubscriber_cases s
    · rw [ht]
      exact h.2
    · rw [ht]
      exact h.2

end CollTask

theorem TaskReg.admitted_exec {r : TaskReg} (hwf : r.WF)
    (h : ∀ i t, r.collTaskList i = some t → t.Admitted) {op : TaskOp} (hop : op.InRange) :
    ∀ i t, (op.exec r).2.collTaskList i = some t → t.Admitted := by
  cases op with
  | createTask info s env =>
    refine forall_createTask h ⟨CollTask.ranged_new s.2 hop _, ?_⟩ fun i t hi _ =>
      (h i t hi).addSubscriber s.2 hop _
    exact ⟨le_trans (by decide) hop.1, hop.2⟩
  | deleteTask ty s =>
    refine (forall_of_slots (s := s.1) h (q := fun j => ∃ t, r.collTaskList j = some t ∧
      t.dataType = ty) (fun j hj => ?_) (fun j hj => ?_)).mpr ?_
    · exact (deleteTask_slots hwf ty s.1 j).trans (if_pos hj)
    · exact (deleteTask_slots hwf ty s.1 j).trans (if_neg hj)
    · exact fun i t _ hi t' ht' => (h i t hi).withoutSubscriber ht'
  | deleteAllTaskByClient s =>
    refine (forall_of_slots (s := s.1) h (q := fun _ => True)
      (fun j _ => deleteAllTaskByClient_slot hwf s.1 j) (fun j hj => absurd trivial hj)).mpr ?_
    exact fun i t _ hi t' ht' => (h i t hi).withoutSubscriber ht'
  | finiAllTask =>
    intro i t hi
    cases (finiAllTask_slot r i).symm.trans hi

/-- Whatever requests come, the tasks have intervals up to the greatest that is admitted. -/
theorem admitted_run {ops : List {op : TaskOp // op.InRange}} {r : TaskReg}
    (hrun : Transition.run stepTask TaskReg.empty.initTaskService ops = some r) :
    ∀ i t, r.collTaskList i = some t → t.Admitted := by
  refine (Transition.run_invariant (I := fun r => r.WF ∧
    ∀ i t, r.collTaskList i = some t → CollTask.Admitted t) ?_ ⟨?_, nofun⟩ hrun).2
  · rintro r op r' ⟨hwf, h⟩ hr'
    obtain rfl := Option.some.inj hr'
    exact ⟨op.1.wf_exec hwf, TaskReg.admitted_exec hwf h op.2⟩
  · exact TaskReg.rangedWF_start.wf

/-! ### The sleep -/

/-- No `int` overflows, and the sleep is the rest of the interval. -/
structure SleepsRight (interval : Int) (after before : TimeVal) : Prop where
  noOverflow : ∀ n ∈ roundInts interval after before, -2 ^ 31 ≤ n ∧ n < 2 ^ 31
  slept : roundSleep interval after before =
    1000 * max 0 (interval - getTimeDistance after before)

theorem sleepsRight_iff {interval : Int} {after before : TimeVal} :
    SleepsRight interval after before ↔ interval ≤ getTimeDistance after before + 2147483 ∧
      getTimeDistance after before ≤ interval + 2147483648 := by
  generalize hd : getTimeDistance after before = d
  constructor
  · rintro ⟨hfits, -⟩
    rw [roundInts, hd] at hfits
    have hsleep : -2 ^ 31 ≤ interval - d ∧ interval - d < 2 ^ 31 := by
      apply hfits
      split <;> simp
    refine ⟨?_, by omega⟩
    by_contra hlong
    have hwrap := wrapInt_of_int hsleep.1 hsleep.2
    have hcall : 0 < wrapInt (interval - d) := by omega
    have hprod := hfits (thousand * wrapInt (interval - d)) (by simp [hcall])
    rw [hwrap, thousand] at hprod
    omega
  · rintro ⟨hshort, hlate⟩
    have hwrap : wrapInt (interval - d) = interval - d := wrapInt_of_int (by omega) (by omega)
    constructor
    · intro n hn
      rw [roundInts, hd, hwrap, thousand] at hn
      split at hn
      · simp only [List.mem_cons, List.not_mem_nil, or_false] at hn
        omega
      · simp only [List.mem_singleton] at hn
        omega
    · rw [roundSleep, hd, hwrap, thousand]
      split <;> rename_i hcall
      · rw [wrapInt_of_int (by omega) (by omega), max_eq_right hcall.le]
        omega
      · rw [max_eq_left (by omega)]
        rfl

/-- **A round sleeps right** if and only if the rest of the interval is at most 2147483 ms, and
the last round has not taken 2^31 ms longer than the interval. Intervals up to 10^8 ms come
from requests. -/
theorem sleeps_right_iff {ops : List {op : TaskOp // op.InRange}} {r : TaskReg}
    (hrun : Transition.run stepTask TaskReg.empty.initTaskService ops = some r)
    {i : Fin maxTaskNum} {task : CollTask} (hi : r.collTaskList i = some task)
    {before after : TimeVal} :
    (0 ≤ task.interval ∧ task.interval ≤ maxDcInterval) ∧
      (SleepsRight task.interval after before ↔
        task.interval ≤ getTimeDistance after before + 2147483 ∧
          getTimeDistance after before ≤ task.interval + 2147483648) :=
  ⟨(admitted_run hrun i task hi).2, sleepsRight_iff⟩

theorem first_ne_zero : (1 : UInt32) ≠ 0 := by decide

theorem second_inRange : (1000 : ℤ) ∈ Set.Icc minDcInterval maxDcInterval := by
  constructor <;> decide

/-- A request for a sample every second. -/
def everySecond : List {op : TaskOp // op.InRange} :=
  [⟨.createTask ⟨1, 1000⟩ ⟨1, first_ne_zero⟩ ⟨true, true, ⟨0, 0⟩⟩, second_inRange⟩]

/-- A request for a sample every 10^8 ms. -/
def everyDay : List {op : TaskOp // op.InRange} :=
  [⟨.createTask ⟨1, 100000000⟩ ⟨1, first_ne_zero⟩ ⟨true, true, ⟨0, 0⟩⟩, by constructor <;> decide⟩]

theorem sleeps_right_iff_everySecond : SleepsRight 1000 ⟨0, 0⟩ ⟨0, 0⟩ :=
  (@sleeps_right_iff everySecond _ rfl 0 _ rfl ⟨0, 0⟩ ⟨0, 0⟩).2.mpr (by decide)

theorem everyDay_overflows :
    ∃ (r : TaskReg) (i : Fin maxTaskNum) (task : CollTask) (before after : TimeVal),
      Transition.run stepTask TaskReg.empty.initTaskService everyDay = some r ∧
        r.collTaskList i = some task ∧ before.micros ≤ after.micros ∧
          ¬ SleepsRight task.interval after before := by
  refine ⟨_, 0, _, ⟨0, 0⟩, ⟨0, 0⟩, rfl, rfl, le_rfl, fun h => ?_⟩
  have hover := (h.noOverflow 100000000000 (by decide)).2
  exact absurd hover (by decide)

end PowerApi
