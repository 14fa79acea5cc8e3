import PowerApi.Conduit
import PowerApi.Sampling

/-!
# How often a client is sent samples (`taskservice.c`)

The thread of a task goes through the slots of its subscribers while the requests of clients
change the registry: others subscribe to the same type of data, leave it, take the slots of those
who left, and the interval of the task goes up and down with them. `TaskReg.step` puts the turns
of the threads, slot by slot, between the operations.

* `samples_paced`: from the create of a subscription on, and until it is deleted or created
  again, the samples for it keep the interval that was asked for, whatever becomes of the task;
  `n` samples take more than `n` times the interval less a millisecond.
-/

namespace PowerApi

open Transition

/-! ## The turn of a slot -/

namespace CollTask

/-- `SendMetadataToSubscribers` comes to a slot. -/
def turn (task : CollTask) (slot : Fin maxClientNum) (startTime : TimeVal) (mallocOk : Bool) :
    CollTask :=
  if Server.dueTo (task.subscriberList slot) startTime ∧ mallocOk = true then
    task.served slot startTime
  else task

theorem sendFrom_eq_foldl (startTime : TimeVal) (mallocOk : Fin maxClientNum → Bool)
    (is : List (Fin maxClientNum)) (task : CollTask) :
    (sendFrom startTime mallocOk is task).1 =
      is.foldl (fun task i => task.turn i startTime (mallocOk i)) task := by
  induction is generalizing task with
  | nil => rfl
  | cons i is ih =>
    rw [sendFrom, List.foldl_cons, turn]
    split <;> exact ih _

section Served

variable {t : CollTask} {i : Fin maxClientNum} {startTime : TimeVal}

theorem served_sysId (j : Fin maxClientNum) :
    ((t.served i startTime).subscriberList j).sysId = (t.subscriberList j).sysId := by
  by_cases hji : j = i
  · rw [hji, served_self]
  · rw [served_of_ne hji]

theorem WF.served (h : t.WF) : (t.served i startTime).WF where
  sub_count := by
    simp only [served_sysId]
    exact h.sub_count
  distinct := by
    simp only [served_sysId]
    exact h.distinct
  sub_pos := h.sub_pos

theorem has_served_self (startTime : TimeVal) (hi : (t.subscriberList i).sysId ≠ 0) :
    (t.served i startTime).Has { t.subscriberList i with lastSent := startTime } :=
  ⟨hi, i, served_self ..⟩

/-- The other subscriptions stay. -/
theorem has_served_other {sub : CollDataSubscriber} (hsub : t.Has sub)
    (hne : sub.sysId ≠ (t.subscriberList i).sysId) : (t.served i startTime).Has sub := by
  obtain ⟨hid, j, rfl⟩ := hsub
  exact ⟨hid, j, served_of_ne (fun hji => hne (by rw [hji])) startTime⟩

/-- A subscription is in the one slot with its client. -/
theorem Has.eq_of_sysId {sub : CollDataSubscriber} (h : t.WF) (hsub : t.Has sub)
    (hi : (t.subscriberList i).sysId = sub.sysId) : t.subscriberList i = sub := by
  obtain ⟨hid, j, rfl⟩ := hsub
  rw [h.distinct j i hid hi.symm]

end Served

end CollTask

/-! ## Operations and turns -/

/-- A client's request reaches the registry, or the thread of the task at an index comes to a slot
in a round that began at `startTime`. -/
inductive TaskEvent where
  | op (op : TaskOp)
  | turn (index : Fin maxTaskNum) (slot : Fin maxClientNum) (startTime : TimeVal) (mallocOk : Bool)

namespace TaskReg

/-- There is a thread only where there is a task. -/
def step (r : TaskReg) : TaskEvent → Option TaskReg
  | .op op => some (op.exec r).2
  | .turn index slot startTime mallocOk =>
    (r.collTaskList index).map fun task => r.setTask index (task.turn slot startTime mallocOk)

/-- The samples of a type that go to a client, by the time their round began. -/
def sampled (s : ClientId) (ty : UInt32) (r : TaskReg) : TaskEvent → List TimeVal
  | .op _ => []
  | .turn index slot startTime mallocOk =>
    match r.collTaskList index with
    | none => []
    | some task =>
      if task.dataType = ty ∧ (task.subscriberList slot).sysId = s.1 ∧
          Server.dueTo (task.subscriberList slot) startTime ∧ mallocOk = true then [startTime]
      else []

/-- The samples of a run. -/
def samples (s : ClientId) (ty : UInt32) (r : TaskReg) (events : List TaskEvent) : List TimeVal :=
  noted step (fun r e _ => sampled s ty r e) r events

/-- The subscription itself is created again or deleted. -/
def Renews (s : ClientId) (ty : UInt32) (r : TaskReg) : TaskEvent → Prop
  | .op op => TaskOp.Concerns s ty (op, (op.exec r).1)
  | .turn .. => False

instance (s : ClientId) (ty : UInt32) (r : TaskReg) : DecidablePred (Renews s ty r)
  | .op op => inferInstanceAs (Decidable (TaskOp.Concerns s ty (op, (op.exec r).1)))
  | .turn .. => inferInstanceAs (Decidable False)

end TaskReg

open TaskReg

/-- An operation that does not concern a subscription leaves it as it is. -/
theorem TaskOp.hasSub_exec_other {r : TaskReg} (hwf : r.WF) {op : TaskOp} {s : ClientId}
    {ty : UInt32} (h : ¬ Concerns s ty (op, (op.exec r).1)) {sub : CollDataSubscriber}
    (hid : sub.sysId = s.1) (hsub : r.HasSub ty sub) : (op.exec r).2.HasSub ty sub := by
  cases op with
  | createTask info s' env =>
    by_cases hret : (r.createTask info s'.1 env).1 = .success
    · refine (hasSub_createTask_other hwf s'.2 ?_).mpr hsub
      rintro ⟨hty, hid'⟩
      exact h ⟨hret, Subtype.ext (hid'.symm.trans hid), hty.symm⟩
    · dsimp only [exec]
      rwa [createTask_of_error hret]
  | deleteTask ty' s' =>
    refine (hasSub_deleteTask hwf s'.2).mpr ⟨hsub, ?_⟩
    rintro ⟨hty, hid'⟩
    exact h ⟨Subtype.ext (hid'.symm.trans hid), hty.symm⟩
  | deleteAllTaskByClient s' =>
    refine (hasSub_deleteAllTaskByClient hwf s'.2).mpr ⟨hsub, fun hid' => ?_⟩
    exact h (Subtype.ext (hid'.symm.trans hid))
  | finiAllTask => exact absurd trivial h

namespace TaskReg

theorem WF.step {r r' : TaskReg} (hwf : r.WF) {e : TaskEvent} (h : r.step e = some r') : r'.WF := by
  cases e with
  | op op =>
    obtain rfl := Option.some.inj h
    exact op.wf_exec hwf
  | turn index slot startTime mallocOk =>
    obtain ⟨task, hi, rfl⟩ := Option.map_eq_some_iff.mp h
    have ht := hwf.tasks index task hi
    rw [CollTask.turn]
    split
    · exact hwf.setTask hi rfl ht.served
    · exact hwf.setTask hi rfl ht

/-- The client has this subscription, and was sent its last sample at `last`. -/
structure Keeps (s : ClientId) (ty : UInt32) (interval : Int) (last : TimeVal) (r : TaskReg) :
    Prop where
  wf : r.WF
  hasSub : r.HasSub ty ⟨s.1, interval, last⟩

/-- The turn of a slot: another one, or too early, or without memory for the copy, or a sample
for the client. -/
theorem Keeps.turn {s : ClientId} {ty : UInt32} {interval : Int} {last : TimeVal} {r : TaskReg}
    (h : Keeps s ty interval last r) {index : Fin maxTaskNum} {slot : Fin maxClientNum}
    {startTime : TimeVal} {mallocOk : Bool} {task : CollTask}
    (hi : r.collTaskList index = some task) :
    let r' := r.setTask index (task.turn slot startTime mallocOk)
    sampled s ty r (.turn index slot startTime mallocOk) = [] ∧ r'.HasSub ty ⟨s.1, interval, last⟩ ∨
      sampled s ty r (.turn index slot startTime mallocOk) = [startTime] ∧
        interval ≤ getTimeDistance startTime last ∧ r'.HasSub ty ⟨s.1, interval, startTime⟩ := by
  obtain ⟨hwf, hsub⟩ := h
  intro r'
  have hsampled : sampled s ty r (.turn index slot startTime mallocOk) =
      if task.dataType = ty ∧ (task.subscriberList slot).sysId = s.1 ∧
          Server.dueTo (task.subscriberList slot) startTime ∧ mallocOk = true then [startTime]
      else [] := by
    rw [sampled, hi]
  have hsame : (task.turn slot startTime mallocOk).dataType = task.dataType := by
    rw [CollTask.turn]
    split <;> rfl
  rw [hsampled, hasSub_setTask hwf hi hsame, hasSub_setTask hwf hi hsame]
  by_cases hty : ty = task.dataType
  · subst hty
    rw [hasSub_iff_of_task hwf hi] at hsub
    rw [if_pos rfl, if_pos rfl, CollTask.turn]
    by_cases hdue : Server.dueTo (task.subscriberList slot) startTime ∧ mallocOk = true
    · rw [if_pos hdue]
      by_cases hid : (task.subscriberList slot).sysId = s.1
      · -- the slot is the client's
        have hslot := hsub.eq_of_sysId (hwf.tasks index task hi) hid
        have hself := CollTask.has_served_self startTime hdue.1.1
        have hdistance := hdue.1.2
        rw [hslot] at hself hdistance
        exact .inr ⟨if_pos ⟨rfl, hid, hdue⟩, hdistance, hself⟩
      · exact .inl ⟨if_neg fun h => hid h.2.1, CollTask.has_served_other hsub (Ne.symm hid)⟩
    · rw [if_neg hdue]
      exact .inl ⟨if_neg fun h => hdue h.2.2, hsub⟩
  · rw [if_neg hty, if_neg hty]
    exact .inl ⟨if_neg fun h => hty h.1.symm, hsub⟩

/-- A step that does not renew the subscription keeps it, and keeps its interval. -/
theorem Keeps.step {s : ClientId} {ty : UInt32} {interval : Int} {last : TimeVal} {r r' : TaskReg}
    {e : TaskEvent} (h : Keeps s ty interval last r) (hown : ¬ Renews s ty r e)
    (hstep : r.step e = some r') :
    sampled s ty r e = [] ∧ Keeps s ty interval last r' ∨
      ∃ startTime, sampled s ty r e = [startTime] ∧ interval ≤ getTimeDistance startTime last ∧
        Keeps s ty interval startTime r' := by
  have hwf := h.wf.step hstep
  cases e with
  | op op =>
    obtain rfl := Option.some.inj hstep
    exact .inl ⟨rfl, hwf, op.hasSub_exec_other h.wf hown rfl h.hasSub⟩
  | turn index slot startTime mallocOk =>
    obtain ⟨task, hi, rfl⟩ := Option.map_eq_some_iff.mp hstep
    obtain ⟨hnone, hsub⟩ | ⟨hone, hdistance, hsub⟩ := h.turn hi
    · exact .inl ⟨hnone, hwf, hsub⟩
    · exact .inr ⟨startTime, hone, hdistance, hwf, hsub⟩

/-! ## The create it is reckoned from -/

/-- The time a create leaves in the slot of the client: that of the last sample if the client is
subscribed already, and that of the create if not. -/
structure ReckonedFrom (r : TaskReg) (s : ClientId) (ty : UInt32) (now since : TimeVal) : Prop where
  again : ∀ sub, r.HasSub ty sub → sub.sysId = s.1 → since = sub.lastSent
  anew : ¬ r.Subscribed s.1 ty → since = now

theorem keeps_createTask {r : TaskReg} (hwf : r.WF) {info : BasicDcTaskInfo} {s : ClientId}
    {env : CreateEnv} (h : (r.createTask info s.1 env).1 = .success) :
    ∃ since, r.ReckonedFrom s info.dataType env.now since ∧
      Keeps s info.dataType info.interval since (r.createTask info s.1 env).2 := by
  have hwf' := hwf.createTask info s.2 env
  obtain ⟨hret, -⟩ | ⟨hf, i, hi, hr⟩ | ⟨i, t, hi, hty, hret, hr⟩ := r.createTask_cases info s.1 env
  · exact absurd h hret
  · -- the type is not collected yet
    refine ⟨env.now, ⟨?_, fun _ => rfl⟩, hwf', ?_⟩
    · rintro sub ⟨j, u, hj, hu, -⟩ -
      exact absurd hu (findCollTaskByType_none hwf hf hj)
    · rw [hr]
      exact (hasSub_update_free hi rfl).mpr (.inr ⟨rfl, (CollTask.has_new s.2).mpr rfl⟩)
  · have hsub : ∀ {sub}, (t.addSubscriber info s.1 env.now).2.Has sub →
        (r.createTask info s.1 env).2.HasSub info.dataType sub := by
      intro sub hsub
      rw [hr, ← hty]
      dsimp only
      rwa [hasSub_setTask hwf hi (CollTask.addSubscriber_dataType ..), if_pos rfl]
    have hslots : ∀ {sub}, r.HasSub info.dataType sub ↔ t.Has sub := by
      intro sub
      rw [← hty, hasSub_iff_of_task hwf hi]
    obtain ⟨j, hid, ht⟩ | ⟨hno, j, -, ht⟩ | ⟨-, ht⟩ := t.addSubscriber_cases info s.1 env.now
    · -- the client has a slot, whose time stays
      have hold : t.Has (t.subscriberList j) := ⟨by rw [hid]; exact s.2, j, rfl⟩
      refine ⟨(t.subscriberList j).lastSent, ⟨?_, fun hnew => ?_⟩, hwf', hsub ?_⟩
      · intro sub hsub hsid
        rw [(hslots.mp hsub).eq_of_sysId (hwf.tasks i t hi) (hid.trans hsid.symm)]
      · exact absurd ⟨_, hid, hslots.mpr hold⟩ hnew
      · rw [ht]
        refine CollTask.has_updataTaskInterval.mpr ⟨s.2, j, ?_⟩
        rw [← hid]
        exact Function.update_self ..
    · refine ⟨env.now, ⟨?_, fun _ => rfl⟩, hwf', hsub ?_⟩
      · intro sub hsub hsid
        obtain ⟨-, k, rfl⟩ := hslots.mp hsub
        exact absurd hsid (hno k)
      · rw [ht]
        exact CollTask.has_updataTaskInterval.mpr ⟨s.2, j, Function.update_self ..⟩
    · rw [ht] at hret
      cases hret

/-- After `InitTaskService`. -/
def start : TaskReg := empty.initTaskService

end TaskReg

/-- Items that are each at least `d` apart. -/
theorem length_mul_le_of_isChain {α : Type} {f : α → Int} {d : Int} {a : α} {l : List α}
    (h : (a :: l).IsChain fun x y => f x + d ≤ f y) :
    f a + l.length * d ≤ f ((a :: l).getLast (List.cons_ne_nil a l)) := by
  induction l generalizing a with
  | nil => simp
  | cons b l ih =>
    obtain ⟨hab, hrest⟩ := List.isChain_cons_cons.mp h
    have hlast := ih hrest
    rw [List.getLast_cons_cons, List.length_cons]
    push_cast
    linarith

theorem micros_le_of_distance {interval : Int} {t t' : TimeVal}
    (h : interval ≤ getTimeDistance t' t) : t.micros + (1000 * (interval - 1) + 1) ≤ t'.micros := by
  obtain hphase | hborrow := le_or_gt t.usec t'.usec
  · have hle := (le_getTimeDistance hphase).mp h
    omega
  · have hlt := (le_getTimeDistance_of_borrow hborrow).mp h
    omega

/-- **No one is sent samples too often**: after a client has subscribed, and until it does so again
or leaves, whatever other requests the registry gets and whatever the turns of the threads are,
the samples for the client are its interval apart, and `n` of them take more than `n` times the
interval less a millisecond. -/
theorem samples_paced {before after : List TaskEvent} {r₀ r : TaskReg}
    (hbefore : run step start before = some r₀) {info : BasicDcTaskInfo} {s : ClientId}
    {env : CreateEnv} (hcreate : (r₀.createTask info s.1 env).1 = .success)
    (hafter : run step (r₀.createTask info s.1 env).2 after = some r)
    (hown : Along step (fun r e _ => ¬ Renews s info.dataType r e)
      (r₀.createTask info s.1 env).2 after) :
    ∃ since, r₀.ReckonedFrom s info.dataType env.now since ∧
      let times := samples s info.dataType (r₀.createTask info s.1 env).2 after
      let last := (since :: times).getLast (List.cons_ne_nil since times)
      (since :: times).IsChain (fun t t' => info.interval ≤ getTimeDistance t' t) ∧
        since.micros + times.length * (1000 * (info.interval - 1) + 1) ≤ last.micros ∧
        r.HasSub info.dataType ⟨s.1, info.interval, last⟩ := by
  have hwf : r₀.WF := run_invariant (fun hwf hstep => WF.step hwf hstep)
    wf_empty.initTaskService hbefore
  obtain ⟨since, hsince, hkeeps⟩ := keeps_createTask hwf hcreate
  obtain ⟨hchain, hlast⟩ := @noted_isChain _ _ _ step
    (fun r e _ => sampled s info.dataType r e) (fun t t' => info.interval ≤ getTimeDistance t' t)
    (Keeps s info.dataType info.interval) _ Keeps.step _ _ _ _ hkeeps hown hafter
  exact ⟨since, hsince, hchain,
    length_mul_le_of_isChain (hchain.imp fun _ _ h => micros_le_of_distance h), hlast.hasSub⟩

theorem regular_ne_zero : (1 : UInt32) ≠ 0 := by decide

/-- A client. -/
def regular : ClientId := ⟨1, regular_ne_zero⟩

theorem visitor_ne_zero : (2 : UInt32) ≠ 0 := by decide

/-- A second client. -/
def visitor : ClientId := ⟨2, visitor_ne_zero⟩

/-- Client 1 asks for a sample a second. The visitor comes and goes, and leaves the task with the
interval 0; the thread then comes to the slot of client 1 every half second. -/
def comeAndGo : List TaskEvent :=
  [.op (.createTask ⟨1, 5000⟩ visitor ⟨true, true, ⟨0, 0⟩⟩),
    .op (.deleteTask 1 visitor),
    .turn 0 0 ⟨0, 500000⟩ true, .turn 0 0 ⟨1, 0⟩ true, .turn 0 0 ⟨1, 500000⟩ true,
    .turn 0 0 ⟨2, 0⟩ true]

theorem samples_paced_comeAndGo : ∃ since : TimeVal, ∃ times : List TimeVal,
    since = ⟨0, 0⟩ ∧ times = [⟨1, 0⟩, ⟨2, 0⟩] ∧
      (since :: times).IsChain (fun t t' => 1000 ≤ getTimeDistance t' t) := by
  have hcreate : (start.createTask ⟨1, 1000⟩ regular.1 ⟨true, true, ⟨0, 0⟩⟩).1 = .success := rfl
  have hafter : run step (start.createTask ⟨1, 1000⟩ regular.1 ⟨true, true, ⟨0, 0⟩⟩).2 comeAndGo =
      some _ := rfl
  obtain ⟨since, hsince, hchain, -⟩ := samples_paced (run_nil start) hcreate hafter
    (by decide +kernel)
  refine ⟨since, _, hsince.anew ?_, ?_, hchain⟩
  · rintro ⟨sub, -, hsub⟩
    exact not_hasSub_empty hsub
  · decide +kernel

end PowerApi
