import PowerApi.TaskRuns
import PowerApi.Transition

/-!
# The sampling interval of a task

A task samples as often as its fastest subscriber wants: `CollTask.MinInterval`
says that its interval is the least one subscribed to. The code maintains it in
two ways, lowering the interval to one subscriber's, and recomputing it from all
slots after a subscriber left. Each goes wrong on a kind of input:

* lowering never raises it, so a sole fastest subscriber that asks for a slower
  rate changes nothing;
* the recomputation also reads the free slots, whose interval is 0.

`KeepsMin` is exactly the condition under which neither happens.
-/

namespace PowerApi

open Slots

/-! ## One task -/

namespace CollTask

/-- The task's interval is the least interval of a subscriber. -/
def MinInterval (t : CollTask) : Prop :=
  IsLeast {v | ∃ i, (t.subscriberList i).sysId ≠ 0 ∧ (t.subscriberList i).interval = v} t.interval

/-- Subscribers have intervals in the range that the API admits; free slots are zero. -/
def Ranged (t : CollTask) : Prop :=
  ∀ i, if (t.subscriberList i).sysId = 0 then (t.subscriberList i).interval = 0
    else (t.subscriberList i).interval ∈ Set.Icc minDcInterval maxDcInterval

/-- A create of `s` with interval `v` that does not slow down the sole fastest
subscriber. -/
def KeepsMinOnAdd (t : CollTask) (s : UInt32) (v : Int) : Prop :=
  ∀ i, (t.subscriberList i).sysId = s → (t.subscriberList i).interval < v →
    ∃ j, (t.subscriberList j).sysId ≠ 0 ∧ (t.subscriberList j).sysId ≠ s ∧
      (t.subscriberList j).interval ≤ (t.subscriberList i).interval

/-- A delete of `s` that drops the task, or finds no subscriber and no free slot. -/
def KeepsMinOnDelete (t : CollTask) (s : UInt32) : Prop :=
  (∃ i, (t.subscriberList i).sysId = s) ∧ t.subNum = 1 ∨
    (∀ i, (t.subscriberList i).sysId ≠ s) ∧ ∀ i, (t.subscriberList i).sysId ≠ 0

theorem Ranged.of_taken {t : CollTask} (h : t.Ranged) {i : Fin maxClientNum}
    (hi : (t.subscriberList i).sysId ≠ 0) :
    (t.subscriberList i).interval ∈ Set.Icc minDcInterval maxDcInterval := by
  have hat := h i
  rwa [if_neg hi] at hat

theorem Ranged.of_free {t : CollTask} (h : t.Ranged) {i : Fin maxClientNum}
    (hi : (t.subscriberList i).sysId = 0) : (t.subscriberList i).interval = 0 := by
  have hat := h i
  rwa [if_pos hi] at hat

theorem Ranged.updataTaskInterval {t : CollTask} (h : t.Ranged) (o : Option (Fin maxClientNum)) :
    (t.updataTaskInterval o).Ranged := by
  unfold Ranged
  rw [updataTaskInterval_subscriberList]
  exact h

/-- Writing one slot. -/
theorem Ranged.update {t t' : CollTask} (h : t.Ranged) {i : Fin maxClientNum}
    {x : CollDataSubscriber} (ht' : t'.subscriberList = Function.update t.subscriberList i x)
    (hx : if x.sysId = 0 then x.interval = 0
      else x.interval ∈ Set.Icc minDcInterval maxDcInterval) : t'.Ranged := by
  intro j
  rw [ht']
  by_cases hji : j = i
  · subst hji
    rw [Function.update_self]
    exact hx
  · rw [Function.update_of_ne hji]
    exact h j

/-- Recomputing the interval is right exactly when no slot is free. -/
theorem minInterval_recompute {t : CollTask} (h : t.Ranged) :
    (t.updataTaskInterval none).MinInterval ↔ ∀ i, (t.subscriberList i).sysId ≠ 0 := by
  obtain ⟨hmem, hle⟩ := foldl_least (fun i => (t.subscriberList i).interval) maxDcInterval
  constructor
  · rintro ⟨⟨j, hj, hjv⟩, -⟩ i hi
    rw [updataTaskInterval_subscriberList] at hj hjv
    have hlow : minDcInterval ≤ (t.updataTaskInterval none).interval :=
      hjv ▸ (h.of_taken hj).1
    have hhigh : (t.updataTaskInterval none).interval ≤ 0 := hle (.inr ⟨i, h.of_free hi⟩)
    exact absurd (hlow.trans hhigh) (by decide)
  · intro hall
    constructor
    · obtain hv | ⟨i, hv⟩ := hmem
      · refine ⟨0, hall 0, le_antisymm ((h.of_taken (hall 0)).2.trans hv.ge) ?_⟩
        exact hle (.inr ⟨0, rfl⟩)
      · exact ⟨i, hall i, hv⟩
    · rintro v ⟨i, hi, rfl⟩
      exact hle (.inr ⟨i, rfl⟩)

/-- Lowering the interval to that of a slot just written is right exactly when
that slot is a fastest one, or another slot was already. -/
theorem minInterval_lower {t t' : CollTask} (h : t.MinInterval) {i : Fin maxClientNum}
    (hi : (t'.subscriberList i).sysId ≠ 0) (hint : t'.interval = t.interval)
    (hother : ∀ j, j ≠ i → t'.subscriberList j = t.subscriberList j) :
    (t'.updataTaskInterval (some i)).MinInterval ↔
      (t'.subscriberList i).interval ≤ t.interval ∨ ∃ j, j ≠ i ∧
        (t.subscriberList j).sysId ≠ 0 ∧ (t.subscriberList j).interval = t.interval := by
  obtain ⟨-, hlow⟩ := h
  have hval : (t'.updataTaskInterval (some i)).interval =
      min t.interval (t'.subscriberList i).interval := by
    rw [updataTaskInterval, hint, min_def]
    split
    · rw [if_neg (by omega)]
    · rw [if_pos (by omega), hint]
  unfold MinInterval
  rw [updataTaskInterval_subscriberList, hval]
  constructor
  · rintro ⟨⟨j, hj, hjv⟩, -⟩
    by_cases hle : (t'.subscriberList i).interval ≤ t.interval
    · exact .inl hle
    · rw [min_eq_left (by omega)] at hjv
      have hji : j ≠ i := by
        rintro rfl
        omega
      rw [hother j hji] at hj hjv
      exact .inr ⟨j, hji, hj, hjv⟩
  · intro hcond
    constructor
    · by_cases hle : (t'.subscriberList i).interval ≤ t.interval
      · exact ⟨i, hi, (min_eq_right hle).symm⟩
      · obtain ⟨j, hji, hj, hjv⟩ := hcond.resolve_left hle
        refine ⟨j, by rwa [hother j hji], ?_⟩
        rw [hother j hji, hjv, min_eq_left (by omega)]
    · rintro v ⟨j, hj, rfl⟩
      by_cases hji : j = i
      · subst hji
        exact min_le_right _ _
      · rw [hother j hji] at hj ⊢
        exact (min_le_left _ _).trans (hlow ⟨j, hj, rfl⟩)

/-! ### Adding and deleting -/

theorem Ranged.addSubscriber {t : CollTask} (h : t.Ranged) {info : BasicDcTaskInfo} {s : UInt32}
    (hs : s ≠ 0) (hv : info.interval ∈ Set.Icc minDcInterval maxDcInterval) (now : TimeVal) :
    (t.addSubscriber info s now).2.Ranged := by
  obtain ⟨i, hid, ht⟩ | ⟨-, i, -, ht⟩ | ⟨-, ht⟩ := t.addSubscriber_cases info s now
  · rw [ht]
    exact (h.update rfl (by rwa [hid, if_neg hs])).updataTaskInterval _
  · rw [ht]
    exact (h.update rfl (by rwa [if_neg hs])).updataTaskInterval _
  · rw [ht]
    exact h

theorem minInterval_addSubscriber {t : CollTask} (hwf : t.WF) (h : t.MinInterval)
    {info : BasicDcTaskInfo} {s : UInt32} (hs : s ≠ 0) {now : TimeVal} :
    (t.addSubscriber info s now).2.MinInterval ↔ t.KeepsMinOnAdd s info.interval := by
  obtain ⟨⟨m, hm, hmv⟩, hlow⟩ := id h
  obtain ⟨i, hid, ht⟩ | ⟨hno, i, hzero, ht⟩ | ⟨hno, ht⟩ := t.addSubscriber_cases info s now
  · have huniq : ∀ j, (t.subscriberList j).sysId = s → j = i :=
      fun j hj => hwf.distinct j i (by rwa [hj]) (hj.trans hid.symm)
    have hi0 : (t.subscriberList i).sysId ≠ 0 := by rwa [hid]
    have hile : t.interval ≤ (t.subscriberList i).interval := hlow ⟨i, hi0, rfl⟩
    rw [ht]
    dsimp only
    refine Iff.trans (minInterval_lower h ?_ ?_ fun j hji => Function.update_of_ne hji _ _) ?_
    · simpa using hi0
    · rfl
    dsimp only
    rw [Function.update_self]
    dsimp only
    constructor
    · intro hcond j hj hjv
      obtain rfl := huniq j hj
      obtain hv | ⟨k, hki, hk, hkv⟩ := hcond
      · omega
      · exact ⟨k, hk, fun hks => hki (huniq k hks), hkv.trans_le hile⟩
    · intro hkeep
      by_cases hmi : m = i
      · subst hmi
        by_cases hv : (t.subscriberList m).interval < info.interval
        · obtain ⟨k, hk, hks, hkv⟩ := hkeep m hid hv
          refine .inr ⟨k, ?_, hk, le_antisymm (hkv.trans hmv.le) (hlow ⟨k, hk, rfl⟩)⟩
          rintro rfl
          exact hks hid
        · exact .inl (by omega)
      · exact .inr ⟨m, hmi, hm, hmv⟩
  · -- a free slot is taken: the old minimum is still in another slot
    rw [ht]
    have hmi : m ≠ i := by
      rintro rfl
      exact hm hzero
    dsimp only
    refine Iff.trans (minInterval_lower h ?_ ?_ fun j hji => Function.update_of_ne hji _ _) ?_
    · simpa using hs
    · rfl
    exact iff_of_true (.inr ⟨m, hmi, hm, hmv⟩) fun j hj => absurd hj (hno j)
  · rw [ht]
    exact iff_of_true h fun j hj => absurd hj (hno j)

theorem Ranged.clearSubscriber {t : CollTask} (h : t.Ranged) (s : UInt32) :
    (t.clearSubscriber s).Ranged := by
  obtain ⟨i, -, ht⟩ | ⟨-, ht⟩ := t.clearSubscriber_cases s
  · rw [ht]
    exact h.update rfl rfl
  · rw [ht]
    exact h

theorem Ranged.withoutSubscriber {t t' : CollTask} (h : t.Ranged) {s : UInt32}
    (ht' : t.withoutSubscriber s = some t') : t'.Ranged := by
  unfold CollTask.withoutSubscriber at ht'
  dsimp only at ht'
  split at ht'
  · cases ht'
  · obtain rfl := Option.some.inj ht'
    exact (h.clearSubscriber s).updataTaskInterval none

theorem minInterval_withoutSubscriber {t : CollTask} (hwf : t.WF) (h : t.Ranged) {s : UInt32} :
    (∀ t', t.withoutSubscriber s = some t' → t'.MinInterval) ↔ t.KeepsMinOnDelete s := by
  have hpos := hwf.sub_pos
  have hcleared := h.clearSubscriber s
  have hcases : (∀ t', t.withoutSubscriber s = some t' → t'.MinInterval) ↔
      (t.clearSubscriber s).subNum ≤ 0 ∨
        ∀ i, ((t.clearSubscriber s).subscriberList i).sysId ≠ 0 := by
    rw [← minInterval_recompute hcleared]
    unfold withoutSubscriber
    dsimp only
    split
    · rename_i hzero
      exact iff_of_true nofun (.inl hzero)
    · rename_i hmore
      rw [or_iff_right hmore]
      constructor
      · exact fun hall => hall _ rfl
      · rintro hmin t' ht'
        obtain rfl := Option.some.inj ht'
        exact hmin
  rw [hcases]
  obtain ⟨i, hid, ht⟩ | ⟨hno, ht⟩ := t.clearSubscriber_cases s
  · rw [ht]
    dsimp only
    constructor
    · rintro (hzero | htaken)
      · exact .inl ⟨⟨i, hid⟩, by omega⟩
      · exact absurd (by rw [Function.update_self]; rfl) (htaken i)
    · rintro (⟨-, hone⟩ | ⟨hno, -⟩)
      · exact .inl (by omega)
      · exact absurd hid (hno i)
  · rw [ht]
    constructor
    · rintro (hzero | htaken)
      · omega
      · exact .inr ⟨hno, htaken⟩
    · rintro (⟨⟨i, hi⟩, -⟩ | ⟨-, htaken⟩)
      · exact absurd hi (hno i)
      · exact .inr htaken

theorem ranged_new {info : BasicDcTaskInfo} {s : UInt32} (hs : s ≠ 0)
    (hv : info.interval ∈ Set.Icc minDcInterval maxDcInterval) (now : TimeVal) :
    (new info s now).Ranged := by
  intro i
  by_cases hi : i = 0
  · subst hi
    rw [if_neg (by exact hs)]
    exact hv
  · simp [new, hi, CollDataSubscriber.zero]

theorem minInterval_new {info : BasicDcTaskInfo} {s : UInt32} (hs : s ≠ 0) (now : TimeVal) :
    (new info s now).MinInterval := by
  refine ⟨⟨0, hs, rfl⟩, ?_⟩
  rintro v ⟨i, hi, rfl⟩
  by_cases hi0 : i = 0
  · subst hi0
    exact le_rfl
  · exact absurd (by simp [new, hi0, CollDataSubscriber.zero]) hi

end CollTask

/-! ## The registry -/

namespace TaskReg

/-- Every task samples at the least interval subscribed to. -/
def MinIntervals (r : TaskReg) : Prop := ∀ i t, r.collTaskList i = some t → t.MinInterval

/-- The step leaves every interval right: no client that alone is the fastest
subscriber of its task asks for a slower rate, and whatever a delete or a cleanup
touches is dropped, or has no such subscriber and no free slot. -/
def KeepsMin (r : TaskReg) : TaskOp → Prop
  | .createTask info s _ => ∀ i t, r.collTaskList i = some t → t.dataType = info.dataType →
      t.KeepsMinOnAdd s.1 info.interval
  | .deleteTask ty s => ∀ i t, r.collTaskList i = some t → t.dataType = ty →
      t.KeepsMinOnDelete s.1
  | .deleteAllTaskByClient s => ∀ i t, r.collTaskList i = some t → t.KeepsMinOnDelete s.1
  | .finiAllTask => True

/-- The invariant under which `KeepsMin` is exact. -/
structure RangedWF (r : TaskReg) : Prop where
  wf : r.WF
  ranged : ∀ i t, r.collTaskList i = some t → t.Ranged

theorem rangedWF_start : empty.initTaskService.RangedWF := ⟨wf_empty.initTaskService, nofun⟩

/-- A property of tasks, after a create: it holds of the tasks that are kept, of a
new task, and of a task with the subscriber added. -/
theorem forall_createTask {p : CollTask → Prop} {r : TaskReg} (h : ∀ i t,
    r.collTaskList i = some t → p t) {info : BasicDcTaskInfo} {s : UInt32} {env : CreateEnv}
    (hnew : p (CollTask.new info s env.now))
    (hadd : ∀ i t, r.collTaskList i = some t → t.dataType = info.dataType →
      p (t.addSubscriber info s env.now).2) :
    ∀ i t, (r.createTask info s env).2.collTaskList i = some t → p t := by
  intro j u hj
  obtain ⟨-, hr⟩ | ⟨-, i, -, hr⟩ | ⟨i, t, hi, hty, -, hr⟩ := r.createTask_cases info s env
  · rw [hr] at hj
    exact h j u hj
  · rw [hr] at hj
    dsimp only at hj
    by_cases hji : j = i
    · subst hji
      rw [Function.update_self] at hj
      obtain rfl := Option.some.inj hj
      exact hnew
    · rw [Function.update_of_ne hji] at hj
      exact h j u hj
  · rw [hr] at hj
    dsimp only [setTask] at hj
    by_cases hji : j = i
    · subst hji
      rw [Function.update_self] at hj
      obtain rfl := Option.some.inj hj
      exact hadd j t hi hty
    · rw [Function.update_of_ne hji] at hj
      exact h j u hj

/-- A property of tasks, after a client was removed from the slots with `q`. -/
theorem forall_of_slots {p : CollTask → Prop} {r r' : TaskReg} {s : UInt32}
    {q : Fin maxTaskNum → Prop} (h : ∀ i t, r.collTaskList i = some t → p t)
    (hq : ∀ j, q j → r'.collTaskList j = (r.collTaskList j).bind fun t => t.withoutSubscriber s)
    (hnq : ∀ j, ¬ q j → r'.collTaskList j = r.collTaskList j) :
    (∀ i t, r'.collTaskList i = some t → p t) ↔
      ∀ i t, q i → r.collTaskList i = some t → ∀ t', t.withoutSubscriber s = some t' → p t' := by
  constructor
  · intro hall i t hqi hi t' ht'
    refine hall i t' ?_
    rw [hq i hqi, hi]
    exact ht'
  · intro hall i t' hi
    by_cases hqi : q i
    · rw [hq i hqi, Option.bind_eq_some_iff] at hi
      obtain ⟨t, ht, ht'⟩ := hi
      exact hall i t hqi ht t' ht'
    · exact h i t' (hnq i hqi ▸ hi)

/-- The slots that a `DeleteTask` reaches, in terms of the type of their task. -/
theorem deleteTask_slots {r : TaskReg} (hwf : r.WF) (ty s : UInt32) (j : Fin maxTaskNum) :
    (r.deleteTask ty s).2.collTaskList j =
      if ∃ t, r.collTaskList j = some t ∧ t.dataType = ty then
        (r.collTaskList j).bind fun t => t.withoutSubscriber s
      else r.collTaskList j := by
  unfold deleteTask
  cases hf : r.findCollTaskByType ty with
  | none =>
    rw [if_neg]
    rintro ⟨t, hj, hty⟩
    exact findCollTaskByType_none hwf hf hj hty
  | some i =>
    obtain ⟨t, hi, hty⟩ := findCollTaskByType_some hf
    by_cases hji : j = i
    · subst hji
      rw [if_pos ⟨t, hi, hty⟩]
      exact deleteSubscriber_self r j s
    · rw [if_neg]
      · exact deleteSubscriber_other r s hji
      · rintro ⟨u, hj, hu⟩
        exact hji (hwf.types j i u t hj hi (hu.trans hty.symm))

end TaskReg

/-! ## Runs -/

/-- An operation as the API lets it through: intervals are in range. -/
def TaskOp.InRange : TaskOp → Prop
  | createTask info _ _ => info.interval ∈ Set.Icc minDcInterval maxDcInterval
  | _ => True

/-- One operation on the registry, as a machine. -/
def stepTask (r : TaskReg) (op : {op : TaskOp // op.InRange}) : Option TaskReg :=
  some (op.1.exec r).2

open TaskReg

theorem TaskReg.RangedWF.exec {r : TaskReg} (h : r.RangedWF) {op : TaskOp} (hop : op.InRange) :
    (op.exec r).2.RangedWF := by
  refine ⟨op.wf_exec h.wf, ?_⟩
  cases op with
  | createTask info s env =>
    exact forall_createTask h.ranged (CollTask.ranged_new s.2 hop _)
      fun i t hi _ => (h.ranged i t hi).addSubscriber s.2 hop _
  | deleteTask ty s =>
    refine (forall_of_slots (s := s.1) h.ranged (q := fun j => ∃ t, r.collTaskList j = some t ∧
      t.dataType = ty) (fun j hj => ?_) (fun j hj => ?_)).mpr ?_
    · exact (deleteTask_slots h.wf ty s.1 j).trans (if_pos hj)
    · exact (deleteTask_slots h.wf ty s.1 j).trans (if_neg hj)
    · exact fun i t _ hi t' ht' => (h.ranged i t hi).withoutSubscriber ht'
  | deleteAllTaskByClient s =>
    refine (forall_of_slots (s := s.1) h.ranged (q := fun _ => True)
      (fun j _ => deleteAllTaskByClient_slot h.wf s.1 j) (fun j hj => absurd trivial hj)).mpr ?_
    exact fun i t _ hi t' ht' => (h.ranged i t hi).withoutSubscriber ht'
  | finiAllTask =>
    intro i t hi
    cases (finiAllTask_slot r i).symm.trans hi

/-- One operation leaves every interval right exactly under `KeepsMin`. -/
theorem minIntervals_exec {r : TaskReg} (h : r.RangedWF) (hmin : r.MinIntervals) (op : TaskOp) :
    (op.exec r).2.MinIntervals ↔ r.KeepsMin op := by
  cases op with
  | createTask info s env =>
    constructor
    · intro hall i t hi hty
      have hslot : (r.createTask info s.1 env).2.collTaskList i =
          some (t.addSubscriber info s.1 env.now).2 := by
        rw [createTask_of_task h.wf hi hty]
        exact Function.update_self ..
      exact (CollTask.minInterval_addSubscriber (h.wf.tasks i t hi) (hmin i t hi) s.2).mp
        (hall i _ hslot)
    · intro hkeep
      refine forall_createTask hmin (CollTask.minInterval_new s.2 _) fun i t hi hty => ?_
      exact (CollTask.minInterval_addSubscriber (h.wf.tasks i t hi) (hmin i t hi) s.2).mpr
        (hkeep i t hi hty)
  | deleteTask ty s =>
    refine (forall_of_slots (s := s.1) hmin (q := fun j => ∃ t, r.collTaskList j = some t ∧
      t.dataType = ty) (fun j hj => ?_) (fun j hj => ?_)).trans ?_
    · exact (deleteTask_slots h.wf ty s.1 j).trans (if_pos hj)
    · exact (deleteTask_slots h.wf ty s.1 j).trans (if_neg hj)
    · constructor
      · intro hall i t hi hty
        exact (CollTask.minInterval_withoutSubscriber (h.wf.tasks i t hi) (h.ranged i t hi)).mp
          (hall i t ⟨t, hi, hty⟩ hi)
      · rintro hkeep i t ⟨u, hiu, hty⟩ hi
        obtain rfl := Option.some.inj (hiu.symm.trans hi)
        exact (CollTask.minInterval_withoutSubscriber (h.wf.tasks i u hi) (h.ranged i u hi)).mpr
          (hkeep i u hi hty)
  | deleteAllTaskByClient s =>
    refine (forall_of_slots (s := s.1) hmin (q := fun _ => True)
      (fun j _ => deleteAllTaskByClient_slot h.wf s.1 j) (fun j hj => absurd trivial hj)).trans ?_
    refine forall₂_congr fun i t => ?_
    rw [true_imp_iff]
    refine forall_congr' fun hi => ?_
    exact CollTask.minInterval_withoutSubscriber (h.wf.tasks i t hi) (h.ranged i t hi)
  | finiAllTask =>
    refine iff_of_true ?_ trivial
    intro i t hi
    cases (finiAllTask_slot r i).symm.trans hi

/-- In a run of any operations with intervals in range, every task samples at its
fastest subscriber's rate after every operation exactly when every operation
keeps the minimum. -/
theorem task_interval_runs (ops : List {op : TaskOp // op.InRange}) :
    Transition.Along stepTask (fun _ _ r' => r'.MinIntervals) empty.initTaskService ops ↔
      Transition.Along stepTask (fun r op _ => r.KeepsMin op.1) empty.initTaskService ops := by
  refine Transition.along_iff (J := RangedWF) ?_ ?_ rangedWF_start nofun
  · intro r op r' hJ hr'
    obtain rfl := Option.some.inj hr'
    exact hJ.exec op.2
  · intro r op r' hJ hP hr'
    obtain rfl := Option.some.inj hr'
    exact minIntervals_exec hJ hP op.1

/-- Client 1 samples every second, client 2 every two seconds; then client 1 stops. -/
def stopFastest : List {op : TaskOp // op.InRange} :=
  [⟨.createTask ⟨1, 1000⟩ ⟨1, by decide⟩ ⟨true, true, ⟨0, 0⟩⟩, by constructor <;> decide⟩,
    ⟨.createTask ⟨1, 2000⟩ ⟨2, by decide⟩ ⟨true, true, ⟨0, 0⟩⟩, by constructor <;> decide⟩,
    ⟨.deleteTask 1 ⟨1, by decide⟩, trivial⟩]

/-- The recomputation reads the slot that has just become free: the task is left
with interval 0. -/
theorem stopFastest_interval :
    ¬ Transition.Along stepTask (fun _ _ r' => r'.MinIntervals) empty.initTaskService
      stopFastest := by
  intro h
  have hmin := (((h _ rfl).2 _ rfl).2 _ rfl).1
  obtain ⟨⟨i, hi, hv⟩, -⟩ := hmin 0 _ rfl
  revert i
  decide

end PowerApi
