import PowerApi.Subscribers

/-!
# The registry's representation invariant

The registry encodes the same facts several times: presence of a task in a NULL
pointer and in `g_taskNum`, presence of a subscriber in a non-zero `sysId` and
in `subNum`. `TaskReg.WF` says that the encodings agree, and `TaskReg.HasSub`
what the registry means: which subscriptions there are. Every operation keeps
`WF` and changes `HasSub` in the one way its name says; over a sequence of
operations, a client is subscribed exactly when the last operation about it and
the type was its successful create (`task_registry_runs`).
-/

namespace PowerApi

open Slots

namespace TaskReg

/-- The representation invariant. -/
structure WF (r : TaskReg) : Prop where
  task_count : r.taskNum = count fun i => r.collTaskList i ≠ none
  types : ∀ i j t u, r.collTaskList i = some t → r.collTaskList j = some u →
    t.dataType = u.dataType → i = j
  tasks : ∀ i t, r.collTaskList i = some t → t.WF

/-- The registry holds this subscription to this type of data. -/
def HasSub (r : TaskReg) (ty : UInt32) (sub : CollDataSubscriber) : Prop :=
  ∃ i t, r.collTaskList i = some t ∧ t.dataType = ty ∧ t.Has sub

/-- The client is subscribed to this type of data. -/
def Subscribed (r : TaskReg) (s ty : UInt32) : Prop := ∃ sub, sub.sysId = s ∧ r.HasSub ty sub

theorem wf_empty : empty.WF where
  task_count := by simp [empty, count_eq_zero.mpr]
  types := nofun
  tasks := nofun

theorem not_hasSub_empty {ty : UInt32} {sub : CollDataSubscriber} : ¬ empty.HasSub ty sub := by
  rintro ⟨i, t, hi, -⟩
  cases hi

theorem WF.initTaskService {r : TaskReg} (hwf : r.WF) : r.initTaskService.WF := by
  unfold TaskReg.initTaskService
  split
  · exact hwf
  · exact ⟨wf_empty.task_count, nofun, nofun⟩

/-! ## Finding a task -/

/-- The search by type finds a task of the type; its shortcut for an empty
registry is sound because `g_taskNum` counts the tasks. -/
theorem findCollTaskByType_some {r : TaskReg} {ty : UInt32} {i : Fin maxTaskNum}
    (h : r.findCollTaskByType ty = some i) :
    ∃ t, r.collTaskList i = some t ∧ t.dataType = ty := by
  unfold findCollTaskByType at h
  split at h
  · cases h
  · have hi := first_spec h
    rwa [Option.map_eq_some_iff] at hi

theorem findCollTaskByType_none {r : TaskReg} (hwf : r.WF) {ty : UInt32}
    (h : r.findCollTaskByType ty = none) {i : Fin maxTaskNum} {t : CollTask}
    (hi : r.collTaskList i = some t) : t.dataType ≠ ty := by
  unfold findCollTaskByType at h
  split at h
  · rename_i hzero
    have hcount := hwf.task_count
    rw [hzero] at hcount
    have hno := count_eq_zero.mp (Int.ofNat_eq_zero.mp hcount.symm) i
    exact absurd (hi ▸ Option.some_ne_none t) hno
  · have hno := first_eq_none.mp h i
    rw [hi] at hno
    simpa using hno

/-- In terms of subscriptions: the found task holds all of its type. -/
theorem hasSub_iff_of_task {r : TaskReg} (hwf : r.WF) {i : Fin maxTaskNum} {t : CollTask}
    (hi : r.collTaskList i = some t) {sub : CollDataSubscriber} :
    r.HasSub t.dataType sub ↔ t.Has sub := by
  constructor
  · rintro ⟨j, u, hj, hty, hsub⟩
    obtain rfl := hwf.types j i u t hj hi hty
    obtain rfl := Option.some.inj (hj.symm.trans hi)
    exact hsub
  · exact fun hsub => ⟨i, t, hi, rfl, hsub⟩

/-- On a well-formed registry the search finds the one task of the type. -/
theorem findCollTaskByType_eq {r : TaskReg} (hwf : r.WF) {i : Fin maxTaskNum} {t : CollTask}
    (hi : r.collTaskList i = some t) : r.findCollTaskByType t.dataType = some i := by
  cases hf : r.findCollTaskByType t.dataType with
  | none => exact absurd rfl (findCollTaskByType_none hwf hf hi)
  | some j =>
    obtain ⟨u, hj, hu⟩ := findCollTaskByType_some hf
    rw [hwf.types j i u t hj hi hu]

/-! ## Replacing one task -/

section SetTask

variable {r : TaskReg} {i : Fin maxTaskNum} {t t' : CollTask}

/-- Writing a well-formed task of the same type into a taken slot. -/
theorem WF.setTask (hwf : r.WF) (hi : r.collTaskList i = some t)
    (hty : t'.dataType = t.dataType) (ht' : t'.WF) : (r.setTask i t').WF := by
  refine ⟨?_, ?_, ?_⟩
  · have hcount := count_update (p := fun o : Option CollTask => o ≠ none)
      r.collTaskList i (some t')
    rw [if_pos (by simp [hi]), if_pos (by simp)] at hcount
    have hnew : count (fun j => (r.setTask i t').collTaskList j ≠ none) =
        count fun j => r.collTaskList j ≠ none := Nat.add_right_cancel hcount
    rw [hnew]
    exact hwf.task_count
  · have hat : ∀ j u, (r.setTask i t').collTaskList j = some u →
        ∃ u₀, r.collTaskList j = some u₀ ∧ u₀.dataType = u.dataType := by
      intro j u hj
      by_cases hji : j = i
      · subst hji
        obtain rfl : t' = u := by simpa [TaskReg.setTask] using hj
        exact ⟨t, hi, hty.symm⟩
      · exact ⟨u, by simpa [TaskReg.setTask, hji] using hj, rfl⟩
    intro j k u v hj hk huv
    obtain ⟨u₀, hj₀, hu₀⟩ := hat j u hj
    obtain ⟨v₀, hk₀, hv₀⟩ := hat k v hk
    exact hwf.types j k u₀ v₀ hj₀ hk₀ (hu₀.trans (huv.trans hv₀.symm))
  · intro j u hj
    by_cases hji : j = i
    · subst hji
      obtain rfl : t' = u := by simpa [TaskReg.setTask] using hj
      exact ht'
    · exact hwf.tasks j u (by simpa [TaskReg.setTask, hji] using hj)

/-- Dropping a task that is there. -/
theorem WF.finiTask (hwf : r.WF) (hi : r.collTaskList i = some t) : (r.finiTask i).WF := by
  have hat : ∀ j u, (r.finiTask i).collTaskList j = some u → r.collTaskList j = some u := by
    intro j u hj
    by_cases hji : j = i
    · subst hji
      simp [TaskReg.finiTask] at hj
    · simpa [TaskReg.finiTask, hji] using hj
  refine ⟨?_, fun j k u v hj hk => hwf.types j k u v (hat j u hj) (hat k v hk),
    fun j u hj => hwf.tasks j u (hat j u hj)⟩
  have hcount := count_update (p := fun o : Option CollTask => o ≠ none) r.collTaskList i none
  rw [if_pos (by simp [hi]), if_neg (by simp)] at hcount
  have hnew : count (fun j => (r.finiTask i).collTaskList j ≠ none) + 1 =
      count fun j => r.collTaskList j ≠ none := hcount
  have hold := hwf.task_count
  have htaskNum : (r.finiTask i).taskNum = r.taskNum - 1 := rfl
  omega

end SetTask

/-! ## Deleting a subscriber -/

/-- `DeleteSubscriber` rewrites its own slot of the registry ... -/
theorem deleteSubscriber_self (r : TaskReg) (i : Fin maxTaskNum) (s : UInt32) :
    (r.deleteSubscriber i s).2.collTaskList i =
      (r.collTaskList i).bind fun t => t.withoutSubscriber s := by
  unfold deleteSubscriber CollTask.withoutSubscriber
  rcases hi : r.collTaskList i with _ | t
  · simpa using hi
  · dsimp only [Option.bind_some]
    split <;> simp [setTask, finiTask]

/-- ... and no other. -/
theorem deleteSubscriber_other (r : TaskReg) {i j : Fin maxTaskNum} (s : UInt32) (hji : j ≠ i) :
    (r.deleteSubscriber i s).2.collTaskList j = r.collTaskList j := by
  unfold deleteSubscriber
  rcases r.collTaskList i with _ | t
  · rfl
  · dsimp only
    split <;> simp [setTask, finiTask, hji]

theorem WF.deleteSubscriber {r : TaskReg} (hwf : r.WF) (i : Fin maxTaskNum) {s : UInt32}
    (hs : s ≠ 0) : (r.deleteSubscriber i s).2.WF := by
  unfold TaskReg.deleteSubscriber
  rcases hi : r.collTaskList i with _ | t
  · exact hwf
  · have ht := hwf.tasks i t hi
    dsimp only
    split
    · -- the slot is overwritten on the way to being dropped
      have hfini : (r.setTask i (t.clearSubscriber s)).finiTask i = r.finiTask i := by
        simp [TaskReg.setTask, TaskReg.finiTask]
      rw [hfini]
      exact hwf.finiTask hi
    · rename_i hpos
      refine hwf.setTask hi (by simp) ?_
      have hsome : t.withoutSubscriber s =
          some ((t.clearSubscriber s).updataTaskInterval none) := if_neg hpos
      exact ht.withoutSubscriber hs hsome

/-! ## The operations -/

/-- What a create can do: nothing, start a task of a type that is not collected yet,
or add a subscriber to the task of its type. -/
theorem createTask_cases (r : TaskReg) (info : BasicDcTaskInfo) (s : UInt32) (env : CreateEnv) :
    ((r.createTask info s env).1 ≠ .success ∧ (r.createTask info s env).2 = r) ∨
    (r.findCollTaskByType info.dataType = none ∧ ∃ i, r.collTaskList i = none ∧
      r.createTask info s env = (.success,
        { r with
          collTaskList := Function.update r.collTaskList i (some (CollTask.new info s env.now))
          taskNum := r.taskNum + 1 })) ∨
    ∃ i t, r.collTaskList i = some t ∧ t.dataType = info.dataType ∧
      (t.addSubscriber info s env.now).1 = .success ∧
      r.createTask info s env =
        (.success, r.setTask i (t.addSubscriber info s env.now).2) := by
  unfold createTask
  cases hf : r.findCollTaskByType info.dataType with
  | none =>
    dsimp only [createNewTask]
    cases hslot : r.findAvailebleTaskSlot with
    | none => exact .inl ⟨nofun, rfl⟩
    | some i =>
      dsimp only
      split
      · exact .inl ⟨nofun, rfl⟩
      split
      · exact .inl ⟨nofun, rfl⟩
      exact .inr (.inl ⟨rfl, i, first_spec hslot, rfl⟩)
  | some i =>
    obtain ⟨t, hi, hty⟩ := findCollTaskByType_some hf
    dsimp only [addSubscriber]
    rw [hi]
    by_cases hret : (t.addSubscriber info s env.now).1 = .success
    · refine .inr (.inr ⟨i, t, hi, hty, hret, ?_⟩)
      rw [← hret]
    · refine .inl ⟨hret, ?_⟩
      dsimp only [setTask]
      rw [CollTask.addSubscriber_of_error hret, ← hi, Function.update_eq_self]

/-- A create of a type that is collected already only goes to its task. -/
theorem createTask_of_task {r : TaskReg} (hwf : r.WF) {i : Fin maxTaskNum} {t : CollTask}
    (hi : r.collTaskList i = some t) {info : BasicDcTaskInfo} (hty : t.dataType = info.dataType)
    (s : UInt32) (env : CreateEnv) :
    (r.createTask info s env).2 = r.setTask i (t.addSubscriber info s env.now).2 := by
  unfold createTask
  rw [← hty, findCollTaskByType_eq hwf hi]
  dsimp only [addSubscriber]
  rw [hi]

/-- A create that fails leaves the registry unchanged. -/
theorem createTask_of_error {r : TaskReg} {info : BasicDcTaskInfo} {s : UInt32} {env : CreateEnv}
    (h : (r.createTask info s env).1 ≠ .success) : (r.createTask info s env).2 = r := by
  obtain ⟨-, hr⟩ | ⟨-, i, -, hr⟩ | ⟨i, t, -, -, -, hr⟩ := r.createTask_cases info s env
  · exact hr
  · exact absurd (congrArg Prod.fst hr) h
  · exact absurd (congrArg Prod.fst hr) h

/-- Starting a task of a new type in a free slot. -/
theorem WF.addTask {r r' : TaskReg} (hwf : r.WF) {i : Fin maxTaskNum} {t : CollTask}
    (hi : r.collTaskList i = none) (ht : t.WF)
    (hnew : ∀ j u, r.collTaskList j = some u → u.dataType ≠ t.dataType)
    (hr' : r'.collTaskList = Function.update r.collTaskList i (some t))
    (hnum : r'.taskNum = r.taskNum + 1) : r'.WF := by
  have hat : ∀ j u, r'.collTaskList j = some u →
      j = i ∧ u = t ∨ j ≠ i ∧ r.collTaskList j = some u := by
    intro j u hj
    rw [hr'] at hj
    by_cases hji : j = i
    · subst hji
      rw [Function.update_self] at hj
      exact .inl ⟨rfl, (Option.some.inj hj).symm⟩
    · rw [Function.update_of_ne hji] at hj
      exact .inr ⟨hji, hj⟩
  refine ⟨?_, ?_, ?_⟩
  · have hcount := count_update (p := fun o : Option CollTask => o ≠ none) r.collTaskList i (some t)
    rw [if_neg (by simp [hi]), if_pos (by simp), Nat.add_zero] at hcount
    rw [hr', hcount, hnum, hwf.task_count]
    push_cast
    rfl
  · intro j k u v hj hk huv
    obtain ⟨rfl, rfl⟩ | ⟨hji, hju⟩ := hat j u hj
    · obtain ⟨rfl, rfl⟩ | ⟨hki, hkv⟩ := hat k v hk
      · rfl
      · exact absurd huv.symm (hnew k v hkv)
    · obtain ⟨rfl, rfl⟩ | ⟨hki, hkv⟩ := hat k v hk
      · exact absurd huv (hnew j u hju)
      · exact hwf.types j k u v hju hkv huv
  · intro j u hj
    obtain ⟨rfl, rfl⟩ | ⟨hji, hju⟩ := hat j u hj
    · exact ht
    · exact hwf.tasks j u hju

theorem WF.createTask {r : TaskReg} (hwf : r.WF) (info : BasicDcTaskInfo) {s : UInt32}
    (hs : s ≠ 0) (env : CreateEnv) : (r.createTask info s env).2.WF := by
  obtain ⟨-, hr⟩ | ⟨hf, i, hi, hr⟩ | ⟨i, t, hi, -, -, hr⟩ := r.createTask_cases info s env
  · rw [hr]
    exact hwf
  · rw [hr]
    exact hwf.addTask hi (CollTask.wf_new info hs env.now)
      (fun j u hj => findCollTaskByType_none hwf hf hj) rfl rfl
  · rw [hr]
    exact hwf.setTask hi (CollTask.addSubscriber_dataType ..)
      ((hwf.tasks i t hi).addSubscriber hs info env.now)

theorem WF.deleteTask {r : TaskReg} (hwf : r.WF) (ty : UInt32) {s : UInt32} (hs : s ≠ 0) :
    (r.deleteTask ty s).2.WF := by
  unfold TaskReg.deleteTask
  rcases r.findCollTaskByType ty with _ | i
  · exact hwf
  · exact hwf.deleteSubscriber i hs

theorem WF.deleteAllTaskByClient {r : TaskReg} (hwf : r.WF) {s : UInt32} (hs : s ≠ 0) :
    (r.deleteAllTaskByClient s).WF := by
  unfold TaskReg.deleteAllTaskByClient
  split
  · refine List.foldlRecOn _ _ hwf fun r hr i _ => ?_
    split
    · exact hr.deleteSubscriber i hs
    · exact hr
  · exact hwf

theorem WF.finiAllTask {r : TaskReg} (hwf : r.WF) : r.finiAllTask.WF := by
  refine List.foldlRecOn _ _ hwf fun r hr i _ => ?_
  split
  · rename_i hi
    obtain ⟨t, ht⟩ := Option.isSome_iff_exists.mp hi
    exact hr.finiTask ht
  · exact hr

/-- Cleaning up after a client is `DeleteSubscriber` on every slot. -/
theorem deleteAllTaskByClient_slot {r : TaskReg} (hwf : r.WF) (s : UInt32) (j : Fin maxTaskNum) :
    (r.deleteAllTaskByClient s).collTaskList j =
      (r.collTaskList j).bind fun t => t.withoutSubscriber s := by
  unfold deleteAllTaskByClient
  split
  · refine foldl_slots (fun r => r.collTaskList) (fun o => o.bind fun t => t.withoutSubscriber s)
      _ (fun r i => ?_) (fun r i j hji => ?_) r j
    · split
      · exact deleteSubscriber_self r i s
      · rename_i hnone
        rw [Option.not_isSome_iff_eq_none.mp hnone]
        rfl
    · split
      · exact deleteSubscriber_other r s hji
      · rfl
  · rename_i hzero
    have hcount := hwf.task_count
    rw [not_not.mp hzero] at hcount
    have hno := count_eq_zero.mp (Int.ofNat_eq_zero.mp hcount.symm) j
    rw [not_not.mp hno]
    rfl

theorem finiAllTask_slot (r : TaskReg) (j : Fin maxTaskNum) :
    r.finiAllTask.collTaskList j = none := by
  refine foldl_slots (fun r => r.collTaskList) (fun _ => none) _ (fun r i => ?_)
    (fun r i j hji => ?_) r j
  · split
    · simp [finiTask]
    · rename_i hnone
      exact Option.not_isSome_iff_eq_none.mp hnone
  · split
    · simp [finiTask, hji]
    · rfl

/-! ## What the operations do to the subscriptions -/

/-- The subscriptions after one task was rewritten: only its type is affected. -/
theorem hasSub_setTask {r : TaskReg} (hwf : r.WF) {i : Fin maxTaskNum} {t t' : CollTask}
    (hi : r.collTaskList i = some t) (hty : t'.dataType = t.dataType) {ty : UInt32}
    {sub : CollDataSubscriber} :
    (r.setTask i t').HasSub ty sub ↔
      if ty = t.dataType then t'.Has sub else r.HasSub ty sub := by
  have hself : (r.setTask i t').collTaskList i = some t' := Function.update_self ..
  have hother : ∀ j, j ≠ i → (r.setTask i t').collTaskList j = r.collTaskList j :=
    fun j hji => Function.update_of_ne hji ..
  split
  · rename_i htyp
    subst htyp
    constructor
    · rintro ⟨j, u, hj, hu, hsub⟩
      by_cases hji : j = i
      · subst hji
        obtain rfl := Option.some.inj (hself.symm.trans hj)
        exact hsub
      · rw [hother j hji] at hj
        exact absurd (hwf.types j i u t hj hi hu) hji
    · exact fun hsub => ⟨i, t', hself, hty, hsub⟩
  · rename_i htyp
    constructor
    · rintro ⟨j, u, hj, hu, hsub⟩
      by_cases hji : j = i
      · subst hji
        obtain rfl := Option.some.inj (hself.symm.trans hj)
        exact absurd (hu.symm.trans hty) htyp
      · exact ⟨j, u, hother j hji ▸ hj, hu, hsub⟩
    · rintro ⟨j, u, hj, hu, hsub⟩
      have hji : j ≠ i := by
        rintro rfl
        obtain rfl := Option.some.inj (hi.symm.trans hj)
        exact htyp hu.symm
      exact ⟨j, u, (hother j hji).trans hj, hu, hsub⟩

/-- The subscriptions after a new task went into a free slot. -/
theorem hasSub_update_free {r r' : TaskReg} {i : Fin maxTaskNum} {t : CollTask}
    (hi : r.collTaskList i = none)
    (hr' : r'.collTaskList = Function.update r.collTaskList i (some t)) {ty : UInt32}
    {sub : CollDataSubscriber} :
    r'.HasSub ty sub ↔ r.HasSub ty sub ∨ t.dataType = ty ∧ t.Has sub := by
  constructor
  · rintro ⟨j, u, hj, hu, hsub⟩
    rw [hr'] at hj
    by_cases hji : j = i
    · subst hji
      rw [Function.update_self] at hj
      obtain rfl := Option.some.inj hj
      exact .inr ⟨hu, hsub⟩
    · rw [Function.update_of_ne hji] at hj
      exact .inl ⟨j, u, hj, hu, hsub⟩
  · rintro (⟨j, u, hj, hu, hsub⟩ | ⟨hu, hsub⟩)
    · have hji : j ≠ i := by
        rintro rfl
        rw [hi] at hj
        cases hj
      exact ⟨j, u, by rw [hr', Function.update_of_ne hji, hj], hu, hsub⟩
    · exact ⟨i, t, by rw [hr', Function.update_self], hu, hsub⟩

/-- A successful create gives the client a subscription with the interval asked for. -/
theorem hasSub_createTask_self {r : TaskReg} (hwf : r.WF) {info : BasicDcTaskInfo} {s : UInt32}
    (hs : s ≠ 0) {env : CreateEnv} (h : (r.createTask info s env).1 = .success) :
    ∃ sub, sub.sysId = s ∧ sub.interval = info.interval ∧
      (r.createTask info s env).2.HasSub info.dataType sub := by
  obtain ⟨hret, -⟩ | ⟨-, i, hi, hr⟩ | ⟨i, t, hi, hty, hret, hr⟩ := r.createTask_cases info s env
  · exact absurd h hret
  · refine ⟨⟨s, info.interval, env.now⟩, rfl, rfl, ?_⟩
    rw [hr]
    exact (hasSub_update_free hi rfl).mpr (.inr ⟨rfl, (CollTask.has_new hs).mpr rfl⟩)
  · obtain ⟨sub, hsub, hid, hint⟩ := CollTask.has_addSubscriber_self hs hret
    refine ⟨sub, hid, hint, ?_⟩
    rw [hr]
    dsimp only
    rw [hasSub_setTask hwf hi (CollTask.addSubscriber_dataType ..), if_pos hty.symm]
    exact hsub

/-- A create leaves every other subscription as it was. -/
theorem hasSub_createTask_other {r : TaskReg} (hwf : r.WF) {info : BasicDcTaskInfo} {s : UInt32}
    (hs : s ≠ 0) {env : CreateEnv} {ty : UInt32} {sub : CollDataSubscriber}
    (hne : ¬ (ty = info.dataType ∧ sub.sysId = s)) :
    (r.createTask info s env).2.HasSub ty sub ↔ r.HasSub ty sub := by
  obtain ⟨-, hr⟩ | ⟨-, i, hi, hr⟩ | ⟨i, t, hi, hty, -, hr⟩ := r.createTask_cases info s env
  · rw [hr]
  · rw [hr]
    refine (hasSub_update_free hi rfl).trans (or_iff_left ?_)
    rintro ⟨hty, hsub⟩
    obtain rfl := (CollTask.has_new hs).mp hsub
    exact hne ⟨hty.symm, rfl⟩
  · rw [hr]
    dsimp only
    rw [hasSub_setTask hwf hi (CollTask.addSubscriber_dataType ..)]
    split
    · rename_i htyp
      subst htyp
      rw [hasSub_iff_of_task hwf hi]
      exact CollTask.has_addSubscriber_other fun hid => hne ⟨hty, hid⟩
    · exact Iff.rfl

/-- Removing a client from the slots with `q` removes its subscriptions there. -/
theorem hasSub_of_slots {r r' : TaskReg} (hwf : r.WF) {s : UInt32} (hs : s ≠ 0)
    {q : Fin maxTaskNum → Prop}
    (hq : ∀ j, q j → r'.collTaskList j = (r.collTaskList j).bind fun t => t.withoutSubscriber s)
    (hnq : ∀ j, ¬ q j → r'.collTaskList j = r.collTaskList j) {ty : UInt32}
    {sub : CollDataSubscriber} :
    r'.HasSub ty sub ↔
      ∃ j t, r.collTaskList j = some t ∧ t.dataType = ty ∧ t.Has sub ∧ (q j → sub.sysId ≠ s) := by
  constructor
  · rintro ⟨j, u, hj, hu, hsub⟩
    by_cases hqj : q j
    · rw [hq j hqj, Option.bind_eq_some_iff] at hj
      obtain ⟨t, ht, htu⟩ := hj
      obtain ⟨hhas, hne⟩ := (CollTask.has_withoutSubscriber (hwf.tasks j t ht) hs).mp ⟨u, htu, hsub⟩
      exact ⟨j, t, ht, (CollTask.withoutSubscriber_dataType htu).symm.trans hu, hhas, fun _ => hne⟩
    · exact ⟨j, u, hnq j hqj ▸ hj, hu, hsub, fun h => absurd h hqj⟩
  · rintro ⟨j, t, ht, hty, hhas, hne⟩
    by_cases hqj : q j
    · obtain ⟨u, htu, hsub⟩ :=
        (CollTask.has_withoutSubscriber (hwf.tasks j t ht) hs).mpr ⟨hhas, hne hqj⟩
      refine ⟨j, u, ?_, (CollTask.withoutSubscriber_dataType htu).trans hty, hsub⟩
      rw [hq j hqj, ht]
      exact htu
    · exact ⟨j, t, (hnq j hqj).trans ht, hty, hhas⟩

theorem hasSub_deleteTask {r : TaskReg} (hwf : r.WF) {ty' s : UInt32} (hs : s ≠ 0) {ty : UInt32}
    {sub : CollDataSubscriber} :
    (r.deleteTask ty' s).2.HasSub ty sub ↔
      r.HasSub ty sub ∧ ¬ (ty = ty' ∧ sub.sysId = s) := by
  unfold deleteTask
  rcases hf : r.findCollTaskByType ty' with _ | i
  · refine (and_iff_left_of_imp ?_).symm
    rintro ⟨j, t, hj, rfl, -⟩ ⟨hty, -⟩
    exact findCollTaskByType_none hwf hf hj hty
  · obtain ⟨t, hi, hty⟩ := findCollTaskByType_some hf
    rw [hasSub_of_slots hwf hs (q := fun j => j = i) (fun j hj => hj ▸ deleteSubscriber_self r i s)
      (fun j hj => deleteSubscriber_other r s hj)]
    constructor
    · rintro ⟨j, u, hj, rfl, hsub, hne⟩
      refine ⟨⟨j, u, hj, rfl, hsub⟩, ?_⟩
      rintro ⟨huty, hid⟩
      exact hne (hwf.types j i u t hj hi (huty.trans hty.symm)) hid
    · rintro ⟨⟨j, u, hj, rfl, hsub⟩, hne⟩
      refine ⟨j, u, hj, rfl, hsub, ?_⟩
      rintro rfl hid
      obtain rfl := Option.some.inj (hi.symm.trans hj)
      exact hne ⟨hty, hid⟩

theorem hasSub_deleteAllTaskByClient {r : TaskReg} (hwf : r.WF) {s : UInt32} (hs : s ≠ 0)
    {ty : UInt32} {sub : CollDataSubscriber} :
    (r.deleteAllTaskByClient s).HasSub ty sub ↔ r.HasSub ty sub ∧ sub.sysId ≠ s := by
  rw [hasSub_of_slots hwf hs (q := fun _ => True)
    (fun j _ => deleteAllTaskByClient_slot hwf s j) (fun j hj => absurd trivial hj)]
  constructor
  · rintro ⟨j, t, hj, hty, hsub, hne⟩
    exact ⟨⟨j, t, hj, hty, hsub⟩, hne trivial⟩
  · rintro ⟨⟨j, t, hj, hty, hsub⟩, hne⟩
    exact ⟨j, t, hj, hty, hsub, fun _ => hne⟩

/-- Cleaning up after "client" 0 drops the tasks with one subscriber. -/
theorem hasSub_deleteAllTaskByClient_zero {r : TaskReg} (hwf : r.WF) {ty : UInt32}
    {sub : CollDataSubscriber} :
    (r.deleteAllTaskByClient 0).HasSub ty sub ↔
      ∃ j t, r.collTaskList j = some t ∧ t.dataType = ty ∧ t.Has sub ∧ t.subNum ≠ 1 := by
  constructor
  · rintro ⟨j, u, hj, hu, hsub⟩
    rw [deleteAllTaskByClient_slot hwf, Option.bind_eq_some_iff] at hj
    obtain ⟨t, ht, htu⟩ := hj
    obtain ⟨hhas, hne⟩ := (CollTask.has_withoutSubscriber_zero (hwf.tasks j t ht)).mp ⟨u, htu, hsub⟩
    exact ⟨j, t, ht, (CollTask.withoutSubscriber_dataType htu).symm.trans hu, hhas, hne⟩
  · rintro ⟨j, t, ht, hty, hhas, hne⟩
    obtain ⟨u, htu, hsub⟩ :=
      (CollTask.has_withoutSubscriber_zero (hwf.tasks j t ht)).mpr ⟨hhas, hne⟩
    refine ⟨j, u, ?_, (CollTask.withoutSubscriber_dataType htu).trans hty, hsub⟩
    rw [deleteAllTaskByClient_slot hwf, ht]
    exact htu

theorem not_hasSub_finiAllTask {r : TaskReg} {ty : UInt32} {sub : CollDataSubscriber} :
    ¬ r.finiAllTask.HasSub ty sub := by
  rintro ⟨j, t, hj, -⟩
  rw [finiAllTask_slot] at hj
  cases hj

/-! ## Who becomes a subscriber -/

theorem subscribed_iff {r : TaskReg} {d ty : UInt32} :
    r.Subscribed d ty ↔ ∃ i t, r.collTaskList i = some t ∧ t.dataType = ty ∧ t.Lists d := by
  constructor
  · rintro ⟨sub, rfl, i, t, hi, hty, hsub⟩
    exact ⟨i, t, hi, hty, hsub.lists⟩
  · rintro ⟨i, t, hi, hty, hlists⟩
    obtain ⟨sub, hid, hsub⟩ := hlists.has
    exact ⟨sub, hid, i, t, hi, hty, hsub⟩

/-- Writing a task makes nobody a subscriber that the new task does not list. -/
theorem Subscribed.of_update {r r' : TaskReg} {i : Fin maxTaskNum} {t : CollTask}
    {d ty : UInt32} (hr' : r'.collTaskList = Function.update r.collTaskList i (some t))
    (ht : t.dataType = ty → t.Lists d → r.Subscribed d ty)
    (h : r'.Subscribed d ty) : r.Subscribed d ty := by
  obtain ⟨j, u, hj, hty, hlists⟩ := subscribed_iff.mp h
  rw [hr'] at hj
  by_cases hji : j = i
  · subst hji
    rw [Function.update_self] at hj
    obtain rfl := Option.some.inj hj
    exact ht hty hlists
  · rw [Function.update_of_ne hji] at hj
    exact subscribed_iff.mpr ⟨j, u, hj, hty, hlists⟩

/-- A create makes nobody a subscriber but the client that asks, of what it asks for. -/
theorem subscribed_createTask {r : TaskReg} {info : BasicDcTaskInfo} {s : UInt32} {env : CreateEnv}
    {d ty : UInt32} (hne : ¬ (d = s ∧ ty = info.dataType))
    (h : (r.createTask info s env).2.Subscribed d ty) : r.Subscribed d ty := by
  obtain ⟨-, hr⟩ | ⟨-, i, -, hr⟩ | ⟨i, t, hi, hty, -, hr⟩ := r.createTask_cases info s env
  · rwa [hr] at h
  · rw [hr] at h
    exact Subscribed.of_update rfl
      (fun hnew hlists => absurd ⟨CollTask.lists_new hlists, hnew.symm⟩ hne) h
  · rw [hr] at h
    refine Subscribed.of_update rfl (fun htyu hlists => ?_) h
    rw [CollTask.addSubscriber_dataType] at htyu
    exact subscribed_iff.mpr ⟨i, t, hi, htyu,
      (CollTask.lists_addSubscriber hlists).resolve_left fun hd => hne ⟨hd, htyu.symm.trans hty⟩⟩

/-- A create for a client that is not subscribed yet can succeed: the task of the type
has a free slot, or there is none and one can be started. -/
def HasRoom (r : TaskReg) (dataType : UInt32) (env : CreateEnv) : Prop :=
  match r.findCollTaskByType dataType with
  | some index => ∃ t i, r.collTaskList index = some t ∧ (t.subscriberList i).sysId = 0
  | none => (∃ index, r.collTaskList index = none) ∧ env.mallocOk = true ∧ env.threadOk = true

/-- A create makes a new subscriber of the client that asks exactly when there is room. -/
theorem subscribed_createTask_self {r : TaskReg} {info : BasicDcTaskInfo} {s : UInt32}
    {env : CreateEnv} (hs : s ≠ 0) (hnew : ¬ r.Subscribed s info.dataType) :
    (r.createTask info s env).2.Subscribed s info.dataType ↔ r.HasRoom info.dataType env := by
  unfold HasRoom createTask
  cases hf : r.findCollTaskByType info.dataType with
  | none =>
    dsimp only [createNewTask]
    cases hslot : r.findAvailebleTaskSlot with
    | none => exact iff_of_false hnew fun h => (first_eq_none.mp hslot _) h.1.choose_spec
    | some j =>
      dsimp only
      split
      · exact iff_of_false hnew fun h => by simp_all
      split
      · exact iff_of_false hnew fun h => by simp_all
      refine iff_of_true ?_ ⟨⟨j, first_spec hslot⟩, by simpa using ‹¬ env.mallocOk = false›,
        by simpa using ‹¬ env.threadOk = false›⟩
      exact subscribed_iff.mpr ⟨j, _, Function.update_self .., rfl, CollTask.lists_new_self hs⟩
  | some i =>
    obtain ⟨t, hi, hty⟩ := findCollTaskByType_some hf
    have hlists : ¬ t.Lists s := fun h => hnew (subscribed_iff.mpr ⟨i, t, hi, hty, h⟩)
    dsimp only [addSubscriber]
    rw [hi]
    have hself := @CollTask.lists_addSubscriber_self t info s env.now hs hlists
    constructor
    · intro h
      refine ⟨t, ?_⟩
      simp only [true_and]
      refine hself.mp (of_not_not fun hno => hnew ?_)
      exact Subscribed.of_update rfl (fun _ h' => absurd h' hno) h
    · rintro ⟨u, j, hu, hj⟩
      obtain rfl := Option.some.inj hu
      exact subscribed_iff.mpr ⟨i, _, Function.update_self ..,
        (CollTask.addSubscriber_dataType ..).trans hty, hself.mpr ⟨j, hj⟩⟩

theorem subscribed_deleteSubscriber {r : TaskReg} {i : Fin maxTaskNum} {s d ty : UInt32}
    (h : (r.deleteSubscriber i s).2.Subscribed d ty) : r.Subscribed d ty := by
  obtain ⟨j, u, hj, hty, hlists⟩ := subscribed_iff.mp h
  by_cases hji : j = i
  · subst hji
    rw [deleteSubscriber_self, Option.bind_eq_some_iff] at hj
    obtain ⟨t, ht, htu⟩ := hj
    exact subscribed_iff.mpr ⟨j, t, ht, (CollTask.withoutSubscriber_dataType htu).symm.trans hty,
      CollTask.lists_withoutSubscriber htu hlists⟩
  · rw [deleteSubscriber_other r s hji] at hj
    exact subscribed_iff.mpr ⟨j, u, hj, hty, hlists⟩

theorem subscribed_deleteTask {r : TaskReg} {ty' s d ty : UInt32}
    (h : (r.deleteTask ty' s).2.Subscribed d ty) : r.Subscribed d ty := by
  unfold deleteTask at h
  cases hf : r.findCollTaskByType ty' with
  | none => rwa [hf] at h
  | some i =>
    rw [hf] at h
    exact subscribed_deleteSubscriber h

theorem subscribed_deleteAllTaskByClient {r : TaskReg} {s d ty : UInt32}
    (h : (r.deleteAllTaskByClient s).Subscribed d ty) : r.Subscribed d ty := by
  unfold deleteAllTaskByClient at h
  split at h
  · -- the loop keeps "no new subscriber"
    revert h
    refine List.foldlRecOn (motive := fun r' : TaskReg => r'.Subscribed d ty → r.Subscribed d ty) _ _ id
      fun r' hr' i _ => ?_
    split
    · exact fun h => hr' (subscribed_deleteSubscriber h)
    · exact hr'
  · exact h

end TaskReg

end PowerApi
