import PowerApi.Threads
import PowerApi.Answers

/-!
# The end of `StartServer` (`server.c`, `taskservice.c`)

`StartServer` creates the service thread and the socket thread and calls
`InitTaskService` after that, which clears the task list and `g_taskNum` without taking
`g_taskListMutex`, and makes the mutex anew. A client may have had a task created by
then. `Startup` is the server with its two threads and the main thread; a request to
create or delete a task is served in three steps, so that the main thread can come in
between: the list, under the mutex; `g_taskNum`, where the mutex is released; the answer.

`answered` remembers which types of data clients have been told SUCCESS for. Tasks are
lost when the main thread clears something; `startup_keeps_tasks` says that otherwise
none is.
-/

namespace PowerApi

namespace TaskReg

/-- There is a task for this type of data. -/
def Collects (r : TaskReg) (ty : UInt32) : Prop :=
  ∃ i, (r.collTaskList i).map (·.dataType) = some ty

instance (r : TaskReg) (ty : UInt32) : Decidable (r.Collects ty) :=
  inferInstanceAs (Decidable (∃ _, _))

/-- The number of tasks in the list. -/
def listed (r : TaskReg) : ℕ := Slots.count fun i => r.collTaskList i ≠ none

/-- By how many tasks the list is ahead of `g_taskNum`. -/
def ahead (r : TaskReg) : Int := r.listed - r.taskNum

theorem listed_update {r q : TaskReg} {i : Fin maxTaskNum} {task : Option CollTask}
    (h : q.collTaskList = Function.update r.collTaskList i task) :
    q.listed + (if r.collTaskList i ≠ none then 1 else 0) =
      r.listed + if task ≠ none then 1 else 0 := by
  rw [listed, h]
  exact Slots.count_update (p := fun o : Option CollTask => o ≠ none) r.collTaskList i task

/-- Different types of data have different tasks. -/
theorem card_le_listed {r : TaskReg} {types : Finset UInt32} (h : ∀ ty ∈ types, r.Collects ty) :
    types.card ≤ r.listed := by
  have hsub : types ⊆ (Finset.univ.filter fun i => r.collTaskList i ≠ none).image
      fun i => ((r.collTaskList i).map (·.dataType)).getD 0 := by
    intro ty hty
    obtain ⟨i, hi⟩ := h ty hty
    refine Finset.mem_image.mpr ⟨i, ?_, by rw [hi]; rfl⟩
    obtain ⟨t, ht, -⟩ := Option.map_eq_some_iff.mp hi
    exact Finset.mem_filter.mpr ⟨Finset.mem_univ i, ht ▸ Option.some_ne_none t⟩
  exact (Finset.card_le_card hsub).trans Finset.card_image_le

/-- Writing a task of the same type moves neither. -/
theorem ahead_setTask {r : TaskReg} {i : Fin maxTaskNum} {t t' : CollTask}
    (hi : r.collTaskList i = some t) : (r.setTask i t').ahead = r.ahead := by
  have hcount := listed_update (r := r) (q := r.setTask i t') rfl
  rw [if_pos (by simp [hi]), if_pos (by simp)] at hcount
  rw [ahead, ahead, Nat.add_right_cancel hcount]
  rfl

theorem ahead_finiTask {r : TaskReg} {i : Fin maxTaskNum} {t : CollTask}
    (hi : r.collTaskList i = some t) : (r.finiTask i).ahead = r.ahead := by
  have hcount := listed_update (r := r) (q := r.finiTask i) rfl
  rw [if_pos (by simp [hi]), if_neg (by simp)] at hcount
  have hnum : (r.finiTask i).taskNum = r.taskNum - 1 := rfl
  rw [ahead, ahead, hnum]
  omega

theorem ahead_deleteSubscriber (r : TaskReg) (i : Fin maxTaskNum) (s : UInt32) :
    (r.deleteSubscriber i s).2.ahead = r.ahead := by
  unfold deleteSubscriber
  cases hi : r.collTaskList i with
  | none => rfl
  | some t =>
    dsimp only
    split
    · refine (ahead_finiTask (t := t.clearSubscriber s) ?_).trans (ahead_setTask hi)
      exact Function.update_self ..
    · exact ahead_setTask hi

theorem ahead_deleteTask (r : TaskReg) (ty s : UInt32) : (r.deleteTask ty s).2.ahead = r.ahead := by
  unfold deleteTask
  split
  · exact ahead_deleteSubscriber ..
  · rfl

theorem ahead_deleteAllTaskByClient (r : TaskReg) (s : UInt32) :
    (r.deleteAllTaskByClient s).ahead = r.ahead := by
  unfold deleteAllTaskByClient
  split
  · refine List.foldlRecOn (motive := fun r' : TaskReg => r'.ahead = r.ahead) _ _ rfl
      fun r' hr' i _ => ?_
    split
    · exact (ahead_deleteSubscriber ..).trans hr'
    · exact hr'
  · rfl

/-- A create lists a task and counts it, and ends none. -/
theorem createTask_grows (r : TaskReg) (info : BasicDcTaskInfo) (s : UInt32) (env : CreateEnv) :
    (r.createTask info s env).2.ahead = r.ahead ∧
      (∀ ty, r.Collects ty → (r.createTask info s env).2.Collects ty) ∧
      ((r.createTask info s env).1 = .success →
        (r.createTask info s env).2.Collects info.dataType) := by
  obtain ⟨hret, hr⟩ | ⟨-, i, hi, hr⟩ | ⟨i, t, hi, hty, -, hr⟩ := r.createTask_cases info s env
  · rw [hr]
    exact ⟨rfl, fun _ => id, fun h => absurd h hret⟩
  · rw [hr]
    refine ⟨?_, ?_, fun _ => ⟨i, by simp [CollTask.new]⟩⟩
    · have hcount := listed_update (r := r) (i := i) (q := { r with
        collTaskList := Function.update r.collTaskList i (some (CollTask.new info s env.now))
        taskNum := r.taskNum + 1 }) rfl
      rw [if_neg (by simp [hi]), if_pos (by simp)] at hcount
      rw [ahead, ahead, ← Nat.add_zero (listed _), hcount]
      push_cast
      omega
    · rintro ty ⟨j, hj⟩
      refine ⟨j, ?_⟩
      have hji : j ≠ i := by
        rintro rfl
        rw [hi] at hj
        cases hj
      dsimp only
      rwa [Function.update_of_ne hji]
  · rw [hr]
    have hnew : (t.addSubscriber info s env.now).2.dataType = t.dataType :=
      CollTask.addSubscriber_dataType ..
    refine ⟨ahead_setTask hi, ?_, fun _ => ⟨i, by simp [setTask, hty]⟩⟩
    rintro ty ⟨j, hj⟩
    refine ⟨j, ?_⟩
    by_cases hji : j = i
    · subst hji
      rw [hi] at hj
      simpa [setTask, hnew] using hj
    · dsimp only [setTask]
      rwa [Function.update_of_ne hji]

end TaskReg

/-- Where `StartServer` is, the service thread being created. -/
inductive MainPc where
  /-- `CreateThread(&g_sockProcThread, ...)` -/
  | createThread
  /-- `if (g_hasInited)` -/
  | checkInited
  /-- `bzero(g_collTaskList, ...)` -/
  | clearList
  /-- `g_taskNum = 0` -/
  | clearNum
  /-- `pthread_mutex_init` -/
  | initMutex
  /-- `g_hasInited = TRUE` -/
  | setInited
  | returned
  deriving DecidableEq, Repr

/-- A `CreateTask` or `DeleteTask` under way. -/
structure Handling where
  rspCode : RtnCode
  /-- the type of data that is collected because of it -/
  created : Option UInt32
  /-- what `g_taskNum` is still going to change by -/
  pending : Option Int
  deriving DecidableEq

/-- The server while it starts. -/
structure Startup where
  threads : Threads
  main : MainPc
  /-- the socket thread runs -/
  sockStarted : Bool
  /-- `g_taskListMutex` is held -/
  mutex : Bool
  handling : Option Handling
  /-- the types of data whose tasks have been answered with SUCCESS, as long as neither a
  delete request nor a disconnect ends their task -/
  answered : Finset UInt32

namespace Startup

inductive Event where
  /-- the next step of `StartServer`; `CreateThread` may fail -/
  | main (threadOk : Bool)
  /-- a step of one of the threads, other than on a task of a client -/
  | thread (e : Threads.Event)
  /-- `CreateTask` or `DeleteTask`, up to the list -/
  | list (m : Machine)
  /-- `g_taskNum`, and the end of `CreateTask` or `DeleteTask` -/
  | count
  /-- `SendRspToClient` and `ReleasePwrMsg` -/
  | answer (m : Machine)

/-- The service thread has been created, and nothing else. -/
def init : Startup where
  threads := { Threads.init with srv := { Server.init with tasks := TaskReg.empty } }
  main := .createThread
  sockStarted := false
  mutex := false
  handling := none
  answered := ∅

/-- The task registry. -/
def tasks (s : Startup) : TaskReg := s.threads.srv.tasks

/-- The same with another registry. -/
def withTasks (s : Startup) (r : TaskReg) : Startup :=
  { s with threads := { s.threads with srv := { s.threads.srv with tasks := r } } }

/-- A step of the main thread. -/
def stepMain (s : Startup) (threadOk : Bool) : Option Startup :=
  match s.main with
  | .createThread =>
    some { s with sockStarted := threadOk, main := if threadOk then .checkInited else .returned }
  | .checkInited => some { s with main := if s.tasks.hasInited then .returned else .clearList }
  | .clearList =>
    some { s.withTasks { s.tasks with collTaskList := fun _ => none } with main := .clearNum }
  | .clearNum => some { s.withTasks { s.tasks with taskNum := 0 } with main := .initMutex }
  | .initMutex => some { s with mutex := false, main := .setInited }
  | .setInited => some { s.withTasks { s.tasks with hasInited := true } with main := .returned }
  | .returned => none

/-- The requests that are served in three steps. -/
def Splits (req : PwrMsg) : Prop :=
  match OperationType.ofCode req.head.optType with
  | some .comCreateDcTask => req.head.dataLen = Server.sizeofBasicDcTaskInfo
  | some .comDeleteDcTask => req.head.dataLen = Server.sizeofColDatatype
  | _ => False

instance : DecidablePred Splits := fun req => by
  unfold Splits
  split <;> infer_instance

/-- A step of one of the threads may be taken now. -/
def Enabled (s : Startup) : Threads.Event → Prop
  | .pop => True
  | .serve _ => ∀ req ∈ s.threads.cur, ¬ Splits req
  -- `CleanDataCollTaskByClient` takes the mutex
  | .clean => s.sockStarted = true ∧ (s.mutex = true → ∀ c ∈ s.threads.cleaning, c.pc ≠ .tasks)
  | _ => s.sockStarted = true

instance (s : Startup) : DecidablePred s.Enabled
  | .pop => inferInstanceAs (Decidable True)
  | .serve _ => inferInstanceAs (Decidable (∀ req ∈ s.threads.cur, _))
  | .clean => inferInstanceAs (Decidable (_ ∧ (_ → ∀ c ∈ s.threads.cleaning, _)))
  | .accept _ | .receive .. | .lose _ | .send => inferInstanceAs (Decidable (_ = _))

/-- Types of data whose task a step does not end. -/
def Stays (r r' : TaskReg) (ty : UInt32) : Prop := r.Collects ty → r'.Collects ty

instance (r r' : TaskReg) : DecidablePred (Stays r r') :=
  fun _ => inferInstanceAs (Decidable (_ → _))

/-- A delete request or a disconnect has changed the registry: what it ended does not
count as answered any more. -/
def forget (s : Startup) (r : TaskReg) : Startup :=
  { s with
    handling := s.handling.map fun h => { h with created := h.created.filter (Stays r s.tasks) }
    answered := s.answered.filter (Stays r s.tasks) }

/-- `CreateTask` up to the list. -/
def listCreate (s : Startup) (m : Machine) (req : PwrMsg) (data : Bytes) : Startup :=
  let info := Server.basicDcTaskInfoOf data
  let (rspCode, r) := s.tasks.createTask info req.head.sysId m.create
  { s.withTasks { s.tasks with collTaskList := r.collTaskList } with
    mutex := true
    handling := some ⟨rspCode, if rspCode = .success then some info.dataType else none,
      some (r.taskNum - s.tasks.taskNum)⟩ }

/-- `DeleteTask` up to the list. -/
def listDelete (s : Startup) (req : PwrMsg) (data : Bytes) : Startup :=
  let (rspCode, r) := s.tasks.deleteTask (UInt32.ofNat (Bytes.fieldAt data 0 4)) req.head.sysId
  { s.withTasks { s.tasks with collTaskList := r.collTaskList } with
    mutex := true
    handling := some ⟨rspCode, none, some (r.taskNum - s.tasks.taskNum)⟩ }.forget s.tasks

/-- The first step of a request that is served in three. -/
def stepList (s : Startup) (m : Machine) : Option Startup :=
  if s.mutex = false ∧ s.handling = none then
    s.threads.cur.bind fun req =>
      if Splits req then
        req.data.deref.toOption.map fun data =>
          if OperationType.ofCode req.head.optType = some .comCreateDcTask then
            s.listCreate m req data
          else s.listDelete req data
      else none
  else none

/-- The second step. -/
def stepCount (s : Startup) : Option Startup :=
  s.handling.bind fun h =>
    h.pending.map fun n =>
      { s.withTasks { s.tasks with taskNum := s.tasks.taskNum + n } with
        mutex := false
        handling := some { h with pending := none } }

/-- The end of a handler: the response, and the release of the request. -/
def answerReq (srv : Server) (m : Machine) (req : PwrMsg) (rspCode : RtnCode) :
    Except Fault Server := do
  let srv ← srv.sendRspToClient m req rspCode.code .null 0
  releasePwrMsg req
  return srv

/-- The third step. -/
def stepAnswer (s : Startup) (m : Machine) : Option Startup :=
  s.handling.bind fun h =>
    if h.pending = none then
      s.threads.cur.bind fun req =>
        (answerReq s.threads.srv m req h.rspCode).toOption.map fun srv =>
          { s with
            threads := { s.threads with srv := srv, cur := none }
            handling := none
            answered := if m.rspOk then h.created.elim s.answered (insert · s.answered)
              else s.answered }
    else none

/-- One step. -/
def step (s : Startup) : Event → Option Startup
  | .main threadOk => s.stepMain threadOk
  | .thread e =>
    if s.Enabled e then
      (s.threads.step e).map fun t =>
        match e with
        | .clean => { s with threads := t }.forget s.tasks
        | _ => { s with threads := t }
    else none
  | .list m => s.stepList m
  | .count => s.stepCount
  | .answer m => s.stepAnswer m

/-! ## What is kept -/

/-- The tasks that have been answered with SUCCESS are in the list and in `g_taskNum`,
which counts the list whenever nobody has the mutex. -/
structure Kept (s : Startup) : Prop where
  listed : ∀ ty ∈ s.answered, s.tasks.Collects ty
  counted : (s.answered.card : Int) ≤ s.tasks.taskNum
  exact : s.mutex = false → s.tasks.taskNum = s.tasks.listed

/-- `InitTaskService` finds nothing that its steps could clear, and nobody in the mutex
that it makes anew. -/
def Harmless (s : Startup) (e : Event) : Prop :=
  match e, s.main with
  | .main _, .clearList => ∀ i, s.tasks.collTaskList i = none
  | .main _, .clearNum => s.tasks.taskNum = 0
  | .main _, .initMutex => s.mutex = false
  | _, _ => True

instance (s : Startup) (e : Event) : Decidable (s.Harmless e) := by
  unfold Harmless
  split <;> infer_instance

/-- What `g_taskNum` is still going to change by. -/
def pending (s : Startup) : Option Int := s.handling.bind Handling.pending

/-- The invariant: a task that is going to be answered is listed as well, and the list is
ahead of `g_taskNum` by what the handler under the mutex has not counted yet. -/
structure Inv (s : Startup) : Prop where
  answered : ∀ ty ∈ s.answered, s.tasks.Collects ty
  created : ∀ h ∈ s.handling, ∀ ty ∈ h.created, s.tasks.Collects ty
  ahead : s.tasks.ahead = s.pending.getD 0
  counted : (s.answered.card : Int) ≤ s.tasks.taskNum
  held : s.pending ≠ none → s.mutex = true

theorem inv_init : init.Inv where
  answered := nofun
  created := nofun
  ahead := by decide
  counted := by decide
  held := nofun

section Inv

variable {s s' : Startup}

/-- With everything counted, no answered task is missing in `g_taskNum`. -/
theorem card_le_taskNum {r : TaskReg} {types : Finset UInt32} (h : ∀ ty ∈ types, r.Collects ty)
    (hahead : r.ahead = 0) : (types.card : Int) ≤ r.taskNum := by
  have hcard := TaskReg.card_le_listed h
  rw [TaskReg.ahead] at hahead
  omega

theorem Inv.pending_of_free (h : s.Inv) (hmutex : s.mutex = false) : s.pending = none := by
  by_contra hne
  rw [h.held hne] at hmutex
  cases hmutex

theorem Inv.ahead_of_free (h : s.Inv) (hmutex : s.mutex = false) : s.tasks.ahead = 0 := by
  rw [h.ahead, h.pending_of_free hmutex]
  rfl

theorem Inv.kept (h : s.Inv) : s.Kept where
  listed := h.answered
  counted := h.counted
  exact hmutex := by
    have hahead := h.ahead_of_free hmutex
    rw [TaskReg.ahead] at hahead
    omega

/-- A step that leaves the tasks alone. -/
theorem Inv.congr (h : s.Inv) (hlist : s'.tasks.collTaskList = s.tasks.collTaskList)
    (hnum : s'.tasks.taskNum = s.tasks.taskNum) (hhandling : s'.handling = s.handling)
    (hanswered : s'.answered = s.answered) (hmutex : s'.mutex = s.mutex) : s'.Inv := by
  have hcollects : s'.tasks.Collects = s.tasks.Collects := by
    funext ty
    rw [TaskReg.Collects, hlist, TaskReg.Collects]
  have hahead : s'.tasks.ahead = s.tasks.ahead := by
    rw [TaskReg.ahead, TaskReg.listed, hlist, hnum, TaskReg.ahead, TaskReg.listed]
  refine ⟨?_, ?_, ?_, ?_, ?_⟩
  · rw [hanswered, hcollects]
    exact h.answered
  · rw [hhandling, hcollects]
    exact h.created
  · rw [hahead, pending, hhandling]
    exact h.ahead
  · rw [hanswered, hnum]
    exact h.counted
  · rw [pending, hhandling, hmutex]
    exact h.held

theorem Inv.withThreads (h : s.Inv) {t : Threads} (htasks : t.srv.tasks = s.tasks) :
    ({ s with threads := t } : Startup).Inv :=
  h.congr (congrArg TaskReg.collTaskList htasks) (congrArg TaskReg.taskNum htasks) rfl rfl rfl

/-- What a disconnect ends is forgotten. -/
theorem Inv.forget (h : s.Inv) {t : Threads} (hahead : t.srv.tasks.ahead = s.tasks.ahead)
    (hsafe : s.mutex = false ∨ t.srv.tasks = s.tasks) :
    ({ s with threads := t }.forget s.tasks).Inv := by
  have hanswered : ∀ ty ∈ s.answered.filter (Stays s.tasks t.srv.tasks), t.srv.tasks.Collects ty := by
    intro ty hty
    obtain ⟨hmem, hstays⟩ := Finset.mem_filter.mp hty
    exact hstays (h.answered ty hmem)
  have hpending : ({ s with threads := t }.forget s.tasks).pending = s.pending := by
    dsimp only [pending, Startup.forget]
    cases s.handling <;> rfl
  refine ⟨hanswered, ?_, ?_, ?_, ?_⟩
  · rintro h' hh' ty hty
    obtain ⟨h₀, hh₀, rfl⟩ := Option.map_eq_some_iff.mp hh'
    obtain ⟨hmem, hstays⟩ := Option.mem_filter_iff.mp hty
    exact (of_decide_eq_true hstays) (h.created h₀ hh₀ ty hmem)
  · rw [hpending, ← h.ahead]
    exact hahead
  · obtain hmutex | htasks := hsafe
    · exact card_le_taskNum hanswered (hahead.trans (h.ahead_of_free hmutex))
    · refine le_trans (Nat.cast_le.mpr (Finset.card_filter_le _ _)) (h.counted.trans_eq ?_)
      exact congrArg TaskReg.taskNum htasks.symm
  · rw [hpending]
    exact h.held

/-- The main thread, where it does no harm. -/
theorem Inv.stepMain (h : s.Inv) {threadOk : Bool} (hs : s.stepMain threadOk = some s')
    (hharmless : s.Harmless (.main threadOk)) : s'.Inv := by
  unfold Startup.stepMain at hs
  unfold Harmless at hharmless
  cases hmain : s.main with
  | createThread | checkInited | setInited =>
    rw [hmain] at hs
    cases hs
    exact h.congr rfl rfl rfl rfl rfl
  | clearList =>
    rw [hmain] at hs hharmless
    cases hs
    exact h.congr (funext fun i => (hharmless i).symm) rfl rfl rfl rfl
  | clearNum =>
    rw [hmain] at hs hharmless
    cases hs
    exact h.congr rfl (Eq.symm hharmless) rfl rfl rfl
  | initMutex =>
    rw [hmain] at hs hharmless
    cases hs
    exact h.congr rfl rfl rfl rfl (Eq.symm hharmless)
  | returned =>
    rw [hmain] at hs
    cases hs

/-- Requests that are served in one step are not about tasks. -/
theorem decided_tasks {srv : Server} {m : Machine} {req : PwrMsg} (h : ¬ Splits req) :
    (srv.decided m req).tasks = srv.tasks := by
  unfold Splits at h
  unfold Server.decided
  cases hop : OperationType.ofCode req.head.optType with
  | none => rfl
  | some op =>
    rw [hop] at h
    cases op with
    | comCreateDcTask => exact congrArg Server.tasks (if_pos h)
    | comDeleteDcTask => exact congrArg Server.tasks (if_pos h)
    | _ => rfl

/-- Nor is a response. -/
theorem tasks_of_responds {srv srv' : Server} {req : PwrMsg} {ok : Int → Prop}
    (h : Server.Responds req ok srv srv') : srv'.tasks = srv.tasks := by
  obtain rfl | ⟨rspCode, data, len, -, rfl⟩ := h
  · rfl
  · rfl

/-- The steps of the threads, other than the clean-up after a client, leave the tasks
alone. -/
theorem tasks_of_move {t t' : Threads} {e : Threads.Event} (h : Threads.Move t e t')
    (hclean : e ≠ .clean) (hserve : ∀ m, e = .serve m → ∀ req ∈ t.cur, ¬ Splits req) :
    t'.srv.tasks = t.srv.tasks := by
  cases h with
  | clean => exact absurd rfl hclean
  | serve m req srv' hcur hserve' =>
    rw [tasks_of_responds (Server.responds_processReqMsg hserve')]
    exact decided_tasks (hserve m rfl req hcur)
  | _ => rfl

/-- Of the calls of the clean-up one is about tasks, under the mutex. -/
theorem tasks_of_cleanCall (t : Threads) (c : Cleaning) :
    (t.cleanCall c).srv.tasks.ahead = t.srv.tasks.ahead ∧
      (c.pc ≠ .tasks → (t.cleanCall c).srv.tasks = t.srv.tasks) := by
  unfold Threads.cleanCall
  cases c.pc with
  | auth => exact ⟨rfl, fun _ => rfl⟩
  | tasks => exact ⟨TaskReg.ahead_deleteAllTaskByClient .., fun hne => absurd rfl hne⟩
  | list => exact ⟨rfl, fun _ => rfl⟩

theorem Inv.thread (h : s.Inv) {e : Threads.Event} (hs : s.step (.thread e) = some s') :
    s'.Inv := by
  obtain ⟨henabled, hs⟩ := Option.ite_none_right_eq_some.mp hs
  obtain ⟨t, ht, rfl⟩ := Option.map_eq_some_iff.mp hs
  have hmove := Threads.move_of_step ht
  cases e with
  | clean =>
    obtain ⟨c, hc⟩ : ∃ c, s.threads.cleaning = some c ∧ t = s.threads.cleanCall c := by
      cases hmove with
      | clean c hc => exact ⟨c, hc, rfl⟩
    obtain ⟨hc, rfl⟩ := hc
    obtain ⟨hahead, hsame⟩ := tasks_of_cleanCall s.threads c
    refine h.forget hahead ?_
    cases hmutex : s.mutex with
    | false => exact .inl rfl
    | true => exact .inr (hsame (henabled.2 hmutex c hc))
  | serve m =>
    rw [Enabled] at henabled
    have htasks := tasks_of_move hmove nofun fun _ _ => henabled
    exact h.withThreads htasks
  | _ => exact h.withThreads (tasks_of_move hmove nofun fun _ he => nomatch he)

/-- A handler that has changed the list under the mutex. -/
theorem Inv.listed (h : s.Inv) {r : TaskReg} {rspCode : RtnCode} {created : Option UInt32}
    {answered : Finset UInt32} (hfree : s.mutex = false) (hahead : r.ahead = s.tasks.ahead)
    (hsub : answered ⊆ s.answered) (hanswered : ∀ ty ∈ answered, r.Collects ty)
    (hcreated : ∀ ty ∈ created, r.Collects ty) :
    ({ s.withTasks { s.tasks with collTaskList := r.collTaskList } with
      mutex := true
      handling := some ⟨rspCode, created, some (r.taskNum - s.tasks.taskNum)⟩
      answered := answered } : Startup).Inv where
  answered := hanswered
  created := by
    rintro h' hh'
    obtain rfl := Option.some.inj hh'
    exact hcreated
  ahead := by
    rw [h.ahead_of_free hfree, TaskReg.ahead] at hahead
    have hgoal : (r.listed : Int) - s.tasks.taskNum = r.taskNum - s.tasks.taskNum := by omega
    exact hgoal
  counted := (Nat.cast_le.mpr (Finset.card_le_card hsub)).trans h.counted
  held _ := rfl

theorem Inv.stepList (h : s.Inv) {m : Machine} (hs : s.stepList m = some s') : s'.Inv := by
  obtain ⟨⟨hfree, hidle⟩, hs⟩ := Option.ite_none_right_eq_some.mp hs
  obtain ⟨req, -, hs⟩ := Option.bind_eq_some_iff.mp hs
  obtain ⟨-, hs⟩ := Option.ite_none_right_eq_some.mp hs
  obtain ⟨data, -, rfl⟩ := Option.map_eq_some_iff.mp hs
  split
  · obtain ⟨hahead, hgrows, hnew⟩ := s.tasks.createTask_grows (Server.basicDcTaskInfoOf data)
      req.head.sysId m.create
    refine h.listed hfree hahead (Finset.Subset.refl _) (fun ty hty => hgrows ty (h.answered ty hty))
      fun ty hty => ?_
    obtain ⟨hret, hty⟩ := Option.ite_none_right_eq_some.mp hty
    rw [← Option.some.inj hty]
    exact hnew hret
  · refine h.listed hfree (TaskReg.ahead_deleteTask ..) (Finset.filter_subset _ _) (fun ty hty => ?_)
      nofun
    obtain ⟨hmem, hstays⟩ := Finset.mem_filter.mp hty
    exact hstays (h.answered ty hmem)

theorem Inv.stepCount (h : s.Inv) (hs : s.stepCount = some s') : s'.Inv := by
  obtain ⟨h₀, hh₀, hs⟩ := Option.bind_eq_some_iff.mp hs
  obtain ⟨n, hn, rfl⟩ := Option.map_eq_some_iff.mp hs
  have hpending : s.pending = some n := by rw [pending, hh₀, Option.bind_some, hn]
  have hahead : TaskReg.ahead { s.tasks with taskNum := s.tasks.taskNum + n } = 0 := by
    have hnow : (s.tasks.listed : Int) - s.tasks.taskNum = n := by
      have := h.ahead
      rwa [hpending] at this
    have hgoal : (s.tasks.listed : Int) - (s.tasks.taskNum + n) = 0 := by omega
    exact hgoal
  refine ⟨h.answered, ?_, hahead, card_le_taskNum h.answered hahead, fun hne => absurd rfl hne⟩
  rintro h' hh'
  obtain rfl := Option.some.inj hh'
  exact h.created h₀ hh₀

theorem tasks_of_answerReq {srv srv' : Server} {m : Machine} {req : PwrMsg} {rspCode : RtnCode}
    (h : answerReq srv m req rspCode = .ok srv') : srv'.tasks = srv.tasks := by
  obtain ⟨srv₁, hsend, h⟩ := bind_eq_ok.mp h
  obtain ⟨u, -, h⟩ := bind_eq_ok.mp h
  obtain rfl := Except.ok.inj h
  exact tasks_of_responds (@Server.responds_sendRsp _ _ _ _ (fun _ => True) _ _ _ hsend trivial)

theorem Inv.stepAnswer (h : s.Inv) {m : Machine} (hs : s.stepAnswer m = some s') : s'.Inv := by
  obtain ⟨h₀, hh₀, hs⟩ := Option.bind_eq_some_iff.mp hs
  obtain ⟨hnone, hs⟩ := Option.ite_none_right_eq_some.mp hs
  obtain ⟨req, -, hs⟩ := Option.bind_eq_some_iff.mp hs
  obtain ⟨srv', hsrv, rfl⟩ := Option.map_eq_some_iff.mp hs
  have htasks := tasks_of_answerReq (toOption_eq_some hsrv)
  have hahead : srv'.tasks.ahead = 0 := by
    rw [htasks]
    refine h.ahead.trans ?_
    rw [pending, hh₀, Option.bind_some, hnone]
    rfl
  -- the answered task has been listed before
  have hanswered : ∀ ty ∈ (if m.rspOk then h₀.created.elim s.answered (insert · s.answered)
      else s.answered), srv'.tasks.Collects ty := by
    rw [htasks]
    intro ty hty
    split at hty
    · cases hcreated : h₀.created with
      | none =>
        rw [hcreated] at hty
        exact h.answered ty hty
      | some ty' =>
        rw [hcreated] at hty
        obtain rfl | hty := Finset.mem_insert.mp hty
        · exact h.created h₀ hh₀ ty hcreated
        · exact h.answered ty hty
    · exact h.answered ty hty
  exact ⟨hanswered, nofun, hahead, card_le_taskNum hanswered hahead, fun hne => absurd rfl hne⟩

/-- Every harmless step keeps the invariant. -/
theorem Inv.step (h : s.Inv) {e : Event} (hs : s.step e = some s') (hharmless : s.Harmless e) :
    s'.Inv := by
  cases e with
  | main threadOk => exact h.stepMain hs hharmless
  | thread e => exact h.thread hs
  | list m => exact h.stepList hs
  | count => exact h.stepCount hs
  | answer m => exact h.stepAnswer hs

end Inv

/-! ## The steps and the functions that they cut up -/

/-- Without anything in between, the last steps of the main thread are `InitTaskService`. -/
theorem run_main {s : Startup} (hmain : s.main = .checkInited) :
    ∃ events s', Transition.run step s events = some s' ∧ s'.main = .returned ∧
      s'.tasks = s.tasks.initTaskService := by
  unfold TaskReg.initTaskService
  have hfirst : s.step (.main true) =
      some { s with main := if s.tasks.hasInited then .returned else .clearList } := by
    rw [step, stepMain, hmain]
  cases hinited : s.tasks.hasInited with
  | true =>
    refine ⟨[.main true], { s with main := .returned }, ?_, rfl, rfl⟩
    rw [Transition.run_cons, hfirst, hinited]
    rfl
  | false =>
    refine ⟨.main true :: List.replicate 4 (.main true),
      { s.withTasks ⟨fun _ => none, 0, true⟩ with mutex := false, main := .returned }, ?_, rfl, rfl⟩
    rw [Transition.run_cons, hfirst, hinited]
    rfl

theorem deleteTask_hasInited (r : TaskReg) (ty s : UInt32) :
    (r.deleteTask ty s).2.hasInited = r.hasInited := by
  unfold TaskReg.deleteTask TaskReg.deleteSubscriber
  split
  · split
    · rfl
    · dsimp only
      split <;> rfl
  · rfl

theorem createTask_hasInited (r : TaskReg) (info : BasicDcTaskInfo) (s : UInt32) (env : CreateEnv) :
    (r.createTask info s env).2.hasInited = r.hasInited := by
  obtain ⟨-, hr⟩ | ⟨-, i, -, hr⟩ | ⟨i, t, -, -, -, hr⟩ := r.createTask_cases info s env
  · rw [hr]
  · rw [hr]
  · rw [hr]
    rfl

/-- The list of one registry and the count that it comes to. -/
theorem counted_eq {r r' : TaskReg} (h : r'.hasInited = r.hasInited) :
    ({ r with
      collTaskList := r'.collTaskList
      taskNum := r.taskNum + (r'.taskNum - r.taskNum) } : TaskReg) = r' := by
  obtain ⟨list, num, inited⟩ := r'
  obtain rfl : inited = r.hasInited := h
  congr 1
  exact add_sub_cancel r.taskNum num

/-- What `ProcessReqMsg` does with a request that is served in three steps. -/
theorem processReqMsg_splits {srv : Server} {m : Machine} {req : PwrMsg} (hsplits : Splits req)
    {data : Bytes} (hdata : req.data.deref = .ok data) :
    srv.processReqMsg m req =
      if OperationType.ofCode req.head.optType = some .comCreateDcTask then
        answerReq { srv with
          tasks := (srv.tasks.createTask (Server.basicDcTaskInfoOf data) req.head.sysId m.create).2 }
          m req (srv.tasks.createTask (Server.basicDcTaskInfoOf data) req.head.sysId m.create).1
      else
        answerReq { srv with
          tasks := (srv.tasks.deleteTask (UInt32.ofNat (Bytes.fieldAt data 0 4)) req.head.sysId).2 }
          m req (srv.tasks.deleteTask (UInt32.ofNat (Bytes.fieldAt data 0 4)) req.head.sysId).1 := by
  unfold Splits at hsplits
  unfold Server.processReqMsg Server.dispatch
  cases hop : OperationType.ofCode req.head.optType with
  | none =>
    rw [hop] at hsplits
    exact hsplits.elim
  | some op =>
    rw [hop] at hsplits
    cases op with
    | comCreateDcTask =>
      dsimp only [Server.createDataCollTask]
      rw [if_neg (not_not.mpr hsplits), hdata, if_pos rfl]
      rfl
    | comDeleteDcTask =>
      dsimp only [Server.deleteDataCollTask]
      rw [if_neg (not_not.mpr hsplits), hdata, if_neg nofun]
      rfl
    | _ => exact hsplits.elim

/-- The second and third step of a request. -/
theorem run_counted {s : Startup} {m : Machine} {req : PwrMsg} {h : Handling} {n : Int}
    (hreq : s.threads.cur = some req) (hh : s.handling = some h) (hn : h.pending = some n) :
    (Transition.run step s [.count, .answer m]).map Startup.threads =
      (answerReq { s.threads.srv with tasks := { s.tasks with taskNum := s.tasks.taskNum + n } }
        m req h.rspCode).toOption.map fun srv => { s.threads with srv := srv, cur := none } := by
  have hcount : s.step .count = some { s.withTasks { s.tasks with taskNum := s.tasks.taskNum + n } with
      mutex := false
      handling := some { h with pending := none } } := by
    rw [step, stepCount, hh, Option.bind_some, hn]
    rfl
  rw [Transition.run_cons, hcount, Option.bind_some, Transition.run_cons, step, stepAnswer]
  dsimp only [withTasks]
  rw [Option.bind_some, if_pos rfl, hreq, Option.bind_some]
  cases (answerReq _ m req h.rspCode).toOption <;> rfl

/-- The three steps of a request in a row are `ProcessReqMsg`. -/
theorem run_request {s : Startup} {m : Machine} {req : PwrMsg} {data : Bytes}
    (hreq : s.threads.cur = some req) (hsplits : Splits req) (hdata : req.data.deref = .ok data)
    (hfree : s.mutex = false) (hidle : s.handling = none) :
    (Transition.run step s [.list m, .count, .answer m]).map Startup.threads =
      s.threads.step (.serve m) := by
  have hlist : s.step (.list m) = some
      (if OperationType.ofCode req.head.optType = some .comCreateDcTask then s.listCreate m req data
      else s.listDelete req data) := by
    rw [step, stepList, if_pos ⟨hfree, hidle⟩, hreq, Option.bind_some, if_pos hsplits, hdata]
    rfl
  rw [Transition.run_cons, hlist, Threads.step, hreq, Option.bind_some, Option.bind_some,
    processReqMsg_splits hsplits hdata]
  split
  · have hcount := counted_eq (createTask_hasInited s.tasks (Server.basicDcTaskInfoOf data)
      req.head.sysId m.create)
    have hhandling : (s.listCreate m req data).handling = some
        ⟨(s.tasks.createTask (Server.basicDcTaskInfoOf data) req.head.sysId m.create).1, _,
          some ((s.tasks.createTask (Server.basicDcTaskInfoOf data) req.head.sysId m.create).2.taskNum -
            s.tasks.taskNum)⟩ := rfl
    have hcur : (s.listCreate m req data).threads.cur = some req := hreq
    rw [run_counted hcur hhandling rfl]
    dsimp only [listCreate, withTasks, tasks] at hcount ⊢
    rw [hcount]
  · have hcount := counted_eq (deleteTask_hasInited s.tasks (UInt32.ofNat (Bytes.fieldAt data 0 4))
      req.head.sysId)
    have hhandling : (s.listDelete req data).handling = some
        ⟨(s.tasks.deleteTask (UInt32.ofNat (Bytes.fieldAt data 0 4)) req.head.sysId).1, none,
          some ((s.tasks.deleteTask (UInt32.ofNat (Bytes.fieldAt data 0 4))
            req.head.sysId).2.taskNum - s.tasks.taskNum)⟩ := rfl
    have hcur : (s.listDelete req data).threads.cur = some req := hreq
    rw [run_counted hcur hhandling rfl]
    dsimp only [listDelete, forget, withTasks, tasks] at hcount ⊢
    rw [hcount]

/-- **The start loses no task** in any order of steps in which `InitTaskService` finds
nothing to clear. -/
theorem startup_keeps_tasks {events : List Event}
    (h : Transition.Along step (fun s e _ => s.Harmless e) init events) :
    Transition.Along step (fun _ _ s' => s'.Kept) init events :=
  h.of_invariant (I := Inv) (fun hinv hs hharmless =>
    ⟨hinv.step hs hharmless, (hinv.step hs hharmless).kept⟩) inv_init

/-- A client. -/
def early : PwrClient := ⟨5, 7⟩

/-- Its request for a task for performance data, every second. -/
def earlyRequest : PwrMsg :=
  (createReqMsg ⟨7, 0⟩ .comCreateDcTask 0 8 (.heap 1 (Bytes.leBytes 4 1 ++ Bytes.leBytes 4 1000))).1

/-- The same when `StartServer` has returned before the client comes. -/
def earlyInit : List Event :=
  List.replicate 6 (.main true) ++ [.thread (.accept early), .thread (.receive 0 earlyRequest),
    .thread .pop, .list Server.bareMachine, .count, .answer Server.bareMachine]

theorem startup_keeps_early : Transition.Along step (fun _ _ s' => s'.Kept) init earlyInit :=
  startup_keeps_tasks (by decide)

/-- The request is answered, and then `InitTaskService` clears the list. -/
def lateInit : List Event :=
  [.main true, .main true, .thread (.accept early), .thread (.receive 0 earlyRequest), .thread .pop,
    .list Server.bareMachine, .count, .answer Server.bareMachine, .main true]

theorem early_task_lost : ∃ s, Transition.run step init lateInit = some s ∧ ¬ s.Kept := by
  refine ⟨_, rfl, fun h => ?_⟩
  exact absurd (h.listed 1 (by decide)) (by decide)

end Startup

end PowerApi
