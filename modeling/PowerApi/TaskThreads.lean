import PowerApi.Workers
import PowerApi.Answers
import PowerApi.Samples
import PowerApi.Sampling

/-!
# The threads of the collection tasks (`taskservice.c`)

A task is a block from `malloc`, and its thread reads and writes it without `g_taskListMutex`. Here
`taskservice.c` is taken apart into single accesses to the task list and to the tasks, and all
threads take turns at that: what the other modules say about a task operation as one step of a
registry holds for it only if the threads cannot tell.

`tasks_atomic` says so. Whatever the order of the accesses, no task is used that is freed or was
never there, the operations do what those of `TaskReg` do, one after the other, and in between
there is a block and a thread for each task of the registry, and no other.
-/

namespace PowerApi

open Workers Transition

/-- `ThreadInfo`. -/
structure ThreadInfo where
  keepRunning : Bool
  created : Bool
  tid : ℕ
  deriving DecidableEq, Repr

/-- `CollTask`, with its `collThread`. -/
structure TaskBlock where
  task : CollTask
  collThread : ThreadInfo

namespace TaskThreads

/-- `g_collTaskList`, as addresses, and `g_taskNum`. -/
structure Globals where
  collTaskList : Fin maxTaskNum → Option ℕ
  taskNum : Int

/-- What the environment answers: the clock, `malloc`, and what is measured. -/
structure Env where
  now : TimeVal
  mallocOk : Bool
  strTime : Bytes
  perfDataRead : Reading 16
  coreNum : ℕ
  cpuUsageRead : Reading (16 + 16 * coreNum)

instance : Inhabited Env := ⟨⟨0, 0⟩, false, [], Server.zeroReading _, 0, Server.zeroReading _⟩

/-- A task without the times that its thread writes. -/
def unsent (task : CollTask) : CollTask :=
  { task with
    subscriberList := fun i => { task.subscriberList i with lastSent := ⟨0, 0⟩ } }

/-- What of a task only the operations write. -/
def view (b : TaskBlock) : TaskBlock := { b with task := unsent b.task }

/-! ## The operations -/

abbrev TaskProg := Prog TaskBlock TaskBlock Globals Env

section Access

variable {α : Type}

/-- `g_collTaskList[index]`. -/
def collTaskList (index : Fin maxTaskNum) : TaskProg (Option ℕ) :=
  .get fun g => pure (g.collTaskList index)

def setCollTaskList (index : Fin maxTaskNum) (task : Option ℕ) : TaskProg Unit :=
  .modify (fun g => { g with collTaskList := Function.update g.collTaskList index task }) (pure ())

def getTaskNum : TaskProg Int := .get fun g => pure g.taskNum

def addTaskNum (n : Int) : TaskProg Unit :=
  .modify (fun g => { g with taskNum := g.taskNum + n }) (pure ())

/-- The task that a pointer points to. -/
def pointee (index : Fin maxTaskNum) : TaskProg ℕ := do
  match ← collTaskList index with
  | none => .fault
  | some task => pure task

def load (task : ℕ) (field : TaskBlock → α) : TaskProg α := .read task fun b => pure (field b)

def store (task : ℕ) (assign : TaskBlock → TaskBlock) : TaskProg Unit :=
  .write task assign (pure ())

/-- `g_collTaskList[index]->field`. -/
def loadAt (index : Fin maxTaskNum) (field : TaskBlock → α) : TaskProg α := do
  load (← pointee index) field

def storeAt (index : Fin maxTaskNum) (assign : TaskBlock → TaskBlock) : TaskProg Unit := do
  store (← pointee index) assign

/-- A loop that stops at the first index with a property. -/
def search {n : ℕ} (test : Fin n → TaskProg Bool) : List (Fin n) → TaskProg (Option (Fin n))
  | [] => pure none
  | i :: is => do
    if ← test i then pure (some i)
    else search test is

/-- `gettimeofday`. -/
def gettimeofday : TaskProg TimeVal := .ask fun env => pure env.now

end Access

/-- An assignment to one slot of `subscriberList`. -/
def setSub (i : Fin maxClientNum) (assign : CollDataSubscriber → CollDataSubscriber)
    (b : TaskBlock) : TaskBlock :=
  { b with
    task := { b.task with
      subscriberList := Function.update b.task.subscriberList i
        (assign (b.task.subscriberList i)) } }

/-- An assignment to a field of `collThread`. -/
def setThread (assign : ThreadInfo → ThreadInfo) (b : TaskBlock) : TaskBlock :=
  { b with collThread := assign b.collThread }

/-- An assignment to another field. -/
def setField (assign : CollTask → CollTask) (b : TaskBlock) : TaskBlock :=
  { b with task := assign b.task }

/-- `FindCollTaskByType`. -/
def findCollTaskByType (dataType : UInt32) : TaskProg (Option (Fin maxTaskNum)) := do
  if (← getTaskNum) = 0 then pure none
  else
    search (fun i => do
      match ← collTaskList i with
      | none => pure false
      | some _ => loadAt i fun b => decide (b.task.dataType = dataType))
      (List.finRange maxTaskNum)

/-- `FindAvailebleTaskSlot`. -/
def findAvailebleTaskSlot : TaskProg (Option (Fin maxTaskNum)) :=
  search (fun i => do return (← collTaskList i).isNone) (List.finRange maxTaskNum)

/-- `InitThreadInfo`. -/
def initThreadInfo (task : ℕ) : TaskProg Unit := do
  store task (setThread fun th => { th with keepRunning := true })
  store task (setThread fun th => { th with created := false })
  store task (setThread fun th => { th with tid := 0 })

/-- `CreateThread`. -/
def createThread (task : ℕ) : TaskProg RtnCode := do
  store task (setThread fun th => { th with keepRunning := true })
  match ← (.create task pure : TaskProg (Option ℕ)) with
  | none => pure .errSysException
  | some tid =>
    store task (setThread fun th => { th with tid := tid })
    store task (setThread fun th => { th with created := true })
    pure .success

/-- `FiniThreadInfo`. -/
def finiThreadInfo (task : ℕ) : TaskProg Unit := do
  store task (setThread fun th => { th with keepRunning := false })
  if ← load task (·.collThread.created) then
    .join (← load task (·.collThread.tid)) (pure ())
  store task (setThread fun th => { th with created := false })

/-- `FiniTask`. -/
def finiTask (index : Fin maxTaskNum) : TaskProg Unit := do
  finiThreadInfo (← pointee index) -- must stop thread first
  .free (← pointee index) (pure ())
  setCollTaskList index none
  addTaskNum (-1)

/-- The loop of `UpdataTaskInterval`. -/
def leastInterval (index : Fin maxTaskNum) : List (Fin maxClientNum) → Int → TaskProg Int
  | [], interval => pure interval
  | i :: is, interval => do
    if interval > (← loadAt index fun b => (b.task.subscriberList i).interval) then
      leastInterval index is (← loadAt index fun b => (b.task.subscriberList i).interval)
    else leastInterval index is interval

/-- `UpdataTaskInterval`. -/
def updataTaskInterval (index : Fin maxTaskNum) : Option (Fin maxClientNum) → TaskProg Unit
  | some subIdx => do
    if (← loadAt index (·.task.interval)) >
        (← loadAt index fun b => (b.task.subscriberList subIdx).interval) then
      let interval ← loadAt index fun b => (b.task.subscriberList subIdx).interval
      storeAt index (setField fun t => { t with interval := interval })
  | none => do
    let interval ← leastInterval index (List.finRange maxClientNum) maxDcInterval
    storeAt index (setField fun t => { t with interval := interval })

/-- `FindSubscriberById`. -/
def findSubscriberById (index : Fin maxTaskNum) (subscriber : UInt32) :
    TaskProg (Option (Fin maxClientNum)) :=
  search (fun i => loadAt index fun b => decide ((b.task.subscriberList i).sysId = subscriber))
    (List.finRange maxClientNum)

/-- `AddSubscriber`. -/
def addSubscriber (index : Fin maxTaskNum) (taskInfo : BasicDcTaskInfo) (subscriber : UInt32) :
    TaskProg RtnCode := do
  if (← collTaskList index).isNone then pure .errTaskNotExists
  else
    match ← findSubscriberById index subscriber with
    | some subIdx =>
      storeAt index (setSub subIdx fun s => { s with interval := taskInfo.interval })
      updataTaskInterval index (some subIdx)
      pure .success
    | none => -- find available subscriber slot
      match ← findSubscriberById index 0 with
      | some i =>
        storeAt index (setSub i fun s => { s with sysId := subscriber })
        storeAt index (setSub i fun s => { s with interval := taskInfo.interval })
        let now ← gettimeofday
        storeAt index (setSub i fun s => { s with lastSent := now })
        storeAt index (setField fun t => { t with subNum := t.subNum + 1 })
        updataTaskInterval index (some i)
        pure .success
      | none => pure .errSysException -- subscriber overflow

/-- The loop of `DeleteSubscriber`. -/
def clearSubscriber (index : Fin maxTaskNum) (subscriber : UInt32) : TaskProg Unit := do
  match ← findSubscriberById index subscriber with
  | some i =>
    storeAt index (setSub i fun _ => .zero)
    storeAt index (setField fun t => { t with subNum := t.subNum - 1 })
  | none => pure ()

/-- `DeleteSubscriber`. -/
def deleteSubscriber (index : Fin maxTaskNum) (subscriber : UInt32) : TaskProg RtnCode := do
  if (← collTaskList index).isNone then pure .errTaskNotExists
  else
    clearSubscriber index subscriber
    if (← loadAt index (·.task.subNum)) ≤ 0 then finiTask index
    else updataTaskInterval index none
    pure .success

/-- A block after `bzero`. -/
def zeroBlock : TaskBlock := ⟨⟨0, 0, 0, fun _ => .zero⟩, ⟨false, false, 0⟩⟩

/-- `CreateNewTask`. -/
def createNewTask (taskInfo : BasicDcTaskInfo) (subscriber : UInt32) : TaskProg RtnCode := do
  match ← findAvailebleTaskSlot with
  | none => pure .errOverMaxTaskNum
  | some slot =>
    match ← (.malloc pure : TaskProg (Option ℕ)) with
    | none => pure .errSysException
    | some task =>
      store task fun _ => zeroBlock
      store task (setField fun t => { t with dataType := taskInfo.dataType })
      store task (setField fun t => { t with interval := taskInfo.interval })
      store task (setField fun t => { t with subNum := 1 })
      store task (setSub 0 fun s => { s with sysId := subscriber })
      store task (setSub 0 fun s => { s with interval := taskInfo.interval })
      let now ← gettimeofday
      store task (setSub 0 fun s => { s with lastSent := now })
      initThreadInfo task
      let rspCode ← createThread task
      if rspCode ≠ .success then .free task (pure ())
      else
        setCollTaskList slot (some task)
        addTaskNum 1
      pure rspCode

/-- `CreateTask`, with the lock. -/
def createTask (taskInfo : BasicDcTaskInfo) (subscriber : UInt32) : TaskProg RtnCode := do
  match ← findCollTaskByType taskInfo.dataType with
  | some index => addSubscriber index taskInfo subscriber
  | none => createNewTask taskInfo subscriber

/-- `DeleteTask`, with the lock. -/
def deleteTask (dataType subscriber : UInt32) : TaskProg RtnCode := do
  match ← findCollTaskByType dataType with
  | some index => let _ ← deleteSubscriber index subscriber
  | none => pure ()
  pure .success

/-- A loop over the tasks that are there. -/
def forTasks (body : Fin maxTaskNum → TaskProg Unit) : List (Fin maxTaskNum) → TaskProg Unit
  | [] => pure ()
  | i :: is => do
    if (← collTaskList i).isSome then body i
    forTasks body is

/-- `FiniAllTask`, with the lock. -/
def finiAllTask : TaskProg Unit := forTasks finiTask (List.finRange maxTaskNum)

/-- `DeleteAllTaskByClient`, with the lock. -/
def deleteAllTaskByClient (subscriber : UInt32) : TaskProg Unit := do
  if (← getTaskNum) ≠ 0 then
    forTasks (fun i => do let _ ← deleteSubscriber i subscriber) (List.finRange maxTaskNum)

/-! ## The threads -/

/-- What a thread does that others can see. -/
inductive Effect where
  | usleep (us : Int)
  | sendMetadataToClient (sysId : UInt32) (data : Bytes)
  deriving DecidableEq, Repr

/-- `ActionFunc`. -/
inductive Action where
  | taskProcessCpuPerf
  | taskProcessCpuUsage
  deriving DecidableEq, Repr

/-- What a thread takes along from round to round: `actionFunc` and `before`. -/
structure Locals where
  actionFunc : Action
  before : TimeVal

abbrev TaskThread := Worker TaskBlock Env Effect Locals

/-- `SendMetadataToSubscribers` from some slot on, and what comes after it. -/
def sendMetadataToSubscribers (data : Bytes) (startTime : TimeVal) (next : TaskThread) :
    List (Fin maxClientNum) → TaskThread
  | [] => next
  | i :: is =>
    .read fun b =>
      if (b.task.subscriberList i).sysId = 0 then
        sendMetadataToSubscribers data startTime next is
      else
        .read fun b => .read fun b' =>
          if getTimeDistance startTime (b.task.subscriberList i).lastSent <
              (b'.task.subscriberList i).interval then
            sendMetadataToSubscribers data startTime next is
          else
            .ask fun env =>
              if env.mallocOk = false then sendMetadataToSubscribers data startTime next is
              else
                .read fun b => .emit (.sendMetadataToClient (b.task.subscriberList i).sysId data)
                  (.write (setSub i fun s => { s with lastSent := startTime })
                    (sendMetadataToSubscribers data startTime next is))

/-- What an action makes for the subscribers of a task of this type. -/
def Action.callbackData (env : Env) (dataType : UInt32) : Action → Option Bytes
  | taskProcessCpuPerf => taskProcess env.mallocOk dataType env.strTime env.perfDataRead
  | taskProcessCpuUsage => taskProcess env.mallocOk dataType env.strTime env.cpuUsageRead

/-- `TaskProcessCpuPerf` and `TaskProcessCpuUsage`, and what comes after them. -/
def Action.process (action : Action) (startTime : TimeVal) (next : TaskThread) : TaskThread :=
  .read fun b => .ask fun env =>
    match action.callbackData env b.task.dataType with
    | none => next
    | some data =>
      sendMetadataToSubscribers data startTime next (List.finRange maxClientNum)

/-- `GetActionByDataType`. -/
def getActionByDataType (dataType : UInt32) : Option Action :=
  if dataType = datatypeCpuPerf then some .taskProcessCpuPerf
  else if dataType = datatypeCpuUsage then some .taskProcessCpuUsage
  else none

/-- `RunDcTaskProcess` up to its loop. -/
def runDcTaskProcess : TaskThread :=
  .read fun b =>
    match getActionByDataType b.task.dataType with
    | none => .done none
    | some actionFunc => .ask fun env => .done (some ⟨actionFunc, env.now⟩)

/-- A turn of its loop. -/
def runLoop (l : Locals) : TaskThread :=
  .read fun b =>
    if b.collThread.keepRunning = false then .done none
    else
      .ask fun after => .read fun b =>
        .emit (.usleep (roundSleep b.task.interval after.now l.before)) <| .ask fun before =>
          l.actionFunc.process before.now (.done (some ⟨l.actionFunc, before.now⟩))

/-! ## All of them together -/

/-- What the other threads ask for. -/
inductive Request where
  | createTask (taskInfo : BasicDcTaskInfo) (subscriber : UInt32)
  | deleteTask (dataType subscriber : UInt32)
  | deleteAllTaskByClient (subscriber : UInt32)
  | finiAllTask
  deriving DecidableEq, Repr

/-- The operation; the two that return `void` count as successful. -/
def Request.prog : Request → TaskProg RtnCode
  | createTask taskInfo subscriber => TaskThreads.createTask taskInfo subscriber
  | deleteTask dataType subscriber => TaskThreads.deleteTask dataType subscriber
  | deleteAllTaskByClient subscriber => do
    TaskThreads.deleteAllTaskByClient subscriber
    pure .success
  | finiAllTask => do
    TaskThreads.finiAllTask
    pure .success

/-- `taskservice.c`. -/
def taskService : Code TaskBlock TaskBlock Globals Env Effect Locals Request RtnCode where
  view := view
  prog := Request.prog
  start := runDcTaskProcess
  loop := runLoop

/-- After `InitTaskService`. -/
def start : State TaskBlock TaskBlock Globals Env Effect Locals Request RtnCode :=
  State.init ⟨fun _ => none, 0⟩

/-! ## Assignments and views -/

/-- What an assignment makes of the view does not depend on what is not in the view. -/
def Respects (assign : TaskBlock → TaskBlock) : Prop :=
  ∀ x y, view x = view y → view (assign x) = view (assign y)

theorem respects_setThread (assign : ThreadInfo → ThreadInfo) : Respects (setThread assign) := by
  intro x y h
  exact congrArg (setThread assign) h

theorem respects_setField {assign : CollTask → CollTask}
    (h : ∀ t, unsent (assign t) = assign (unsent t)) : Respects (setField assign) := by
  intro x y hxy
  have hx : ∀ z, view (setField assign z) = setField assign (view z) := fun z =>
    congrArg (fun t => TaskBlock.mk t z.collThread) (h z.task)
  rw [hx, hx, hxy]

theorem respects_setSub (i : Fin maxClientNum)
    {assign : CollDataSubscriber → CollDataSubscriber}
    (h : ∀ s, { assign s with lastSent := (⟨0, 0⟩ : TimeVal) } =
      { assign { s with lastSent := ⟨0, 0⟩ } with lastSent := ⟨0, 0⟩ }) :
    Respects (setSub i assign) := by
  intro x y hxy
  have hx : ∀ z, view (setSub i assign z) = view (setSub i assign (view z)) := by
    intro z
    refine congrArg (fun l => TaskBlock.mk ⟨z.task.dataType, z.task.interval, z.task.subNum, l⟩
      z.collThread) (funext fun j => ?_)
    by_cases hj : j = i
    · subst hj
      simp only [setSub, view, unsent, Function.update_self]
      exact h _
    · simp only [setSub, view, unsent, Function.update_of_ne hj]
  rw [hx, hx y, hxy]

/-! ## The accesses, as if an operation ran alone -/

/-- The task tells its thread to stop. -/
def Stops (b : TaskBlock) : Prop := b.collThread.keepRunning = false

/-- The memory as the operations see it. -/
abbrev TaskMemory := Memory TaskBlock Globals

/-- The weakest precondition of a part of an operation. -/
abbrev wp {α : Type} (p : TaskProg α) (post : α → TaskMemory → Prop) (m : TaskMemory) : Prop :=
  p.wp view Stops post m

/-- The memory after an assignment to a task. -/
def put (m : TaskMemory) (a : ℕ) (b : TaskBlock) : TaskMemory :=
  { m with heap := Function.update m.heap a (some b) }

section Accesses

variable {m : TaskMemory} {i : Fin maxTaskNum} {a : ℕ} {b b' : TaskBlock} {α : Type}

@[simp] theorem put_heap_self : (put m a b).heap a = some b := Function.update_self ..

theorem put_heap_of_ne {x : ℕ} (h : x ≠ a) : (put m a b).heap x = m.heap x :=
  Function.update_of_ne h ..

@[simp] theorem put_put : put (put m a b) a b' = put m a b' := by
  rw [put, put, Function.update_idem]
  rfl

theorem put_self (h : m.heap a = some b) : put m a b = m := by
  rw [put, ← h, Function.update_eq_self]

theorem wp_load {field : TaskBlock → α} {post : α → TaskMemory → Prop} (hb : m.heap a = some b)
    (h : post (field b) m) : wp (load a field) post m := ⟨b, hb, h⟩

theorem wp_store {assign : TaskBlock → TaskBlock} {post : Unit → TaskMemory → Prop}
    (hb : m.heap a = some (view b)) (hassign : Respects assign)
    (h : post () (put m a (view (assign b)))) : wp (store a assign) post m :=
  ⟨view b, view (assign b), hb, fun x hx => hassign x b hx, h⟩

/-- What is at `g_collTaskList[index]`. -/
structure At (m : TaskMemory) (i : Fin maxTaskNum) (a : ℕ) (b : TaskBlock) : Prop where
  ptr : m.globals.collTaskList i = some a
  heap : m.heap a = some b

theorem At.put (h : At m i a b) (b' : TaskBlock) : At (put m a b') i a b' :=
  ⟨h.ptr, put_heap_self⟩

theorem At.threads (h : At m i a b) (threads : ℕ → Option ℕ) :
    At { m with threads := threads } i a b := ⟨h.ptr, h.heap⟩

theorem wp_pointee (h : At m i a b) {post : ℕ → TaskMemory → Prop} (hpost : post a m) :
    wp (pointee i) post m := by
  change wp (match m.globals.collTaskList i with
    | none => .fault
    | some task => pure task) post m
  rw [h.ptr]
  exact hpost

theorem wp_loadAt (h : At m i a b) {field : TaskBlock → α} {post : α → TaskMemory → Prop}
    (hpost : post (field b) m) : wp (loadAt i field) post m :=
  Prog.wp_bind.mpr (wp_pointee h (wp_load h.heap hpost))

theorem wp_storeAt (h : At m i a (view b)) {assign : TaskBlock → TaskBlock}
    {post : Unit → TaskMemory → Prop} (hassign : Respects assign)
    (hpost : post () (put m a (view (assign b)))) : wp (storeAt i assign) post m :=
  Prog.wp_bind.mpr (wp_pointee h (wp_store h.heap hassign hpost))

/-- A search finds the first index with a property if its test finds out about the property. -/
theorem wp_search {n : ℕ} {test : Fin n → TaskProg Bool} {p : Fin n → Bool}
    (htest : ∀ i (post : Bool → TaskMemory → Prop), post (p i) m → wp (test i) post m)
    {post : Option (Fin n) → TaskMemory → Prop} (is : List (Fin n)) (h : post (is.find? p) m) :
    wp (search test is) post m := by
  induction is with
  | nil => exact h
  | cons i is ih =>
    refine Prog.wp_bind.mpr (htest i _ ?_)
    rw [List.find?_cons] at h
    cases hp : p i with
    | true =>
      rw [hp] at h
      exact h
    | false =>
      rw [hp] at h
      exact ih h

end Accesses

/-! ## The operations on one task -/

section Task

variable {m : TaskMemory} {i : Fin maxTaskNum} {a : ℕ} {b : TaskBlock}

theorem wp_leastInterval (h : At m i a (view b)) {post : Int → TaskMemory → Prop}
    (is : List (Fin maxClientNum)) (v : Int)
    (hpost : post (is.foldl (fun interval j =>
      if interval > (b.task.subscriberList j).interval then (b.task.subscriberList j).interval
      else interval) v) m) : wp (leastInterval i is v) post m := by
  induction is generalizing v with
  | nil => exact hpost
  | cons j is ih =>
    refine Prog.wp_bind.mpr (wp_loadAt h ?_)
    rw [List.foldl_cons] at hpost
    by_cases hv : v > (b.task.subscriberList j).interval
    · rw [if_pos hv] at hpost
      rw [if_pos (show v > ((view b).task.subscriberList j).interval from hv)]
      exact Prog.wp_bind.mpr (wp_loadAt h (ih _ hpost))
    · rw [if_neg hv] at hpost
      rw [if_neg (show ¬ v > ((view b).task.subscriberList j).interval from hv)]
      exact ih _ hpost

theorem wp_updataTaskInterval (h : At m i a (view b)) {post : Unit → TaskMemory → Prop}
    (o : Option (Fin maxClientNum))
    (hpost : post () (put m a (view ⟨b.task.updataTaskInterval o, b.collThread⟩))) :
    wp (updataTaskInterval i o) post m := by
  cases o with
  | none =>
    refine Prog.wp_bind.mpr (wp_leastInterval h _ _ ?_)
    exact wp_storeAt h (respects_setField fun _ => rfl) hpost
  | some j =>
    refine Prog.wp_bind.mpr (wp_loadAt h ?_)
    refine Prog.wp_bind.mpr (wp_loadAt h ?_)
    rw [CollTask.updataTaskInterval] at hpost
    by_cases hj : b.task.interval > (b.task.subscriberList j).interval
    · rw [if_pos hj] at hpost
      rw [if_pos (show (view b).task.interval > ((view b).task.subscriberList j).interval from hj)]
      refine Prog.wp_bind.mpr (wp_loadAt h ?_)
      exact wp_storeAt h (respects_setField fun _ => rfl) hpost
    · rw [if_neg hj] at hpost
      rw [if_neg (show ¬ (view b).task.interval > ((view b).task.subscriberList j).interval
        from hj)]
      rw [put_self h.heap] at hpost
      exact hpost

theorem wp_findSubscriberById (h : At m i a (view b)) (s : UInt32)
    {post : Option (Fin maxClientNum) → TaskMemory → Prop}
    (hpost : post (b.task.findSubscriberById s) m) : wp (findSubscriberById i s) post m :=
  wp_search (fun _ _ htest => wp_loadAt h htest) _ hpost

theorem wp_addSubscriber (h : At m i a (view b)) (info : BasicDcTaskInfo) (s : UInt32)
    {post : RtnCode → TaskMemory → Prop}
    (hpost : ∀ now, post (b.task.addSubscriber info s now).1
      (put m a (view ⟨(b.task.addSubscriber info s now).2, b.collThread⟩))) :
    wp (addSubscriber i info s) post m := by
  refine Prog.wp_bind.mpr ?_
  change wp (if (m.globals.collTaskList i).isNone then pure .errTaskNotExists else _) post m
  rw [h.ptr, if_neg (by simp)]
  refine Prog.wp_bind.mpr (wp_findSubscriberById h s ?_)
  simp only [CollTask.addSubscriber] at hpost
  cases hs : b.task.findSubscriberById s with
  | some j =>
    simp only [hs] at hpost
    dsimp only
    refine Prog.wp_bind.mpr (wp_storeAt h (respects_setSub j fun _ => rfl) ?_)
    refine Prog.wp_bind.mpr (wp_updataTaskInterval (h.put _) _ ?_)
    rw [put_put]
    exact hpost ⟨0, 0⟩
  | none =>
    simp only [hs] at hpost
    dsimp only
    refine Prog.wp_bind.mpr (wp_findSubscriberById h 0 ?_)
    cases h0 : b.task.findSubscriberById 0 with
    | none =>
      simp only [h0] at hpost
      rw [put_self h.heap] at hpost
      exact hpost ⟨0, 0⟩
    | some j =>
      simp only [h0] at hpost
      dsimp only
      refine Prog.wp_bind.mpr (wp_storeAt h (respects_setSub j fun _ => rfl) ?_)
      have h₁ := h.put (view (setSub j (fun x => { x with sysId := s }) b))
      refine Prog.wp_bind.mpr (wp_storeAt h₁ (respects_setSub j fun _ => rfl) ?_)
      rw [put_put]
      refine Prog.wp_bind.mpr fun env => ?_
      refine Prog.wp_bind.mpr (wp_storeAt (h.put _) (respects_setSub j fun _ => rfl) ?_)
      rw [put_put]
      refine Prog.wp_bind.mpr (wp_storeAt (h.put _) (respects_setField fun _ => rfl) ?_)
      rw [put_put]
      refine Prog.wp_bind.mpr (wp_updataTaskInterval (h.put _) _ ?_)
      rw [put_put]
      have hsub := hpost env.now
      simpa [setSub, setField] using hsub

end Task

/-! ## The registry in memory -/

/-- A task of the registry in memory: there is a thread for it. -/
structure Holds (m : TaskMemory) (i : Fin maxTaskNum) (a : ℕ) (t : CollTask) (th : ThreadInfo) :
    Prop where
  block : At m i a (view ⟨t, th⟩)
  created : th.created = true
  thread : m.threads th.tid = some a

/-- The memory holds this registry, and no block and no thread besides. -/
structure Rep (r : TaskReg) (m : TaskMemory) : Prop where
  taskNum : m.globals.taskNum = r.taskNum
  null : ∀ i, r.collTaskList i = none → m.globals.collTaskList i = none
  task : ∀ i t, r.collTaskList i = some t → ∃ a th, Holds m i a t th
  inj : ∀ i j a, m.globals.collTaskList i = some a → m.globals.collTaskList j = some a → i = j
  listed : ∀ a b, m.heap a = some b → ∃ i, m.globals.collTaskList i = some a
  owned : ∀ tid a, m.threads tid = some a → ∃ b, m.heap a = some b ∧ b.collThread.tid = tid

/-- The memory after `FiniTask`. -/
def drop (m : TaskMemory) (i : Fin maxTaskNum) (a tid : ℕ) : TaskMemory where
  heap := Function.update m.heap a none
  globals := ⟨Function.update m.globals.collTaskList i none, m.globals.taskNum + -1⟩
  threads := Function.update m.threads tid none

section Registry

variable {r : TaskReg} {m : TaskMemory} {i : Fin maxTaskNum} {a : ℕ} {t : CollTask}
  {th : ThreadInfo}

/-- The registry and the memory agree on what is NULL. -/
theorem Rep.collTaskList_eq_none (h : Rep r m) (i : Fin maxTaskNum) :
    m.globals.collTaskList i = none ↔ r.collTaskList i = none := by
  constructor
  · intro hnull
    cases ht : r.collTaskList i with
    | none => rfl
    | some t =>
      obtain ⟨a, th, hholds⟩ := h.task i t ht
      rw [hholds.block.ptr] at hnull
      cases hnull
  · exact h.null i

theorem Holds.put (h : Holds m i a t th) (t' : CollTask) :
    Holds (put m a (view ⟨t', th⟩)) i a t' th :=
  ⟨h.block.put _, h.created, h.thread⟩

/-- A task has one thread. -/
theorem Rep.tid_eq (h : Rep r m) (hholds : Holds m i a t th) {tid : ℕ}
    (htid : m.threads tid = some a) : tid = th.tid := by
  obtain ⟨b, hb, rfl⟩ := h.owned tid a htid
  rw [hholds.block.heap] at hb
  obtain rfl := Option.some.inj hb
  rfl

/-- Another task is elsewhere. -/
theorem Rep.ne_of_ne (h : Rep r m) (hholds : Holds m i a t th) {j : Fin maxTaskNum} {x : ℕ}
    (hj : m.globals.collTaskList j = some x) (hji : j ≠ i) : x ≠ a := by
  rintro rfl
  exact hji (h.inj j i x hj hholds.block.ptr)

/-- A free slot has no address, and a free block is in no slot. -/
theorem Rep.ne_of_free (h : Rep r m) (hi : r.collTaskList i = none) (ha : m.heap a = none)
    {j : Fin maxTaskNum} {x : ℕ} (hj : m.globals.collTaskList j = some x) : j ≠ i ∧ x ≠ a := by
  constructor
  · rintro rfl
    rw [h.null j hi] at hj
    cases hj
  · rintro rfl
    cases hr : r.collTaskList j with
    | none =>
      rw [h.null j hr] at hj
      cases hj
    | some u =>
      obtain ⟨y, th', hholds⟩ := h.task j u hr
      rw [hholds.block.ptr] at hj
      obtain rfl := Option.some.inj hj
      rw [hholds.block.heap] at ha
      cases ha

/-- A task is written. -/
theorem Rep.put (h : Rep r m) (hholds : Holds m i a t th) (t' : CollTask) :
    Rep (r.setTask i t') (put m a (view ⟨t', th⟩)) where
  taskNum := h.taskNum
  null := by
    intro j hj
    by_cases hji : j = i
    · subst hji
      simp [TaskReg.setTask] at hj
    · exact h.null j (by simpa [TaskReg.setTask, hji] using hj)
  task := by
    intro j u hj
    by_cases hji : j = i
    · subst hji
      obtain rfl : t' = u := by simpa [TaskReg.setTask] using hj
      exact ⟨a, th, hholds.put t'⟩
    · obtain ⟨x, th', hother⟩ := h.task j u (by simpa [TaskReg.setTask, hji] using hj)
      have hx : x ≠ a := h.ne_of_ne hholds hother.block.ptr hji
      exact ⟨x, th', ⟨hother.block.ptr, (put_heap_of_ne hx).trans hother.block.heap⟩,
        hother.created, hother.thread⟩
  inj := h.inj
  listed := by
    intro x b hb
    by_cases hx : x = a
    · subst hx
      exact ⟨i, hholds.block.ptr⟩
    · exact h.listed x b ((put_heap_of_ne hx).symm.trans hb)
  owned := by
    intro tid x htid
    by_cases hx : x = a
    · subst hx
      exact ⟨_, put_heap_self, (h.tid_eq hholds htid).symm⟩
    · rw [put_heap_of_ne hx]
      exact h.owned tid x htid

/-- A task is dropped. -/
theorem Rep.drop (h : Rep r m) (hholds : Holds m i a t th) :
    Rep (r.finiTask i) (drop m i a th.tid) := by
  have hlist : ∀ j x, (TaskThreads.drop m i a th.tid).globals.collTaskList j = some x →
      j ≠ i ∧ m.globals.collTaskList j = some x ∧ x ≠ a := by
    intro j x hj
    by_cases hji : j = i
    · subst hji
      simp [TaskThreads.drop] at hj
    · have hj' : m.globals.collTaskList j = some x := by
        simpa [TaskThreads.drop, hji] using hj
      exact ⟨hji, hj', h.ne_of_ne hholds hj' hji⟩
  constructor
  · change m.globals.taskNum + -1 = r.taskNum - 1
    rw [h.taskNum]
    rfl
  · intro j hj
    by_cases hji : j = i
    · subst hji
      exact Function.update_self ..
    · have hnull := h.null j (by simpa [TaskReg.finiTask, hji] using hj)
      exact (Function.update_of_ne hji ..).trans hnull
  · intro j u hj
    by_cases hji : j = i
    · subst hji
      simp [TaskReg.finiTask] at hj
    · obtain ⟨x, th', hother⟩ := h.task j u (by simpa [TaskReg.finiTask, hji] using hj)
      have hx : x ≠ a := h.ne_of_ne hholds hother.block.ptr hji
      have htid : th'.tid ≠ th.tid := by
        intro heq
        have hthread := hother.thread
        rw [heq, hholds.thread] at hthread
        exact hx (Option.some.inj hthread).symm
      exact ⟨x, th', ⟨(Function.update_of_ne hji ..).trans hother.block.ptr,
        (Function.update_of_ne hx ..).trans hother.block.heap⟩, hother.created,
        (Function.update_of_ne htid ..).trans hother.thread⟩
  · intro j k x hj hk
    exact h.inj j k x (hlist j x hj).2.1 (hlist k x hk).2.1
  · intro x b hb
    have hx : x ≠ a := by
      rintro rfl
      simp [TaskThreads.drop] at hb
    obtain ⟨j, hj⟩ := h.listed x b ((Function.update_of_ne hx ..).symm.trans hb)
    have hji : j ≠ i := by
      rintro rfl
      exact hx (Option.some.inj (hj.symm.trans hholds.block.ptr))
    exact ⟨j, (Function.update_of_ne hji ..).trans hj⟩
  · intro tid x htid
    have hne : tid ≠ th.tid := by
      rintro rfl
      simp [TaskThreads.drop] at htid
    have hthread : m.threads tid = some x := (Function.update_of_ne hne ..).symm.trans htid
    have hx : x ≠ a := by
      rintro rfl
      exact hne (h.tid_eq hholds hthread)
    obtain ⟨b, hb, hbt⟩ := h.owned tid x hthread
    exact ⟨b, (Function.update_of_ne hx ..).trans hb, hbt⟩

/-- `FiniTask` waits for the thread, so that it can free the task. -/
theorem wp_finiTask (hholds : Holds m i a t th)
    (honly : ∀ tid, m.threads tid = some a → tid = th.tid) {post : Unit → TaskMemory → Prop}
    (hpost : post () (drop m i a th.tid)) : wp (finiTask i) post m := by
  have hat := hholds.block
  refine Prog.wp_bind.mpr (wp_pointee hat ?_)
  refine Prog.wp_bind.mpr ?_
  -- the thread is told to stop, and waited for
  refine Prog.wp_bind.mpr (wp_store hat.heap (respects_setThread _) ?_)
  refine Prog.wp_bind.mpr (wp_load put_heap_self ?_)
  have hcreated : (view (setThread (fun th => { th with keepRunning := false })
      ⟨t, th⟩)).collThread.created = true := hholds.created
  dsimp only
  rw [if_pos hcreated]
  refine Prog.wp_bind.mpr (wp_load put_heap_self (Prog.wp_bind.mpr ?_))
  refine ⟨a, _, hholds.thread, put_heap_self, rfl, ?_⟩
  refine wp_store put_heap_self (respects_setThread _) ?_
  -- no thread has the task any more
  have hfree : ∀ tid, Function.update m.threads th.tid none tid ≠ some a := by
    intro tid htid
    by_cases hne : tid = th.tid
    · subst hne
      rw [Function.update_self] at htid
      cases htid
    · rw [Function.update_of_ne hne] at htid
      exact hne (honly tid htid)
  have hat' := ((hat.put (view (setThread (fun th => { th with keepRunning := false })
    ⟨t, th⟩))).threads (Function.update m.threads th.tid none)).put
      (view (setThread (fun th => { th with created := false })
        (setThread (fun th => { th with keepRunning := false }) ⟨t, th⟩)))
  refine Prog.wp_bind.mpr (wp_pointee hat' ?_)
  refine Prog.wp_bind.mpr ⟨⟨_, put_heap_self⟩, hfree, ?_⟩
  change post () _
  simp only [put, Function.update_idem]
  exact hpost

theorem wp_collTaskList {α : Type} {f : Option ℕ → TaskProg α} {post : α → TaskMemory → Prop}
    (h : wp (f (m.globals.collTaskList i)) post m) : wp (collTaskList i >>= f) post m :=
  Prog.wp_bind.mpr h

theorem wp_clearSubscriber (hholds : Holds m i a t th) (s : UInt32)
    {post : Unit → TaskMemory → Prop}
    (hpost : post () (put m a (view ⟨t.clearSubscriber s, th⟩))) :
    wp (clearSubscriber i s) post m := by
  have hat := hholds.block
  refine Prog.wp_bind.mpr (wp_findSubscriberById hat s ?_)
  simp only [CollTask.clearSubscriber] at hpost
  cases hs : t.findSubscriberById s with
  | none =>
    simp only [hs] at hpost
    rw [put_self hat.heap] at hpost
    exact hpost
  | some j =>
    simp only [hs] at hpost
    refine Prog.wp_bind.mpr (wp_storeAt hat (respects_setSub j fun _ => rfl) ?_)
    refine wp_storeAt (hat.put _) (respects_setField fun _ => rfl) ?_
    rw [put_put]
    exact hpost

/-- `DeleteSubscriber`. -/
theorem wp_deleteSubscriber (h : Rep r m) (hi : r.collTaskList i = some t) (s : UInt32)
    {post : RtnCode → TaskMemory → Prop}
    (hpost : ∀ m', Rep (r.deleteSubscriber i s).2 m' → post .success m') :
    wp (deleteSubscriber i s) post m := by
  obtain ⟨a, th, hholds⟩ := h.task i t hi
  refine wp_collTaskList ?_
  rw [hholds.block.ptr, if_neg (by simp)]
  refine Prog.wp_bind.mpr (wp_clearSubscriber hholds s ?_)
  have hcleared := hholds.put (t.clearSubscriber s)
  have hrep := h.put hholds (t.clearSubscriber s)
  refine Prog.wp_bind.mpr (wp_loadAt hcleared.block ?_)
  simp only [TaskReg.deleteSubscriber, hi] at hpost
  dsimp only
  by_cases hlast : (t.clearSubscriber s).subNum ≤ 0
  · rw [if_pos hlast] at hpost
    rw [if_pos (show (view ⟨t.clearSubscriber s, th⟩).task.subNum ≤ 0 from hlast)]
    refine Prog.wp_bind.mpr (wp_finiTask hcleared (fun tid => hrep.tid_eq hcleared) ?_)
    exact hpost _ (hrep.drop hcleared)
  · rw [if_neg hlast] at hpost
    rw [if_neg (show ¬ (view ⟨t.clearSubscriber s, th⟩).task.subNum ≤ 0 from hlast)]
    refine Prog.wp_bind.mpr (wp_updataTaskInterval hcleared.block none ?_)
    rw [put_put]
    exact hpost _ (h.put hholds _)

/-! ## Finding and creating tasks -/

theorem wp_findCollTaskByType (h : Rep r m) (ty : UInt32)
    {post : Option (Fin maxTaskNum) → TaskMemory → Prop}
    (hpost : post (r.findCollTaskByType ty) m) : wp (findCollTaskByType ty) post m := by
  change wp (if m.globals.taskNum = 0 then pure none else _) post m
  rw [TaskReg.findCollTaskByType] at hpost
  rw [h.taskNum]
  by_cases hzero : r.taskNum = 0
  · rw [if_pos hzero] at hpost ⊢
    exact hpost
  · rw [if_neg hzero] at hpost ⊢
    refine wp_search (fun j post' hpost' => ?_) _ hpost
    refine wp_collTaskList ?_
    change post' (decide ((r.collTaskList j).map (·.dataType) = some ty)) m at hpost'
    cases hj : r.collTaskList j with
    | none =>
      rw [h.null j hj]
      rw [hj] at hpost'
      exact hpost'
    | some t =>
      obtain ⟨a, th, hholds⟩ := h.task j t hj
      rw [hholds.block.ptr]
      refine wp_loadAt hholds.block ?_
      simp only [hj, Option.map_some, Option.some.injEq] at hpost'
      exact hpost'

theorem wp_findAvailebleTaskSlot (h : Rep r m)
    {post : Option (Fin maxTaskNum) → TaskMemory → Prop}
    (hpost : post r.findAvailebleTaskSlot m) : wp findAvailebleTaskSlot post m := by
  rw [TaskReg.findAvailebleTaskSlot] at hpost
  refine wp_search (fun j post' hpost' => ?_) _ hpost
  change post' (m.globals.collTaskList j).isNone m
  have hnone : (m.globals.collTaskList j).isNone = decide (r.collTaskList j = none) := by
    rw [Bool.eq_iff_iff, Option.isNone_iff_eq_none, decide_eq_true_eq, h.collTaskList_eq_none]
  rw [hnone]
  exact hpost'

/-- A new task, in a free block, with a new thread, in a free slot. -/
theorem Rep.add (h : Rep r m) (t : CollTask) (th : ThreadInfo) (hi : r.collTaskList i = none)
    (ha : m.heap a = none) (hthread : m.threads th.tid = none) (hcreated : th.created = true) :
    Rep { r with
        collTaskList := Function.update r.collTaskList i (some t)
        taskNum := r.taskNum + 1 }
      { heap := Function.update m.heap a (some (view ⟨t, th⟩))
        globals := ⟨Function.update m.globals.collTaskList i (some a), m.globals.taskNum + 1⟩
        threads := Function.update m.threads th.tid (some a) } := by
  have hlist : ∀ j x, m.globals.collTaskList j = some x → j ≠ i ∧ x ≠ a := fun _ _ hj =>
    h.ne_of_free hi ha hj
  have hold : ∀ j x, Function.update m.globals.collTaskList i (some a) j = some x →
      j = i ∧ x = a ∨ j ≠ i ∧ x ≠ a ∧ m.globals.collTaskList j = some x := by
    intro j x hj
    by_cases hji : j = i
    · subst hji
      rw [Function.update_self] at hj
      exact .inl ⟨rfl, (Option.some.inj hj).symm⟩
    · rw [Function.update_of_ne hji] at hj
      exact .inr ⟨hji, (hlist j x hj).2, hj⟩
  constructor
  · change m.globals.taskNum + 1 = r.taskNum + 1
    rw [h.taskNum]
  · intro j hj
    by_cases hji : j = i
    · subst hji
      simp at hj
    · have hnull := h.null j (by simpa [hji] using hj)
      exact (Function.update_of_ne hji ..).trans hnull
  · intro j u hj
    by_cases hji : j = i
    · subst hji
      obtain rfl : t = u := by simpa using hj
      exact ⟨a, th, ⟨Function.update_self .., Function.update_self ..⟩, hcreated,
        Function.update_self ..⟩
    · obtain ⟨x, th', hholds⟩ := h.task j u (by simpa [hji] using hj)
      have hx := (hlist j x hholds.block.ptr).2
      have htid : th'.tid ≠ th.tid := by
        intro heq
        have hother := hholds.thread
        rw [heq, hthread] at hother
        cases hother
      exact ⟨x, th', ⟨(Function.update_of_ne hji ..).trans hholds.block.ptr,
        (Function.update_of_ne hx ..).trans hholds.block.heap⟩, hholds.created,
        (Function.update_of_ne htid ..).trans hholds.thread⟩
  · intro j k x hj hk
    obtain ⟨rfl, rfl⟩ | ⟨-, hx, hj⟩ := hold j x hj
    · obtain ⟨rfl, -⟩ | ⟨-, hx, -⟩ := hold k x hk
      · rfl
      · exact absurd rfl hx
    · obtain ⟨-, rfl⟩ | ⟨-, -, hk⟩ := hold k x hk
      · exact absurd rfl hx
      · exact h.inj j k x hj hk
  · intro x b hb
    by_cases hx : x = a
    · subst hx
      exact ⟨i, Function.update_self ..⟩
    · obtain ⟨j, hj⟩ := h.listed x b ((Function.update_of_ne hx ..).symm.trans hb)
      exact ⟨j, (Function.update_of_ne (hlist j x hj).1 ..).trans hj⟩
  · intro tid x htid
    by_cases hne : tid = th.tid
    · subst hne
      obtain rfl : a = x := by simpa using htid
      exact ⟨_, Function.update_self .., rfl⟩
    · obtain ⟨b, hb, hbt⟩ := h.owned tid x ((Function.update_of_ne hne ..).symm.trans htid)
      have hx : x ≠ a := by
        rintro rfl
        rw [ha] at hb
        cases hb
      exact ⟨b, (Function.update_of_ne hx ..).trans hb, hbt⟩

theorem wp_store_const {b w : TaskBlock} {post : Unit → TaskMemory → Prop}
    (hw : m.heap a = some w) (h : post () (put m a (view b))) :
    wp (store a fun _ => b) post m :=
  ⟨w, view b, hw, fun _ _ => rfl, h⟩

theorem wp_malloc {post : Option ℕ → TaskMemory → Prop} (hnone : post none m)
    (hsome : ∀ a w, m.heap a = none → post (some a) (put m a w)) : wp (.malloc pure) post m :=
  ⟨hnone, hsome⟩

theorem wp_initThreadInfo (hb : m.heap a = some (view ⟨t, th⟩)) {post : Unit → TaskMemory → Prop}
    (hpost : post () (put m a (view ⟨t, ⟨true, false, 0⟩⟩))) : wp (initThreadInfo a) post m := by
  refine Prog.wp_bind.mpr (wp_store hb (respects_setThread _) ?_)
  refine Prog.wp_bind.mpr (wp_store put_heap_self (respects_setThread _) ?_)
  refine wp_store put_heap_self (respects_setThread _) ?_
  rw [put_put, put_put]
  exact hpost

/-- `CreateThread`. -/
theorem wp_createThread (hb : m.heap a = some (view ⟨t, th⟩))
    {post : RtnCode → TaskMemory → Prop} (hfail : ∀ b, post .errSysException (put m a b))
    (hok : ∀ tid, m.threads tid = none →
      post .success { put m a (view ⟨t, ⟨true, true, tid⟩⟩) with
        threads := Function.update m.threads tid (some a) }) :
    wp (createThread a) post m := by
  refine Prog.wp_bind.mpr (wp_store hb (respects_setThread _) ?_)
  refine Prog.wp_bind.mpr ⟨⟨_, put_heap_self⟩, hfail _, fun tid htid => ?_⟩
  refine Prog.wp_bind.mpr (wp_store put_heap_self (respects_setThread _) ?_)
  refine Prog.wp_bind.mpr (wp_store put_heap_self (respects_setThread _) ?_)
  have hpost := hok tid htid
  simp only [put] at hpost ⊢
  simp only [Function.update_idem]
  exact hpost

/-- The assignments of `CreateNewTask` fill in all of the new task. -/
theorem fillIn_eq (info : BasicDcTaskInfo) (s : UInt32) (now : TimeVal) :
    setSub 0 (fun x => { x with lastSent := now })
      (setSub 0 (fun x => { x with interval := info.interval })
        (setSub 0 (fun x => { x with sysId := s })
          (setField (fun t => { t with subNum := 1 })
            (setField (fun t => { t with interval := info.interval })
              (setField (fun t => { t with dataType := info.dataType }) zeroBlock))))) =
      ⟨CollTask.new info s now, ⟨false, false, 0⟩⟩ := by
  simp [setSub, setField, zeroBlock, CollTask.new]

/-- `CreateNewTask`. -/
theorem wp_createNewTask (h : Rep r m) (info : BasicDcTaskInfo) (s : UInt32)
    {post : RtnCode → TaskMemory → Prop}
    (hpost : ∀ env m', Rep (r.createNewTask info s env).2 m' →
      post (r.createNewTask info s env).1 m') : wp (createNewTask info s) post m := by
  refine Prog.wp_bind.mpr (wp_findAvailebleTaskSlot h ?_)
  simp only [TaskReg.createNewTask] at hpost
  cases hslot : r.findAvailebleTaskSlot with
  | none =>
    simp only [hslot] at hpost
    exact hpost ⟨false, false, ⟨0, 0⟩⟩ m h
  | some i =>
    simp only [hslot] at hpost
    dsimp only
    refine Prog.wp_bind.mpr (wp_malloc (hpost ⟨false, false, ⟨0, 0⟩⟩ m h) fun a w ha => ?_)
    dsimp only
    -- the fields are filled in
    refine Prog.wp_bind.mpr (wp_store_const put_heap_self ?_)
    rw [put_put]
    refine Prog.wp_bind.mpr (wp_store put_heap_self (respects_setField fun _ => rfl) ?_)
    rw [put_put]
    refine Prog.wp_bind.mpr (wp_store put_heap_self (respects_setField fun _ => rfl) ?_)
    rw [put_put]
    refine Prog.wp_bind.mpr (wp_store put_heap_self (respects_setField fun _ => rfl) ?_)
    rw [put_put]
    refine Prog.wp_bind.mpr (wp_store put_heap_self (respects_setSub 0 fun _ => rfl) ?_)
    rw [put_put]
    refine Prog.wp_bind.mpr (wp_store put_heap_self (respects_setSub 0 fun _ => rfl) ?_)
    rw [put_put]
    refine Prog.wp_bind.mpr fun env => ?_
    refine Prog.wp_bind.mpr (wp_store put_heap_self (respects_setSub 0 fun _ => rfl) ?_)
    rw [put_put, fillIn_eq]
    refine Prog.wp_bind.mpr (wp_initThreadInfo put_heap_self ?_)
    rw [put_put]
    refine Prog.wp_bind.mpr (wp_createThread put_heap_self (fun b => ?_) fun tid htid => ?_)
    · -- no thread: the task is freed again
      rw [put_put, if_pos (by decide)]
      have hfree : ∀ tid, m.threads tid ≠ some a := by
        intro tid htid
        obtain ⟨x, hx, -⟩ := h.owned tid a htid
        rw [ha] at hx
        cases hx
      refine Prog.wp_bind.mpr ⟨⟨b, put_heap_self⟩, hfree, ?_⟩
      have hback : { put m a b with heap := Function.update (put m a b).heap a none } = m := by
        rw [put]
        simp only [Function.update_idem, ← ha, Function.update_eq_self]
      rw [hback]
      exact hpost ⟨true, false, env.now⟩ m h
    · rw [put_put, if_neg (by decide)]
      have hi : r.collTaskList i = none := by
        rw [TaskReg.findAvailebleTaskSlot] at hslot
        exact Slots.first_spec hslot
      have hnew := h.add (CollTask.new info s env.now) ⟨true, true, tid⟩ hi ha htid rfl
      exact hpost ⟨true, true, env.now⟩ _ hnew

/-! ## The operations with the lock -/

/-- `CreateTask`. -/
theorem wp_createTask (h : Rep r m) (info : BasicDcTaskInfo) (s : UInt32)
    {post : RtnCode → TaskMemory → Prop}
    (hpost : ∀ env m', Rep (r.createTask info s env).2 m' →
      post (r.createTask info s env).1 m') : wp (createTask info s) post m := by
  refine Prog.wp_bind.mpr (wp_findCollTaskByType h info.dataType ?_)
  simp only [TaskReg.createTask] at hpost
  cases hfind : r.findCollTaskByType info.dataType with
  | none =>
    simp only [hfind] at hpost
    exact wp_createNewTask h info s hpost
  | some i =>
    simp only [hfind] at hpost
    obtain ⟨t, hi, -⟩ := TaskReg.findCollTaskByType_some hfind
    obtain ⟨a, th, hholds⟩ := h.task i t hi
    refine wp_addSubscriber hholds.block info s fun now => ?_
    have hput := h.put hholds (t.addSubscriber info s now).2
    simp only [TaskReg.addSubscriber, hi] at hpost
    exact hpost ⟨true, true, now⟩ _ hput

/-- `DeleteTask`. -/
theorem wp_deleteTask (h : Rep r m) (ty s : UInt32) {post : RtnCode → TaskMemory → Prop}
    (hpost : ∀ m', Rep (r.deleteTask ty s).2 m' → post .success m') :
    wp (deleteTask ty s) post m := by
  refine Prog.wp_bind.mpr (wp_findCollTaskByType h ty ?_)
  simp only [TaskReg.deleteTask] at hpost
  cases hfind : r.findCollTaskByType ty with
  | none =>
    simp only [hfind] at hpost
    exact hpost m h
  | some i =>
    simp only [hfind] at hpost
    obtain ⟨t, hi, -⟩ := TaskReg.findCollTaskByType_some hfind
    exact Prog.wp_bind.mpr (wp_deleteSubscriber h hi s hpost)

/-- A loop over the tasks that are there does what its body does for each of them. -/
theorem wp_forTasks {body : Fin maxTaskNum → TaskProg Unit}
    {f : TaskReg → Fin maxTaskNum → TaskReg}
    (hbody : ∀ {r m i t}, Rep r m → r.collTaskList i = some t →
      ∀ post : Unit → TaskMemory → Prop, (∀ m', Rep (f r i) m' → post () m') →
        wp (body i) post m)
    (h : Rep r m) {post : Unit → TaskMemory → Prop} (is : List (Fin maxTaskNum))
    (hpost : ∀ m', Rep (is.foldl
      (fun r i => if (r.collTaskList i).isSome then f r i else r) r) m' → post () m') :
    wp (forTasks body is) post m := by
  induction is generalizing r m with
  | nil => exact hpost m h
  | cons i is ih =>
    rw [List.foldl_cons] at hpost
    refine wp_collTaskList ?_
    cases hi : r.collTaskList i with
    | none =>
      rw [hi, if_neg (by simp)] at hpost
      rw [h.null i hi]
      exact ih h hpost
    | some t =>
      rw [hi, if_pos (by simp)] at hpost
      obtain ⟨a, th, hholds⟩ := h.task i t hi
      rw [hholds.block.ptr]
      exact Prog.wp_bind.mpr (hbody h hi _ fun m' h' => ih h' hpost)

/-- `FiniAllTask`. -/
theorem wp_finiAllTask (h : Rep r m) {post : Unit → TaskMemory → Prop}
    (hpost : ∀ m', Rep r.finiAllTask m' → post () m') : wp finiAllTask post m := by
  refine wp_forTasks (f := fun r i => r.finiTask i) ?_ h _ hpost
  intro r m i t h hi post hpost
  obtain ⟨a, th, hholds⟩ := h.task i t hi
  exact wp_finiTask hholds (fun tid => h.tid_eq hholds) (hpost _ (h.drop hholds))

/-- `DeleteAllTaskByClient`. -/
theorem wp_deleteAllTaskByClient (h : Rep r m) (s : UInt32) {post : Unit → TaskMemory → Prop}
    (hpost : ∀ m', Rep (r.deleteAllTaskByClient s) m' → post () m') :
    wp (deleteAllTaskByClient s) post m := by
  change wp (if m.globals.taskNum ≠ 0 then _ else pure ()) post m
  rw [h.taskNum]
  rw [TaskReg.deleteAllTaskByClient] at hpost
  by_cases hzero : r.taskNum ≠ 0
  · rw [if_pos hzero] at hpost ⊢
    refine wp_forTasks (f := fun r i => (r.deleteSubscriber i s).2) ?_ h _ hpost
    intro r m i t h hi post hpost
    exact Prog.wp_bind.mpr (wp_deleteSubscriber h hi s hpost)
  · rw [if_neg hzero] at hpost ⊢
    exact hpost m h

/-- What a request does to the registry, in one step. -/
def Request.Does (q : Request) (r : TaskReg) (ret : RtnCode) (r' : TaskReg) : Prop :=
  match q with
  | createTask info s => ∃ env, r.createTask info s env = (ret, r')
  | deleteTask ty s => r.deleteTask ty s = (ret, r')
  | deleteAllTaskByClient s => ret = .success ∧ r' = r.deleteAllTaskByClient s
  | finiAllTask => ret = .success ∧ r' = r.finiAllTask

theorem wp_prog (q : Request) (h : Rep r m) :
    wp q.prog (fun ret m' => ∃ r', q.Does r ret r' ∧ Rep r' m') m := by
  cases q with
  | createTask info s =>
    exact wp_createTask h info s fun env m' h' => ⟨_, ⟨env, rfl⟩, h'⟩
  | deleteTask ty s =>
    refine wp_deleteTask h ty s fun m' h' => ⟨_, ?_, h'⟩
    change r.deleteTask ty s = (.success, (r.deleteTask ty s).2)
    rw [TaskReg.deleteTask]
    split <;> rfl
  | deleteAllTaskByClient s =>
    exact Prog.wp_bind.mpr
      (wp_deleteAllTaskByClient h s fun m' h' => ⟨_, ⟨rfl, rfl⟩, h'⟩)
  | finiAllTask =>
    exact Prog.wp_bind.mpr (wp_finiAllTask h fun m' h' => ⟨_, ⟨rfl, rfl⟩, h'⟩)

end Registry

/-! ## What the threads leave alone -/

theorem view_served (i : Fin maxClientNum) (startTime : TimeVal) (b : TaskBlock) :
    view (setSub i (fun s => { s with lastSent := startTime }) b) = view b := by
  refine congrArg (fun l => TaskBlock.mk ⟨b.task.dataType, b.task.interval, b.task.subNum, l⟩
    b.collThread) (funext fun j => ?_)
  by_cases hj : j = i
  · subst hj
    simp only [setSub, Function.update_self]
  · simp only [setSub, Function.update_of_ne hj]

theorem sound_sendMetadataToSubscribers (data : Bytes) (startTime : TimeVal) {next : TaskThread}
    (hnext : next.Sound view) (is : List (Fin maxClientNum)) :
    (sendMetadataToSubscribers data startTime next is).Sound view := by
  induction is with
  | nil => exact hnext
  | cons i is ih =>
    intro b
    dsimp only
    split
    · exact ih
    · intro b b'
      dsimp only
      split
      · exact ih
      · intro env
        dsimp only
        split
        · exact ih
        · exact fun _ => ⟨view_served i startTime, ih⟩

theorem sound_process (action : Action) (startTime : TimeVal) {next : TaskThread}
    (hnext : next.Sound view) : (action.process startTime next).Sound view := by
  intro b env
  dsimp only
  split
  · exact hnext
  · exact sound_sendMetadataToSubscribers _ _ hnext _

theorem sound_runDcTaskProcess : runDcTaskProcess.Sound view := by
  intro b
  dsimp only
  split
  · trivial
  · exact fun _ => trivial

theorem sound_runLoop (l : Locals) : (runLoop l).Sound view := by
  intro b
  dsimp only
  split
  · trivial
  · exact fun _ _ _ => sound_process _ _ trivial

/-- `taskservice.c` as if every operation ran alone. -/
theorem taskService_correct : taskService.Correct Stops Rep Request.Does where
  prog := fun q _ _ h => wp_prog q h
  start := sound_runDcTaskProcess
  loop := sound_runLoop
  ends := by
    intro l w hstops b hb
    subst hb
    have hkeep : b.collThread.keepRunning = false := hstops
    dsimp only
    rw [if_pos hkeep]
    rfl

theorem rep_start : Rep TaskReg.empty.initTaskService
    ⟨fun _ => none, ⟨fun _ => none, 0⟩, fun _ => none⟩ where
  taskNum := rfl
  null := fun _ _ => rfl
  task := fun _ _ h => by cases h
  inj := fun _ _ _ h => by cases h
  listed := fun _ _ h => by cases h
  owned := fun _ _ h => by cases h

/-- Where the registry is empty, so is the memory. -/
theorem Rep.empty {r : TaskReg} {m : TaskMemory} (h : Rep r m)
    (hempty : ∀ i, r.collTaskList i = none) :
    (∀ a, m.heap a = none) ∧ ∀ tid, m.threads tid = none := by
  have hheap : ∀ a, m.heap a = none := by
    intro a
    rw [Option.eq_none_iff_forall_ne_some]
    intro b hb
    obtain ⟨i, hi⟩ := h.listed a b hb
    rw [h.null i (hempty i)] at hi
    cases hi
  refine ⟨hheap, fun tid => ?_⟩
  rw [Option.eq_none_iff_forall_ne_some]
  intro a ha
  obtain ⟨b, hb, -⟩ := h.owned tid a ha
  rw [hheap] at hb
  cases hb

/-- **The operations are atomic.** In whatever order the threads make their accesses, none of them
goes to a task that is freed or was never there. The operations that are done did to the registry,
with the same results, what those of `TaskReg` do one after the other, and when no operation is
under way the memory holds that registry: a block and a thread for each task, and no other; none at
all, after `FiniAllTask`. The operation under way can always be brought to its end. -/
theorem tasks_atomic {events : List (Event TaskBlock Env Request)}
    {s : State TaskBlock TaskBlock Globals Env Effect Locals Request RtnCode}
    (h : run (step taskService) start events = some s) :
    s.fault = false ∧
      (∃ r, Performs Request.Does TaskReg.empty.initTaskService s.log r ∧
        (s.op = none → Rep r (s.memory view))) ∧
      (∀ l ret, s.op = none → s.log = l ++ [(.finiAllTask, ret)] →
        (∀ a, s.heap a = none) ∧ ∀ tid, s.threads tid = none) ∧
      ∃ events' s', run (step taskService) s events' = some s' ∧ s'.op = none := by
  have hinv := run_refines taskService_correct rep_start h
  obtain ⟨r, hlog, hfollows⟩ := hinv.follows
  have hrep : s.op = none → Rep r (s.memory view) := by
    intro hop
    rw [hop] at hfollows
    exact hfollows
  refine ⟨hinv.fault, ⟨r, hlog, hrep⟩, ?_, exists_run_idle taskService_correct hinv⟩
  intro l ret hop hlast
  have hempty : ∀ i, r.collTaskList i = none := by
    rw [hlast] at hlog
    obtain ⟨r₀, -, -, rfl⟩ := hlog.of_snoc
    exact r₀.finiAllTask_slot
  obtain ⟨hheap, hthreads⟩ := (hrep hop).empty hempty
  exact ⟨fun a => Option.map_eq_none_iff.mp (hheap a),
    fun tid => Option.map_eq_none_iff.mp (hthreads tid)⟩

/-- The block at 64, or none if it is taken, and the thread 7. -/
def oneTask (block : Option ℕ) : Answer TaskBlock Env where
  env := ⟨⟨5, 0⟩, true, [], Server.zeroReading _, 0, Server.zeroReading _⟩
  block := block.map fun a => (a, zeroBlock)
  thread := some 7

def aSecondLater : Env := ⟨⟨6, 0⟩, true, [], Server.zeroReading _, 0, Server.zeroReading _⟩

/-- A task is created, and its thread runs before it is in the list. All tasks are stopped while
the thread is about to send. -/
def startAndStop : List (Event TaskBlock Env Request) :=
  Event.start (.createTask ⟨datatypeCpuPerf, 1000⟩ 1) ::
    List.replicate 16 (Event.op (oneTask (some 64))) ++
    List.replicate 3 (Event.worker 7 aSecondLater) ++ List.replicate 5 (Event.op (oneTask none)) ++
    List.replicate 9 (Event.worker 7 aSecondLater) ++
    Event.start .finiAllTask :: List.replicate 5 (Event.op (oneTask none)) ++
    List.replicate 10 (Event.worker 7 aSecondLater) ++ List.replicate 16 (Event.op (oneTask none))

theorem startAndStop_log : (run (step taskService) start startAndStop).map
    (fun s => (s.op.isNone, s.log, s.sent.length)) =
      some (true, [(.createTask ⟨datatypeCpuPerf, 1000⟩ 1, .success), (.finiAllTask, .success)],
        2) := by decide +kernel

theorem tasks_atomic_startAndStop : ∃ s, run (step taskService) start startAndStop = some s ∧
    s.sent.length = 2 ∧ s.fault = false ∧ (∀ a, s.heap a = none) ∧
      ∀ tid, s.threads tid = none := by
  obtain ⟨s, hs, hend⟩ := Option.map_eq_some_iff.mp startAndStop_log
  simp only [Prod.mk.injEq, Option.isNone_iff_eq_none] at hend
  obtain ⟨hop, hlog, hsent⟩ := hend
  obtain ⟨hfault, -, hnone, -⟩ := tasks_atomic hs
  exact ⟨s, hs, hsent, hfault, hnone [_] _ hop hlog⟩

end TaskThreads

end PowerApi
