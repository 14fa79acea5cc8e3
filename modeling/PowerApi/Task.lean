import PowerApi.ClientTable

/-!
# The collection task registry (`taskservice.c`)

`g_collTaskList` has ten slots for collection tasks, one per data type; a task
keeps its subscribers in a list of three slots, in which system id 0 marks a
free slot, next to the redundant counters `subNum` and `g_taskNum`. The
functions below follow the source one by one, under `g_taskListMutex` where the
source takes it. What the environment decides (allocation, thread creation, the
clock) comes in as `CreateEnv`.
-/

namespace PowerApi

/-- `MAX_TASK_NUM`. -/
abbrev maxTaskNum : ℕ := 10

/-- `MAX_DC_INTERVAL`, in milliseconds. -/
def maxDcInterval : Int := 100000000

/-- `MIN_DC_INTERVAL`, in milliseconds. -/
def minDcInterval : Int := 1000

/-- `struct timeval`. -/
structure TimeVal where
  sec : Int
  usec : Int
  deriving DecidableEq, Repr

/-- `CollDataSubscriber`. -/
structure CollDataSubscriber where
  sysId : UInt32
  interval : Int
  lastSent : TimeVal
  deriving DecidableEq, Repr

/-- A subscriber slot after `bzero`. -/
def CollDataSubscriber.zero : CollDataSubscriber := ⟨0, 0, ⟨0, 0⟩⟩

/-- `CollTask`. -/
structure CollTask where
  dataType : UInt32
  interval : Int
  /-- number of subscriptions -/
  subNum : Int
  subscriberList : Fin maxClientNum → CollDataSubscriber
  deriving DecidableEq

/-- `PWR_COM_BasicDcTaskInfo`. -/
structure BasicDcTaskInfo where
  dataType : UInt32
  interval : Int
  deriving DecidableEq, Repr

/-- `g_collTaskList`, `g_taskNum` and `g_hasInited`. -/
structure TaskReg where
  collTaskList : Fin maxTaskNum → Option CollTask
  taskNum : Int
  hasInited : Bool
  deriving DecidableEq

/-- What the environment answers while a task is created. -/
structure CreateEnv where
  /-- `malloc` of the task succeeds -/
  mallocOk : Bool
  /-- `pthread_create` succeeds -/
  threadOk : Bool
  now : TimeVal
  deriving DecidableEq, Repr

namespace CollTask

/-- `UpdataTaskInterval`: with a subscriber's index the interval can only come
down to that subscriber's; with `INVALID_INDEX` it is computed from all slots. -/
def updataTaskInterval (task : CollTask) (subIdx : Option (Fin maxClientNum)) : CollTask :=
  match subIdx with
  | some i =>
    if task.interval > (task.subscriberList i).interval then
      { task with interval := (task.subscriberList i).interval }
    else task
  | none =>
    { task with
      interval := (List.finRange maxClientNum).foldl
        (fun interval i =>
          if interval > (task.subscriberList i).interval then (task.subscriberList i).interval
          else interval)
        maxDcInterval }

/-- `FindSubscriberById`. -/
def findSubscriberById (task : CollTask) (subscriber : UInt32) : Option (Fin maxClientNum) :=
  Slots.first fun i => (task.subscriberList i).sysId = subscriber

/-- `AddSubscriber` on an existing task. -/
def addSubscriber (task : CollTask) (taskInfo : BasicDcTaskInfo) (subscriber : UInt32)
    (now : TimeVal) : RtnCode × CollTask :=
  match task.findSubscriberById subscriber with
  | some subIdx =>
    let sub := { task.subscriberList subIdx with interval := taskInfo.interval }
    (.success,
      { task with subscriberList := Function.update task.subscriberList subIdx sub
        }.updataTaskInterval (some subIdx))
  | none => -- find available subscriber slot
    match task.findSubscriberById 0 with
    | some i =>
      (.success,
        { task with
          subscriberList :=
            Function.update task.subscriberList i ⟨subscriber, taskInfo.interval, now⟩
          subNum := task.subNum + 1 }.updataTaskInterval (some i))
    | none => (.errSysException, task) -- subscriber overflow

/-- The loop of `DeleteSubscriber`: clear the subscriber's slot. -/
def clearSubscriber (task : CollTask) (subscriber : UInt32) : CollTask :=
  match task.findSubscriberById subscriber with
  | some i =>
    { task with
      subscriberList := Function.update task.subscriberList i .zero
      subNum := task.subNum - 1 }
  | none => task

/-- The task that `CreateNewTask` fills in. -/
def new (taskInfo : BasicDcTaskInfo) (subscriber : UInt32) (now : TimeVal) : CollTask where
  dataType := taskInfo.dataType
  interval := taskInfo.interval
  subNum := 1
  subscriberList :=
    Function.update (fun _ => CollDataSubscriber.zero) 0 ⟨subscriber, taskInfo.interval, now⟩

end CollTask

namespace TaskReg

/-- The registry before and after `InitTaskService`. -/
def empty : TaskReg := ⟨fun _ => none, 0, false⟩

/-- `InitTaskService`. -/
def initTaskService (r : TaskReg) : TaskReg :=
  if r.hasInited then r else { collTaskList := fun _ => none, taskNum := 0, hasInited := true }

/-- `FindCollTaskByType`. -/
def findCollTaskByType (r : TaskReg) (dataType : UInt32) : Option (Fin maxTaskNum) :=
  if r.taskNum = 0 then none
  else Slots.first fun i => (r.collTaskList i).map (·.dataType) = some dataType

/-- `FindAvailebleTaskSlot`. -/
def findAvailebleTaskSlot (r : TaskReg) : Option (Fin maxTaskNum) :=
  Slots.first fun i => r.collTaskList i = none

/-- Write through the pointer `g_collTaskList[index]`. -/
def setTask (r : TaskReg) (index : Fin maxTaskNum) (task : CollTask) : TaskReg :=
  { r with collTaskList := Function.update r.collTaskList index (some task) }

/-- `FiniTask`. -/
def finiTask (r : TaskReg) (index : Fin maxTaskNum) : TaskReg :=
  { r with
    collTaskList := Function.update r.collTaskList index none
    taskNum := r.taskNum - 1 }

/-- `AddSubscriber`. -/
def addSubscriber (r : TaskReg) (index : Fin maxTaskNum) (taskInfo : BasicDcTaskInfo)
    (subscriber : UInt32) (now : TimeVal) : RtnCode × TaskReg :=
  match r.collTaskList index with
  | none => (.errTaskNotExists, r)
  | some task =>
    let (ret, task') := task.addSubscriber taskInfo subscriber now
    (ret, r.setTask index task')

/-- `DeleteSubscriber`: collecting stops with the last subscription. -/
def deleteSubscriber (r : TaskReg) (index : Fin maxTaskNum) (subscriber : UInt32) :
    RtnCode × TaskReg :=
  match r.collTaskList index with
  | none => (.errTaskNotExists, r)
  | some task =>
    let task' := task.clearSubscriber subscriber
    if task'.subNum ≤ 0 then (.success, (r.setTask index task').finiTask index)
    else (.success, r.setTask index (task'.updataTaskInterval none))

/-- `CreateNewTask`. -/
def createNewTask (r : TaskReg) (taskInfo : BasicDcTaskInfo) (subscriber : UInt32)
    (env : CreateEnv) : RtnCode × TaskReg :=
  match r.findAvailebleTaskSlot with
  | none => (.errOverMaxTaskNum, r)
  | some slot =>
    if env.mallocOk = false then (.errSysException, r)
    else if env.threadOk = false then (.errSysException, r)
    else
      (.success,
        { r with
          collTaskList := Function.update r.collTaskList slot
            (some (CollTask.new taskInfo subscriber env.now))
          taskNum := r.taskNum + 1 })

/-- `CreateTask`. -/
def createTask (r : TaskReg) (taskInfo : BasicDcTaskInfo) (subscriber : UInt32)
    (env : CreateEnv) : RtnCode × TaskReg :=
  match r.findCollTaskByType taskInfo.dataType with
  | some index => r.addSubscriber index taskInfo subscriber env.now
  | none => r.createNewTask taskInfo subscriber env

/-- `DeleteTask`. -/
def deleteTask (r : TaskReg) (dataType subscriber : UInt32) : RtnCode × TaskReg :=
  match r.findCollTaskByType dataType with
  | some index => (.success, (r.deleteSubscriber index subscriber).2)
  | none => (.success, r)

/-- `FiniAllTask`. -/
def finiAllTask (r : TaskReg) : TaskReg :=
  (List.finRange maxTaskNum).foldl
    (fun r i => if (r.collTaskList i).isSome then r.finiTask i else r) r

/-- `DeleteAllTaskByClient`. -/
def deleteAllTaskByClient (r : TaskReg) (subscriber : UInt32) : TaskReg :=
  if r.taskNum ≠ 0 then
    (List.finRange maxTaskNum).foldl
      (fun r i =>
        if (r.collTaskList i).isSome then (r.deleteSubscriber i subscriber).2 else r) r
  else r

/-- `CleanDataCollTaskByClient`. -/
def cleanDataCollTaskByClient (r : TaskReg) (client : UInt32) : TaskReg :=
  r.deleteAllTaskByClient client

end TaskReg

end PowerApi
