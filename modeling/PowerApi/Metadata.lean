import PowerApi.Server

/-!
# Sending metadata (`taskservice.c`, `server.c`, `pwrmsg.c`)

A collection task has a thread of its own, which reads data now and then and sends
them to the task's subscribers. `sendMetadataToSubscriber` is one round of the loop
of `SendMetadataToSubscribers`: the other threads can come in between two rounds.
-/

namespace PowerApi

/-- `GetTimeDistance`, in milliseconds. -/
def getTimeDistance (v1 v2 : TimeVal) : Int :=
  (v1.sec - v2.sec) * 1000 + (v1.usec - v2.usec).tdiv 1000

/-- `GenerateMetadataMsg`. -/
def generateMetadataMsg (f : MsgFactory) (sysId : UInt32) (data : DataPtr) (len : UInt32) :
    PwrMsg × MsgFactory :=
  let (seqId, f') := generateSeqId f
  (⟨{ MsgHead.zero with
      majorVer := majorVersion
      minorVer := minorVersion
      optType := OperationType.comCallbackData.code
      dataFormat := fmtBin
      msgType := MsgType.mtMdt.code
      rspCode := 0
      seqId := seqId
      taskNo := 0
      crcMagic := generateCrcMagic
      dataLen := len
      sysId := sysId }, data⟩, f')

/-- What `malloc` gives for one subscriber: the copy of the data (0 is NULL) and the
message. -/
structure MetadataAlloc where
  dataCpy : UInt64
  msgOk : Bool
  deriving DecidableEq, Repr

namespace Server

/-- `SendMetadataToClient`. -/
def sendMetadataToClient (srv : Server) (f : MsgFactory) (mem : MetadataAlloc) (sysId : UInt32)
    (data : DataPtr) (len : UInt32) : Except Fault (Server × MsgFactory) := do
  if data = .null ∧ len ≠ 0 then return (srv, f)
  else if mem.msgOk = false then
    data.free
    return (srv, f)
  else
    let (metadata, f') := generateMetadataMsg f sysId data len
    let srv ← srv.addToSendBuff metadata
    return (srv, f')

/-- A subscriber to whom data are due at some time. -/
def dueTo (sub : CollDataSubscriber) (startTime : TimeVal) : Prop :=
  sub.sysId ≠ 0 ∧ sub.interval ≤ getTimeDistance startTime sub.lastSent

instance (sub : CollDataSubscriber) (startTime : TimeVal) : Decidable (dueTo sub startTime) := by
  unfold dueTo
  infer_instance

/-- `SendMetadataToSubscribers` for the subscriber in one slot of a task. -/
def sendMetadataToSubscriber (srv : Server) (f : MsgFactory) (mem : MetadataAlloc)
    (index : Fin maxTaskNum) (i : Fin maxClientNum) (data : Bytes) (startTime : TimeVal) :
    Except Fault (Server × MsgFactory) := do
  match srv.tasks.collTaskList index with
  | none => return (srv, f)
  | some task =>
    let sub := task.subscriberList i
    if ¬ dueTo sub startTime then return (srv, f)
    else if mem.dataCpy = 0 then return (srv, f)
    else
      let (srv, f') ← srv.sendMetadataToClient f mem sub.sysId (.heap mem.dataCpy data)
        (UInt32.ofNat data.length)
      return ({ srv with
        tasks := srv.tasks.setTask index
          { task with
            subscriberList :=
              Function.update task.subscriberList i { sub with lastSent := startTime } } }, f')

end Server

end PowerApi
