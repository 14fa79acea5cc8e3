import PowerApi.Conn
import PowerApi.Buffer
import PowerApi.Auth
import PowerApi.TaskRegistry

/-!
# The server's state and its receiving side (`server.c`)

`Server` gathers the variables that the two threads of the server work on: the
client table, the control authority, the task registry and the two message
queues. `readMsg` and `processRecvMsgFromClient` run on the socket thread; a
connection is the list of what `recv` will find on it.

What goes wrong with memory is a `Fault`, in the place where the source does it.
-/

namespace PowerApi

/-- The server's variables. -/
structure Server where
  pwrClients : ClientTable
  auth : Auth
  tasks : TaskReg
  sendBuff : PwrMsgBuffer PwrMsg
  recvBuff : PwrMsgBuffer PwrMsg

/-- A connection, from the receiving end. -/
abbrev Conn := List Conn.RecvEvent

def eintr : Int := 4
def eagain : Int := 11
def ewouldblock : Int := 11

/-- A `uint32_t` that is passed as an `int`. -/
def intArg (n : UInt32) : Int := n.toBitVec.toInt

theorem intArg_of_lt {n : UInt32} (h : n.toNat < 2 ^ 31) : intArg n = n.toNat := by
  rw [intArg, BitVec.toInt_eq_toNat_cond, if_pos (by simpa using (by omega : 2 * n.toNat < 2 ^ 32))]
  rfl

theorem intArg_neg {n : UInt32} (h : ¬ n.toNat < 2 ^ 31) : intArg n < 0 := by
  have hn : n.toNat < 2 ^ 32 := n.toNat_lt
  rw [intArg, BitVec.toInt_eq_toNat_cond,
    if_neg (by simpa using (by omega : 2 ^ 32 ≤ 2 * n.toNat))]
  have hnat : n.toBitVec.toNat = n.toNat := rfl
  rw [hnat]
  omega

/-- What `malloc` gives `ProcessRecvMsgFromClient`: the message, and the address
of the payload buffer (0 is NULL). -/
structure RecvAlloc where
  msgOk : Bool
  content : UInt64
  deriving DecidableEq, Repr

namespace Server

/-- After `StartServer`, before any connection. -/
def init : Server where
  pwrClients := ClientTable.initPwrClient
  auth := Auth.init
  tasks := TaskReg.empty.initTaskService
  sendBuff := initPwrMsgBuffer
  recvBuff := initPwrMsgBuffer

/-- `CleanClientResource`. -/
def cleanClientResource (srv : Server) (pwrClient : PwrClient)
    (idx : Option (Fin maxClientNum)) : Server :=
  { srv with
    auth := srv.auth.cleanControlAuth pwrClient.sysId
    tasks := srv.tasks.cleanDataCollTaskByClient pwrClient.sysId
    pwrClients := (srv.pwrClients.deleteFromClientList idx).2.1 }

/-- The result of a failed `recv` that `ReadMsg` means to repeat the call for. It
compares the result, −1, with the `errno` values. -/
def recvAgain (recvLen : Int) : Bool :=
  recvLen == eintr || recvLen == ewouldblock || recvLen == eagain

/-- `ReadMsg`: its result, the buffer it filled, the server and what is left of the
connection. A failure cleans up with `g_pwrClients`, a pointer to slot 0. -/
def readMsg (srv : Server) (len : Int) (conn : Conn) (idx : Fin maxClientNum) :
    Except Fault (RtnCode × Bytes × Server × Conn) :=
  -- `bzero(pData, len)` with a negative length
  if len < 0 then .error .overrun
  else
    let (fin, got, conn') := Conn.readLoop (recvAgain (-1)) len.toNat conn
    let buf := Conn.zeroFilled len.toNat got
    match fin with
    | .full => .ok (.success, buf, srv, conn')
    | .failed => .ok (.errSysException, buf, srv.cleanClientResource (srv.pwrClients 0) idx, conn')
    | .closed => .ok (.errDisconnected, buf, srv.cleanClientResource (srv.pwrClients 0) idx, conn')

/-- `AddToBufferTail(&g_sendBuff, msg)`, with the release of what it evicts. -/
def addToSendBuff (srv : Server) (msg : PwrMsg) : Except Fault Server := do
  let (sendBuff, released) := addToBufferTail srv.sendBuff msg
  match released with
  | some m => releasePwrMsg m
  | none => pure ()
  return { srv with sendBuff := sendBuff }

/-- `AddToBufferTail(&g_recvBuff, msg)`, with the release of what it evicts. -/
def addToRecvBuff (srv : Server) (msg : PwrMsg) : Except Fault Server := do
  let (recvBuff, released) := addToBufferTail srv.recvBuff msg
  match released with
  | some m => releasePwrMsg m
  | none => pure ()
  return { srv with recvBuff := recvBuff }

/-- The server with one more request in `g_recvBuff`. -/
def withRecv (srv : Server) (msg : PwrMsg) : Server :=
  { srv with recvBuff := enqueue srv.recvBuff msg }

/-- The second half of `ProcessRecvMsgFromClient`: the payload, and the queue. -/
def recvContent (srv : Server) (clientIdx : Fin maxClientNum) (mem : RecvAlloc) (msg : PwrMsg)
    (conn : Conn) : Except Fault (Server × Conn) := do
  if msg.head.dataLen > 0 then
    if mem.content = 0 then
      releasePwrMsg msg
      return (srv, conn)
    else
      let (ret, content, srv, conn) ← srv.readMsg (intArg msg.head.dataLen) conn clientIdx
      if ret ≠ .success then
        releasePwrMsg msg
        return (srv, conn)
      else
        let srv ← srv.addToRecvBuff
          ⟨{ msg.head with sysId := (srv.pwrClients clientIdx).sysId }, .heap mem.content content⟩
        return (srv, conn)
  else
    let srv ← srv.addToRecvBuff
      ⟨{ msg.head with sysId := (srv.pwrClients clientIdx).sysId }, .null⟩
    return (srv, conn)

/-- `ProcessRecvMsgFromClient`. -/
def processRecvMsgFromClient (srv : Server) (clientIdx : Fin maxClientNum) (mem : RecvAlloc)
    (conn : Conn) : Except Fault (Server × Conn) := do
  if mem.msgOk = false then
    return (srv, conn)
  else
    let (ret, buf, srv, conn) ← srv.readMsg sizeofPwrMsg conn clientIdx
    let msg := PwrMsg.ofStruct buf
    if ret ≠ .success then
      releasePwrMsg msg
      return (srv, conn)
    else if msg.head.msgType ≠ MsgType.mtReq.code then
      releasePwrMsg msg -- the server accept request msg only.
      throw .nullDeref -- `msg` is NULL now, and `msg->head.dataLen` is read next
    else
      srv.recvContent clientIdx mem msg conn

/-- What holds of the server's variables between any two steps. -/
structure WF (srv : Server) : Prop where
  tasks : srv.tasks.WF
  /-- no two connections are registered under one id -/
  distinct : ∀ i j, (srv.pwrClients i).fd ≠ invalidFd → (srv.pwrClients j).fd ≠ invalidFd →
    (srv.pwrClients i).sysId = (srv.pwrClients j).sysId → i = j
  recv_holds : ∀ m ∈ srv.recvBuff.toList, m.Holds
  /-- what waits to be sent can be released -/
  send_free : ∀ m ∈ srv.sendBuff.toList, releasePwrMsg m = .ok ()

end Server

/-- A server in a state it can be in. -/
abbrev ServerState := {srv : Server // srv.WF}

namespace Server

@[simp] theorem cleanClientResource_fd (srv : Server) (p : PwrClient) (i : Fin maxClientNum) :
    ((srv.cleanClientResource p (some i)).pwrClients i).fd = invalidFd := by
  have h : (srv.cleanClientResource p (some i)).pwrClients i = PwrClient.none :=
    Function.update_self ..
  rw [h]
  rfl

@[simp] theorem recvAgain_fail : recvAgain (-1) = false := rfl

/-- With `len` bytes in the stream, `ReadMsg` gets them and changes nothing else. -/
theorem readMsg_full (srv : Server) {len : ℕ} {conn : Conn} (idx : Fin maxClientNum)
    (h : len ≤ (Conn.stream false conn).length) :
    ∃ conn', srv.readMsg len conn idx =
        .ok (.success, (Conn.stream false conn).take len, srv, conn') ∧
      Conn.stream false conn' = (Conn.stream false conn).drop len := by
  obtain ⟨conn', heq, hconn'⟩ := Conn.readLoop_full h
  refine ⟨conn', ?_, hconn'⟩
  rw [readMsg, if_neg (by omega), recvAgain_fail, Int.toNat_natCast, heq]
  dsimp only
  rw [Conn.zeroFilled_of_length (by simpa using h)]

/-- With fewer, it cleans up after the client in slot 0 and fails. -/
theorem readMsg_short (srv : Server) {len : ℕ} {conn : Conn} (idx : Fin maxClientNum)
    (h : (Conn.stream false conn).length < len) :
    ∃ ret conn', ret ≠ .success ∧ srv.readMsg len conn idx =
      .ok (ret, Conn.zeroFilled len (Conn.stream false conn),
        srv.cleanClientResource (srv.pwrClients 0) idx, conn') := by
  obtain ⟨fin, conn', hfin, heq⟩ := Conn.readLoop_short h
  rw [readMsg, if_neg (by omega), recvAgain_fail, Int.toNat_natCast, heq]
  cases fin with
  | full => exact absurd rfl hfin
  | failed => exact ⟨.errSysException, conn', nofun, rfl⟩
  | closed => exact ⟨.errDisconnected, conn', nofun, rfl⟩

theorem addToRecvBuff_ok {srv srv' : Server} {msg : PwrMsg} (h : srv.addToRecvBuff msg = .ok srv') :
    srv' = srv.withRecv msg := by
  unfold addToRecvBuff at h
  dsimp only at h
  split at h <;> rename_i hrel
  · rename_i m
    cases hfree : releasePwrMsg m with
    | error f =>
      rw [hfree] at h
      cases h
    | ok u =>
      rw [hfree] at h
      exact (Except.ok.inj h).symm
  · exact (Except.ok.inj h).symm

/-- Queueing a response releases at most a message that can be released. -/
theorem addToSendBuff_eq {srv : Server} (h : ∀ m ∈ srv.sendBuff.toList, releasePwrMsg m = .ok ())
    (msg : PwrMsg) :
    srv.addToSendBuff msg = .ok { srv with sendBuff := enqueue srv.sendBuff msg } := by
  unfold addToSendBuff enqueue
  cases hrel : (addToBufferTail srv.sendBuff msg).2 with
  | none =>
    simp only [hrel]
    rfl
  | some m =>
    simp only [hrel, h m (mem_of_released hrel)]
    rfl

/-- Queueing a request releases at most a message that owns its data. -/
theorem addToRecvBuff_eq {srv : Server} (h : ∀ m ∈ srv.recvBuff.toList, m.Holds) (msg : PwrMsg) :
    srv.addToRecvBuff msg = .ok (srv.withRecv msg) := by
  unfold addToRecvBuff withRecv enqueue
  cases hrel : (addToBufferTail srv.recvBuff msg).2 with
  | none =>
    simp only [hrel]
    rfl
  | some m =>
    simp only [hrel, releasePwrMsg_of_holds (h m (mem_of_released hrel))]
    rfl

end Server

end PowerApi
