import PowerApi.Threads
import PowerApi.Calls

/-!
# Clients and server together (`powerapi.c`, `pwrcom.c`, `sockclient.c`, `server.c`)

Any number of processes use the library, and a server answers them. Of a process
there are `g_status`, which the `PWR_` functions check before they send anything,
the calls under way, the requests that it has queued and sent, and the responses
to it; the server is that of `Threads`. What the queue and the waiting list of the
library do with a call is the matter of `Calls`: here a call gets some response
with the sequence id of its request, or none.

Connections are numbered, and the number is the descriptor that the server has of
one. `RunSocketProcess` opens a new one when the old is lost, of which neither the
caller nor `g_status` learns. A process registers again only after `PWR_UnRegister`, so that it
has one socket thread, and the server has memory for what it reads.
-/

namespace PowerApi

/-- `PwrApiStatus`. -/
inductive ApiStatus where
  | unregistered
  | registered
  | authed
  deriving DecidableEq, Repr

def ApiStatus.code : ApiStatus → ℕ
  | unregistered => 0
  | registered => 1
  | authed => 2

/-- What the `PWR_` function for an operation gives to `CHECK_STATUS`. -/
def OperationType.neededStatus : OperationType → ApiStatus
  | comReleaseControlAuth => .authed
  | sysSetPowerState => .authed
  | cpuSetFreqRange => .authed
  | cpuSetFreqGovernor => .authed
  | cpuSetCurFreq => .authed
  | cpuSetDmaLatency => .authed
  | diskSetPowerLevel => .authed
  | diskSetScsiPolicy => .authed
  | netSetSpeedMod => .authed
  | usbSetAutoSuspend => .authed
  | _ => .registered

/-- `CHECK_STATUS`. -/
def ApiStatus.check (status needed : ApiStatus) : Bool := needed.code ≤ status.code

/-- A call of a `PWR_` function that has passed its checks. -/
structure ApiCall where
  op : OperationType
  /-- its request, once that is created -/
  req : Option PwrMsg
  /-- it is past `AddToBufferTail` -/
  queued : Bool
  rsp : Option PwrMsg
  deriving DecidableEq

/-- The sequence id by which a response finds the call. -/
def ApiCall.seqId (call : ApiCall) : Option UInt32 := call.req.map fun req => req.head.seqId

/-- `SendReqAndWaitForRsp` gives `SUCCESS`. -/
def ApiCall.succeeded (call : ApiCall) : Bool :=
  match call.rsp with
  | none => false
  | some rsp => rsp.head.rspCode == 0

/-- `g_status` after the call, which is the business of the two for the authority. -/
def ApiStatus.after (status : ApiStatus) (call : ApiCall) : ApiStatus :=
  match call.op with
  | .comRequestControlAuth => if call.succeeded then .authed else status
  | .comReleaseControlAuth => if call.succeeded then .registered else status
  | _ => status

/-- A process that uses the library. -/
structure App where
  status : ApiStatus
  factory : MsgFactory
  calls : List ApiCall
  sendBuff : PwrMsgBuffer PwrMsg
  /-- what it has sent, with the connection, and the server has not read -/
  sent : List (ℕ × PwrMsg)
  /-- responses on their way to it -/
  back : List PwrMsg
  /-- `g_sockFd` -/
  conn : Option ℕ
  /-- `keepRunning` of `g_sockThread` -/
  running : Bool

/-- A process before `PWR_Register`. -/
def App.init (pid : UInt32) : App where
  status := .unregistered
  factory := ⟨pid, 0⟩
  calls := []
  sendBuff := initPwrMsgBuffer
  sent := []
  back := []
  conn := none
  running := false

/-- `FiniSockClient`. What the process has sent can still be read. -/
def App.finiSockClient (a : App) : App :=
  { a with
    conn := none
    sendBuff := initPwrMsgBuffer
    back := []
    running := false }

/-- The processes, by their ids, and the server. -/
structure Clients where
  app : UInt32 → App
  srv : Threads
  /-- who opened each connection -/
  conns : List UInt32
  /-- how many connections the server has accepted -/
  accepted : ℕ

namespace Clients

/-- A step of a process or of the server. -/
inductive Event where
  /-- `PWR_Register`, no socket thread of the process running -/
  | register (p : UInt32)
  /-- the same, when it cannot connect -/
  | registerFailed (p : UInt32)
  /-- `PWR_UnRegister` -/
  | unregister (p : UInt32)
  /-- a `PWR_` function is called, and passes its checks -/
  | enter (p : UInt32) (op : OperationType)
  /-- `CreateReqMsg` for a call -/
  | create (p : UInt32) (i : ℕ) (taskNo dataLen : UInt32) (data : DataPtr)
  /-- `CHECK_SOCKET_STATUS` and `AddToBufferTail` in `SendMsgSyn` -/
  | queue (p : UInt32) (i : ℕ) (addr : UInt64)
  /-- `SendMsgToSocket` takes a request -/
  | transmit (p : UInt32)
  /-- a call gets a response -/
  | deliver (p : UInt32) (k i : ℕ)
  /-- a response is lost, or comes too late -/
  | loseResponse (p : UInt32) (k : ℕ)
  /-- a `PWR_` function returns, with the response or without -/
  | leave (p : UInt32) (i : ℕ)
  /-- the library finds its connection gone -/
  | disconnect (p : UInt32)
  /-- `RunSocketProcess` opens another -/
  | reconnect (p : UInt32)
  /-- `AcceptConnection` -/
  | accept
  /-- `ProcessRecvMsgFromClient` has read a request -/
  | receive (clientIdx : Fin maxClientNum)
  /-- a request is lost with the connection -/
  | loseRequest (p : UInt32) (k : ℕ)
  /-- the server finds a connection gone -/
  | lose (idx : Option (Fin maxClientNum))
  | clean
  | send
  | pop
  | serve (m : Machine)

/-- No process has registered. -/
def init : Clients where
  app := App.init
  srv := Threads.init
  conns := []
  accepted := 0

def setApp (s : Clients) (p : UInt32) (a : App) : Clients :=
  { s with app := Function.update s.app p a }

/-- `CreateConnection`. What was on its way to the old one does not arrive. -/
def connect (s : Clients) (p : UInt32) (a : App) : Clients :=
  { s.setApp p { a with back := [], conn := some s.conns.length } with conns := s.conns ++ [p] }

/-- The request of a call goes into the queue, if there is a connection. -/
def queueCall (a : App) (i : ℕ) (call : ApiCall) (req : PwrMsg) (addr : UInt64) : Option App :=
  let a := { a with calls := a.calls.set i { call with queued := true } }
  if a.conn = none then some a
  else
    (clonePwrMsg req addr).toOption.map fun copy =>
      { a with sendBuff := enqueue a.sendBuff copy }

/-- One step. -/
def step (s : Clients) : Event → Option Clients
  | .register p =>
    let a := s.app p
    -- a second socket thread is the matter of `SocketFd`
    if a.running then none
    else some (s.connect p { a with
      status := if a.status = .unregistered then .registered else a.status
      sendBuff := initPwrMsgBuffer
      running := true })
  | .registerFailed p =>
    if (s.app p).running then none else some (s.setApp p (s.app p).finiSockClient)
  | .unregister p =>
    some (s.setApp p { (s.app p).finiSockClient with status := .unregistered })
  | .enter p op =>
    let a := s.app p
    if a.status.check op.neededStatus then
      some (s.setApp p { a with calls := a.calls ++ [⟨op, none, false, none⟩] })
    else none
  | .create p i taskNo dataLen data =>
    let a := s.app p
    a.calls[i]?.bind fun call =>
      if call.req = none then
        let (req, factory) := createReqMsg a.factory call.op taskNo dataLen data
        some (s.setApp p { a with
          factory := factory
          calls := a.calls.set i { call with req := some req } })
      else none
  | .queue p i addr =>
    let a := s.app p
    a.calls[i]?.bind fun call => call.req.bind fun req =>
      if call.queued then none else (queueCall a i call req addr).map (s.setApp p)
  | .transmit p =>
    let a := s.app p
    a.conn.map fun conn =>
      let (msg, sendBuff) := popFromBufferHead a.sendBuff
      s.setApp p { a with
        sendBuff := sendBuff
        sent := a.sent ++ msg.toList.map fun msg => (conn, msg) }
  | .deliver p k i =>
    let a := s.app p
    a.back[k]?.bind fun rsp => a.calls[i]?.bind fun call =>
      if rsp.head.msgType = MsgType.mtRsp.code ∧ call.seqId = some rsp.head.seqId then
        some (s.setApp p { a with
          back := a.back.eraseIdx k
          calls := a.calls.set i { call with rsp := some rsp } })
      else none
  | .loseResponse p k =>
    let a := s.app p
    some (s.setApp p { a with back := a.back.eraseIdx k })
  | .leave p i =>
    let a := s.app p
    a.calls[i]?.map fun call =>
      s.setApp p { a with status := a.status.after call, calls := a.calls.eraseIdx i }
  | .disconnect p => some (s.setApp p { s.app p with conn := none, back := [] })
  | .reconnect p =>
    let a := s.app p
    if a.running ∧ a.conn = none then some (s.connect p a) else none
  | .accept =>
    s.conns[s.accepted]?.bind fun p =>
      (s.srv.step (.accept ⟨s.accepted, p⟩)).map fun srv =>
        -- the table has closed the older connections of the process
        { s.setApp p { s.app p with
            sent := (s.app p).sent.filter fun m => s.accepted ≤ m.1 } with
          srv := srv
          accepted := s.accepted + 1 }
  | .receive i =>
    let slot := s.srv.srv.pwrClients i
    match (s.app slot.sysId).sent with
    | [] => none
    | (conn, msg) :: sent =>
      if slot.fd = conn then
        (s.srv.step (.receive i msg)).map fun srv =>
          { s.setApp slot.sysId { s.app slot.sysId with sent := sent } with srv := srv }
      else none
  | .loseRequest p k =>
    let a := s.app p
    some (s.setApp p { a with sent := a.sent.eraseIdx k })
  | .lose idx =>
    (s.srv.step (.lose idx)).map fun srv =>
      match idx with
      | none => { s with srv := srv }
      | some i => -- nothing more is read from it
        let slot := s.srv.srv.pwrClients i
        { s.setApp slot.sysId { s.app slot.sysId with
            sent := (s.app slot.sysId).sent.filter fun m => slot.fd ≠ m.1 } with srv := srv }
  | .clean => (s.srv.step .clean).map fun srv => { s with srv := srv }
  | .send =>
    (s.srv.step .send).map fun srv =>
      match (popFromBufferHead s.srv.srv.sendBuff).1 with
      | none => { s with srv := srv }
      | some msg =>
        let p := msg.head.sysId
        let dstFd := s.srv.srv.pwrClients.getFdBySysId p
        -- what is written to an older connection is not read any more
        if (s.app p).conn.map Int.ofNat = some dstFd then
          { s.setApp p { s.app p with back := (s.app p).back ++ [msg] } with srv := srv }
        else { s with srv := srv }
  | .pop => (s.srv.step .pop).map fun srv => { s with srv := srv }
  | .serve m => (s.srv.step (.serve m)).map fun srv => { s with srv := srv }

end Clients

end PowerApi
