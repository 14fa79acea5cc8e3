import PowerApi.Send

/-!
# The socket of the client library (`sockclient.c`)

`recvMsgFromSocket` reads one message and hands it on, a response to
`ProcessRspMsg` and anything else to `ProcessOtherMsg`: it returns the message as a
`Delivery`. `sendMsgToSocket` is the library's instance of `Sender`.

Unlike the server's, the library's `ReadMsg` does not clear the buffer first, so
what the buffer held before is a parameter.
-/

namespace PowerApi

/-- `g_sockFd` and `g_sendBuff`. -/
structure ClientSock where
  sockFd : Int
  sendBuff : PwrMsgBuffer PwrMsg

/-- What `malloc` gives `RecvMsgFromSocket`: for the message and for the payload, and
what the blocks hold. The address 0 is NULL. -/
structure ClientAlloc where
  msgOk : Bool
  msgStale : Bytes
  content : UInt64
  contentStale : Bytes
  deriving DecidableEq, Repr

/-- A received message and who gets it. -/
inductive Delivery where
  /-- to `ProcessRspMsg` -/
  | rsp (m : PwrMsg)
  /-- to `ProcessOtherMsg` -/
  | other (m : PwrMsg)
  deriving DecidableEq

namespace Delivery

def msg : Delivery → PwrMsg
  | rsp m => m
  | other m => m

/-- The last step of `RecvMsgFromSocket`. -/
def ofMsg (m : PwrMsg) : Delivery :=
  if m.head.msgType = MsgType.mtRsp.code then rsp m else other m

@[simp] theorem msg_ofMsg (m : PwrMsg) : (ofMsg m).msg = m := by
  unfold ofMsg
  split <;> rfl

end Delivery

namespace ClientSock

/-- `ReadMsg` of the client library. A negative length is read as no bytes. -/
def readMsg (c : ClientSock) (len : Int) (stale : Bytes) (conn : Conn) :
    RtnCode × Bytes × ClientSock × Conn :=
  let (fin, got, conn') := Conn.readLoop false len.toNat conn
  let buf := got ++ (stale.drop got.length).take (len.toNat - got.length)
  match fin with
  | .full => (.success, buf, c, conn')
  | .failed => (.errSysException, buf, { c with sockFd := invalidFd }, conn')
  | .closed => (.errDisconnected, buf, { c with sockFd := invalidFd }, conn')

/-- `RecvMsgFromSocket`. -/
def recvMsgFromSocket (c : ClientSock) (mem : ClientAlloc) (conn : Conn) :
    Except Fault (Option Delivery × ClientSock × Conn) :=
  if mem.msgOk = false then .ok (none, c, conn)
  else
    let (ret, buf, c, conn) := c.readMsg sizeofPwrMsg mem.msgStale conn
    let msg := PwrMsg.ofStruct buf
    if ret ≠ .success then do
      releasePwrMsg msg
      return (none, c, conn)
    else if msg.head.dataLen ≠ 0 then
      if mem.content = 0 then do
        releasePwrMsg msg
        return (none, c, conn)
      else
        let (ret, content, c, conn) := c.readMsg (intArg msg.head.dataLen) mem.contentStale conn
        if ret ≠ .success then do
          releasePwrMsg msg
          return (none, c, conn)
        else .ok (some (.ofMsg ⟨msg.head, .heap mem.content content⟩), c, conn)
    else .ok (some (.ofMsg ⟨msg.head, .null⟩), c, conn)

theorem readMsg_full (c : ClientSock) {len : ℕ} (stale : Bytes) {conn : Conn}
    (h : len ≤ (Conn.stream false conn).length) :
    ∃ conn', c.readMsg len stale conn =
        (.success, (Conn.stream false conn).take len, c, conn') ∧
      Conn.stream false conn' = (Conn.stream false conn).drop len := by
  obtain ⟨conn', heq, hconn'⟩ := Conn.readLoop_full h
  refine ⟨conn', ?_, hconn'⟩
  rw [readMsg, Int.toNat_natCast, heq]
  dsimp only
  rw [List.length_take, Nat.min_eq_left h, Nat.sub_self, List.take_zero, List.append_nil]

/-- With fewer bytes than it wants, `ReadMsg` gives the connection up and leaves the rest
of the buffer as it was. -/
theorem readMsg_short (c : ClientSock) {len : ℕ} (stale : Bytes) {conn : Conn}
    (h : (Conn.stream false conn).length < len) :
    ∃ ret conn', ret ≠ .success ∧ c.readMsg len stale conn =
      (ret, Conn.stream false conn ++ (stale.drop (Conn.stream false conn).length).take
        (len - (Conn.stream false conn).length), { c with sockFd := invalidFd }, conn') := by
  obtain ⟨fin, conn', hfin, heq⟩ := Conn.readLoop_short h
  rw [readMsg, Int.toNat_natCast, heq]
  cases fin with
  | full => exact absurd rfl hfin
  | failed => exact ⟨.errSysException, conn', nofun, rfl⟩
  | closed => exact ⟨.errDisconnected, conn', nofun, rfl⟩

/-- A negative length is no bytes. -/
theorem readMsg_negative (c : ClientSock) {len : Int} (stale : Bytes) {conn : Conn}
    (h : len < 0) : ∃ bs, c.readMsg len stale conn = (.success, bs, c, conn) := by
  rw [readMsg, Int.toNat_of_nonpos h.le]
  cases conn <;> exact ⟨_, rfl⟩

/-- `WriteMsg` of the client library: it goes on when `send` takes nothing. -/
def writeMsg (buf : Bytes) (s : ClientSock × Outgoing) :
    Except Fault (RtnCode × ClientSock × Outgoing) :=
  match Conn.writeLoop false buf s.2.sends (UInt64.ofNat buf.length) 0 with
  | none => .error .overrun
  | some (_, bs, sends) => .ok (.success, s.1, s.2.write s.1.sockFd bs sends)

/-- The body of the loop of `SendMsgToSocket`. -/
def sendToSocket (msg : PwrMsg) (s : ClientSock × Outgoing) :
    Except Fault (ClientSock × Outgoing) := do
  let s ← sendMsg (fun buf s => (writeMsg buf s).map Prod.snd) msg s
  releasePwrMsg msg
  return s

/-- `MAX_PROC_NUM_IN_ONE_LOOP` is 5. -/
def sender : Sender (ClientSock × Outgoing) where
  queue s := s.1.sendBuff
  setQueue q s := ({ s.1 with sendBuff := q }, s.2)
  emit := sendToSocket
  maxCount := 5

/-- `SendMsgToSocket`. -/
def sendMsgToSocket (s : ClientSock × Outgoing) : Except Fault (ClientSock × Outgoing) :=
  sender.process s

theorem writes_writeMsg (c : ClientSock) :
    Writes (fun buf s => (writeMsg buf s).map Prod.snd)
      (fun s => s.1 = c ∧ s.2.Accepting) (fun s => s.2.writtenTo) c.sockFd := by
  rintro buf ⟨c, out⟩ hlen ⟨rfl, ks, hks⟩
  have hsize : maxDataSize < 2 ^ 64 := by decide
  have hbuf : (UInt64.ofNat buf.length).toNat = buf.length :=
    UInt64.toNat_ofNat_of_lt' (hlen.trans_lt hsize)
  obtain ⟨ks', heq⟩ := @Conn.writeLoop_accept false buf (UInt64.ofNat buf.length) 0 ks
    (hlen.trans_lt hsize) (by rw [hbuf]; exact Nat.zero_add _)
  refine ⟨(c, out.write c.sockFd buf (ks'.map .accept)), ?_, ⟨rfl, ks', rfl⟩,
    fun fd' => out.writtenTo_write ..⟩
  dsimp only [writeMsg]
  rw [hks, heq]
  rfl

/-- The library sends every message to its socket. -/
theorem emits (fd : Int) :
    sender.Emits (fun s => s.1.sockFd = fd ∧ s.2.Accepting) (fun s => s.2.writtenTo)
      fun _ => fd where
  queue_set _ _ := rfl
  inv_set _ _ hI := hI
  log_set _ _ := rfl
  emit := by
    rintro m ⟨c, out⟩ hm ⟨rfl, hacc⟩
    obtain ⟨⟨c', out'⟩, heq, ⟨rfl, hacc'⟩, hlog⟩ :=
      sendMsg_spec (writes_writeMsg c) hm (s := (c, out)) ⟨rfl, hacc⟩
    refine ⟨(c', out'), ?_, ⟨rfl, hacc'⟩, rfl, fun fd _ => ?_⟩
    · dsimp only [sender, sendToSocket, bind, Except.bind]
      rw [heq]
      dsimp only
      rw [releasePwrMsg_of_holds hm]
      rfl
    · rw [framesTo_singleton]
      exact hlog fd

end ClientSock

end PowerApi
