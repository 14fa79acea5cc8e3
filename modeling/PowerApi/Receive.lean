import PowerApi.Server

/-!
# Receiving a message from a client

What `ProcessRecvMsgFromClient` does with the bytes of a connection, exit by
exit, and when it is what it should do (`Received`): queue the message, discard
it whole, or clean up after the client. It is in the way of it that

* the `data` field of the struct on the wire is not cleared before the exits that
  release the message, so they free an address the client has sent;
* a message that is not a request is released and then read;
* a length from 2^31 on is negative as the `int` that `ReadMsg` takes;
* without memory for the payload, the payload stays in the stream.
-/

namespace PowerApi

open Bytes

namespace Server

/-- The message that the next bytes of a stream make, before its data is there. -/
def incoming (s : Bytes) : PwrMsg := PwrMsg.ofStruct (s.take sizeofPwrMsg)

/-- The message as it is queued: with the sender's id and its own copy of the payload. -/
def queued (srv : Server) (clientIdx : Fin maxClientNum) (mem : RecvAlloc) (s : Bytes) : PwrMsg where
  head := { (incoming s).head with sysId := (srv.pwrClients clientIdx).sysId }
  data :=
    if (incoming s).head.dataLen = 0 then .null
    else .heap mem.content ((s.drop sizeofPwrMsg).take (incoming s).head.dataLen.toNat)

/-- The number of bytes that a message takes up in the stream. -/
def frameLength (s : Bytes) : ℕ := sizeofPwrMsg + (incoming s).head.dataLen.toNat

/-! ## The exits -/

section Exits

variable {srv : Server} {clientIdx : Fin maxClientNum} {mem : RecvAlloc} {conn : Conn}

theorem processRecv_noMsg (hmem : mem.msgOk = false) :
    srv.processRecvMsgFromClient clientIdx mem conn = .ok (srv, conn) := by
  rw [processRecvMsgFromClient, if_pos hmem]
  rfl

/-- The connection ends within the struct: whatever has arrived of its pointer is
freed. -/
theorem processRecv_shortStruct (hmem : mem.msgOk = true)
    (hlen : (Conn.stream false conn).length < sizeofPwrMsg) :
    ∃ conn', srv.processRecvMsgFromClient clientIdx mem conn =
      (releasePwrMsg (PwrMsg.ofStruct (Conn.zeroFilled sizeofPwrMsg (Conn.stream false conn)))).bind
        fun _ => .ok (srv.cleanClientResource (srv.pwrClients 0) clientIdx, conn') := by
  obtain ⟨ret, conn', hret, heq⟩ := readMsg_short srv clientIdx hlen
  refine ⟨conn', ?_⟩
  rw [processRecvMsgFromClient, if_neg (by simp [hmem]), heq]
  dsimp only [bind, Except.bind]
  rw [if_pos hret]
  rfl

/-- A message that is not a request is released, and read again. -/
theorem processRecv_notReq (hmem : mem.msgOk = true)
    (hlen : sizeofPwrMsg ≤ (Conn.stream false conn).length)
    (htype : (incoming (Conn.stream false conn)).head.msgType ≠ MsgType.mtReq.code) :
    ∃ f, srv.processRecvMsgFromClient clientIdx mem conn = .error f := by
  obtain ⟨conn', heq, -⟩ := readMsg_full srv clientIdx hlen
  rw [incoming] at htype
  rw [processRecvMsgFromClient, if_neg (by simp [hmem]), heq]
  dsimp only [bind, Except.bind]
  rw [if_neg (by simp), if_pos htype]
  cases releasePwrMsg (PwrMsg.ofStruct ((Conn.stream false conn).take sizeofPwrMsg)) with
  | error f => exact ⟨f, rfl⟩
  | ok u => exact ⟨.nullDeref, rfl⟩

/-- Behind the struct of a request comes its payload. -/
theorem processRecv_req (hmem : mem.msgOk = true)
    (hlen : sizeofPwrMsg ≤ (Conn.stream false conn).length)
    (htype : (incoming (Conn.stream false conn)).head.msgType = MsgType.mtReq.code) :
    ∃ conn', Conn.stream false conn' = (Conn.stream false conn).drop sizeofPwrMsg ∧
      srv.processRecvMsgFromClient clientIdx mem conn =
        srv.recvContent clientIdx mem (incoming (Conn.stream false conn)) conn' := by
  obtain ⟨conn', heq, hconn'⟩ := readMsg_full srv clientIdx hlen
  refine ⟨conn', hconn', ?_⟩
  rw [incoming] at htype ⊢
  rw [processRecvMsgFromClient, if_neg (by simp [hmem]), heq]
  dsimp only [bind, Except.bind]
  rw [if_neg (by simp), if_neg (not_not.mpr htype)]

variable {msg : PwrMsg}

theorem recvContent_add_noData (hdata : msg.head.dataLen = 0) :
    srv.recvContent clientIdx mem msg conn =
      (srv.addToRecvBuff ⟨{ msg.head with sysId := (srv.pwrClients clientIdx).sysId }, .null⟩).bind
        fun srv => .ok (srv, conn) := by
  rw [recvContent, if_neg (by simp [hdata])]
  rfl

theorem recvContent_noData (hwf : srv.WF) (hdata : msg.head.dataLen = 0) :
    srv.recvContent clientIdx mem msg conn =
      .ok (srv.withRecv ⟨{ msg.head with sysId := (srv.pwrClients clientIdx).sysId }, .null⟩,
        conn) := by
  rw [recvContent_add_noData hdata, addToRecvBuff_eq hwf.recv_holds]
  rfl

variable (hdata : msg.head.dataLen ≠ 0)

include hdata

/-- Without memory for the payload nothing more is read. -/
theorem recvContent_noContent (hmem : mem.content = 0) :
    srv.recvContent clientIdx mem msg conn =
      (releasePwrMsg msg).bind fun _ => .ok (srv, conn) := by
  rw [recvContent, if_pos (UInt32.pos_iff_ne_zero.mpr hdata), if_pos hmem]
  rfl

variable (hmem : mem.content ≠ 0)

include hmem

/-- The length is negative to `ReadMsg`. -/
theorem recvContent_negative (hlen : ¬ msg.head.dataLen.toNat < 2 ^ 31) :
    srv.recvContent clientIdx mem msg conn = .error .overrun := by
  rw [recvContent, if_pos (UInt32.pos_iff_ne_zero.mpr hdata), if_neg hmem, readMsg,
    if_pos (intArg_neg hlen)]
  rfl

variable (hlen : msg.head.dataLen.toNat < 2 ^ 31)

include hlen

/-- The connection ends within the payload. -/
theorem recvContent_short
    (hshort : (Conn.stream false conn).length < msg.head.dataLen.toNat) :
    ∃ conn', srv.recvContent clientIdx mem msg conn = (releasePwrMsg msg).bind
      fun _ => .ok (srv.cleanClientResource (srv.pwrClients 0) clientIdx, conn') := by
  obtain ⟨ret, conn', hret, heq⟩ := readMsg_short srv clientIdx hshort
  refine ⟨conn', ?_⟩
  rw [recvContent, if_pos (UInt32.pos_iff_ne_zero.mpr hdata), if_neg hmem, intArg_of_lt hlen, heq]
  dsimp only [bind, Except.bind]
  rw [if_pos hret]
  rfl

/-- The payload is there. -/
theorem recvContent_add_full
    (hfull : msg.head.dataLen.toNat ≤ (Conn.stream false conn).length) :
    ∃ conn', Conn.stream false conn' = (Conn.stream false conn).drop msg.head.dataLen.toNat ∧
      srv.recvContent clientIdx mem msg conn =
        (srv.addToRecvBuff ⟨{ msg.head with sysId := (srv.pwrClients clientIdx).sysId },
          .heap mem.content ((Conn.stream false conn).take msg.head.dataLen.toNat)⟩).bind
          fun srv => .ok (srv, conn') := by
  obtain ⟨conn', heq, hconn'⟩ := readMsg_full srv clientIdx hfull
  refine ⟨conn', hconn', ?_⟩
  rw [recvContent, if_pos (UInt32.pos_iff_ne_zero.mpr hdata), if_neg hmem, intArg_of_lt hlen, heq]
  dsimp only [bind, Except.bind]
  rw [if_neg (by simp)]
  rfl

theorem recvContent_full (hwf : srv.WF)
    (hfull : msg.head.dataLen.toNat ≤ (Conn.stream false conn).length) :
    ∃ conn', Conn.stream false conn' = (Conn.stream false conn).drop msg.head.dataLen.toNat ∧
      srv.recvContent clientIdx mem msg conn =
        .ok (srv.withRecv ⟨{ msg.head with sysId := (srv.pwrClients clientIdx).sysId },
          .heap mem.content ((Conn.stream false conn).take msg.head.dataLen.toNat)⟩, conn') := by
  obtain ⟨conn', hconn', heq⟩ :=
    @recvContent_add_full srv clientIdx mem conn msg hdata hmem hlen hfull
  refine ⟨conn', hconn', ?_⟩
  rw [heq, addToRecvBuff_eq hwf.recv_holds]
  rfl

end Exits

/-! ## What the function should do, and when it does -/

/-- The three ways to deal with the next message of a client: queue it, or discard
it, and be at the first byte of what follows it; or clean up after the client. -/
def Received (srv : Server) (clientIdx : Fin maxClientNum) (mem : RecvAlloc) (conn : Conn)
    (res : Except Fault (Server × Conn)) : Prop :=
  let s := Conn.stream false conn
  ∃ srv' conn', res = .ok (srv', conn') ∧
    ((frameLength s ≤ s.length ∧ Conn.stream false conn' = s.drop (frameLength s) ∧
        ((incoming s).head.msgType = MsgType.mtReq.code ∧
          srv' = srv.withRecv (srv.queued clientIdx mem s) ∨ srv' = srv)) ∨
      ∃ pwrClient, srv' = srv.cleanClientResource pwrClient clientIdx)

/-- The condition under which it does: there is memory for the struct; a struct
that is cut off has received no byte of a pointer; a whole one is a request, and its
payload is empty, or there is memory for it, its length is an `int`, and it arrives
whole or its struct came with a NULL pointer. -/
def ReceivesRight (mem : RecvAlloc) (s : Bytes) : Prop :=
  mem.msgOk = true ∧
    if s.length < sizeofPwrMsg then
      (PwrMsg.ofStruct (Conn.zeroFilled sizeofPwrMsg s)).data = .null
    else
      (incoming s).head.msgType = MsgType.mtReq.code ∧
        ((incoming s).head.dataLen = 0 ∨
          mem.content ≠ 0 ∧ (incoming s).head.dataLen.toNat < 2 ^ 31 ∧
            (frameLength s ≤ s.length ∨ (incoming s).data = .null))

section Exact

variable {srv : Server} {clientIdx : Fin maxClientNum} {mem : RecvAlloc} {conn : Conn}

theorem not_received_error {f : Fault} : ¬ srv.Received clientIdx mem conn (.error f) := by
  rintro ⟨srv', conn', heq, -⟩
  cases heq

/-- Nothing was done, and the stream is not behind the message. -/
theorem not_received_same (hidx : (srv.pwrClients clientIdx).fd ≠ invalidFd) {conn' : Conn}
    (hconn' : frameLength (Conn.stream false conn) ≤ (Conn.stream false conn).length →
      Conn.stream false conn' ≠
        (Conn.stream false conn).drop (frameLength (Conn.stream false conn))) :
    ¬ srv.Received clientIdx mem conn (.ok (srv, conn')) := by
  rintro ⟨srv', conn'', heq, ⟨hlen, hstream, -⟩ | ⟨p, hclean⟩⟩
  · obtain ⟨rfl, rfl⟩ := Prod.mk.inj (Except.ok.inj heq)
    exact hconn' hlen hstream
  · obtain ⟨rfl, rfl⟩ := Prod.mk.inj (Except.ok.inj heq)
    rw [hclean] at hidx
    exact hidx (cleanClientResource_fd srv p clientIdx)

/-- The exits that release the message and clean up. -/
theorem received_release {m : PwrMsg} (hm : ∃ bs, m = PwrMsg.ofStruct bs) {p : PwrClient}
    {conn' : Conn} :
    srv.Received clientIdx mem conn ((releasePwrMsg m).bind
      fun _ => .ok (srv.cleanClientResource p clientIdx, conn')) ↔ m.data = .null := by
  obtain ⟨bs, rfl⟩ := hm
  rw [releasePwrMsg, PwrMsg.ofStruct]
  dsimp only
  unfold DataPtr.ofAddr
  split
  · exact iff_of_true ⟨_, _, rfl, .inr ⟨p, rfl⟩⟩ rfl
  · exact iff_of_false not_received_error (by rintro ⟨⟩)

/-- The second half of the function, with the struct read. -/
theorem received_recvContent (hwf : srv.WF) (hidx : (srv.pwrClients clientIdx).fd ≠ invalidFd)
    (hlen : sizeofPwrMsg ≤ (Conn.stream false conn).length)
    (htype : (incoming (Conn.stream false conn)).head.msgType = MsgType.mtReq.code) {conn' : Conn}
    (hconn' : Conn.stream false conn' = (Conn.stream false conn).drop sizeofPwrMsg) :
    srv.Received clientIdx mem conn
        (srv.recvContent clientIdx mem (incoming (Conn.stream false conn)) conn') ↔
      (incoming (Conn.stream false conn)).head.dataLen = 0 ∨
        mem.content ≠ 0 ∧ (incoming (Conn.stream false conn)).head.dataLen.toNat < 2 ^ 31 ∧
          (frameLength (Conn.stream false conn) ≤ (Conn.stream false conn).length ∨
            (incoming (Conn.stream false conn)).data = .null) := by
  generalize hs : Conn.stream false conn = s at hlen htype hconn' ⊢
  have hlength : (Conn.stream false conn').length = s.length - sizeofPwrMsg := by
    rw [hconn', List.length_drop]
  by_cases hdata : (incoming s).head.dataLen = 0
  · rw [recvContent_noData hwf hdata]
    refine iff_of_true ⟨_, _, rfl, .inl ?_⟩ (.inl hdata)
    have hframe : frameLength s = sizeofPwrMsg := by
      rw [frameLength, hdata]
      rfl
    rw [hs, hframe]
    refine ⟨hlen, hconn', .inl ⟨htype, ?_⟩⟩
    rw [queued, if_pos hdata]
  rw [or_iff_right hdata]
  have hpos : 0 < (incoming s).head.dataLen.toNat :=
    Nat.pos_of_ne_zero fun h => hdata (UInt32.toNat_inj.mp h)
  by_cases hcontent : mem.content = 0
  · -- the payload is still in the stream
    rw [recvContent_noContent hdata hcontent]
    refine iff_of_false ?_ fun h => h.1 hcontent
    cases releasePwrMsg (incoming s) with
    | error f => exact not_received_error
    | ok u =>
      refine not_received_same hidx fun hframe heq => ?_
      rw [hs] at hframe heq
      have hdrop := congrArg List.length heq
      rw [hlength, List.length_drop] at hdrop
      rw [frameLength] at hframe hdrop
      omega
  rw [and_iff_right hcontent]
  by_cases hint : (incoming s).head.dataLen.toNat < 2 ^ 31
  · rw [and_iff_right hint]
    by_cases hshort : (Conn.stream false conn').length < (incoming s).head.dataLen.toNat
    · obtain ⟨conn'', heq⟩ := @recvContent_short srv clientIdx mem conn' _ hdata hcontent hint hshort
      have hframe : ¬ frameLength s ≤ s.length := by
        rw [frameLength]
        omega
      rw [heq, or_iff_right hframe]
      exact received_release ⟨_, rfl⟩
    · obtain ⟨conn'', hconn'', heq⟩ :=
        @recvContent_full srv clientIdx mem conn' _ hdata hcontent hint hwf (not_lt.mp hshort)
      have hframe : frameLength s ≤ s.length := by
        rw [frameLength]
        omega
      rw [heq]
      refine iff_of_true ⟨_, _, rfl, .inl ?_⟩ (.inl hframe)
      rw [hs]
      refine ⟨hframe, ?_, .inl ⟨htype, ?_⟩⟩
      · rw [hconn'', hconn', List.drop_drop, frameLength]
      · rw [queued, if_neg hdata, hconn']
  · rw [recvContent_negative hdata hcontent hint]
    exact iff_of_false not_received_error fun h => hint h.1

/-- The message is queued, discarded whole or cleaned up after if and only if `ReceivesRight`. -/
theorem received_iff (hwf : srv.WF) (hidx : (srv.pwrClients clientIdx).fd ≠ invalidFd) :
    srv.Received clientIdx mem conn (srv.processRecvMsgFromClient clientIdx mem conn) ↔
      ReceivesRight mem (Conn.stream false conn) := by
  have hframe : sizeofPwrMsg ≤ frameLength (Conn.stream false conn) := Nat.le_add_right ..
  unfold ReceivesRight
  cases hmem : mem.msgOk with
  | false =>
    -- the message is still all in the stream
    rw [processRecv_noMsg hmem]
    refine iff_of_false (not_received_same hidx fun hlen heq => ?_) (by simp)
    have hlength := congrArg List.length heq
    rw [List.length_drop] at hlength
    have h40 : 0 < sizeofPwrMsg := by decide
    omega
  | true =>
    rw [eq_self, true_and]
    by_cases hlen : (Conn.stream false conn).length < sizeofPwrMsg
    · rw [if_pos hlen]
      obtain ⟨conn', heq⟩ := @processRecv_shortStruct srv clientIdx mem conn hmem hlen
      rw [heq]
      exact received_release ⟨_, rfl⟩
    rw [if_neg hlen]
    by_cases htype : (incoming (Conn.stream false conn)).head.msgType = MsgType.mtReq.code
    · obtain ⟨conn', hconn', heq⟩ :=
        @processRecv_req srv clientIdx mem conn hmem (not_lt.mp hlen) htype
      rw [heq, and_iff_right htype]
      exact received_recvContent hwf hidx (not_lt.mp hlen) htype hconn'
    · obtain ⟨f, hf⟩ := @processRecv_notReq srv clientIdx mem conn hmem (not_lt.mp hlen) htype
      rw [hf]
      exact iff_of_false not_received_error fun h => htype h.1

end Exact

/-- One client is connected. -/
def oneClient : ServerState where
  val := { init with pwrClients := fun i => if i = 0 then ⟨10, 1⟩ else .none }
  property := ⟨TaskReg.wf_empty.initTaskService, by decide, nofun, nofun⟩

/-- The 40 bytes of a message without data whose type is that of a response. -/
def strayResponse : Conn := [.data 1 (0 :: 0 :: 0 :: 0 :: 2 :: List.replicate 34 0)]

end Server

end PowerApi
