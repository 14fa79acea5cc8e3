import PowerApi.ClientSocket
import PowerApi.Receive

/-!
# Framing: what is sent is what is received

A message travels as its struct followed by its payload. Sending was described in
`Send` by the frames that are written; here the receiving functions of both sides
are shown to take one frame off the front of a stream and give back its head and
payload, and the two are put together: a session of the one side, read by the
other, however `send` and `recv` cut the stream.
-/

namespace PowerApi

/-- A message that both sides can handle: it owns its data, whose length is an
`int`. -/
def Sendable (m : PwrMsg) : Prop := m.Holds ∧ m.head.dataLen.toNat < 2 ^ 31

/-- The head and the payload of a message, which is what the other side gets of it. -/
def contents (m : PwrMsg) : MsgHead × Bytes := (m.head, m.payload)

/-- The struct at the front of a stream of frames. -/
theorem ofStruct_frame (m : PwrMsg) (rest : Bytes) :
    PwrMsg.ofStruct ((m.frame ++ rest).take sizeofPwrMsg) =
      ⟨m.head, DataPtr.ofAddr m.data.addr⟩ := by
  have htake : (m.frame ++ rest).take sizeofPwrMsg = m.structBytes ++ [] := by
    rw [PwrMsg.frame, List.append_assoc, List.take_left' m.length_structBytes, List.append_nil]
  rw [htake, PwrMsg.ofStruct_structBytes]

/-- The payload behind it. -/
theorem drop_frame (m : PwrMsg) (rest : Bytes) :
    (m.frame ++ rest).drop sizeofPwrMsg = m.payload ++ rest := by
  rw [PwrMsg.frame, List.append_assoc, List.drop_left' m.length_structBytes]

theorem length_frame_le (m : PwrMsg) (rest : Bytes) :
    sizeofPwrMsg ≤ (m.frame ++ rest).length := by
  rw [PwrMsg.frame, List.length_append, List.length_append, m.length_structBytes]
  omega

theorem payload_eq_nil {m : PwrMsg} (hm : m.Holds) (hdata : m.head.dataLen = 0) :
    m.payload = [] := by
  refine List.eq_nil_of_length_eq_zero ?_
  rw [hm.length_payload, hdata]
  rfl

/-! ## The library receives -/

namespace ClientAlloc

/-- Both allocations succeed. -/
def Ok (mem : ClientAlloc) : Prop := mem.msgOk = true ∧ mem.content ≠ 0

end ClientAlloc

namespace ClientSock

/-- One call takes one frame off the stream. -/
theorem recvMsgFromSocket_frame (c : ClientSock) {m : PwrMsg} (hm : Sendable m) {rest : Bytes}
    {mem : ClientAlloc} (hmem : mem.Ok) {conn : Conn}
    (hconn : Conn.stream false conn = m.frame ++ rest) :
    ∃ d conn', c.recvMsgFromSocket mem conn = .ok (some d, c, conn') ∧
      Conn.stream false conn' = rest ∧ contents d.msg = contents m := by
  obtain ⟨hholds, hint⟩ := hm
  have hlen : sizeofPwrMsg ≤ (Conn.stream false conn).length := by
    rw [hconn]
    exact length_frame_le m rest
  obtain ⟨conn₁, heq₁, hconn₁⟩ := c.readMsg_full mem.msgStale hlen
  rw [hconn] at heq₁ hconn₁
  rw [drop_frame] at hconn₁
  unfold recvMsgFromSocket
  rw [if_neg (by simp [hmem.1]), heq₁]
  dsimp only
  rw [ofStruct_frame, if_neg (by simp)]
  dsimp only
  by_cases hdata : m.head.dataLen = 0
  · rw [if_neg (by simp [hdata])]
    refine ⟨_, conn₁, rfl, ?_, ?_⟩
    · rw [hconn₁, payload_eq_nil hholds hdata, List.nil_append]
    · rw [Delivery.msg_ofMsg, contents, contents, payload_eq_nil hholds hdata]
      rfl
  · have hpayload := hholds.length_payload
    have hlen₂ : m.head.dataLen.toNat ≤ (Conn.stream false conn₁).length := by
      rw [hconn₁, List.length_append]
      omega
    obtain ⟨conn₂, heq₂, hconn₂⟩ := c.readMsg_full mem.contentStale hlen₂
    rw [hconn₁, List.take_left' hpayload] at heq₂
    rw [hconn₁, List.drop_left' hpayload] at hconn₂
    rw [if_pos hdata, if_neg hmem.2, intArg_of_lt hint, heq₂]
    dsimp only
    rw [if_neg (by simp)]
    refine ⟨_, conn₂, rfl, hconn₂, ?_⟩
    rw [Delivery.msg_ofMsg]
    rfl

/-- `n` calls of `RecvMsgFromSocket`: the messages that were handed on. -/
def recvMsgs (mem : ℕ → ClientAlloc) :
    ℕ → ClientSock → Conn → Except Fault (List Delivery × ClientSock × Conn)
  | 0, c, conn => .ok ([], c, conn)
  | n + 1, c, conn => do
    let (d, c, conn) ← c.recvMsgFromSocket (mem n) conn
    let (ds, c, conn) ← recvMsgs mem n c conn
    return (d.toList ++ ds, c, conn)

/-- As many calls as there are frames take them all. -/
theorem recvMsgs_frames {mem : ℕ → ClientAlloc} (hmem : ∀ i, (mem i).Ok) (c : ClientSock)
    (ms : List PwrMsg) (hms : ∀ m ∈ ms, Sendable m) (conn : Conn)
    (hconn : Conn.stream false conn = ms.flatMap PwrMsg.frame) :
    ∃ ds conn', recvMsgs mem ms.length c conn = .ok (ds, c, conn') ∧
      Conn.stream false conn' = [] ∧ ds.map (contents ∘ Delivery.msg) = ms.map contents := by
  induction ms generalizing conn with
  | nil => exact ⟨[], conn, rfl, hconn, rfl⟩
  | cons m ms ih =>
    rw [List.flatMap_cons] at hconn
    obtain ⟨d, conn₁, heq₁, hconn₁, hd⟩ :=
      c.recvMsgFromSocket_frame (hms m List.mem_cons_self) (hmem ms.length) hconn
    obtain ⟨ds, conn', heq, hconn', hds⟩ :=
      ih (fun m' hm' => hms m' (List.mem_cons_of_mem m hm')) conn₁ hconn₁
    refine ⟨d :: ds, conn', ?_, hconn', ?_⟩
    · rw [List.length_cons, recvMsgs, heq₁]
      dsimp only [bind, Except.bind]
      rw [heq]
      rfl
    · rw [List.map_cons, List.map_cons, hds, ← hd]
      rfl

end ClientSock

/-! ## The server receives -/

namespace Server

theorem WF.withRecv {srv : Server} (hwf : srv.WF) {q : PwrMsg} (hq : q.Holds) :
    (srv.withRecv q).WF where
  tasks := hwf.tasks
  distinct := hwf.distinct
  recv_holds := by
    intro m hm
    obtain hm | rfl := mem_toList_enqueue hm
    · exact hwf.recv_holds m hm
    · exact hq
  send_free := hwf.send_free

/-- The head of a request as the server keeps it. -/
def stamped (sysId : UInt32) (m : PwrMsg) : MsgHead × Bytes :=
  ({ m.head with sysId := sysId }, m.payload)

/-- One call takes the frame of one request off the stream and queues the request. -/
theorem processRecv_frame {srv : Server} (hwf : srv.WF) (clientIdx : Fin maxClientNum) {m : PwrMsg}
    (hm : Sendable m) (htype : m.head.msgType = MsgType.mtReq.code) {rest : Bytes}
    {mem : RecvAlloc} (hmem : mem.msgOk = true ∧ mem.content ≠ 0) {conn : Conn}
    (hconn : Conn.stream false conn = m.frame ++ rest) :
    ∃ q conn', srv.processRecvMsgFromClient clientIdx mem conn = .ok (srv.withRecv q, conn') ∧
      Conn.stream false conn' = rest ∧ q.Holds ∧
      contents q = stamped (srv.pwrClients clientIdx).sysId m := by
  obtain ⟨hholds, hint⟩ := hm
  have hlen : sizeofPwrMsg ≤ (Conn.stream false conn).length := by
    rw [hconn]
    exact length_frame_le m rest
  have hincoming : incoming (Conn.stream false conn) = ⟨m.head, DataPtr.ofAddr m.data.addr⟩ := by
    rw [incoming, hconn, ofStruct_frame]
  obtain ⟨conn₁, hconn₁, heq₁⟩ :=
    @processRecv_req srv clientIdx mem conn hmem.1 hlen (by rw [hincoming]; exact htype)
  rw [hincoming] at heq₁
  rw [hconn, drop_frame] at hconn₁
  rw [heq₁]
  by_cases hdata : m.head.dataLen = 0
  · refine ⟨_, conn₁, recvContent_noData hwf hdata, ?_, hdata, ?_⟩
    · rw [hconn₁, payload_eq_nil hholds hdata, List.nil_append]
    · rw [contents, stamped, payload_eq_nil hholds hdata]
      rfl
  · have hpayload := hholds.length_payload
    have hlen₁ : m.head.dataLen.toNat ≤ (Conn.stream false conn₁).length := by
      rw [hconn₁, List.length_append]
      omega
    obtain ⟨conn₂, hconn₂, heq₂⟩ := @recvContent_full srv clientIdx mem conn₁
      ⟨m.head, DataPtr.ofAddr m.data.addr⟩ hdata hmem.2 hint hwf hlen₁
    dsimp only at hconn₂ heq₂
    rw [hconn₁, List.take_left' hpayload] at heq₂
    rw [hconn₁, List.drop_left' hpayload] at hconn₂
    exact ⟨_, conn₂, heq₂, hconn₂, ⟨hmem.2, hdata, hpayload⟩, rfl⟩

/-- `n` calls of `ProcessRecvMsgFromClient` for one client. -/
def recvMsgs (clientIdx : Fin maxClientNum) (mem : ℕ → RecvAlloc) :
    ℕ → Server → Conn → Except Fault (Server × Conn)
  | 0, srv, conn => .ok (srv, conn)
  | n + 1, srv, conn => do
    let (srv, conn) ← srv.processRecvMsgFromClient clientIdx (mem n) conn
    recvMsgs clientIdx mem n srv conn

/-- As many calls as there are frames queue them all, in order. -/
theorem recvMsgs_frames {clientIdx : Fin maxClientNum} {mem : ℕ → RecvAlloc}
    (hmem : ∀ i, (mem i).msgOk = true ∧ (mem i).content ≠ 0) {srv : Server} (hwf : srv.WF)
    (ms : List PwrMsg) (hms : ∀ m ∈ ms, Sendable m ∧ m.head.msgType = MsgType.mtReq.code)
    (conn : Conn) (hconn : Conn.stream false conn = ms.flatMap PwrMsg.frame) :
    ∃ (qs : List PwrMsg) (conn' : Conn),
      recvMsgs clientIdx mem ms.length srv conn = .ok (qs.foldl withRecv srv, conn') ∧
      Conn.stream false conn' = [] ∧
      qs.map contents = ms.map (stamped (srv.pwrClients clientIdx).sysId) := by
  induction ms generalizing srv conn with
  | nil => exact ⟨[], conn, rfl, hconn, rfl⟩
  | cons m ms ih =>
    rw [List.flatMap_cons] at hconn
    obtain ⟨hm, htype⟩ := hms m List.mem_cons_self
    obtain ⟨q, conn₁, heq₁, hconn₁, hq, hqm⟩ :=
      processRecv_frame hwf clientIdx hm htype (hmem ms.length) hconn
    obtain ⟨qs, conn', heq, hconn', hqs⟩ := ih (hwf.withRecv hq)
      (fun m' hm' => hms m' (List.mem_cons_of_mem m hm')) conn₁ hconn₁
    refine ⟨q :: qs, conn', ?_, hconn', ?_⟩
    · rw [List.length_cons, recvMsgs, heq₁]
      exact heq
    · rw [List.map_cons, List.map_cons, hqs, hqm]
      rfl

end Server

/-! ## Both ends -/

/-- A session of a sender in which every `send` takes something: with an empty queue
and nothing written, the operations `ops` lead to `s'`. -/
structure Session {σ : Type} (S : Sender σ) (out : σ → Outgoing) (s : σ) (ops : List SendOp)
    (s' : σ) : Prop where
  accepting : (out s).Accepting
  nothing_written : (out s).written = []
  nothing_queued : (S.queue s).toList = []
  run : Transition.run S.step s ops = some s'

/-- In a session no send goes wrong, and when the queue is empty each descriptor has
been written exactly the frames of the messages for it. -/
theorem Session.written {σ : Type} {S : Sender σ} {out : σ → Outgoing} {s s' : σ}
    {ops : List SendOp} (h : Session S out s ops s') {I : σ → Prop} {dest : PwrMsg → Int}
    (hS : S.Emits I (fun s => (out s).writtenTo) dest) (hI : I s) :
    (∃ s'', S.process s' = .ok s'') ∧ ((S.queue s').toList = [] →
      ∀ fd, fd ≠ invalidFd → (out s').writtenTo fd = framesTo dest fd (added ops)) := by
  obtain ⟨⟨hI', hq'⟩, hlog⟩ :=
    hS.session ops s s' hI (by rw [h.nothing_queued]; exact nofun) h.run
  refine ⟨?_, fun hdone fd hfd => ?_⟩
  · obtain ⟨s'', -, heq, -⟩ := hS.processLoop S.maxCount s' hI' hq'
    exact ⟨s'', heq⟩
  · have hstart : (out s).writtenTo fd = [] := by rw [Outgoing.writtenTo, h.nothing_written]; rfl
    have hfd' := hlog fd hfd
    rw [hdone, h.nothing_queued, hstart, framesTo, List.filter_nil, List.flatMap_nil,
      List.append_nil] at hfd'
    exact hfd'

/-- The messages that were added are all sendable. -/
theorem sendable_added {ops : List SendOp}
    (hint : ∀ m ∈ added ops, m.head.dataLen.toNat < 2 ^ 31) : ∀ m ∈ added ops, Sendable m := by
  intro m hm
  refine ⟨?_, hint m hm⟩
  obtain ⟨op, -, hop⟩ := List.mem_filterMap.mp hm
  cases op with
  | add m' =>
    obtain rfl := Option.some.inj hop
    exact m'.2
  | process => cases hop

/-- **Framing.** In both directions: however `send` cuts what it takes, no send goes
wrong and, once the queue is empty, the bytes written are the frames of the
messages in order; and however `recv` cuts these bytes, receiving as often as there
are messages gives their heads and payloads in order and leaves nothing. -/
theorem framing_round_trip :
    (∀ (srv srv' : Server) (out out' : Outgoing) (ops : List SendOp) (fd : Int),
      Session Server.sender Prod.snd (srv, out) ops (srv', out') → fd ≠ invalidFd →
      (∀ m ∈ added ops, m.head.dataLen.toNat < 2 ^ 31) →
      (∃ s'', Server.processSendMsgToClient (srv', out') = .ok s'') ∧
      (srv'.sendBuff.toList = [] →
        let ms := (added ops).filter fun m =>
          decide (srv.pwrClients.getFdBySysId m.head.sysId = fd)
        out'.writtenTo fd = ms.flatMap PwrMsg.frame ∧
        ∀ (c : ClientSock) (mem : ℕ → {mem : ClientAlloc // mem.Ok}) (conn : Conn),
          Conn.stream false conn = out'.writtenTo fd →
          ∃ ds conn', ClientSock.recvMsgs (fun i => (mem i).1) ms.length c conn =
              .ok (ds, c, conn') ∧
            Conn.stream false conn' = [] ∧ ds.map (contents ∘ Delivery.msg) = ms.map contents)) ∧
    (∀ (c c' : ClientSock) (out out' : Outgoing) (ops : List SendOp),
      Session ClientSock.sender Prod.snd (c, out) ops (c', out') → c.sockFd ≠ invalidFd →
      (∀ m ∈ added ops, m.head.dataLen.toNat < 2 ^ 31) →
      (∀ m ∈ added ops, m.head.msgType = MsgType.mtReq.code) →
      (∃ s'', ClientSock.sendMsgToSocket (c', out') = .ok s'') ∧
      (c'.sendBuff.toList = [] →
        out'.writtenTo c.sockFd = (added ops).flatMap PwrMsg.frame ∧
        ∀ (srv : ServerState) (clientIdx : Fin maxClientNum)
          (mem : ℕ → {mem : RecvAlloc // mem.msgOk = true ∧ mem.content ≠ 0}) (conn : Conn),
          Conn.stream false conn = out'.writtenTo c.sockFd →
          ∃ (qs : List PwrMsg) (conn' : Conn),
            Server.recvMsgs clientIdx (fun i => (mem i).1) (added ops).length srv.1 conn =
              .ok (qs.foldl Server.withRecv srv.1, conn') ∧
            Conn.stream false conn' = [] ∧
            qs.map contents =
              (added ops).map (Server.stamped (srv.1.pwrClients clientIdx).sysId))) := by
  constructor
  · intro srv srv' out out' ops fd h hfd hint
    obtain ⟨hok, hwritten⟩ := h.written (Server.emits srv.pwrClients) ⟨rfl, h.accepting⟩
    refine ⟨hok, fun hdone => ⟨hwritten hdone fd hfd, fun c mem conn hconn => ?_⟩⟩
    rw [hwritten hdone fd hfd] at hconn
    refine ClientSock.recvMsgs_frames (fun i => (mem i).2) c _ (fun m hm => ?_) conn hconn
    exact sendable_added hint m (List.mem_of_mem_filter hm)
  · intro c c' out out' ops h hfd hint hreq
    obtain ⟨hok, hwritten⟩ := h.written (ClientSock.emits c.sockFd) ⟨rfl, h.accepting⟩
    have hall : framesTo (fun _ => c.sockFd) c.sockFd (added ops) =
        (added ops).flatMap PwrMsg.frame := by
      rw [framesTo, List.filter_eq_self.mpr fun m _ => decide_eq_true rfl]
    refine ⟨hok, fun hdone => ?_⟩
    have hbytes := (hwritten hdone c.sockFd hfd).trans hall
    refine ⟨hbytes, fun srv clientIdx mem conn hconn => ?_⟩
    refine Server.recvMsgs_frames (fun i => (mem i).2) srv.2 _ (fun m hm => ?_) conn
      (hconn.trans hbytes)
    exact ⟨sendable_added hint m hm, hreq m hm⟩

/-- A request with a payload of two bytes. -/
def twoBytes : {m : PwrMsg // m.Holds} where
  val := ⟨{ MsgHead.zero with msgType := MsgType.mtReq.code, dataLen := 2, sysId := 1 },
    .heap 1 [7, 8]⟩
  property := by decide

theorem framing_round_trip_twoBytes :
    (∃ srv' out', Session Server.sender Prod.snd
        (Server.oneClient.1, ⟨[.accept 0, .accept 6], []⟩) [.add twoBytes, .process] (srv', out') ∧
      out'.writtenTo 10 = [twoBytes.1].flatMap PwrMsg.frame) ∧
    ∃ c' out', Session ClientSock.sender Prod.snd
        (⟨10, initPwrMsgBuffer⟩, ⟨[.accept 0, .accept 6], []⟩) [.add twoBytes, .process] (c', out') ∧
      out'.writtenTo 10 = [twoBytes.1].flatMap PwrMsg.frame := by
  constructor
  · have h : Session Server.sender Prod.snd
        (Server.oneClient.1, ⟨[.accept 0, .accept 6], []⟩) [.add twoBytes, .process] (_, _) :=
      ⟨⟨[0, 6], rfl⟩, rfl, rfl, rfl⟩
    exact ⟨_, _, h, ((framing_round_trip.1 _ _ _ _ _ 10 h (by decide) (by decide)).2 rfl).1⟩
  · have h : Session ClientSock.sender Prod.snd
        (⟨10, initPwrMsgBuffer⟩, ⟨[.accept 0, .accept 6], []⟩) [.add twoBytes, .process] (_, _) :=
      ⟨⟨[0, 6], rfl⟩, rfl, rfl, rfl⟩
    exact ⟨_, _, h, ((framing_round_trip.2 _ _ _ _ _ h (by decide) (by decide) (by decide)).2 rfl).1⟩

end PowerApi
