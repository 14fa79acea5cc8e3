import PowerApi.Threads
import PowerApi.Receive
import PowerApi.Metadata
import PowerApi.Answers

/-!
# Whom a request is from (`server.c`, `pwrmsg.c`)

Every request has a `head.sysId` that its sender puts there, and every handler acts
for `req->head.sysId`. `ProcessRecvMsgFromClient` overwrites it with the id under which
the connection is registered, so nobody should be able to act for somebody else.

That is a statement about two runs. `Daemon` is the whole server: its two threads, the
collection threads, and the bytes that are still to come on its connections. Two runs
take the same steps; the messages on their connections are the same but for what the
clients have put into `head.sysId` (`SameButSysId`). The states of the two are then equal
after every step, as long as no payload is without memory: without memory the payload
stays in the stream, is taken for the next message, and the `head.sysId` of a message
behind it comes to lie where the server reads something else.

What a reader leaves in uninitialised memory is part of the step (`Machine`).
-/

namespace PowerApi

open Bytes

/-! ## Messages and streams that differ in `head.sysId` only -/

/-- The bytes of a struct, whole or cut off, but for those of `head.sysId`. -/
def HeadAlike (bs bs' : Bytes) : Prop :=
  bs.length = bs'.length ∧ bs.take 24 = bs'.take 24 ∧ bs.drop 28 = bs'.drop 28

instance (bs bs' : Bytes) : Decidable (HeadAlike bs bs') := by
  unfold HeadAlike
  infer_instance

/-- Messages that are the same once `head.sysId` is overwritten. -/
def SameMsg (msg msg' : PwrMsg) : Prop :=
  { msg.head with sysId := 0 } = { msg'.head with sysId := 0 } ∧ msg.data = msg'.data

/-- Streams of the same messages, up to what the sender put in `head.sysId`. The last
message may be cut off. -/
inductive SameButSysId : Bytes → Bytes → Prop where
  | cut {s s' : Bytes} (hcut : s.length < sizeofPwrMsg) (hhead : HeadAlike s s') :
    SameButSysId s s'
  | msg {s s' : Bytes} (hlen : s.length = s'.length) (hwhole : sizeofPwrMsg ≤ s.length)
    (hhead : HeadAlike (s.take sizeofPwrMsg) (s'.take sizeofPwrMsg))
    (hpayload : (s.drop sizeofPwrMsg).take (Server.incoming s).head.dataLen.toNat =
      (s'.drop sizeofPwrMsg).take (Server.incoming s).head.dataLen.toNat)
    (hrest : SameButSysId (s.drop (Server.frameLength s)) (s'.drop (Server.frameLength s))) :
    SameButSysId s s'

/-- A field in front of `head.sysId` or behind it. -/
theorem HeadAlike.fieldAt {bs bs' : Bytes} (h : HeadAlike bs bs') {off k : ℕ}
    (hoff : off + k ≤ 24 ∨ 28 ≤ off) : fieldAt bs off k = fieldAt bs' off k := by
  obtain ⟨-, hfront, hback⟩ := h
  obtain hoff | hoff := hoff
  · rw [← fieldAt_take hoff, ← @fieldAt_take bs' _ _ _ hoff, hfront]
  · obtain ⟨d, rfl⟩ := Nat.exists_eq_add_of_le hoff
    rw [Bytes.fieldAt, Bytes.fieldAt, ← List.drop_drop, ← List.drop_drop, hback]

theorem HeadAlike.sameMsg {bs bs' : Bytes} (h : HeadAlike bs bs') :
    SameMsg (PwrMsg.ofStruct bs) (PwrMsg.ofStruct bs') := by
  have hfield : ∀ off k, off + k ≤ 24 ∨ 28 ≤ off → Bytes.fieldAt bs off k = Bytes.fieldAt bs' off k :=
    fun off k hoff => h.fieldAt hoff
  constructor
  · simp [PwrMsg.ofStruct, MsgHead.ofBytes, hfield]
  · simp [PwrMsg.ofStruct, hfield]

/-- A buffer that was zeroed before a part of a struct was read into it. -/
theorem HeadAlike.zeroFilled {bs bs' : Bytes} (h : HeadAlike bs bs') (n : ℕ) :
    HeadAlike (Conn.zeroFilled n bs) (Conn.zeroFilled n bs') := by
  obtain ⟨hlen, hfront, hback⟩ := h
  unfold Conn.zeroFilled HeadAlike
  rw [hlen]
  refine ⟨by simp [hlen], ?_, ?_⟩
  · rw [List.take_append, List.take_append, hfront, hlen]
  · rw [List.drop_append, List.drop_append, hback, hlen]

namespace SameMsg

variable {msg msg' : PwrMsg}

theorem withSysId (h : SameMsg msg msg') (sysId : UInt32) :
    { msg.head with sysId := sysId } = { msg'.head with sysId := sysId } :=
  congrArg (fun head : MsgHead => { head with sysId := sysId }) h.1

theorem dataLen (h : SameMsg msg msg') : msg.head.dataLen = msg'.head.dataLen := by
  have hhead := congrArg MsgHead.dataLen (h.withSysId 0)
  exact hhead

theorem msgType (h : SameMsg msg msg') : msg.head.msgType = msg'.head.msgType := by
  have hhead := congrArg MsgHead.msgType (h.withSysId 0)
  exact hhead

theorem release (h : SameMsg msg msg') : releasePwrMsg msg = releasePwrMsg msg' :=
  congrArg DataPtr.free h.2

end SameMsg

theorem SameButSysId.length {s s' : Bytes} (h : SameButSysId s s') : s.length = s'.length := by
  cases h with
  | cut _ hhead => exact hhead.1
  | msg hlen => exact hlen

theorem HeadAlike.refl (bs : Bytes) : HeadAlike bs bs := ⟨rfl, rfl, rfl⟩

theorem SameButSysId.refl (s : Bytes) : SameButSysId s s := by
  induction hn : s.length using Nat.strong_induction_on generalizing s with
  | _ n ih =>
    by_cases hcut : s.length < sizeofPwrMsg
    · exact .cut hcut (.refl s)
    · have h40 : 0 < sizeofPwrMsg := by decide
      have hframe : sizeofPwrMsg ≤ Server.frameLength s := Nat.le_add_right ..
      refine .msg rfl (not_lt.mp hcut) (.refl _) rfl (ih _ ?_ _ rfl)
      rw [List.length_drop]
      omega

/-! ## Receiving -/

/-- Two results of `ProcessRecvMsgFromClient`: both faults, or the same server, and
streams that are still the same, or belong to a connection that was cleaned up. -/
inductive SameResult (srv : Server) (clientIdx : Fin maxClientNum) :
    Except Fault (Server × Conn) → Except Fault (Server × Conn) → Prop where
  | fault (f f' : Fault) : SameResult srv clientIdx (.error f) (.error f')
  | ok (srv' : Server) (conn conn' : Conn)
    (h : SameButSysId (Conn.stream false conn) (Conn.stream false conn')) :
    SameResult srv clientIdx (.ok (srv', conn)) (.ok (srv', conn'))
  | lost (pwrClient : PwrClient) (conn conn' : Conn) :
    SameResult srv clientIdx (.ok (srv.cleanClientResource pwrClient clientIdx, conn))
      (.ok (srv.cleanClientResource pwrClient clientIdx, conn'))

namespace Server

/-- There is no memory for the payload of the next message. -/
def Starved (mem : RecvAlloc) (s : Bytes) : Prop :=
  mem.content = 0 ∧ sizeofPwrMsg ≤ s.length ∧ (incoming s).head.dataLen ≠ 0

instance (mem : RecvAlloc) (s : Bytes) : Decidable (Starved mem s) := by
  unfold Starved
  infer_instance

variable {srv : Server} {clientIdx : Fin maxClientNum} {mem : RecvAlloc} {conn conn' : Conn}

/-- The same message is queued. -/
theorem sameResult_add {msg msg' : PwrMsg} (h : SameMsg msg msg') {data : DataPtr} {sysId : UInt32}
    (hstream : SameButSysId (Conn.stream false conn) (Conn.stream false conn')) :
    SameResult srv clientIdx
      ((srv.addToRecvBuff ⟨{ msg.head with sysId := sysId }, data⟩).bind fun srv => .ok (srv, conn))
      ((srv.addToRecvBuff ⟨{ msg'.head with sysId := sysId }, data⟩).bind
        fun srv => .ok (srv, conn')) := by
  rw [h.withSysId]
  cases srv.addToRecvBuff _ with
  | error f => exact .fault f f
  | ok srv' => exact .ok srv' conn conn' hstream

/-- The message is released, and the connection cleaned up. -/
theorem sameResult_lost {msg msg' : PwrMsg} (h : SameMsg msg msg') {pwrClient : PwrClient} :
    SameResult srv clientIdx
      ((releasePwrMsg msg).bind fun _ => .ok (srv.cleanClientResource pwrClient clientIdx, conn))
      ((releasePwrMsg msg').bind
        fun _ => .ok (srv.cleanClientResource pwrClient clientIdx, conn')) := by
  rw [h.release]
  cases releasePwrMsg msg' with
  | error f => exact .fault f f
  | ok u => exact .lost pwrClient conn conn'

/-- The payload of the same struct, if there is memory for it. -/
theorem sameResult_recvContent {msg msg' : PwrMsg} (h : SameMsg msg msg')
    (hlen : (Conn.stream false conn).length = (Conn.stream false conn').length)
    (hpayload : (Conn.stream false conn).take msg.head.dataLen.toNat =
      (Conn.stream false conn').take msg.head.dataLen.toNat)
    (hrest : SameButSysId ((Conn.stream false conn).drop msg.head.dataLen.toNat)
      ((Conn.stream false conn').drop msg.head.dataLen.toNat))
    (hfed : ∀ r, srv.recvContent clientIdx mem msg conn = .ok r →
      msg.head.dataLen = 0 ∨ mem.content ≠ 0) :
    SameResult srv clientIdx (srv.recvContent clientIdx mem msg conn)
      (srv.recvContent clientIdx mem msg' conn') := by
  by_cases hdata : msg.head.dataLen = 0
  · rw [recvContent_add_noData hdata, recvContent_add_noData (h.dataLen ▸ hdata)]
    rw [hdata] at hrest
    exact sameResult_add h hrest
  have hdata' : msg'.head.dataLen ≠ 0 := h.dataLen ▸ hdata
  by_cases hcontent : mem.content = 0
  · rw [recvContent_noContent hdata hcontent] at hfed ⊢
    rw [recvContent_noContent hdata' hcontent, ← h.release]
    cases hrel : releasePwrMsg msg with
    | error f => exact .fault f f
    | ok u =>
      rw [hrel] at hfed
      exact absurd (hfed _ rfl) (by simp [hdata, hcontent])
  by_cases hint : msg.head.dataLen.toNat < 2 ^ 31
  · have hint' : msg'.head.dataLen.toNat < 2 ^ 31 := h.dataLen ▸ hint
    by_cases hshort : (Conn.stream false conn).length < msg.head.dataLen.toNat
    · have hshort' : (Conn.stream false conn').length < msg'.head.dataLen.toNat := by
        rwa [← hlen, ← h.dataLen]
      obtain ⟨c, heq⟩ := @recvContent_short srv clientIdx mem conn _ hdata hcontent hint hshort
      obtain ⟨c', heq'⟩ :=
        @recvContent_short srv clientIdx mem conn' _ hdata' hcontent hint' hshort'
      rw [heq, heq']
      exact sameResult_lost h
    · have hfull' : msg'.head.dataLen.toNat ≤ (Conn.stream false conn').length := by
        rw [← hlen, ← h.dataLen]
        exact not_lt.mp hshort
      obtain ⟨c, hc, heq⟩ :=
        @recvContent_add_full srv clientIdx mem conn _ hdata hcontent hint (not_lt.mp hshort)
      obtain ⟨c', hc', heq'⟩ :=
        @recvContent_add_full srv clientIdx mem conn' _ hdata' hcontent hint' hfull'
      rw [heq, heq', hpayload, h.dataLen]
      refine sameResult_add h ?_
      rw [hc, hc', ← h.dataLen]
      exact hrest
  · have hint' : ¬ msg'.head.dataLen.toNat < 2 ^ 31 := h.dataLen ▸ hint
    rw [recvContent_negative hdata hcontent hint, recvContent_negative hdata' hcontent hint']
    exact .fault _ _

/-- The next message of two streams that are the same but for `head.sysId`. -/
theorem sameResult_processRecv
    (hsame : SameButSysId (Conn.stream false conn) (Conn.stream false conn'))
    (hfed : ∀ r, srv.processRecvMsgFromClient clientIdx mem conn = .ok r → mem.msgOk = true →
      ¬ Starved mem (Conn.stream false conn)) :
    SameResult srv clientIdx (srv.processRecvMsgFromClient clientIdx mem conn)
      (srv.processRecvMsgFromClient clientIdx mem conn') := by
  cases hmem : mem.msgOk with
  | false =>
    rw [processRecv_noMsg hmem, processRecv_noMsg hmem]
    exact .ok srv conn conn' hsame
  | true =>
    have hlength := hsame.length
    cases hsame with
    | cut hcut hhead =>
      obtain ⟨c, heq⟩ := @processRecv_shortStruct srv clientIdx mem conn hmem hcut
      obtain ⟨c', heq'⟩ :=
        @processRecv_shortStruct srv clientIdx mem conn' hmem (hlength ▸ hcut)
      rw [heq, heq']
      exact sameResult_lost (hhead.zeroFilled _).sameMsg
    | msg _ hwhole hhead hpayload hrest =>
      have hmsg : SameMsg (incoming (Conn.stream false conn)) (incoming (Conn.stream false conn')) :=
        hhead.sameMsg
      have hwhole' : sizeofPwrMsg ≤ (Conn.stream false conn').length := hlength ▸ hwhole
      by_cases htype : (incoming (Conn.stream false conn)).head.msgType = MsgType.mtReq.code
      · obtain ⟨c, hc, heq⟩ := @processRecv_req srv clientIdx mem conn hmem hwhole htype
        obtain ⟨c', hc', heq'⟩ :=
          @processRecv_req srv clientIdx mem conn' hmem hwhole' (hmsg.msgType ▸ htype)
        rw [heq] at hfed ⊢
        rw [heq']
        refine sameResult_recvContent hmsg ?_ ?_ ?_ fun r hr => ?_
        · rw [hc, hc', List.length_drop, List.length_drop, hlength]
        · rw [hc, hc']
          exact hpayload
        · rw [hc, hc', List.drop_drop, List.drop_drop]
          exact hrest
        · by_contra hnot
          obtain ⟨hdata, hcontent⟩ := not_or.mp hnot
          exact hfed r hr hmem ⟨not_not.mp hcontent, hwhole, hdata⟩
      · obtain ⟨f, hf⟩ := @processRecv_notReq srv clientIdx mem conn hmem hwhole htype
        obtain ⟨f', hf'⟩ :=
          @processRecv_notReq srv clientIdx mem conn' hmem hwhole' (hmsg.msgType ▸ htype)
        rw [hf, hf']
        exact .fault f f'

end Server

/-! ## The whole server -/

/-- The server, its message factory, and what is still to come on every descriptor. -/
structure Daemon where
  threads : Threads
  factory : MsgFactory
  conns : Int → Conn

namespace Daemon

/-- A step of one of the threads. -/
inductive Event where
  /-- `AcceptConnection`; `conn` is what the new client is going to send -/
  | accept (newClient : PwrClient) (conn : Conn)
  /-- `ProcessRecvMsgFromClient` -/
  | recv (clientIdx : Fin maxClientNum) (mem : RecvAlloc)
  /-- `WriteMsg` finds a connection gone and calls `CleanClientResource` -/
  | lose (idx : Option (Fin maxClientNum))
  /-- the next call of `CleanClientResource` -/
  | clean
  /-- `ProcessSendMsgToClient` takes a message -/
  | send
  /-- `RunServiceProcess` takes a request -/
  | pop
  /-- `ProcessReqMsg` -/
  | serve (m : Machine)
  /-- a collection thread sends data to the subscriber in a slot of its task -/
  | metadata (index : Fin maxTaskNum) (i : Fin maxClientNum) (mem : MetadataAlloc) (data : Bytes)
    (startTime : TimeVal)

/-- After `StartServer`; `factory` is what `InitMsgFactory` has set up. -/
def init (factory : MsgFactory) : Daemon := ⟨Threads.init, factory, fun _ => []⟩

/-- A step that is one of `Threads`. -/
def lift (d : Daemon) (e : Threads.Event) : Option Daemon :=
  (d.threads.step e).map fun threads => { d with threads := threads }

/-- The server after `ProcessRecvMsgFromClient`. Where `ReadMsg` found the connection gone,
the calls of `CleanClientResource` are steps of their own, and nothing more is read. -/
def received (d : Daemon) (clientIdx : Fin maxClientNum) (srv : Server) (conn : Conn) : Daemon :=
  let fd := (d.threads.srv.pwrClients clientIdx).fd
  if (srv.pwrClients clientIdx).fd = invalidFd then
    { d with
      threads := { d.threads with cleaning := some ⟨some clientIdx, .auth⟩ }
      conns := Function.update d.conns fd [] }
  else
    { d with
      threads := { d.threads with srv := srv }
      conns := Function.update d.conns fd conn }

/-- One step; `none` where the process stops. -/
def step (d : Daemon) : Event → Option Daemon
  | .accept newClient conn =>
    (d.lift (.accept newClient)).map fun d =>
      { d with conns := Function.update d.conns newClient.fd conn }
  | .recv clientIdx mem =>
    let fd := (d.threads.srv.pwrClients clientIdx).fd
    if d.threads.cleaning = none ∧ fd ≠ invalidFd then
      (d.threads.srv.processRecvMsgFromClient clientIdx mem (d.conns fd)).toOption.map
        fun r => d.received clientIdx r.1 r.2
    else none
  | .lose idx => d.lift (.lose idx)
  | .clean => d.lift .clean
  | .send => d.lift .send
  | .pop => d.lift .pop
  | .serve m => d.lift (.serve m)
  | .metadata index i mem data startTime =>
    (d.threads.srv.sendMetadataToSubscriber d.factory mem index i data startTime).toOption.map
      fun r => { d with threads := { d.threads with srv := r.1 }, factory := r.2 }

/-- A step that does not leave a payload without memory. -/
def Fed (d : Daemon) : Event → Prop
  | .recv clientIdx mem =>
    mem.msgOk = true →
      ¬ Server.Starved mem
        (Conn.stream false (d.conns (d.threads.srv.pwrClients clientIdx).fd))
  | _ => True

/-- The same step, on a connection with the same messages up to `head.sysId`. -/
inductive Event.Alike : Event → Event → Prop where
  | same (e : Event) : Event.Alike e e
  | accept (newClient : PwrClient) (conn conn' : Conn)
    (h : SameButSysId (Conn.stream false conn) (Conn.stream false conn')) :
    Event.Alike (.accept newClient conn) (.accept newClient conn')

/-- The states of two runs: the servers are equal, and so is what is to come but for
`head.sysId`. -/
structure Twins (d d' : Daemon) : Prop where
  threads : d.threads = d'.threads
  factory : d.factory = d'.factory
  conns : ∀ fd, SameButSysId (Conn.stream false (d.conns fd)) (Conn.stream false (d'.conns fd))

theorem sameButSysId_nil : SameButSysId (Conn.stream false []) (Conn.stream false []) := .refl _

theorem twins_init (factory : MsgFactory) : Twins (init factory) (init factory) :=
  ⟨rfl, rfl, fun _ => sameButSysId_nil⟩

variable {d d' : Daemon}

theorem Twins.update (h : Twins d d') (fd : Int) {conn conn' : Conn}
    (hconn : SameButSysId (Conn.stream false conn) (Conn.stream false conn')) :
    Twins { d with conns := Function.update d.conns fd conn }
      { d' with conns := Function.update d'.conns fd conn' } := by
  refine ⟨h.threads, h.factory, fun fd' => ?_⟩
  by_cases hfd : fd' = fd
  · subst hfd
    simpa using hconn
  · simpa [hfd] using h.conns fd'

theorem Twins.lift (h : Twins d d') (e : Threads.Event) :
    Option.Rel Twins (d.lift e) (d'.lift e) := by
  rw [Daemon.lift, Daemon.lift, ← h.threads]
  cases d.threads.step e with
  | none => exact .none
  | some threads => exact .some ⟨rfl, h.factory, h.conns⟩

theorem Twins.accept (h : Twins d d') (newClient : PwrClient) {conn conn' : Conn}
    (hconn : SameButSysId (Conn.stream false conn) (Conn.stream false conn')) :
    Option.Rel Twins (d.step (.accept newClient conn)) (d'.step (.accept newClient conn')) := by
  have hlift := h.lift (.accept newClient)
  dsimp only [Daemon.step]
  generalize d.lift (.accept newClient) = r at hlift ⊢
  generalize d'.lift (.accept newClient) = r' at hlift ⊢
  cases hlift with
  | none => exact .none
  | some htwins => exact .some (htwins.update newClient.fd hconn)

theorem Twins.received (h : Twins d d') {clientIdx : Fin maxClientNum}
    {r r' : Except Fault (Server × Conn)}
    (hres : SameResult d.threads.srv clientIdx r r') :
    Option.Rel Twins (r.toOption.map fun r => d.received clientIdx r.1 r.2)
      (r'.toOption.map fun r => d'.received clientIdx r.1 r.2) := by
  cases hres with
  | fault f f' => exact .none
  | ok srv' conn conn' hconn =>
    refine .some ?_
    unfold Daemon.received
    rw [← h.threads]
    dsimp only
    split
    · exact ⟨rfl, h.factory, (h.update _ sameButSysId_nil).conns⟩
    · exact ⟨rfl, h.factory, (h.update _ hconn).conns⟩
  | lost pwrClient conn conn' =>
    refine .some ?_
    unfold Daemon.received
    rw [← h.threads]
    dsimp only
    rw [if_pos (Server.cleanClientResource_fd ..), if_pos (Server.cleanClientResource_fd ..)]
    exact ⟨rfl, h.factory, (h.update _ sameButSysId_nil).conns⟩

theorem Twins.recv (h : Twins d d') {clientIdx : Fin maxClientNum} {mem : RecvAlloc}
    (hfed : ∀ e, d.step (.recv clientIdx mem) = some e → d.Fed (.recv clientIdx mem)) :
    Option.Rel Twins (d.step (.recv clientIdx mem)) (d'.step (.recv clientIdx mem)) := by
  dsimp only [Daemon.step] at hfed ⊢
  rw [← h.threads]
  split
  · rename_i hidle
    refine h.received (Server.sameResult_processRecv (h.conns _) fun r hr => ?_)
    rw [if_pos hidle, hr] at hfed
    exact hfed _ rfl
  · exact .none

theorem Twins.metadata (h : Twins d d') (index : Fin maxTaskNum) (i : Fin maxClientNum)
    (mem : MetadataAlloc) (data : Bytes) (startTime : TimeVal) :
    Option.Rel Twins (d.step (.metadata index i mem data startTime))
      (d'.step (.metadata index i mem data startTime)) := by
  dsimp only [Daemon.step]
  rw [← h.threads, ← h.factory]
  cases d.threads.srv.sendMetadataToSubscriber d.factory mem index i data startTime with
  | error f => exact .none
  | ok r => exact .some ⟨rfl, rfl, h.conns⟩

/-- Related steps keep the states twins. -/
theorem Twins.step (h : Twins d d') {e e' : Event} (he : Event.Alike e e')
    (hfed : ∀ c, d.step e = some c → d.Fed e) :
    Option.Rel Twins (d.step e) (d'.step e') := by
  cases he with
  | accept newClient conn conn' hconn => exact h.accept newClient hconn
  | same e =>
    cases e with
    | accept newClient conn => exact h.accept newClient (SameButSysId.refl _)
    | recv clientIdx mem => exact h.recv hfed
    | metadata index i mem data startTime => exact h.metadata index i mem data startTime
    | _ => exact h.lift _

/-- **A client cannot impersonate another.** Two runs of the same steps, in which no payload
is without memory, over connections with the same messages up to `head.sysId`, go through
equal states. -/
theorem runs_without_sysId (factory : MsgFactory) (events events' : List Event)
    (halike : List.Forall₂ Event.Alike events events')
    (hfed : Transition.Along Daemon.step (fun d e _ => d.Fed e) (init factory) events) (n : ℕ) :
    (Transition.run Daemon.step (init factory) (events.take n)).map Daemon.threads =
      (Transition.run Daemon.step (init factory) (events'.take n)).map Daemon.threads := by
  have hfed' : Transition.Along Daemon.step (fun d e _ => d.Fed e) (init factory)
      (events.take n) := by
    rw [← List.take_append_drop n events] at hfed
    exact (Transition.along_append.mp hfed).1
  have hstep : ∀ {d d' : Daemon} {e e' : Event}, Twins d d' → Event.Alike e e' →
      (∀ c, Daemon.step d e = some c → d.Fed e) →
      Option.Rel Twins (Daemon.step d e) (Daemon.step d' e') :=
    fun htwins he hfed => htwins.step he hfed
  have hrel := Transition.run_lockstep hstep (List.forall₂_take n halike) (twins_init factory) hfed'
  revert hrel
  generalize Transition.run Daemon.step (init factory) (events.take n) = r
  generalize Transition.run Daemon.step (init factory) (events'.take n) = r'
  rintro (⟨htwins⟩ | _)
  · exact congrArg some htwins.threads
  · rfl

instance (d : Daemon) (e : Event) : Decidable (d.Fed e) := by
  unfold Fed
  split <;> infer_instance

/-- The struct of a request, as a client may write it. -/
def requestStruct (optType : UInt16) (dataLen sysId : UInt32) : Bytes :=
  (PwrMsg.mk { MsgHead.zero with
    optType := optType, msgType := MsgType.mtReq.code, dataLen := dataLen, sysId := sysId }
    .null).structBytes

/-- All of some bytes come at once. -/
def atOnce : Bytes → Conn
  | [] => []
  | b :: bs => [.data b bs]

/-- Client 1 asks for the authority, and says that it is `sysId`. -/
def askAs (sysId : UInt32) : List Event :=
  [.accept ⟨10, 1⟩ (atOnce (requestStruct OperationType.comRequestControlAuth.code 0 sysId)),
    .recv 0 ⟨true, 0⟩, .pop, .serve Server.bareMachine]

theorem runs_without_sysId_ask :
    (Transition.run Daemon.step (init ⟨0, 0⟩) ((askAs 2).take 4)).map Daemon.threads =
      (Transition.run Daemon.step (init ⟨0, 0⟩) ((askAs 3).take 4)).map Daemon.threads :=
  runs_without_sysId ⟨0, 0⟩ (askAs 2) (askAs 3)
    (.cons (.accept _ _ _ (.msg (by decide +kernel) (by decide +kernel) (by decide +kernel)
        (by decide +kernel) (.cut (by decide +kernel) (by decide +kernel))))
      (.cons (.same _) (.cons (.same _) (.cons (.same _) .nil))))
    (by decide +kernel) 4

/-- Two requests, each with a payload; the first payload is a struct that covers the
second request up to its `head.sysId`. There is no memory for the first payload. -/
def smuggle (sysId : UInt32) : List Event :=
  [.accept ⟨10, 1⟩ (atOnce (requestStruct 0 40 1 ++ requestStruct 0 22 1 ++
      requestStruct 0 22 sysId ++ List.replicate 22 0)),
    .recv 0 ⟨true, 0⟩, .recv 0 ⟨true, 4096⟩, .recv 0 ⟨true, 4096⟩, .pop,
    .serve Server.bareMachine, .pop, .serve Server.bareMachine]

/-- What the client puts into `head.sysId` of its second request decides whether it
gets the authority. -/
theorem smuggle_not_equal :
    List.Forall₂ Event.Alike (smuggle 0x01000000)
        (smuggle (0x01000000 + OperationType.comRequestControlAuth.code.toUInt32)) ∧
      (Transition.run Daemon.step (init ⟨0, 0⟩) (smuggle 0x01000000)).map Daemon.threads ≠
        (Transition.run Daemon.step (init ⟨0, 0⟩)
          (smuggle (0x01000000 + OperationType.comRequestControlAuth.code.toUInt32))).map
            Daemon.threads := by
  constructor
  · refine .cons (.accept _ _ _ ?_) ?_
    · refine .msg (by decide +kernel) (by decide +kernel) (by decide +kernel)
        (by decide +kernel) (.msg (by decide +kernel) (by decide +kernel) (by decide +kernel)
        (by decide +kernel) (.cut (by decide +kernel) (by decide +kernel)))
    · exact List.forall₂_same.mpr fun e _ => .same e
  · intro heq
    have hauth := congrArg (Option.map fun threads => threads.srv.auth) heq
    exact absurd hauth (by decide +kernel)

end Daemon

end PowerApi
