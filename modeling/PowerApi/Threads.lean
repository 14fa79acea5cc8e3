import PowerApi.Send
import PowerApi.Service

/-!
# The two threads of the server (`server.c`)

The socket thread accepts connections, receives requests into `g_recvBuff`,
sends from `g_sendBuff` and cleans up after connections that are gone; the
service thread pops requests and processes them. `Threads` is the server with
the place each thread has reached, and an event is one step of one of them:
`CleanClientResource` takes three steps, one for each function it calls, and a
request that has been popped is processed in a step of its own, so that the
other thread can come in between.

A client that is gone must not be granted anything. It can be, by a request of
its own that was still queued; `gone_granted_nothing` says that nothing else
grants it anything.
-/

namespace PowerApi

/-- The next call of `CleanClientResource`. -/
inductive CleanPc where
  /-- `CleanControlAuth` -/
  | auth
  /-- `CleanDataCollTaskByClient` -/
  | tasks
  /-- `DeleteFromClientList` -/
  | list
  deriving DecidableEq, Repr

/-- A `CleanClientResource` under way. -/
structure Cleaning where
  idx : Option (Fin maxClientNum)
  pc : CleanPc
  deriving DecidableEq, Repr

/-- The server and its two threads. -/
structure Threads where
  srv : Server
  /-- the request that the service thread has popped -/
  cur : Option PwrMsg
  /-- what the socket thread is in the middle of -/
  cleaning : Option Cleaning

namespace Threads

/-- A step of one of the threads. -/
inductive Event where
  /-- `AcceptConnection` has decoded who connects -/
  | accept (newClient : PwrClient)
  /-- `ProcessRecvMsgFromClient` has read a request -/
  | receive (clientIdx : Fin maxClientNum) (msg : PwrMsg)
  /-- `ReadMsg` or `WriteMsg` finds the connection gone and calls `CleanClientResource` -/
  | lose (idx : Option (Fin maxClientNum))
  /-- the next call of `CleanClientResource` -/
  | clean
  /-- `ProcessSendMsgToClient` takes a message -/
  | send
  /-- `RunServiceProcess` takes a request -/
  | pop
  /-- `ProcessReqMsg` -/
  | serve (m : Machine)

/-- After `StartServer`. -/
def init : Threads := ⟨Server.init, none, none⟩

/-- A call of `CleanClientResource`, which was given the array, that is slot 0. -/
def cleanCall (s : Threads) (c : Cleaning) : Threads :=
  match c.pc with
  | .auth =>
    { s with
      srv := { s.srv with auth := s.srv.auth.cleanControlAuth (s.srv.pwrClients 0).sysId }
      cleaning := some { c with pc := .tasks } }
  | .tasks =>
    { s with
      srv := { s.srv with
        tasks := s.srv.tasks.cleanDataCollTaskByClient (s.srv.pwrClients 0).sysId }
      cleaning := some { c with pc := .list } }
  | .list =>
    { s with
      srv := { s.srv with pwrClients := (s.srv.pwrClients.deleteFromClientList c.idx).2.1 }
      cleaning := none }

/-- One step; the socket thread does nothing else while it cleans up. -/
def step (s : Threads) : Event → Option Threads
  | .accept newClient =>
    if s.cleaning = none ∧ 0 ≤ newClient.fd then
      some { s with
        srv := { s.srv with pwrClients := (s.srv.pwrClients.addToClientList newClient).2.1 } }
    else none
  | .receive clientIdx msg =>
    if s.cleaning = none ∧ (s.srv.pwrClients clientIdx).fd ≠ invalidFd ∧
        msg.head.msgType = MsgType.mtReq.code then
      (s.srv.addToRecvBuff
        ⟨{ msg.head with sysId := (s.srv.pwrClients clientIdx).sysId }, msg.data⟩).toOption.map
        fun srv => { s with srv := srv }
    else none
  | .lose idx => if s.cleaning = none then some { s with cleaning := some ⟨idx, .auth⟩ } else none
  | .clean => s.cleaning.map s.cleanCall
  | .send =>
    if s.cleaning = none then
      some { s with srv := { s.srv with sendBuff := (popFromBufferHead s.srv.sendBuff).2 } }
    else none
  | .pop =>
    if s.cur = none then
      let (msg, recvBuff) := popFromBufferHead s.srv.recvBuff
      some { s with srv := { s.srv with recvBuff := recvBuff }, cur := msg }
    else none
  | .serve m =>
    s.cur.bind fun req =>
      (s.srv.processReqMsg m req).toOption.map fun srv => { s with srv := srv, cur := none }

/-- What the steps do, one case for each event. -/
inductive Move (s : Threads) : Event → Threads → Prop where
  | accept (newClient : PwrClient) (hidle : s.cleaning = none) :
    Move s (.accept newClient) { s with
      srv := { s.srv with pwrClients := (s.srv.pwrClients.addToClientList newClient).2.1 } }
  | receive (clientIdx : Fin maxClientNum) (msg : PwrMsg) (hidle : s.cleaning = none)
    (hfd : (s.srv.pwrClients clientIdx).fd ≠ invalidFd)
    (htype : msg.head.msgType = MsgType.mtReq.code) :
    Move s (.receive clientIdx msg) { s with
      srv := s.srv.withRecv
        ⟨{ msg.head with sysId := (s.srv.pwrClients clientIdx).sysId }, msg.data⟩ }
  | lose (idx : Option (Fin maxClientNum)) (hidle : s.cleaning = none) :
    Move s (.lose idx) { s with cleaning := some ⟨idx, .auth⟩ }
  | clean (c : Cleaning) (hc : s.cleaning = some c) : Move s .clean (s.cleanCall c)
  | send (hidle : s.cleaning = none) :
    Move s .send { s with srv := { s.srv with sendBuff := (popFromBufferHead s.srv.sendBuff).2 } }
  | pop (msg : Option PwrMsg) (recvBuff : PwrMsgBuffer PwrMsg) (hcur : s.cur = none)
    (hpop : popFromBufferHead s.srv.recvBuff = (msg, recvBuff)) :
    Move s .pop { s with srv := { s.srv with recvBuff := recvBuff }, cur := msg }
  | serve (m : Machine) (req : PwrMsg) (srv' : Server) (hcur : s.cur = some req)
    (hserve : s.srv.processReqMsg m req = .ok srv') :
    Move s (.serve m) { s with srv := srv', cur := none }

theorem move_of_step {s s' : Threads} {e : Event} (h : step s e = some s') : Move s e s' := by
  cases e with
  | accept newClient =>
    obtain ⟨hand, h⟩ := Option.ite_none_right_eq_some.mp h
    obtain rfl := Option.some.inj h
    exact .accept newClient hand.1
  | receive clientIdx msg =>
    obtain ⟨⟨hidle, hfd, htype⟩, h⟩ := Option.ite_none_right_eq_some.mp h
    obtain ⟨srv', hadd, rfl⟩ := Option.map_eq_some_iff.mp h
    obtain rfl := Server.addToRecvBuff_ok (toOption_eq_some hadd)
    exact .receive clientIdx msg hidle hfd htype
  | lose idx =>
    obtain ⟨hidle, h⟩ := Option.ite_none_right_eq_some.mp h
    obtain rfl := Option.some.inj h
    exact .lose idx hidle
  | clean =>
    obtain ⟨c, hc, rfl⟩ := Option.map_eq_some_iff.mp h
    exact .clean c hc
  | send =>
    obtain ⟨hidle, h⟩ := Option.ite_none_right_eq_some.mp h
    obtain rfl := Option.some.inj h
    exact .send hidle
  | pop =>
    obtain ⟨hcur, h⟩ := Option.ite_none_right_eq_some.mp h
    obtain rfl := Option.some.inj h
    exact .pop _ _ hcur rfl
  | serve m =>
    obtain ⟨req, hcur, h⟩ := Option.bind_eq_some_iff.mp h
    obtain ⟨srv', hserve, rfl⟩ := Option.map_eq_some_iff.mp h
    exact .serve m req srv' hcur (toOption_eq_some hserve)

/-! ## What the functions do, whatever is looked at -/

section Functions

variable {srv srv' : Server}

/-- `ReadMsg` leaves the server alone or gives the connection up. -/
theorem readMsg_cases {len : Int} {conn conn' : Conn} {idx : Fin maxClientNum} {ret : RtnCode}
    {buf : Bytes} (h : srv.readMsg len conn idx = .ok (ret, buf, srv', conn')) :
    srv' = srv ∨ ret ≠ .success ∧ srv' = srv.cleanClientResource (srv.pwrClients 0) idx := by
  unfold Server.readMsg at h
  split at h
  · cases h
  · dsimp only at h
    split at h <;> cases Except.ok.inj h
    · exact .inl rfl
    · exact .inr ⟨nofun, rfl⟩
    · exact .inr ⟨nofun, rfl⟩

/-- `ProcessRecvMsgFromClient` drops what it has read, gives the connection up, or queues a
request. -/
inductive Receives (srv : Server) (clientIdx : Fin maxClientNum) : Server → Prop where
  | dropped : Receives srv clientIdx srv
  | lost : Receives srv clientIdx (srv.cleanClientResource (srv.pwrClients 0) clientIdx)
  | queued (msg : PwrMsg) (srv' : Server) (htype : msg.head.msgType = MsgType.mtReq.code)
    (hadd : srv.addToRecvBuff
      ⟨{ msg.head with sysId := (srv.pwrClients clientIdx).sysId }, msg.data⟩ = .ok srv') :
    Receives srv clientIdx srv'

theorem Receives.of_readMsg {len : Int} {conn conn' : Conn} {idx : Fin maxClientNum}
    {ret : RtnCode} {buf : Bytes} (h : srv.readMsg len conn idx = .ok (ret, buf, srv', conn')) :
    Receives srv idx srv' := by
  rcases readMsg_cases h with rfl | ⟨-, rfl⟩
  · exact .dropped
  · exact .lost

theorem receives_recvContent {clientIdx : Fin maxClientNum} {mem : RecvAlloc} {msg : PwrMsg}
    {conn conn' : Conn} (htype : msg.head.msgType = MsgType.mtReq.code)
    (h : srv.recvContent clientIdx mem msg conn = .ok (srv', conn')) :
    Receives srv clientIdx srv' := by
  unfold Server.recvContent at h
  split at h
  · split at h
    · obtain ⟨u, -, hrest⟩ := bind_eq_ok.mp h
      cases Except.ok.inj hrest
      exact .dropped
    · obtain ⟨⟨ret, content, srv₁, conn₁⟩, hread, hrest⟩ := bind_eq_ok.mp h
      dsimp only at hrest
      split at hrest
      · -- the payload did not arrive
        obtain ⟨u, -, hrest⟩ := bind_eq_ok.mp hrest
        cases Except.ok.inj hrest
        exact .of_readMsg hread
      · rename_i hret
        obtain rfl := (readMsg_cases hread).resolve_right fun hclean => hret hclean.1
        obtain ⟨srv₂, hadd, hrest⟩ := bind_eq_ok.mp hrest
        cases Except.ok.inj hrest
        exact .queued ⟨msg.head, .heap mem.content content⟩ _ htype hadd
  · obtain ⟨srv₁, hadd, hrest⟩ := bind_eq_ok.mp h
    cases Except.ok.inj hrest
    exact .queued ⟨msg.head, .null⟩ _ htype hadd

theorem receives_processRecvMsgFromClient {clientIdx : Fin maxClientNum} {mem : RecvAlloc}
    {conn conn' : Conn}
    (h : srv.processRecvMsgFromClient clientIdx mem conn = .ok (srv', conn')) :
    Receives srv clientIdx srv' := by
  unfold Server.processRecvMsgFromClient at h
  split at h
  · cases Except.ok.inj h
    exact .dropped
  obtain ⟨⟨ret, buf, srv₁, conn₁⟩, hread, hrest⟩ := bind_eq_ok.mp h
  dsimp only at hrest
  split at hrest
  · -- the struct did not arrive
    obtain ⟨u, -, hrest⟩ := bind_eq_ok.mp hrest
    cases Except.ok.inj hrest
    exact .of_readMsg hread
  rename_i hret
  obtain rfl := (readMsg_cases hread).resolve_right fun hclean => hret hclean.1
  split at hrest
  · obtain ⟨u, -, hrest⟩ := bind_eq_ok.mp hrest
    cases hrest
  · exact receives_recvContent (not_not.mp ‹_›) hrest

section Sends

variable {σ : Type} {write : Bytes → σ → Except Fault σ} {R : σ → σ → Prop}
  (htrans : ∀ {a b c}, R a b → R b c → R a c)

include htrans

/-- Writing a message is writing buffers, one after the other. -/
theorem sendRest_ok (hwrite : ∀ {buf a b}, write buf a = .ok b → R a b) {msg : PwrMsg}
    (leftLen : ℕ) :
    ∀ {datasent : ℕ} {a b : σ}, sendRest write msg datasent leftLen a = .ok b → R a b := by
  induction leftLen using Nat.strong_induction_on with
  | _ leftLen ih =>
    intro datasent a b h
    rw [sendRest] at h
    split at h
    · rename_i hmore
      obtain ⟨data, -, h⟩ := bind_eq_ok.mp h
      obtain ⟨c, hc, hrest⟩ := bind_eq_ok.mp h
      have hsize : 0 < maxDataSize := by decide
      exact htrans (hwrite hc) (ih (leftLen - maxDataSize) (by omega) hrest)
    · obtain ⟨data, -, h⟩ := bind_eq_ok.mp h
      exact hwrite h

theorem sendMsg_ok (hwrite : ∀ {buf a b}, write buf a = .ok b → R a b) {msg : PwrMsg} {a b : σ}
    (h : sendMsg write msg a = .ok b) : R a b := by
  unfold sendMsg at h
  dsimp only at h
  split at h
  · obtain ⟨data, -, h⟩ := bind_eq_ok.mp h
    exact hwrite h
  · obtain ⟨data, -, h⟩ := bind_eq_ok.mp h
    obtain ⟨c, hc, hrest⟩ := bind_eq_ok.mp h
    exact htrans (hwrite hc) (sendRest_ok (R := R) htrans hwrite _ hrest)

end Sends

/-- What taking a message from the queue and giving a connection up do to the server,
`ProcessSendMsgToClient` does. -/
theorem processSendMsgToClient_ok {R : Server → Server → Prop} (hrefl : ∀ a, R a a)
    (htrans : ∀ {a b c}, R a b → R b c → R a c)
    (hpop : ∀ a : Server, R a { a with sendBuff := (popFromBufferHead a.sendBuff).2 })
    (hclean : ∀ (a : Server) idx, R a (a.cleanClientResource (a.pwrClients 0) idx))
    {a b : Server × Outgoing} (h : Server.processSendMsgToClient a = .ok b) : R a.1 b.1 := by
  have hwrite : ∀ {buf dstFd} {a b : Server × Outgoing},
      (Server.writeMsg buf dstFd a).map Prod.snd = .ok b → R a.1 b.1 := by
    intro buf dstFd a b h
    unfold Server.writeMsg at h
    split at h <;> cases h
    · exact hrefl _
    · exact hclean _ _
  have hemit : ∀ {msg} {a b : Server × Outgoing}, Server.sendToClient msg a = .ok b →
      R a.1 b.1 := by
    intro msg a b h
    unfold Server.sendToClient at h
    dsimp only at h
    split at h
    · obtain ⟨u, -, h⟩ := bind_eq_ok.mp h
      cases Except.ok.inj h
      exact hrefl _
    · obtain ⟨c, hsend, h⟩ := bind_eq_ok.mp h
      obtain ⟨u, -, h⟩ := bind_eq_ok.mp h
      cases Except.ok.inj h
      exact sendMsg_ok (R := fun a b => R a.1 b.1) htrans hwrite hsend
  have hloop : ∀ n {a b : Server × Outgoing}, Server.sender.processLoop n a = .ok b →
      R a.1 b.1 := by
    intro n
    induction n with
    | zero =>
      intro a b h
      cases Except.ok.inj h
      exact hrefl _
    | succ n ih =>
      intro a b h
      rw [Sender.processLoop] at h
      split at h
      · cases Except.ok.inj h
        exact hrefl _
      · dsimp only at h
        split at h
        · have hrest := ih h
          exact htrans (hpop a.1) hrest
        · obtain ⟨c, hc, h⟩ := bind_eq_ok.mp h
          have hsend := hemit hc
          exact htrans (hpop a.1) (htrans hsend (ih h))
  exact hloop _ h

end Functions

/-! ## The steps are those of the functions -/

/-- Some events lead from one state to the other. -/
def Runs (s s' : Threads) : Prop := ∃ events, Transition.run step s events = some s'

theorem Runs.refl (s : Threads) : Runs s s := ⟨[], rfl⟩

theorem Runs.trans {s t u : Threads} (h : Runs s t) (h' : Runs t u) : Runs s u := by
  obtain ⟨es, hes⟩ := h
  obtain ⟨fs, hfs⟩ := h'
  exact ⟨es ++ fs, Transition.run_append.mpr ⟨t, hes, hfs⟩⟩

theorem Runs.of_step {s s' : Threads} {e : Event} (h : step s e = some s') : Runs s s' :=
  ⟨[e], by rw [Transition.run_cons, h]; rfl⟩

section Runs

variable {srv srv' : Server} {cur : Option PwrMsg}

/-- `CleanClientResource` is its three calls in a row. -/
theorem runs_cleanClientResource (idx : Option (Fin maxClientNum)) :
    Runs ⟨srv, cur, none⟩ ⟨srv.cleanClientResource (srv.pwrClients 0) idx, cur, none⟩ :=
  ⟨[.lose idx, .clean, .clean, .clean], by
    simp [Transition.run_cons, step, cleanCall, Server.cleanClientResource]⟩

/-- Whatever `ProcessRecvMsgFromClient` does when it returns, the events do. -/
theorem runs_processRecvMsgFromClient {clientIdx : Fin maxClientNum} {mem : RecvAlloc}
    {conn conn' : Conn} (hidx : (srv.pwrClients clientIdx).fd ≠ invalidFd)
    (h : srv.processRecvMsgFromClient clientIdx mem conn = .ok (srv', conn')) :
    Runs ⟨srv, cur, none⟩ ⟨srv', cur, none⟩ := by
  cases receives_processRecvMsgFromClient h with
  | dropped => exact Runs.refl _
  | lost => exact runs_cleanClientResource _
  | queued msg _ htype hadd =>
    refine Runs.of_step (e := .receive clientIdx msg) ?_
    dsimp only [step]
    rw [if_pos ⟨rfl, hidx, htype⟩, hadd]
    rfl

/-- Whatever `ProcessSendMsgToClient` does when it returns, the events do. -/
theorem runs_processSendMsgToClient {a b : Server × Outgoing}
    (h : Server.processSendMsgToClient a = .ok b) : Runs ⟨a.1, cur, none⟩ ⟨b.1, cur, none⟩ :=
  processSendMsgToClient_ok (R := fun a b => Runs ⟨a, cur, none⟩ ⟨b, cur, none⟩)
    (fun _ => Runs.refl _) Runs.trans (fun _ => Runs.of_step (e := .send) rfl)
    (fun _ _ => runs_cleanClientResource _) h

end Runs

end Threads

end PowerApi
