import PowerApi.Send
import PowerApi.WaitList
import PowerApi.Transition

/-!
# Calls of the client library (`sockclient.c`, `pwrbuffer.c`)

`SendReqAndWaitForRsp` creates a request, and `SendMsgSyn` queues a copy of it,
links a node into the list of waiting calls, waits, takes the response out of the
node and releases the node. Any number of threads may be inside, while the socket
thread sends from `g_sendBuff` and hands each response to the node whose request
has its sequence id. `Calls` is the library with the place that every call has
reached; an event is one step of one thread, or of the world outside: the server
answers some request that it received, a request or a response is lost.

Calls are numbered in the order in which `GenerateSeqId` serves them, and a node
is named by its call (nodes are never freed). A message carries the number of the
call that it stems from; the code does not see it.

The steps are as large as the code's locks allow: the list functions run under
the list's mutex, the stores to a node are single steps.
-/

namespace PowerApi

/-- `ClonePwrMsg`, its allocations having succeeded: the payload is copied to `addr`. -/
def clonePwrMsg (msg : PwrMsg) (addr : UInt64) : Except Fault PwrMsg :=
  if msg.data = .null then .ok ⟨msg.head, .null⟩
  else (copyData msg 0 msg.head.dataLen.toNat).map fun bs => ⟨msg.head, .heap addr bs⟩

theorem head_clonePwrMsg {msg copy : PwrMsg} {addr : UInt64} (h : clonePwrMsg msg addr = .ok copy) :
    copy.head = msg.head := by
  unfold clonePwrMsg at h
  split at h
  · cases Except.ok.inj h
    rfl
  · cases hdata : copyData msg 0 msg.head.dataLen.toNat with
    | error f =>
      rw [hdata] at h
      cases h
    | ok bs =>
      rw [hdata] at h
      cases Except.ok.inj h
      rfl

/-- Where a call is. -/
inductive CallPc where
  /-- not made yet -/
  | fresh
  /-- `CreateReqMsg` is done -/
  | created
  /-- the copy is in `g_sendBuff` -/
  | queued
  /-- the node is in the list: `WaitingForResponse` -/
  | linked
  /-- `WaitingForResponse` has given an error: `MoveOutWaitingMsg` -/
  | expired
  /-- `MoveOutWaitingMsg` has read the head of the list -/
  | moving (head : Option ℕ)
  /-- next is `*rsp = node->rspMsg` -/
  | ready
  /-- next is `node->reqMsg = NULL` -/
  | taken
  /-- next is `node->rspMsg = NULL` -/
  | reqCleared
  /-- next is `ReleaseResultWaitingMsgNode` -/
  | rspCleared
  /-- `SendMsgSyn` has returned -/
  | returned
  /-- `SendReqAndWaitForRsp` has released request and response -/
  | finished
  deriving DecidableEq, Repr

/-- The node's `reqMsg` is set. -/
def CallPc.HasReq : CallPc → Bool
  | linked => true
  | expired => true
  | moving _ => true
  | ready => true
  | taken => true
  | _ => false

/-- A message, and which call it stems from. -/
structure CallMsg where
  call : ℕ
  msg : PwrMsg
  deriving DecidableEq

/-- The client library. -/
structure Calls where
  factory : MsgFactory
  /-- how many requests have been created -/
  created : ℕ
  request : ℕ → PwrMsg
  pc : ℕ → CallPc
  /-- `WaitingForResponse` has given an error -/
  late : ℕ → Bool
  /-- `node->reqMsg` -/
  reqMsg : ℕ → Option PwrMsg
  /-- `node->rspMsg` -/
  rspMsg : ℕ → Option CallMsg
  /-- `*rsp` -/
  result : ℕ → Option CallMsg
  waitList : DList ℕ
  sendBuff : PwrMsgBuffer CallMsg
  /-- requests that were sent and have not been answered -/
  wire : List CallMsg
  /-- responses on their way -/
  back : List CallMsg
  /-- `ProcessRspMsg` has moved this node out of the list for this response -/
  hand : Option (ℕ × CallMsg)
  /-- the responses that `ReleasePwrMsg` was called on -/
  released : List CallMsg
  /-- the responses that reached `ProcessRspMsg`, and whether a call was waiting for them -/
  processed : List (CallMsg × Bool)

namespace Calls

/-- The call has queued its copy, and has neither timed out nor returned. -/
def Due (s : Calls) (c : ℕ) : Prop :=
  match s.pc c with
  | .queued => True
  | .linked => True
  | .ready => s.late c = false
  | .taken => s.late c = false
  | .reqCleared => s.late c = false
  | .rspCleared => s.late c = false
  | _ => False

instance (s : Calls) (c : ℕ) : Decidable (s.Due c) := by
  unfold Due
  split <;> infer_instance

/-- A step of one of the threads, or outside. -/
inductive Event where
  | create (optType : OperationType) (taskNo dataLen : UInt32) (data : DataPtr)
  /-- `SendMsgSyn` returns early: no connection, or no memory for the copy or the node -/
  | abort (c : ℕ)
  | queue (c : ℕ) (addr : UInt64)
  | link (c : ℕ)
  /-- `pthread_cond_timedwait` gives 0, or `ETIMEDOUT` -/
  | wake (c : ℕ) (expired : Bool)
  | readHead (c : ℕ)
  | moveOut (c : ℕ)
  | take (c : ℕ)
  | clearReq (c : ℕ)
  | clearRsp (c : ℕ)
  | release (c : ℕ)
  | finish (c : ℕ)
  /-- `SendMsgToSocket` takes a message -/
  | send
  /-- the server answers one of the requests, which it has stamped with the sender's id -/
  | serve (k : ℕ) (sysId : UInt32) (rspCode : Int) (data : DataPtr) (dataLen : UInt32)
  | loseRequest (k : ℕ)
  | loseResponse (k : ℕ)
  /-- `ProcessRspMsg` looks for the node -/
  | find (k : ℕ)
  /-- `ProcessRspMsg` stores the response in the node, and signals -/
  | attach

/-- After `InitSockClient`, in the process `pid`. -/
def init (pid : UInt32) : Calls where
  factory := ⟨pid, 0⟩
  created := 0
  request := fun _ => ⟨MsgHead.zero, .null⟩
  pc := fun _ => .fresh
  late := fun _ => false
  reqMsg := fun _ => none
  rspMsg := fun _ => none
  result := fun _ => none
  waitList := DList.empty
  sendBuff := initPwrMsgBuffer
  wire := []
  back := []
  hand := none
  released := []
  processed := []

/-- The call goes on to `pc`. -/
def goto (s : Calls) (c : ℕ) (pc : CallPc) : Calls := { s with pc := Function.update s.pc c pc }

/-- The node's request has the sequence id. -/
def hasSeqId (s : Calls) (seqId : UInt32) (node : ℕ) : Bool :=
  match s.reqMsg node with
  | none => false
  | some reqMsg => reqMsg.head.seqId == seqId

/-- The request as the server has it when it answers. -/
def stamped (req : PwrMsg) (sysId : UInt32) : PwrMsg := { req with head := { req.head with sysId } }

/-- `ProcessRspMsg` up to `FindAndMoveWaitingMsg`, and for a response that nobody waits
for to its end. -/
def findNode (s : Calls) (k : ℕ) (rsp : CallMsg) : Option Calls :=
  (findAndMoveWaitingMsg s.created s.waitList (s.hasSeqId rsp.msg.head.seqId)).map
    fun (node, waitList) =>
      let s := { s with
        waitList := waitList
        back := s.back.eraseIdx k
        processed := s.processed ++ [(rsp, decide (s.Due rsp.call))] }
      match node with
      | none => { s with released := s.released ++ [rsp] }
      | some node => { s with hand := some (node, rsp) }

/-- One step. -/
def step (s : Calls) : Event → Option Calls
  | .create optType taskNo dataLen data =>
    let (req, factory) := createReqMsg s.factory optType taskNo dataLen data
    some { s with
      factory := factory
      created := s.created + 1
      request := Function.update s.request s.created req
      pc := Function.update s.pc s.created .created }
  | .abort c =>
    if s.pc c = .created ∨ s.pc c = .queued then some (s.goto c .returned) else none
  | .queue c addr =>
    if s.pc c = .created then
      (clonePwrMsg (s.request c) addr).toOption.map fun copy =>
        { s with sendBuff := enqueue s.sendBuff ⟨c, copy⟩ }.goto c .queued
    else none
  | .link c =>
    if s.pc c = .queued then
      some ({ s with
        reqMsg := Function.update s.reqMsg c (some (s.request c))
        waitList := addToWaitingListTail s.waitList c }.goto c .linked)
    else none
  | .wake c expired =>
    if s.pc c = .linked then
      some ({ s with late := Function.update s.late c expired }.goto c
        (if expired then .expired else .ready))
    else none
  | .readHead c =>
    if s.pc c = .expired then some (s.goto c (.moving s.waitList.head)) else none
  | .moveOut c =>
    match s.pc c with
    | .moving head =>
      (moveOutWaitingMsg s.created s.waitList head c).map fun waitList =>
        { s with waitList := waitList }.goto c .ready
    | _ => none
  | .take c =>
    if s.pc c = .ready then
      some ({ s with result := Function.update s.result c (s.rspMsg c) }.goto c .taken)
    else none
  | .clearReq c =>
    if s.pc c = .taken then
      some ({ s with reqMsg := Function.update s.reqMsg c none }.goto c .reqCleared)
    else none
  | .clearRsp c =>
    if s.pc c = .reqCleared then
      some ({ s with rspMsg := Function.update s.rspMsg c none }.goto c .rspCleared)
    else none
  | .release c =>
    if s.pc c = .rspCleared then
      some ({ s with
        reqMsg := Function.update s.reqMsg c none
        rspMsg := Function.update s.rspMsg c none
        waitList := clearLinks s.waitList c
        released := s.released ++ (s.rspMsg c).toList }.goto c .returned)
    else none
  | .finish c =>
    if s.pc c = .returned then
      some ({ s with released := s.released ++ (s.result c).toList }.goto c .finished)
    else none
  | .send =>
    let (msg, sendBuff) := popFromBufferHead s.sendBuff
    some { s with sendBuff := sendBuff, wire := s.wire ++ msg.toList }
  | .serve k sysId rspCode data dataLen =>
    s.wire[k]?.map fun req =>
      { s with
        wire := s.wire.eraseIdx k
        back := s.back ++
          [⟨req.call, generateRspMsg (stamped req.msg sysId) rspCode data dataLen⟩] }
  | .loseRequest k => some { s with wire := s.wire.eraseIdx k }
  | .loseResponse k => some { s with back := s.back.eraseIdx k }
  | .find k => if s.hand = none then s.back[k]?.bind (s.findNode k) else none
  | .attach =>
    s.hand.map fun (node, rsp) =>
      { s with rspMsg := Function.update s.rspMsg node (some rsp), hand := none }

/-- What the steps do, one case for each event, two for `find`. -/
inductive Move (s : Calls) : Event → Calls → Prop where
  | create (optType : OperationType) (taskNo dataLen : UInt32) (data : DataPtr) (req : PwrMsg)
    (factory : MsgFactory)
    (hreq : createReqMsg s.factory optType taskNo dataLen data = (req, factory)) :
    Move s (.create optType taskNo dataLen data) { s with
      factory := factory
      created := s.created + 1
      request := Function.update s.request s.created req
      pc := Function.update s.pc s.created .created }
  | abort (c : ℕ) (hpc : s.pc c = .created ∨ s.pc c = .queued) :
    Move s (.abort c) (s.goto c .returned)
  | queue (c : ℕ) (addr : UInt64) (copy : PwrMsg) (hpc : s.pc c = .created)
    (hhead : copy.head = (s.request c).head) :
    Move s (.queue c addr) ({ s with sendBuff := enqueue s.sendBuff ⟨c, copy⟩ }.goto c .queued)
  | link (c : ℕ) (hpc : s.pc c = .queued) :
    Move s (.link c) ({ s with
      reqMsg := Function.update s.reqMsg c (some (s.request c))
      waitList := addToWaitingListTail s.waitList c }.goto c .linked)
  | wake (c : ℕ) (expired : Bool) (hpc : s.pc c = .linked) :
    Move s (.wake c expired) ({ s with late := Function.update s.late c expired }.goto c
      (if expired then .expired else .ready))
  | readHead (c : ℕ) (hpc : s.pc c = .expired) :
    Move s (.readHead c) (s.goto c (.moving s.waitList.head))
  | moveOut (c : ℕ) (head : Option ℕ) (waitList : DList ℕ) (hpc : s.pc c = .moving head)
    (hmove : moveOutWaitingMsg s.created s.waitList head c = some waitList) :
    Move s (.moveOut c) ({ s with waitList := waitList }.goto c .ready)
  | take (c : ℕ) (hpc : s.pc c = .ready) :
    Move s (.take c) ({ s with result := Function.update s.result c (s.rspMsg c) }.goto c .taken)
  | clearReq (c : ℕ) (hpc : s.pc c = .taken) :
    Move s (.clearReq c) ({ s with reqMsg := Function.update s.reqMsg c none }.goto c .reqCleared)
  | clearRsp (c : ℕ) (hpc : s.pc c = .reqCleared) :
    Move s (.clearRsp c) ({ s with rspMsg := Function.update s.rspMsg c none }.goto c .rspCleared)
  | release (c : ℕ) (hpc : s.pc c = .rspCleared) :
    Move s (.release c) ({ s with
      reqMsg := Function.update s.reqMsg c none
      rspMsg := Function.update s.rspMsg c none
      waitList := clearLinks s.waitList c
      released := s.released ++ (s.rspMsg c).toList }.goto c .returned)
  | finish (c : ℕ) (hpc : s.pc c = .returned) :
    Move s (.finish c) ({ s with released := s.released ++ (s.result c).toList }.goto c .finished)
  | send (msg : Option CallMsg) (sendBuff : PwrMsgBuffer CallMsg)
    (hpop : popFromBufferHead s.sendBuff = (msg, sendBuff)) :
    Move s .send { s with sendBuff := sendBuff, wire := s.wire ++ msg.toList }
  | serve (k : ℕ) (sysId : UInt32) (rspCode : Int) (data : DataPtr) (dataLen : UInt32)
    (req : CallMsg) (hreq : s.wire[k]? = some req) :
    Move s (.serve k sysId rspCode data dataLen) { s with
      wire := s.wire.eraseIdx k
      back := s.back ++
        [⟨req.call, generateRspMsg (stamped req.msg sysId) rspCode data dataLen⟩] }
  | loseRequest (k : ℕ) : Move s (.loseRequest k) { s with wire := s.wire.eraseIdx k }
  | loseResponse (k : ℕ) : Move s (.loseResponse k) { s with back := s.back.eraseIdx k }
  | drop (k : ℕ) (rsp : CallMsg) (waitList : DList ℕ) (hhand : s.hand = none)
    (hrsp : s.back[k]? = some rsp)
    (hfind : findAndMoveWaitingMsg s.created s.waitList (s.hasSeqId rsp.msg.head.seqId) =
      some (none, waitList)) :
    Move s (.find k) { s with
      waitList := waitList
      back := s.back.eraseIdx k
      processed := s.processed ++ [(rsp, decide (s.Due rsp.call))]
      released := s.released ++ [rsp] }
  | found (k : ℕ) (rsp : CallMsg) (node : ℕ) (waitList : DList ℕ) (hhand : s.hand = none)
    (hrsp : s.back[k]? = some rsp)
    (hfind : findAndMoveWaitingMsg s.created s.waitList (s.hasSeqId rsp.msg.head.seqId) =
      some (some node, waitList)) :
    Move s (.find k) { s with
      waitList := waitList
      back := s.back.eraseIdx k
      processed := s.processed ++ [(rsp, decide (s.Due rsp.call))]
      hand := some (node, rsp) }
  | attach (node : ℕ) (rsp : CallMsg) (hhand : s.hand = some (node, rsp)) :
    Move s .attach { s with rspMsg := Function.update s.rspMsg node (some rsp), hand := none }

theorem move_of_findNode {s s' : Calls} {k : ℕ} {rsp : CallMsg} (hhand : s.hand = none)
    (hrsp : s.back[k]? = some rsp) (h : s.findNode k rsp = some s') : Move s (.find k) s' := by
  obtain ⟨⟨node, waitList⟩, hfind, rfl⟩ := Option.map_eq_some_iff.mp h
  cases node with
  | none => exact .drop k rsp waitList hhand hrsp hfind
  | some node => exact .found k rsp node waitList hhand hrsp hfind

theorem move_of_step {s s' : Calls} {e : Event} (h : step s e = some s') : Move s e s' := by
  cases e with
  | create optType taskNo dataLen data =>
    cases Option.some.inj h
    exact .create optType taskNo dataLen data _ _ rfl
  | abort c =>
    obtain ⟨hpc, h⟩ := Option.ite_none_right_eq_some.mp h
    cases Option.some.inj h
    exact .abort c hpc
  | queue c addr =>
    obtain ⟨hpc, h⟩ := Option.ite_none_right_eq_some.mp h
    obtain ⟨copy, hcopy, rfl⟩ := Option.map_eq_some_iff.mp h
    exact .queue c addr copy hpc (head_clonePwrMsg (toOption_eq_some hcopy))
  | link c =>
    obtain ⟨hpc, h⟩ := Option.ite_none_right_eq_some.mp h
    cases Option.some.inj h
    exact .link c hpc
  | wake c expired =>
    obtain ⟨hpc, h⟩ := Option.ite_none_right_eq_some.mp h
    cases Option.some.inj h
    exact .wake c expired hpc
  | readHead c =>
    obtain ⟨hpc, h⟩ := Option.ite_none_right_eq_some.mp h
    cases Option.some.inj h
    exact .readHead c hpc
  | moveOut c =>
    rw [step] at h
    split at h
    · rename_i head hpc
      obtain ⟨waitList, hmove, rfl⟩ := Option.map_eq_some_iff.mp h
      exact .moveOut c head waitList hpc hmove
    · cases h
  | take c =>
    obtain ⟨hpc, h⟩ := Option.ite_none_right_eq_some.mp h
    cases Option.some.inj h
    exact .take c hpc
  | clearReq c =>
    obtain ⟨hpc, h⟩ := Option.ite_none_right_eq_some.mp h
    cases Option.some.inj h
    exact .clearReq c hpc
  | clearRsp c =>
    obtain ⟨hpc, h⟩ := Option.ite_none_right_eq_some.mp h
    cases Option.some.inj h
    exact .clearRsp c hpc
  | release c =>
    obtain ⟨hpc, h⟩ := Option.ite_none_right_eq_some.mp h
    cases Option.some.inj h
    exact .release c hpc
  | finish c =>
    obtain ⟨hpc, h⟩ := Option.ite_none_right_eq_some.mp h
    cases Option.some.inj h
    exact .finish c hpc
  | send =>
    cases Option.some.inj h
    exact .send _ _ rfl
  | serve k sysId rspCode data dataLen =>
    obtain ⟨req, hreq, rfl⟩ := Option.map_eq_some_iff.mp h
    exact .serve k sysId rspCode data dataLen req hreq
  | loseRequest k =>
    cases Option.some.inj h
    exact .loseRequest k
  | loseResponse k =>
    cases Option.some.inj h
    exact .loseResponse k
  | find k =>
    obtain ⟨hhand, h⟩ := Option.ite_none_right_eq_some.mp h
    obtain ⟨rsp, hrsp, h⟩ := Option.bind_eq_some_iff.mp h
    exact move_of_findNode hhand hrsp h
  | attach =>
    obtain ⟨⟨node, rsp⟩, hhand, rfl⟩ := Option.map_eq_some_iff.mp h
    exact .attach node rsp hhand

/-! ## What holds in every run -/

variable {s s' : Calls} {e : Event}

/-- Where a call is says whether it has been made, and what its node's `reqMsg` is. -/
structure Nodes (s : Calls) : Prop where
  fresh : ∀ c, s.pc c = .fresh ↔ s.created ≤ c
  reqMsg : ∀ c, s.reqMsg c = if (s.pc c).HasReq then some (s.request c) else none

theorem nodes_init (pid : UInt32) : (init pid).Nodes :=
  ⟨fun c => iff_of_true rfl c.zero_le, fun _ => rfl⟩

/-- A step of one call. -/
theorem Nodes.of_call (h : s.Nodes) (c : ℕ) (hcreated : s'.created = s.created)
    (hrequest : s'.request = s.request) (hpc : ∀ d, d ≠ c → s'.pc d = s.pc d)
    (hreq : ∀ d, d ≠ c → s'.reqMsg d = s.reqMsg d) (hold : s.pc c ≠ .fresh)
    (hnew : s'.pc c ≠ .fresh)
    (hc : s'.reqMsg c = if (s'.pc c).HasReq then some (s.request c) else none) : s'.Nodes := by
  refine ⟨fun d => ?_, fun d => ?_⟩
  · rw [hcreated, ← h.fresh d]
    by_cases hd : d = c
    · rw [hd]
      exact iff_of_false hnew hold
    · rw [hpc d hd]
  · rw [hrequest]
    by_cases hd : d = c
    · rw [hd, hc]
    · rw [hpc d hd, hreq d hd, h.reqMsg d]

/-- A step of one call that leaves its node's `reqMsg` alone. -/
theorem Nodes.goto (h : s.Nodes) {c : ℕ} {pc : CallPc} (hcreated : s'.created = s.created)
    (hrequest : s'.request = s.request) (hpc : s'.pc = Function.update s.pc c pc)
    (hreq : s'.reqMsg = s.reqMsg) (hold : s.pc c ≠ .fresh) (hnew : pc ≠ .fresh)
    (hsame : pc.HasReq = (s.pc c).HasReq) : s'.Nodes := by
  refine h.of_call c hcreated hrequest (fun d hd => ?_) (fun d _ => by rw [hreq]) hold ?_ ?_
  · rw [hpc, Function.update_of_ne hd]
  · rw [hpc, Function.update_self]
    exact hnew
  · rw [hreq, hpc, Function.update_self, hsame]
    exact h.reqMsg c

theorem Nodes.step (h : s.Nodes) (hs : step s e = some s') : s'.Nodes := by
  cases move_of_step hs with
  | create optType taskNo dataLen data req factory _ =>
    refine ⟨fun c => ?_, fun c => ?_⟩
    · by_cases hc : c = s.created
      · subst hc
        simp
      · dsimp only
        rw [Function.update_of_ne hc, h.fresh c]
        omega
    · have hreq := h.reqMsg c
      by_cases hc : c = s.created
      · subst hc
        rw [(h.fresh s.created).mpr le_rfl] at hreq
        simpa [CallPc.HasReq] using hreq
      · simpa [Function.update_of_ne hc] using hreq
  | abort c hpc =>
    refine h.goto rfl rfl rfl rfl ?_ nofun ?_
    · rcases hpc with hpc | hpc <;> simp [hpc]
    · rcases hpc with hpc | hpc <;> rw [hpc] <;> rfl
  | queue c addr copy hpc _ => exact h.goto rfl rfl rfl rfl (by simp [hpc]) nofun (by rw [hpc]; rfl)
  | link c hpc =>
    refine h.of_call c rfl rfl (fun d hd => Function.update_of_ne hd ..)
      (fun d hd => Function.update_of_ne hd ..) (by simp [hpc]) ?_ ?_ <;>
      simp [Calls.goto, CallPc.HasReq]
  | wake c expired hpc =>
    refine h.goto rfl rfl rfl rfl (by simp [hpc]) ?_ ?_
    · cases expired <;> nofun
    · rw [hpc]
      cases expired <;> rfl
  | readHead c hpc => exact h.goto rfl rfl rfl rfl (by simp [hpc]) nofun (by rw [hpc]; rfl)
  | moveOut c head waitList hpc _ =>
    exact h.goto rfl rfl rfl rfl (by simp [hpc]) nofun (by rw [hpc]; rfl)
  | take c hpc => exact h.goto rfl rfl rfl rfl (by simp [hpc]) nofun (by rw [hpc]; rfl)
  | clearReq c hpc =>
    refine h.of_call c rfl rfl (fun d hd => Function.update_of_ne hd ..)
      (fun d hd => Function.update_of_ne hd ..) (by simp [hpc]) ?_ ?_ <;>
      simp [Calls.goto, CallPc.HasReq]
  | clearRsp c hpc => exact h.goto rfl rfl rfl rfl (by simp [hpc]) nofun (by rw [hpc]; rfl)
  | release c hpc =>
    refine h.of_call c rfl rfl (fun d hd => Function.update_of_ne hd ..)
      (fun d hd => Function.update_of_ne hd ..) (by simp [hpc]) ?_ ?_ <;>
      simp [Calls.goto, CallPc.HasReq]
  | finish c hpc => exact h.goto rfl rfl rfl rfl (by simp [hpc]) nofun (by rw [hpc]; rfl)
  | send msg sendBuff _ => exact ⟨h.fresh, h.reqMsg⟩
  | serve k sysId rspCode data dataLen req _ => exact ⟨h.fresh, h.reqMsg⟩
  | loseRequest k => exact ⟨h.fresh, h.reqMsg⟩
  | loseResponse k => exact ⟨h.fresh, h.reqMsg⟩
  | drop k rsp waitList _ _ _ => exact ⟨h.fresh, h.reqMsg⟩
  | found k rsp node waitList _ _ _ => exact ⟨h.fresh, h.reqMsg⟩
  | attach node rsp _ => exact ⟨h.fresh, h.reqMsg⟩

/-- The sequence id of a process's `c`-th request. -/
def seqIdOf (pid : UInt32) (c : ℕ) : UInt32 := (pid <<< 16) + (UInt16.ofNat c).toUInt32

/-- The response was generated from the request of the call that it says. -/
def Answers (s : Calls) (rsp : CallMsg) : Prop :=
  ∃ sysId rspCode data dataLen,
    rsp.msg = generateRspMsg (stamped (s.request rsp.call) sysId) rspCode data dataLen

/-- Every message is what it says: requests are copies, responses are answers. -/
structure Traced (pid : UInt32) (s : Calls) : Prop where
  factory : s.factory = ⟨pid, UInt16.ofNat s.created⟩
  seqId : ∀ c, c < s.created → (s.request c).head.seqId = seqIdOf pid c
  queued : ∀ m ∈ s.sendBuff.toList, m.call < s.created ∧ m.msg.head = (s.request m.call).head
  sent : ∀ m ∈ s.wire, m.call < s.created ∧ m.msg.head = (s.request m.call).head
  answered : ∀ m ∈ s.back, m.call < s.created ∧ s.Answers m
  hand : ∀ node rsp, s.hand = some (node, rsp) → rsp.call < s.created ∧ s.Answers rsp

theorem traced_init (pid : UInt32) : (init pid).Traced pid :=
  ⟨rfl, nofun, nofun, nofun, nofun, nofun⟩

/-- An answer has the sequence id of the request. -/
theorem Traced.seqId_of_answers {pid : UInt32} (h : s.Traced pid) {rsp : CallMsg}
    (hcall : rsp.call < s.created) (hrsp : s.Answers rsp) :
    rsp.msg.head.seqId = seqIdOf pid rsp.call := by
  obtain ⟨sysId, rspCode, data, dataLen, hmsg⟩ := hrsp
  rw [hmsg, ← h.seqId rsp.call hcall]
  rfl

/-- A request does not change any more. -/
theorem request_step (hs : step s e = some s') :
    s.created ≤ s'.created ∧ s'.created ≤ s.created + 1 ∧
      ∀ c, c < s.created → s'.request c = s.request c := by
  cases move_of_step hs with
  | create _ _ _ _ req factory _ =>
    exact ⟨Nat.le_succ _, le_rfl, fun c hc => Function.update_of_ne hc.ne ..⟩
  | _ => exact ⟨le_rfl, Nat.le_succ _, fun _ _ => rfl⟩

theorem Answers.of_request {rsp : CallMsg} (h : s.Answers rsp)
    (hreq : s'.request rsp.call = s.request rsp.call) : s'.Answers rsp := by
  rw [Answers, hreq]
  exact h

theorem Traced.create {pid : UInt32} (h : s.Traced pid) {optType : OperationType}
    {taskNo dataLen : UInt32} {data : DataPtr}
    (hs : Calls.step s (.create optType taskNo dataLen data) = some s') : s'.Traced pid := by
  obtain ⟨hle, -, hsame⟩ := request_step hs
  have hanswers : ∀ m : CallMsg, m.call < s.created ∧ s.Answers m →
      m.call < s'.created ∧ s'.Answers m :=
    fun m hm => ⟨hm.1.trans_le hle, hm.2.of_request (hsame m.call hm.1)⟩
  have hcopies : ∀ m : CallMsg, m.call < s.created ∧ m.msg.head = (s.request m.call).head →
      m.call < s'.created ∧ m.msg.head = (s'.request m.call).head :=
    fun m hm => ⟨hm.1.trans_le hle, by rw [hsame m.call hm.1, hm.2]⟩
  cases move_of_step hs with
  | create _ _ _ _ req factory hreq =>
    rw [createReqMsg, generateReqMsgHead, generateSeqId, h.factory] at hreq
    obtain ⟨rfl, rfl⟩ := Prod.mk.inj hreq
    refine ⟨by simp [UInt16.ofNat_add], fun c hc => ?_, fun m hm => hcopies m (h.queued m hm),
      fun m hm => hcopies m (h.sent m hm), fun m hm => hanswers m (h.answered m hm),
      fun node rsp hhand => hanswers rsp (h.hand node rsp hhand)⟩
    rcases Nat.lt_succ_iff_lt_or_eq.mp hc with hc | rfl
    · rw [hsame c hc]
      exact h.seqId c hc
    · dsimp only
      rw [Function.update_self]
      rfl

theorem Traced.step {pid : UInt32} (h : s.Traced pid) (hn : s.Nodes)
    (hs : step s e = some s') : s'.Traced pid := by
  have htraced := h
  obtain ⟨hfactory, hseqId, hqueued, hsent, hanswered, hhand⟩ := h
  cases move_of_step hs with
  | create optType taskNo dataLen data req factory _ => exact htraced.create hs
  | queue c addr copy hpc hhead =>
    refine ⟨hfactory, hseqId, fun m hm => ?_, hsent, hanswered, hhand⟩
    rcases mem_toList_enqueue hm with hm | rfl
    · exact hqueued m hm
    · refine ⟨Nat.lt_of_not_le fun hc => ?_, hhead⟩
      have hfresh := (hn.fresh c).mpr hc
      rw [hpc] at hfresh
      cases hfresh
  | send msg sendBuff hpop =>
    cases msg with
    | none =>
      refine ⟨hfactory, hseqId, ?_, ?_, hanswered, hhand⟩
      · dsimp only
        rw [toList_of_pop_none hpop]
        exact hqueued
      · simpa using hsent
    | some msg =>
      have hlist := toList_of_pop_some hpop
      rw [hlist] at hqueued
      refine ⟨hfactory, hseqId, fun m hm => hqueued m (List.mem_cons_of_mem _ hm), fun m hm => ?_,
        hanswered, hhand⟩
      rcases List.mem_append.mp hm with hm | hm
      · exact hsent m hm
      · rw [List.mem_singleton.mp hm]
        exact hqueued msg List.mem_cons_self
  | serve k sysId rspCode data dataLen req hreq =>
    refine ⟨hfactory, hseqId, hqueued, fun m hm => hsent m (List.mem_of_mem_eraseIdx hm),
      fun m hm => ?_, hhand⟩
    rcases List.mem_append.mp hm with hm | hm
    · exact hanswered m hm
    · obtain ⟨hcall, hhead⟩ := hsent req (List.mem_of_getElem? hreq)
      rw [List.mem_singleton.mp hm]
      refine ⟨hcall, sysId, rspCode, data, dataLen, ?_⟩
      simp only [generateRspMsg, stamped, hhead]
  | loseRequest k =>
    exact ⟨hfactory, hseqId, hqueued, fun m hm => hsent m (List.mem_of_mem_eraseIdx hm), hanswered,
      hhand⟩
  | loseResponse k =>
    exact ⟨hfactory, hseqId, hqueued, hsent,
      fun m hm => hanswered m (List.mem_of_mem_eraseIdx hm), hhand⟩
  | drop k rsp waitList _ _ _ =>
    exact ⟨hfactory, hseqId, hqueued, hsent,
      fun m hm => hanswered m (List.mem_of_mem_eraseIdx hm), hhand⟩
  | found k rsp node waitList _ hrsp _ =>
    refine ⟨hfactory, hseqId, hqueued, hsent,
      fun m hm => hanswered m (List.mem_of_mem_eraseIdx hm), ?_⟩
    rintro _ _ ⟨⟩
    exact hanswered rsp (List.mem_of_getElem? hrsp)
  | attach node rsp _ => exact ⟨hfactory, hseqId, hqueued, hsent, hanswered, nofun⟩
  | abort c _ => exact ⟨hfactory, hseqId, hqueued, hsent, hanswered, hhand⟩
  | link c _ => exact ⟨hfactory, hseqId, hqueued, hsent, hanswered, hhand⟩
  | wake c _ _ => exact ⟨hfactory, hseqId, hqueued, hsent, hanswered, hhand⟩
  | readHead c _ => exact ⟨hfactory, hseqId, hqueued, hsent, hanswered, hhand⟩
  | moveOut c _ _ _ _ => exact ⟨hfactory, hseqId, hqueued, hsent, hanswered, hhand⟩
  | take c _ => exact ⟨hfactory, hseqId, hqueued, hsent, hanswered, hhand⟩
  | clearReq c _ => exact ⟨hfactory, hseqId, hqueued, hsent, hanswered, hhand⟩
  | clearRsp c _ => exact ⟨hfactory, hseqId, hqueued, hsent, hanswered, hhand⟩
  | release c _ => exact ⟨hfactory, hseqId, hqueued, hsent, hanswered, hhand⟩
  | finish c _ => exact ⟨hfactory, hseqId, hqueued, hsent, hanswered, hhand⟩

end Calls

end PowerApi
