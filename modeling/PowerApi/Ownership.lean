import PowerApi.Arrays

/-!
# Who releases a request (`sockclient.c`, `pwrmsg.c`)

`SendReqAndWaitForRsp` copies the caller's data and creates the request,
`SendReqMsgAndWaitForRsp` passes it on, and `SendMsgSyn` queues a copy of it and puts it
into a node to wait for the response, which the socket thread finds the node for and then
stores in it. Each of the three has exits of its own. `Ownership` is a call with the place
it has reached, its pointers, and what `free` has been called on; an event is a step of
the call, with what `malloc` or the wait come to in it, or of the socket thread.

The copy in `g_sendBuff` is a message of its own, which the socket thread releases. Other
callers may cut the node off from the list, or keep it in: `reached` says whether a walk
through the list comes to it.
-/

namespace PowerApi

/-- What can be released; the responses to the call are numbered as they are received. -/
inductive Block where
  | data
  | req
  | rsp (k : ℕ)
  deriving DecidableEq

/-- Where the call is. -/
inductive OwnerPc where
  /-- in `SendReqAndWaitForRsp` -/
  | start
  /-- `inputData` is set: `CreateReqMsg` -/
  | copied
  /-- in `SendReqMsgAndWaitForRsp` -/
  | created
  /-- in `SendMsgSyn` -/
  | checked
  /-- `ClonePwrMsg` and `AddToBufferTail` -/
  | cloning
  /-- `CreateResultWaitingMsgNode` -/
  | queued
  /-- `node->reqMsg = msg` and `AddToWaitingListTail` -/
  | noded
  /-- `WaitingForResponse` -/
  | linked
  /-- `MoveOutWaitingMsg` -/
  | expired
  /-- `*rsp = node->rspMsg` -/
  | ready
  /-- `node->reqMsg = NULL` -/
  | taken
  /-- `node->rspMsg = NULL` -/
  | reqCleared
  /-- `ReleaseResultWaitingMsgNode` -/
  | rspCleared
  /-- `SendMsgSyn` has returned -/
  | synced (ret : Int)
  /-- `SendReqMsgAndWaitForRsp` has returned an error before `SendMsgSyn` -/
  | refused (ret : Int)
  /-- `SendReqAndWaitForRsp` has returned -/
  | returned (ret : Int)
  /-- NULL has been dereferenced -/
  | crashed
  deriving DecidableEq

namespace OwnerPc

/-- There is no node, or it is not in the list yet. -/
def Early : OwnerPc → Bool
  | start | copied | created | checked | cloning | queued | noded => true
  | _ => false

/-- `node->rspMsg` has been read, or will not be. -/
def HasTaken : OwnerPc → Bool
  | taken | reqCleared | rspCleared | synced _ | refused _ | returned _ => true
  | _ => false

/-- What is in `node->rspMsg` will be read, or released. -/
def Heeds : OwnerPc → Bool
  | taken | reqCleared | synced _ | refused _ | returned _ => false
  | _ => true

/-- `node->reqMsg` is set. -/
def HasReqMsg : OwnerPc → Bool
  | linked | expired | ready | taken => true
  | _ => false

/-- The request exists. -/
def HasReq : OwnerPc → Bool
  | start | copied | returned _ | crashed => false
  | _ => true

/-- `SendReqAndWaitForRsp` has returned. -/
def Done : OwnerPc → Bool
  | returned _ => true
  | _ => false

end OwnerPc

/-- A call. -/
structure Ownership where
  pc : OwnerPc
  /-- `inputData` is not NULL -/
  inputData : Bool
  /-- `req` has been allocated -/
  created : Bool
  /-- `req->data` is not NULL -/
  reqData : Bool
  /-- `rsp` of `SendReqAndWaitForRsp` -/
  rsp : Option ℕ
  /-- `node->reqMsg` is not NULL -/
  reqMsg : Bool
  /-- `node->rspMsg` -/
  rspMsg : Option ℕ
  /-- the node is in `g_waitList` -/
  inList : Bool
  /-- the response that the socket thread has found the node for -/
  hand : Option ℕ
  received : List PwrMsg
  released : List Block

namespace Ownership

/-- A step of the call or of the socket thread. -/
inductive Event where
  | copyInput (ok : Bool)
  | createReqMsg (ok : Bool)
  | checkSocketStatus (connected : Bool)
  | clonePwrMsg (ok : Bool)
  | createNode (ok : Bool)
  | link
  | wait (ret : RtnCode)
  | moveOut (reached : Bool)
  | take
  | clearReq
  | clearRsp
  | releaseNode
  | finish
  /-- `ProcessRspMsg` up to `FindAndMoveWaitingMsg` -/
  | receive (msg : PwrMsg) (reached : Bool)
  /-- `rwm->rspMsg = rsp` -/
  | attach

/-- Before the call. -/
def init : Ownership where
  pc := .start
  inputData := false
  created := false
  reqData := false
  rsp := none
  reqMsg := false
  rspMsg := none
  inList := false
  hand := none
  received := []
  released := []

section Functions

variable (s : Ownership)

def goto (pc : OwnerPc) : Ownership := { s with pc := pc }

/-- `free`. -/
def free (blocks : List Block) : Ownership := { s with released := s.released ++ blocks }

/-- `ReleasePwrMsg(&req)`. -/
def releaseReq : Ownership :=
  { s.free ((if s.reqData then [.data] else []) ++ [.req]) with reqData := false }

/-- `ReleasePwrMsg(&rsp)`. -/
def releaseRsp : Ownership := s.free (s.rsp.toList.map .rsp)

/-- `ReleaseResultWaitingMsgNode`. -/
def releaseNode : Ownership :=
  let s := if s.reqMsg then s.releaseReq else s
  { s.free (s.rspMsg.toList.map .rsp) with reqMsg := false, rspMsg := none }

/-- `SendReqMsgAndWaitForRsp` after `SendMsgSyn`: an error, or the response. -/
def sendReqMsgAndWaitForRsp (ret : Int) : Except Int PwrMsg :=
  if ret ≠ RtnCode.success.code then .error RtnCode.errSysException.code
  else
    match s.rsp.bind fun k => s.received[k]? with
    | none => .error RtnCode.errCommon.code
    | some rsp => if rsp.head.rspCode ≠ 0 then .error rsp.head.rspCode.toNat else .ok rsp

/-- `SendReqAndWaitForRsp` after `SendReqMsgAndWaitForRsp`. -/
def sendReqAndWaitForRsp (output : RspOutputParam) (res : Except Int PwrMsg) : Ownership :=
  match res with
  | .error ret => s.releaseReq.releaseRsp.goto (.returned ret)
  | .ok rsp =>
    if output.rspData ≠ 0 then
      if rsp.data ≠ .null then s.releaseReq.releaseRsp.goto (.returned RtnCode.success.code)
      else s.releaseReq.releaseRsp.goto (.returned RtnCode.errWrongResponseFromServer.code)
    else s.releaseReq.releaseRsp.goto (.returned RtnCode.success.code)

end Functions

/-- There is data to be copied. -/
def HasData (input : ReqInputParam) : Prop := input.data ≠ 0 ∧ input.dataLen ≠ 0

instance (input : ReqInputParam) : Decidable (HasData input) :=
  inferInstanceAs (Decidable (_ ∧ _))

/-- One step. -/
def step (input : ReqInputParam) (output : RspOutputParam) (s : Ownership) :
    Event → Option Ownership
  | .copyInput ok =>
    if s.pc = .start then
      some (if HasData input then
        -- `bzero` follows without a check
        if ok then { s with inputData := true, pc := .copied } else s.goto .crashed
      else s.goto .copied)
    else none
  | .createReqMsg ok =>
    if s.pc = .copied then
      some (if ok then { s with created := true, reqData := s.inputData, pc := .created }
      else (s.free (if s.inputData then [.data] else [])).goto
        (.returned RtnCode.errSysException.code))
    else none
  | .checkSocketStatus connected =>
    if s.pc = .created then
      some (s.goto (if connected then .checked else .refused RtnCode.errDisconnected.code))
    else if s.pc = .checked then
      some (s.goto (if connected then .cloning else .synced RtnCode.errDisconnected.code))
    else none
  | .clonePwrMsg ok =>
    if s.pc = .cloning then some (s.goto (if ok then .queued else .synced (-1))) else none
  | .createNode ok =>
    if s.pc = .queued then
      some (if ok then s.goto .noded
      else s.releaseReq.goto (.synced RtnCode.errSysException.code))
    else none
  | .link =>
    if s.pc = .noded then some { s with reqMsg := true, inList := true, pc := .linked } else none
  | .wait ret =>
    if s.pc = .linked then some (s.goto (if ret ≠ .success then .expired else .ready)) else none
  | .moveOut reached =>
    if s.pc = .expired then some { s with inList := s.inList && !reached, pc := .ready } else none
  | .take => if s.pc = .ready then some { s with rsp := s.rspMsg, pc := .taken } else none
  | .clearReq => if s.pc = .taken then some { s with reqMsg := false, pc := .reqCleared } else none
  | .clearRsp =>
    if s.pc = .reqCleared then some { s with rspMsg := none, pc := .rspCleared } else none
  | .releaseNode =>
    if s.pc = .rspCleared then some (s.releaseNode.goto (.synced RtnCode.success.code)) else none
  | .finish =>
    match s.pc with
    | .synced ret => some (s.sendReqAndWaitForRsp output (s.sendReqMsgAndWaitForRsp ret))
    | .refused ret => some (s.sendReqAndWaitForRsp output (.error ret))
    | _ => none
  | .receive msg reached =>
    if s.pc ≠ .crashed ∧ s.hand = none then
      let k := s.received.length
      let s := { s with received := s.received ++ [msg] }
      some (if s.inList ∧ s.reqMsg ∧ reached then { s with inList := false, hand := some k }
      else s.free [.rsp k])
    else none
  | .attach =>
    if s.pc ≠ .crashed then
      s.hand.map fun k => { s with rspMsg := some k, hand := none }
    else none

/-- The call has ended. -/
def Ended (s : Ownership) : Prop := s.pc = .crashed ∨ ∃ ret, s.pc = .returned ret

/-- Everything has been released exactly once, and NULL has not been dereferenced. -/
structure Released (s : Ownership) : Prop where
  alive : s.pc ≠ .crashed
  data : s.inputData = true → s.released.count .data = 1
  req : s.created = true → s.released.count .req = 1
  rsp : ∀ k < s.received.length, s.released.count (.rsp k) = 1

/-- The result of `malloc` is not NULL where that is not checked or not handled, and the
response is stored in the node while the node's owner still looks for it there. -/
def Orderly (input : ReqInputParam) (s : Ownership) : Event → Prop
  | .copyInput ok => HasData input → ok = true
  | .createNode ok => ok = true
  | .attach => s.pc.Heeds = true
  | .finish => s.hand = none
  | _ => True

instance (input : ReqInputParam) (s : Ownership) (e : Event) : Decidable (s.Orderly input e) := by
  unfold Orderly
  split <;> infer_instance

/-! ## The steps -/

/-- The call goes on, and nothing else happens. -/
inductive Walk : OwnerPc → OwnerPc → Prop where
  | copied : Walk .start .copied
  | checked : Walk .created .checked
  | cloning : Walk .checked .cloning
  | queued : Walk .cloning .queued
  | noded : Walk .queued .noded
  | expired : Walk .linked .expired
  | ready : Walk .linked .ready
  | refused (ret : Int) : Walk .created (.refused ret)
  | unsent (ret : Int) : Walk .checked (.synced ret)
  | uncopied (ret : Int) : Walk .cloning (.synced ret)

/-- What the steps do. -/
inductive Move (input : ReqInputParam) (s : Ownership) : Event → Ownership → Prop where
  | walk (e : Event) (pc : OwnerPc) (hwalk : Walk s.pc pc)
    (he : ∀ ok, e = .copyInput ok → ¬ HasData input) (hnode : ∀ ok, e = .createNode ok → ok = true)
    (hattach : e ≠ .attach) (hfinish : e ≠ .finish) : Move input s e (s.goto pc)
  | copy (hpc : s.pc = .start) (hdata : HasData input) :
    Move input s (.copyInput true) { s with inputData := true, pc := .copied }
  | crash (hpc : s.pc = .start) (hdata : HasData input) :
    Move input s (.copyInput false) (s.goto .crashed)
  | create (hpc : s.pc = .copied) :
    Move input s (.createReqMsg true)
      { s with created := true, reqData := s.inputData, pc := .created }
  | noReq (hpc : s.pc = .copied) :
    Move input s (.createReqMsg false) ((s.free (if s.inputData then [.data] else [])).goto
      (.returned RtnCode.errSysException.code))
  | noNode (hpc : s.pc = .queued) :
    Move input s (.createNode false)
      (s.releaseReq.goto (.synced RtnCode.errSysException.code))
  | link (hpc : s.pc = .noded) :
    Move input s .link { s with reqMsg := true, inList := true, pc := .linked }
  | moveOut (reached : Bool) (hpc : s.pc = .expired) :
    Move input s (.moveOut reached) { s with inList := s.inList && !reached, pc := .ready }
  | take (hpc : s.pc = .ready) : Move input s .take { s with rsp := s.rspMsg, pc := .taken }
  | clearReq (hpc : s.pc = .taken) :
    Move input s .clearReq { s with reqMsg := false, pc := .reqCleared }
  | clearRsp (hpc : s.pc = .reqCleared) :
    Move input s .clearRsp { s with rspMsg := none, pc := .rspCleared }
  | releaseNode (hpc : s.pc = .rspCleared) :
    Move input s .releaseNode (s.releaseNode.goto (.synced RtnCode.success.code))
  | finish (ret : Int) (hpc : ∃ ret, s.pc = .synced ret ∨ s.pc = .refused ret) :
    Move input s .finish (s.releaseReq.releaseRsp.goto (.returned ret))
  | found (msg : PwrMsg) (reached : Bool) (halive : s.pc ≠ .crashed) (hhand : s.hand = none)
    (hlist : s.inList = true) (hreq : s.reqMsg = true) :
    Move input s (.receive msg reached) { s with
      received := s.received ++ [msg], inList := false, hand := some s.received.length }
  | drop (msg : PwrMsg) (reached : Bool) (halive : s.pc ≠ .crashed) (hhand : s.hand = none) :
    Move input s (.receive msg reached)
      ({ s with received := s.received ++ [msg] }.free [.rsp s.received.length])
  | attach (k : ℕ) (halive : s.pc ≠ .crashed) (hhand : s.hand = some k) :
    Move input s .attach { s with rspMsg := some k, hand := none }

variable {input : ReqInputParam} {output : RspOutputParam} {s s' : Ownership} {e : Event}

/-- Every exit of `SendReqAndWaitForRsp` releases the request and the response. -/
theorem exists_sendReqAndWaitForRsp (s : Ownership) (output : RspOutputParam)
    (res : Except Int PwrMsg) :
    ∃ ret, s.sendReqAndWaitForRsp output res = s.releaseReq.releaseRsp.goto (.returned ret) := by
  unfold sendReqAndWaitForRsp
  split
  · exact ⟨_, rfl⟩
  · split
    · split <;> exact ⟨_, rfl⟩
    · exact ⟨_, rfl⟩

theorem move_of_step (h : step input output s e = some s') : Move input s e s' := by
  cases e with
  | copyInput ok =>
    obtain ⟨hpc, h⟩ := Option.ite_none_right_eq_some.mp h
    obtain rfl := Option.some.inj h
    split
    · rename_i hdata
      cases ok with
      | true => exact .copy hpc hdata
      | false => exact .crash hpc hdata
    · rename_i hdata
      exact .walk _ _ (hpc ▸ .copied) (fun _ _ => hdata) nofun nofun nofun
  | createReqMsg ok =>
    obtain ⟨hpc, h⟩ := Option.ite_none_right_eq_some.mp h
    obtain rfl := Option.some.inj h
    cases ok with
    | true => exact .create hpc
    | false => exact .noReq hpc
  | checkSocketStatus connected =>
    rw [step] at h
    split at h
    · rename_i hpc
      obtain rfl := Option.some.inj h
      refine .walk _ _ ?_ nofun nofun nofun nofun
      rw [hpc]
      cases connected with
      | true => exact .checked
      | false => exact .refused _
    · obtain ⟨hpc, h⟩ := Option.ite_none_right_eq_some.mp h
      obtain rfl := Option.some.inj h
      refine .walk _ _ ?_ nofun nofun nofun nofun
      rw [hpc]
      cases connected with
      | true => exact .cloning
      | false => exact .unsent _
  | clonePwrMsg ok =>
    obtain ⟨hpc, h⟩ := Option.ite_none_right_eq_some.mp h
    obtain rfl := Option.some.inj h
    refine .walk _ _ ?_ nofun nofun nofun nofun
    rw [hpc]
    cases ok with
    | true => exact .queued
    | false => exact .uncopied _
  | createNode ok =>
    obtain ⟨hpc, h⟩ := Option.ite_none_right_eq_some.mp h
    obtain rfl := Option.some.inj h
    cases ok with
    | true =>
      refine .walk _ _ ?_ nofun (fun _ heq => (Event.createNode.inj heq).symm) nofun nofun
      exact hpc ▸ .noded
    | false => exact .noNode hpc
  | link =>
    obtain ⟨hpc, h⟩ := Option.ite_none_right_eq_some.mp h
    obtain rfl := Option.some.inj h
    exact .link hpc
  | wait ret =>
    obtain ⟨hpc, h⟩ := Option.ite_none_right_eq_some.mp h
    obtain rfl := Option.some.inj h
    refine .walk _ _ ?_ nofun nofun nofun nofun
    rw [hpc]
    split
    · exact .expired
    · exact .ready
  | moveOut reached =>
    obtain ⟨hpc, h⟩ := Option.ite_none_right_eq_some.mp h
    obtain rfl := Option.some.inj h
    exact .moveOut reached hpc
  | take =>
    obtain ⟨hpc, h⟩ := Option.ite_none_right_eq_some.mp h
    obtain rfl := Option.some.inj h
    exact .take hpc
  | clearReq =>
    obtain ⟨hpc, h⟩ := Option.ite_none_right_eq_some.mp h
    obtain rfl := Option.some.inj h
    exact .clearReq hpc
  | clearRsp =>
    obtain ⟨hpc, h⟩ := Option.ite_none_right_eq_some.mp h
    obtain rfl := Option.some.inj h
    exact .clearRsp hpc
  | releaseNode =>
    obtain ⟨hpc, h⟩ := Option.ite_none_right_eq_some.mp h
    obtain rfl := Option.some.inj h
    exact .releaseNode hpc
  | finish =>
    rw [step] at h
    split at h
    · rename_i hpc
      obtain ⟨ret, heq⟩ := exists_sendReqAndWaitForRsp s output _
      obtain rfl := heq.symm.trans (Option.some.inj h)
      exact .finish ret ⟨_, .inl hpc⟩
    · rename_i hpc
      obtain ⟨ret, heq⟩ := exists_sendReqAndWaitForRsp s output _
      obtain rfl := heq.symm.trans (Option.some.inj h)
      exact .finish ret ⟨_, .inr hpc⟩
    · cases h
  | receive msg reached =>
    obtain ⟨⟨halive, hhand⟩, h⟩ := Option.ite_none_right_eq_some.mp h
    obtain rfl := Option.some.inj h
    dsimp only
    split
    · rename_i hfound
      exact .found msg reached halive hhand hfound.1 hfound.2.1
    · exact .drop msg reached halive hhand
  | attach =>
    obtain ⟨halive, h⟩ := Option.ite_none_right_eq_some.mp h
    obtain ⟨k, hhand, rfl⟩ := Option.map_eq_some_iff.mp h
    exact .attach k halive hhand

/-! ## The request -/

/-- The request and its data are with the caller until it returns. -/
structure ReqOwned (s : Ownership) : Prop where
  alive : s.pc ≠ .crashed
  unset : s.pc = .start → s.inputData = false
  uncreated : s.pc = .start ∨ s.pc = .copied → s.created = false
  created : s.pc.HasReq = true → s.created = true ∧ s.reqData = s.inputData
  data : s.released.count .data = if s.inputData = true ∧ s.pc.Done = true then 1 else 0
  req : s.released.count .req = if s.created = true ∧ s.pc.Done = true then 1 else 0
  reqMsg : s.reqMsg = true → s.pc.HasReqMsg = true

theorem reqOwned_init : init.ReqOwned := by
  refine ⟨nofun, fun _ => rfl, fun _ => rfl, nofun, rfl, rfl, nofun⟩

theorem Walk.done {pc pc' : OwnerPc} (h : Walk pc pc') : pc.Done = false ∧ pc'.Done = false := by
  cases h <;> exact ⟨rfl, rfl⟩

theorem Walk.into {pc pc' : OwnerPc} (h : Walk pc pc') :
    pc' ≠ .crashed ∧ pc' ≠ .start ∧ (pc' = .copied → pc = .start) ∧
      (pc'.HasReq = true → pc.HasReq = true) := by
  cases h <;> exact ⟨nofun, nofun, by simp, by simp [OwnerPc.HasReq]⟩

theorem Walk.hasReqMsg {pc pc' : OwnerPc} (h : Walk pc pc') (hreq : pc.HasReqMsg = true) :
    pc'.HasReqMsg = true := by
  cases h <;> first | rfl | cases hreq

theorem count_releaseReq (s : Ownership) (b : Block) :
    s.releaseReq.released.count b = s.released.count b +
      ((if s.reqData = true ∧ b = .data then 1 else 0) + if b = .req then 1 else 0) := by
  cases hdata : s.reqData <;> cases b <;> simp [releaseReq, free, hdata]

theorem data_ne (k : ℕ) : Block.data ≠ .rsp k := fun h => nomatch h

theorem req_ne (k : ℕ) : Block.req ≠ .rsp k := fun h => nomatch h

theorem count_map_rsp (l : List ℕ) {b : Block} (h : ∀ k, b ≠ .rsp k) :
    (l.map Block.rsp).count b = 0 := by
  refine List.count_eq_zero.mpr fun hmem => ?_
  obtain ⟨k, -, rfl⟩ := List.mem_map.mp hmem
  exact h k rfl

theorem count_releaseRsp_of_ne (s : Ownership) {b : Block} (h : ∀ k, b ≠ .rsp k) :
    s.releaseRsp.released.count b = s.released.count b := by
  simp [releaseRsp, free, count_map_rsp _ h]

theorem ReqOwned.walk (h : s.ReqOwned) {pc : OwnerPc} (hwalk : Walk s.pc pc) :
    (s.goto pc).ReqOwned := by
  have hdata := h.data
  have hreq := h.req
  rw [hwalk.done.1, ← hwalk.done.2] at hdata hreq
  obtain ⟨halive, hstart, hcopied, hhas⟩ := hwalk.into
  refine ⟨halive, fun hpc => absurd hpc hstart, ?_, fun hpc => h.created (hhas hpc), hdata, hreq,
    fun hmsg => hwalk.hasReqMsg (h.reqMsg hmsg)⟩
  rintro (hpc | hpc)
  · exact absurd hpc hstart
  · exact h.uncreated (.inl (hcopied hpc))

/-- A step of the call that releases nothing of the request. -/
theorem ReqOwned.of_call (h : s.ReqOwned) (hinput : s'.inputData = s.inputData)
    (hcreated : s'.created = s.created) (hreqData : s'.reqData = s.reqData)
    (hreleased : ∀ b, (∀ k, b ≠ .rsp k) → s'.released.count b = s.released.count b)
    (hpc : s.pc.HasReq = true) (hpc' : s'.pc.HasReq = true)
    (hreqMsg : s'.reqMsg = true → s'.pc.HasReqMsg = true) : s'.ReqOwned := by
  have hdone : ∀ {pc : OwnerPc}, pc.HasReq = true → pc.Done = false := by
    intro pc h
    cases pc <;> first | rfl | cases h
  refine ⟨?_, ?_, ?_, fun _ => ?_, ?_, ?_, hreqMsg⟩
  · intro heq
    rw [heq] at hpc'
    cases hpc'
  · intro heq
    rw [heq] at hpc'
    cases hpc'
  · rintro (heq | heq) <;> rw [heq] at hpc' <;> cases hpc'
  · rw [hcreated, hreqData, hinput]
    exact h.created hpc
  · rw [hreleased _ data_ne, h.data, hinput, hdone hpc, hdone hpc']
  · rw [hreleased _ req_ne, h.req, hcreated, hdone hpc, hdone hpc']

/-- A step of the socket thread. -/
theorem ReqOwned.of_socket (h : s.ReqOwned) (hinput : s'.inputData = s.inputData)
    (hcreated : s'.created = s.created) (hreqData : s'.reqData = s.reqData)
    (hreleased : ∀ b, (∀ k, b ≠ .rsp k) → s'.released.count b = s.released.count b)
    (hpc : s'.pc = s.pc) (hreqMsg : s'.reqMsg = s.reqMsg) : s'.ReqOwned := by
  refine ⟨?_, ?_, ?_, ?_, ?_, ?_, ?_⟩
  · rw [hpc]
    exact h.alive
  · rw [hpc, hinput]
    exact h.unset
  · rw [hpc, hcreated]
    exact h.uncreated
  · rw [hpc, hcreated, hreqData, hinput]
    exact h.created
  · rw [hreleased _ data_ne, hinput, hpc]
    exact h.data
  · rw [hreleased _ req_ne, hcreated, hpc]
    exact h.req
  · rw [hpc, hreqMsg]
    exact h.reqMsg

/-- The exits of `SendReqAndWaitForRsp`. -/
theorem ReqOwned.finish (h : s.ReqOwned) (ret : Int) (hpc : s.pc.HasReq = true)
    (hreqMsg : s.pc.HasReqMsg = false) :
    (s.releaseReq.releaseRsp.goto (.returned ret)).ReqOwned := by
  have hdone : s.pc.Done = false := by
    cases hs : s.pc <;> first | rfl | (rw [hs] at hpc; cases hpc)
  obtain ⟨hcreated, hdata⟩ := h.created hpc
  have hcount : ∀ b, (∀ k, b ≠ .rsp k) →
      (s.releaseReq.releaseRsp.goto (.returned ret)).released.count b = s.released.count b +
        ((if s.inputData = true ∧ b = .data then 1 else 0) + if b = .req then 1 else 0) := by
    intro b hb
    rw [← hdata, ← count_releaseReq]
    exact count_releaseRsp_of_ne _ hb
  refine ⟨nofun, nofun, nofun, nofun, ?_, ?_, fun hmsg => ?_⟩
  · rw [hcount _ data_ne, h.data, hdone]
    simp [goto, releaseReq, releaseRsp, free, OwnerPc.Done]
  · rw [hcount _ req_ne, h.req, hdone]
    simp [goto, releaseReq, releaseRsp, free, OwnerPc.Done, hcreated]
  · have := h.reqMsg hmsg
    rw [hreqMsg] at this
    cases this

/-- Where `malloc` is dealt with, the request stays with the caller. -/
theorem ReqOwned.step (h : s.ReqOwned) (hs : step input output s e = some s')
    (ho : s.Orderly input e) : s'.ReqOwned := by
  cases move_of_step hs with
  | walk e pc hwalk => exact h.walk hwalk
  | copy hpc hdata =>
    refine ⟨nofun, nofun, fun _ => h.uncreated (.inl hpc), nofun, ?_, ?_, fun hmsg => ?_⟩
    · have := h.data
      rw [hpc] at this
      simpa [OwnerPc.Done] using this
    · have := h.req
      rw [hpc] at this
      simpa [OwnerPc.Done] using this
    · have := h.reqMsg hmsg
      rw [hpc] at this
      cases this
  | crash hpc hdata => cases ho hdata
  | create hpc =>
    refine ⟨nofun, nofun, nofun, fun _ => ⟨rfl, rfl⟩, ?_, ?_, fun hmsg => ?_⟩
    · have := h.data
      rw [hpc] at this
      simpa [OwnerPc.Done] using this
    · have := h.req
      rw [hpc, h.uncreated (.inr hpc)] at this
      simpa [OwnerPc.Done] using this
    · have := h.reqMsg hmsg
      rw [hpc] at this
      cases this
  | noReq hpc =>
    refine ⟨nofun, nofun, nofun, nofun, ?_, ?_, fun hmsg => ?_⟩
    · have := h.data
      rw [hpc] at this
      cases hin : s.inputData <;> simp [goto, free, OwnerPc.Done, this, hin]
    · have := h.req
      rw [hpc] at this
      cases hin : s.inputData <;>
        simp [goto, free, OwnerPc.Done, this, hin, h.uncreated (.inr hpc)]
    · have := h.reqMsg hmsg
      rw [hpc] at this
      cases this
  | noNode hpc => cases ho
  | link hpc =>
    exact h.of_call rfl rfl rfl (fun _ _ => rfl) (by rw [hpc]; rfl) rfl fun _ => rfl
  | moveOut reached hpc =>
    exact h.of_call rfl rfl rfl (fun _ _ => rfl) (by rw [hpc]; rfl) rfl fun _ => rfl
  | take hpc =>
    exact h.of_call rfl rfl rfl (fun _ _ => rfl) (by rw [hpc]; rfl) rfl fun _ => rfl
  | clearReq hpc => exact h.of_call rfl rfl rfl (fun _ _ => rfl) (by rw [hpc]; rfl) rfl nofun
  | clearRsp hpc =>
    refine h.of_call rfl rfl rfl (fun _ _ => rfl) (by rw [hpc]; rfl) rfl fun hmsg => ?_
    have := h.reqMsg hmsg
    rw [hpc] at this
    cases this
  | releaseNode hpc =>
    have hmsg : s.reqMsg = false := by
      cases hmsg : s.reqMsg with
      | false => rfl
      | true =>
        have := h.reqMsg hmsg
        rw [hpc] at this
        cases this
    refine h.of_call ?_ ?_ ?_ (fun b hb => ?_) (by rw [hpc]; rfl) rfl nofun
    · simp [releaseNode, hmsg, goto, free]
    · simp [releaseNode, hmsg, goto, free]
    · simp [releaseNode, hmsg, goto, free]
    · simp [releaseNode, hmsg, goto, free, count_map_rsp _ hb]
  | finish ret hpc =>
    obtain ⟨ret', hpc | hpc⟩ := hpc
    · exact h.finish ret (by rw [hpc]; rfl) (by rw [hpc]; rfl)
    · exact h.finish ret (by rw [hpc]; rfl) (by rw [hpc]; rfl)
  | found msg reached halive hhand hlist hreq =>
    exact h.of_socket rfl rfl rfl (fun _ _ => rfl) rfl rfl
  | drop msg reached halive hhand =>
    refine h.of_socket rfl rfl rfl (fun b hb => ?_) rfl rfl
    have hne : Block.rsp s.received.length ≠ b := fun heq => hb _ heq.symm
    simp [free, hne]
  | attach k halive hhand => exact h.of_socket rfl rfl rfl (fun _ _ => rfl) rfl rfl

/-! ## The responses -/

/-- The responses that somebody has, who will release them or pass them on. -/
def held (s : Ownership) : List ℕ :=
  s.hand.toList ++ (if s.pc.Heeds then s.rspMsg.toList else []) ++
    if s.pc.Done then [] else s.rsp.toList

/-- Every response that was received has been released once, or somebody has it. -/
def Conserved (s : Ownership) : Prop :=
  ∀ k, s.released.count (.rsp k) + s.held.count k = if k < s.received.length then 1 else 0

/-- A response is in one place at a time. -/
structure RspOwned (s : Ownership) : Prop where
  early : s.pc.Early = true → s.hand = none ∧ s.rspMsg = none
  untaken : s.pc.HasTaken = false → s.rsp = none
  apart : s.hand ≠ none → s.inList = false ∧ s.rspMsg = none
  listed : s.inList = true → s.rspMsg = none
  done : s.pc.Done = true → s.hand = none
  conserved : s.Conserved

theorem rspOwned_init : init.RspOwned :=
  ⟨fun _ => ⟨rfl, rfl⟩, fun _ => rfl, fun h => absurd rfl h, nofun, nofun, fun _ => rfl⟩

/-- A step of the call in which no response goes anywhere. -/
theorem Conserved.of_eq (h : s.Conserved) (hheld : s'.held = s.held)
    (hreceived : s'.received = s.received)
    (hreleased : ∀ k, s'.released.count (.rsp k) = s.released.count (.rsp k)) :
    s'.Conserved := by
  intro k
  rw [hheld, hreceived, hreleased]
  exact h k

theorem OwnerPc.of_early {pc : OwnerPc} (h : pc.Early = true) : pc.HasTaken = false := by
  cases pc <;> first | rfl | cases h

/-- A step of the call before it has taken a response. -/
theorem RspOwned.of_early (h : s.RspOwned) (hpc : s.pc.Early = true)
    (hhand : s'.hand = s.hand) (hrspMsg : s'.rspMsg = s.rspMsg) (hrsp : s'.rsp = s.rsp)
    (hreceived : s'.received = s.received)
    (hreleased : ∀ k, s'.released.count (.rsp k) = s.released.count (.rsp k)) : s'.RspOwned := by
  obtain ⟨hnone, hnode⟩ := h.early hpc
  have huntaken : s.rsp = none := h.untaken (OwnerPc.of_early hpc)
  rw [hnone] at hhand
  rw [hnode] at hrspMsg
  rw [huntaken] at hrsp
  refine ⟨fun _ => ⟨hhand, hrspMsg⟩, fun _ => hrsp, fun hne => absurd hhand hne, fun _ => hrspMsg,
    fun _ => hhand, h.conserved.of_eq ?_ hreceived hreleased⟩
  simp [held, hhand, hrspMsg, hrsp, hnone, hnode, huntaken]

theorem Walk.stage {pc pc' : OwnerPc} (h : Walk pc pc') :
    pc.Early = true ∨ pc = .linked ∧ (pc' = .expired ∨ pc' = .ready) := by
  cases h <;> simp [OwnerPc.Early]

theorem RspOwned.walk (h : s.RspOwned) {pc : OwnerPc} (hwalk : Walk s.pc pc) :
    (s.goto pc).RspOwned := by
  rcases hwalk.stage with hearly | ⟨hpc, hpc'⟩
  · exact h.of_early hearly rfl rfl rfl rfl fun _ => rfl
  · have hrsp : s.rsp = none := h.untaken (by rw [hpc]; rfl)
    refine ⟨?_, fun _ => hrsp, h.apart, h.listed, ?_, h.conserved.of_eq ?_ rfl fun _ => rfl⟩ <;>
      rcases hpc' with rfl | rfl
    · exact nofun
    · exact nofun
    · exact nofun
    · exact nofun
    · simp [held, goto, hpc, OwnerPc.Heeds, OwnerPc.Done]
    · simp [held, goto, hpc, OwnerPc.Heeds, OwnerPc.Done]

theorem count_releaseReq_rsp (s : Ownership) (k : ℕ) :
    s.releaseReq.released.count (.rsp k) = s.released.count (.rsp k) := by
  rw [count_releaseReq]
  simp

theorem count_rsp (l : List ℕ) (k : ℕ) : (l.map Block.rsp).count (.rsp k) = l.count k :=
  List.count_map_of_injective l Block.rsp (fun _ _ => Block.rsp.inj) k

/-- A response is received. -/
theorem Conserved.receive (h : s.Conserved) {msg : PwrMsg}
    (hreceived : s'.received = s.received ++ [msg])
    (hcount : ∀ k, s'.released.count (.rsp k) + s'.held.count k = s.released.count (.rsp k) +
      s.held.count k + if s.received.length = k then 1 else 0) : s'.Conserved := by
  intro k
  rw [hcount, h k, hreceived, List.length_append, List.length_singleton]
  split_ifs <;> omega

theorem releaseNode_eq (hmsg : s.reqMsg = false) : s.releaseNode =
    { s with
      reqMsg := false, rspMsg := none, released := s.released ++ s.rspMsg.toList.map .rsp } := by
  rw [releaseNode, hmsg]
  rfl

theorem OwnerPc.of_hasReqMsg {pc : OwnerPc} (h : pc.HasReqMsg = true) :
    pc.Early = false ∧ pc.Done = false := by
  cases pc <;> first | exact ⟨rfl, rfl⟩ | cases h

/-- Where `malloc` is dealt with and the response is stored in time, none is lost. -/
theorem RspOwned.step (h : s.RspOwned) (hreq : s.ReqOwned)
    (hs : step input output s e = some s') (ho : s.Orderly input e) : s'.RspOwned := by
  cases move_of_step hs with
  | walk e pc hwalk => exact h.walk hwalk
  | copy hpc hdata => exact h.of_early (by rw [hpc]; rfl) rfl rfl rfl rfl fun _ => rfl
  | crash hpc hdata => exact h.of_early (by rw [hpc]; rfl) rfl rfl rfl rfl fun _ => rfl
  | create hpc => exact h.of_early (by rw [hpc]; rfl) rfl rfl rfl rfl fun _ => rfl
  | noReq hpc =>
    refine h.of_early (by rw [hpc]; rfl) rfl rfl rfl rfl fun k => ?_
    cases s.inputData <;> simp [goto, free]
  | noNode hpc =>
    exact h.of_early (by rw [hpc]; rfl) rfl rfl rfl rfl fun k => count_releaseReq_rsp s k
  | link hpc =>
    obtain ⟨hhand, hnode⟩ := h.early (by rw [hpc]; rfl)
    have hrsp : s.rsp = none := h.untaken (by rw [hpc]; rfl)
    refine ⟨nofun, fun _ => hrsp, fun hne => absurd hhand hne, fun _ => hnode, nofun,
      h.conserved.of_eq ?_ rfl fun _ => rfl⟩
    simp [held, hhand, hnode, hrsp]
  | moveOut reached hpc =>
    have hrsp : s.rsp = none := h.untaken (by rw [hpc]; rfl)
    refine ⟨nofun, fun _ => hrsp, fun hne => ?_, fun hlist => ?_, nofun,
      h.conserved.of_eq ?_ rfl fun _ => rfl⟩
    · obtain ⟨hout, hnode⟩ := h.apart hne
      exact ⟨by simp [hout], hnode⟩
    · exact h.listed (by simpa using (Bool.and_eq_true_iff.mp hlist).1)
    · simp [held, hpc, OwnerPc.Heeds, OwnerPc.Done]
  | take hpc =>
    have hrsp : s.rsp = none := h.untaken (by rw [hpc]; rfl)
    refine ⟨nofun, nofun, h.apart, h.listed, nofun, h.conserved.of_eq ?_ rfl fun _ => rfl⟩
    simp [held, hpc, hrsp, OwnerPc.Heeds, OwnerPc.Done]
  | clearReq hpc =>
    refine ⟨nofun, nofun, h.apart, h.listed, nofun, h.conserved.of_eq ?_ rfl fun _ => rfl⟩
    simp [held, hpc, OwnerPc.Heeds, OwnerPc.Done]
  | clearRsp hpc =>
    refine ⟨nofun, nofun, fun hne => ⟨(h.apart hne).1, rfl⟩, fun _ => rfl, nofun,
      h.conserved.of_eq ?_ rfl fun _ => rfl⟩
    simp [held, hpc, OwnerPc.Heeds, OwnerPc.Done]
  | releaseNode hpc =>
    have hmsg : s.reqMsg = false := by
      cases hmsg : s.reqMsg with
      | false => rfl
      | true =>
        have := hreq.reqMsg hmsg
        rw [hpc] at this
        cases this
    rw [releaseNode_eq hmsg]
    refine ⟨nofun, nofun, fun hne => ⟨(h.apart hne).1, rfl⟩, fun _ => rfl, nofun, fun k => ?_⟩
    have hheld : s.held = s.hand.toList ++ s.rspMsg.toList ++ s.rsp.toList := by
      simp [held, hpc, OwnerPc.Heeds, OwnerPc.Done]
    have hk := h.conserved k
    rw [hheld, List.count_append, List.count_append] at hk
    simp only [goto, List.count_append, count_rsp]
    refine Eq.trans ?_ hk
    simp [held, OwnerPc.Heeds, OwnerPc.Done]
    omega
  | finish ret hpc =>
    have hhand : s.hand = none := ho
    refine ⟨nofun, nofun, fun hne => absurd hhand hne, h.listed, fun _ => hhand, fun k => ?_⟩
    have hreleased : (s.releaseReq.releaseRsp.goto (.returned ret)).released.count (.rsp k) =
        s.released.count (.rsp k) + s.rsp.toList.count k := by
      rw [← count_releaseReq_rsp s, ← count_rsp, ← List.count_append]
      rfl
    have hheld : s.held = s.rsp.toList := by
      obtain ⟨ret', hpc | hpc⟩ := hpc <;> simp [held, hpc, hhand, OwnerPc.Heeds, OwnerPc.Done]
    have hheld' : (s.releaseReq.releaseRsp.goto (.returned ret)).held = [] := by
      simp [held, goto, releaseReq, releaseRsp, free, hhand, OwnerPc.Heeds, OwnerPc.Done]
    rw [hreleased, hheld', List.count_nil, Nat.add_zero, ← hheld]
    exact h.conserved k
  | found msg reached halive hhand hlist hmsg =>
    obtain ⟨hearly, hdone⟩ := OwnerPc.of_hasReqMsg (hreq.reqMsg hmsg)
    have hnode := h.listed hlist
    refine ⟨fun h => absurd (hearly.symm.trans h) nofun, h.untaken, fun _ => ⟨rfl, hnode⟩, nofun,
      fun h => absurd (hdone.symm.trans h) nofun, h.conserved.receive rfl fun k => ?_⟩
    have hheld : held { s with
        received := s.received ++ [msg], inList := false, hand := some s.received.length } =
        s.received.length :: s.held := by
      simp [held, hhand, hnode]
    rw [hheld, List.count_cons, ← Nat.add_assoc]
    simp
  | drop msg reached halive hhand =>
    refine ⟨h.early, h.untaken, h.apart, h.listed, h.done, h.conserved.receive rfl fun k => ?_⟩
    have hheld : held ({ s with received := s.received ++ [msg] }.free [.rsp s.received.length]) =
        s.held := rfl
    rw [hheld]
    simp [free, List.count_singleton]
    omega
  | attach k halive hhand =>
    obtain ⟨hout, hnode⟩ := h.apart (by rw [hhand]; nofun)
    have hheeds : s.pc.Heeds = true := ho
    refine ⟨fun hearly => ?_, h.untaken, fun hne => absurd rfl hne, fun hlist => ?_, fun _ => rfl,
      h.conserved.of_eq ?_ rfl fun _ => rfl⟩
    · rw [(h.early hearly).1] at hhand
      cases hhand
    · rw [hout] at hlist
      cases hlist
    · simp [held, hhand, hnode, hheeds]

/-! ## What cannot be made good -/

/-- The response has been received and will not be released. -/
structure Lost (s : Ownership) (k : ℕ) : Prop where
  received : k < s.received.length
  released : .rsp k ∉ s.released
  rsp : s.rsp ≠ some k
  late : s.pc.HasTaken = true
  hand : s.hand = some k → s.pc.Done = true
  node : s.rspMsg = some k → s.pc ≠ .rspCleared

/-- The call has dereferenced NULL, has released the request twice or is about to, or has
lost a response. -/
inductive Spoilt (s : Ownership) : Prop where
  | crashed (hpc : s.pc = .crashed)
  | doomed (ret : Int) (hpc : s.pc = .synced ret) (hcreated : s.created = true)
    (hreq : .req ∈ s.released)
  | twice (hcreated : s.created = true) (hreq : 2 ≤ s.released.count .req)
  | lost (k : ℕ) (h : s.Lost k)

/-- What has been released stays so. -/
theorem released_step (hs : step input output s e = some s') :
    ∃ blocks, s'.released = s.released ++ blocks := by
  cases move_of_step hs with
  | noReq | drop => exact ⟨_, rfl⟩
  | noNode => exact ⟨_, rfl⟩
  | releaseNode =>
    rw [releaseNode]
    split
    · exact ⟨_, List.append_assoc ..⟩
    · exact ⟨_, rfl⟩
  | finish => exact ⟨_, List.append_assoc ..⟩
  | _ => exact ⟨[], (List.append_nil _).symm⟩

theorem created_step (hs : step input output s e = some s') (h : s.created = true) :
    s'.created = true := by
  cases move_of_step hs with
  | create => rfl
  | releaseNode =>
    rw [releaseNode]
    split <;> exact h
  | _ => exact h

theorem Spoilt.not_released (h : s.Spoilt) (hend : s.Ended) : ¬ s.Released := by
  intro hrel
  cases h with
  | crashed h => exact hrel.alive h
  | doomed ret hpc =>
    rcases hend with heq | ⟨_, heq⟩ <;> rw [hpc] at heq <;> cases heq
  | twice hcreated hreq =>
    have := hrel.req hcreated
    omega
  | lost k h =>
    have := hrel.rsp k h.received
    exact absurd (List.count_pos_iff.mp (by omega)) h.released

theorem rsp_notMem_releaseReq {k : ℕ} (h : .rsp k ∉ s.released) :
    .rsp k ∉ s.releaseReq.released := by
  rw [← List.count_eq_zero] at h ⊢
  rw [count_releaseReq_rsp, h]

theorem Lost.step {k : ℕ} (h : s.Lost k) (hs : Ownership.step input output s e = some s') :
    s'.Lost k := by
  have hearly : ∀ {pc : OwnerPc}, s.pc = pc → pc.HasTaken = false → False := by
    intro pc hpc hfalse
    rw [← hpc, h.late] at hfalse
    cases hfalse
  cases move_of_step hs with
  | walk e pc hwalk =>
    have := h.late
    generalize s.pc = pc at *
    cases hwalk <;> cases this
  | copy hpc | crash hpc | create hpc | noReq hpc | noNode hpc | link hpc | moveOut _ hpc
  | take hpc => exact (hearly hpc rfl).elim
  | clearReq hpc =>
    refine ⟨h.received, h.released, h.rsp, rfl, fun hk => ?_, fun _ => nofun⟩
    have := h.hand hk
    rw [hpc] at this
    cases this
  | clearRsp hpc =>
    refine ⟨h.received, h.released, h.rsp, rfl, fun hk => ?_, nofun⟩
    have := h.hand hk
    rw [hpc] at this
    cases this
  | releaseNode hpc =>
    have hnode : s.rspMsg ≠ some k := fun hk => h.node hk hpc
    have hout : .rsp k ∉ s.rspMsg.toList.map Block.rsp := by
      simpa [Option.mem_toList] using hnode
    have hhand : s.hand = some k → False := fun hk => by
      have := h.hand hk
      rw [hpc] at this
      cases this
    rw [releaseNode]
    split
    · refine ⟨h.received, fun hmem => ?_, h.rsp, rfl, fun hk => (hhand hk).elim, nofun⟩
      exact (List.mem_append.mp hmem).elim (rsp_notMem_releaseReq h.released) hout
    · refine ⟨h.received, fun hmem => ?_, h.rsp, rfl, fun hk => (hhand hk).elim, nofun⟩
      exact (List.mem_append.mp hmem).elim h.released hout
  | finish ret hpc =>
    refine ⟨h.received, fun hmem => ?_, h.rsp, rfl, fun _ => rfl, fun _ => nofun⟩
    refine (List.mem_append.mp hmem).elim (rsp_notMem_releaseReq h.released) ?_
    simpa [releaseReq, free, Option.mem_toList] using h.rsp
  | found msg reached halive hhand hlist hmsg =>
    refine ⟨?_, h.released, h.rsp, h.late, fun hk => ?_, h.node⟩
    · rw [List.length_append]
      exact Nat.lt_add_right _ h.received
    · exact absurd (Option.some.inj hk) (Nat.ne_of_gt h.received)
  | drop msg reached halive hhand =>
    refine ⟨?_, fun hmem => ?_, h.rsp, h.late, h.hand, h.node⟩
    · exact (List.length_append ▸ Nat.lt_add_right _ h.received :)
    · refine (List.mem_append.mp hmem).elim h.released fun hk => ?_
      exact Nat.ne_of_lt h.received (Block.rsp.inj (List.mem_singleton.mp hk))
  | attach j halive hhand =>
    refine ⟨h.received, h.released, h.rsp, h.late, nofun, fun hk hpc => ?_⟩
    have := h.hand (hhand.trans hk)
    rw [hpc] at this
    cases this

theorem Spoilt.step (h : s.Spoilt) (hs : Ownership.step input output s e = some s') :
    s'.Spoilt := by
  obtain ⟨blocks, hblocks⟩ := released_step hs
  cases h with
  | crashed hpc =>
    have hnot : ∀ pc, s.pc = pc → pc ≠ .crashed → False := fun _ heq hne => hne (heq ▸ hpc)
    cases move_of_step hs with
    | walk e pc hwalk =>
      generalize s.pc = pc at *
      subst hpc
      cases hwalk
    | finish ret hpc => obtain ⟨_, h | h⟩ := hpc <;> exact (hnot _ h nofun).elim
    | found _ _ halive | drop _ _ halive | attach _ halive => exact absurd hpc halive
    | copy h | crash h | create h | noReq h | noNode h | link h | moveOut _ h | take h
    | clearReq h | clearRsp h | releaseNode h => exact (hnot _ h nofun).elim
  | doomed ret hpc hcreated hreq =>
    by_cases hfinish : e = .finish
    · subst hfinish
      refine .twice (created_step hs hcreated) ?_
      cases move_of_step hs with
      | walk _ _ _ _ _ _ hne => exact absurd rfl hne
      | finish ret' =>
        show 2 ≤ s.releaseReq.releaseRsp.released.count .req
        rw [count_releaseRsp_of_ne _ req_ne, count_releaseReq]
        have := List.count_pos_iff.mpr hreq
        simp
        omega
    · have hpc' : s'.pc = s.pc := by
        cases move_of_step hs with
        | walk e pc hwalk =>
          rw [hpc] at hwalk
          cases hwalk
        | finish => exact absurd rfl hfinish
        | found | drop | attach => rfl
        | copy h | crash h | create h | noReq h | noNode h | link h | moveOut _ h | take h
        | clearReq h | clearRsp h | releaseNode h => cases hpc.symm.trans h
      refine .doomed ret (hpc'.trans hpc) (created_step hs hcreated) ?_
      rw [hblocks]
      exact List.mem_append_left _ hreq
  | twice hcreated hreq =>
    refine .twice (created_step hs hcreated) ?_
    rw [hblocks, List.count_append]
    exact Nat.le_add_right_of_le hreq
  | lost k h => exact .lost k (h.step hs)

/-! ## Runs -/

/-- Nothing has gone wrong so far. -/
structure Sound (s : Ownership) : Prop extends ReqOwned s, RspOwned s

theorem Sound.released (h : s.Sound) (hend : s.Ended) : s.Released := by
  obtain ⟨ret, hpc⟩ := hend.resolve_left h.alive
  have hdone : s.pc.Done = true := by
    rw [hpc]
    rfl
  refine ⟨h.alive, fun hin => ?_, fun hcreated => ?_, fun k hk => ?_⟩
  · rw [h.data, if_pos ⟨hin, hdone⟩]
  · rw [h.req, if_pos ⟨hcreated, hdone⟩]
  · have hheld : s.held = [] := by
      simp [held, h.done hdone, hpc, OwnerPc.Heeds, OwnerPc.Done]
    have := h.conserved k
    rwa [hheld, List.count_nil, Nat.add_zero, if_pos hk] at this

/-- What the socket thread has in its hands is nowhere else. -/
theorem Sound.of_hand (h : s.Sound) {k : ℕ} (hhand : s.hand = some k) :
    k < s.received.length ∧ .rsp k ∉ s.released ∧ s.rsp ≠ some k ∧ s.pc.Done = false := by
  have hdone : s.pc.Done = false := by
    cases hdone : s.pc.Done with
    | false => rfl
    | true => cases (h.done hdone).symm.trans hhand
  have hk := h.conserved k
  rw [held, hhand, hdone, List.count_append, List.count_append] at hk
  have hself : (some k).toList.count k = 1 := by simp
  rw [hself] at hk
  have hlt : k < s.received.length := by
    by_contra hge
    rw [if_neg hge] at hk
    omega
  rw [if_pos hlt] at hk
  refine ⟨hlt, List.count_eq_zero.mp (by omega), fun hrsp => ?_, hdone⟩
  rw [hrsp] at hk
  simp at hk
  omega

theorem OwnerPc.of_not_heeds {pc : OwnerPc} (h : ¬ pc.Heeds = true) :
    pc.HasTaken = true ∧ pc ≠ .rspCleared := by
  cases pc <;> first | exact absurd rfl h | exact ⟨rfl, nofun⟩

/-- A step that is not orderly spoils everything. -/
theorem Sound.spoilt (h : s.Sound) (hs : Ownership.step input output s e = some s')
    (ho : ¬ s.Orderly input e) : s'.Spoilt := by
  cases move_of_step hs with
  | crash hpc hdata => exact .crashed rfl
  | noNode hpc =>
    refine .doomed _ rfl (h.created (by rw [hpc]; rfl)).1 ?_
    exact List.mem_append_right _ (List.mem_append_right _ List.mem_cons_self)
  | finish ret hpc =>
    obtain ⟨k, hhand⟩ := Option.ne_none_iff_exists'.mp ho
    obtain ⟨hlt, hout, hrsp, -⟩ := h.of_hand hhand
    refine .lost k ⟨hlt, fun hmem => ?_, hrsp, rfl, fun _ => rfl, fun _ => nofun⟩
    refine (List.mem_append.mp hmem).elim (rsp_notMem_releaseReq hout) ?_
    simpa [releaseReq, free, Option.mem_toList] using hrsp
  | attach k halive hhand =>
    obtain ⟨hlt, hout, hrsp, -⟩ := h.of_hand hhand
    obtain ⟨htaken, hpc⟩ := OwnerPc.of_not_heeds ho
    exact .lost k ⟨hlt, hout, hrsp, htaken, nofun, fun _ => hpc⟩
  | walk e pc hwalk hcopy hnode hattach hfinish =>
    cases e with
    | copyInput ok => exact absurd (fun hdata => absurd hdata (hcopy ok rfl)) ho
    | createNode ok => exact absurd (hnode ok rfl) ho
    | attach => exact absurd rfl hattach
    | finish => exact absurd rfl hfinish
    | _ => exact absurd trivial ho
  | copy => exact absurd (fun _ => rfl) ho
  | _ => exact absurd trivial ho

theorem sound_init : init.Sound := ⟨reqOwned_init, rspOwned_init⟩

/-- However a call ends, whatever comes to it meanwhile: everything has been released once
if and only if all steps were orderly. -/
theorem released_iff_orderly {events : List Event}
    (hrun : Transition.run (step input output) init events = some s) (hend : s.Ended) :
    s.Released ↔ Transition.Along (step input output) (fun s e _ => s.Orderly input e) init
      events := by
  rcases Transition.run_either (I := Sound) (D := Spoilt) (C := Orderly input)
    (fun h hs ho => ⟨h.toReqOwned.step hs ho, h.toRspOwned.step h.toReqOwned hs ho⟩)
    (fun h hs ho => h.spoilt hs ho) (fun h hs => h.step hs) sound_init hrun with
    ⟨halong, hsound⟩ | ⟨hnot, hspoilt⟩
  · exact iff_of_true (hsound.released hend) halong
  · exact iff_of_false (hspoilt.not_released hend) hnot

/-- A call with data, up to `CreateResultWaitingMsgNode`. -/
def untilNode : List Event :=
  [.copyInput true, .createReqMsg true, .checkSocketStatus true, .checkSocketStatus true,
    .clonePwrMsg true]

/-- The response comes when the wait has just timed out. -/
def lateResponse : List Event :=
  untilNode ++ [.createNode true, .link, .wait .errTimeout,
    .receive ⟨MsgHead.zero, .null⟩ true, .attach, .moveOut true, .take, .clearReq, .clearRsp,
    .releaseNode, .finish]

theorem released_iff_orderly_lateResponse :
    ∃ s, Transition.run (step ⟨.cpuSetCurFreq, 16, 1⟩ ⟨none, 0⟩) init lateResponse = some s ∧
      s.released = [.data, .req, .rsp 0] ∧ s.Released := by
  refine ⟨_, rfl, rfl, ?_⟩
  refine (@released_iff_orderly ⟨.cpuSetCurFreq, 16, 1⟩ ⟨none, 0⟩ _ lateResponse rfl
    (.inr ⟨_, rfl⟩)).mpr ?_
  decide +kernel

/-- `SendMsgSyn` releases the request if there is no memory for the node, and
`SendReqAndWaitForRsp` releases it again. -/
theorem noNode_released_twice :
    ∃ s, Transition.run (step ⟨.cpuSetCurFreq, 16, 1⟩ ⟨none, 0⟩) init
        (untilNode ++ [.createNode false, .finish]) = some s ∧
      s.Ended ∧ s.released.count .req = 2 ∧ ¬ s.Released :=
  ⟨_, rfl, .inr ⟨_, rfl⟩, rfl, fun h => absurd (h.req rfl) (by decide)⟩

end Ownership

end PowerApi
