import PowerApi.Answers
import PowerApi.Framing

/-!
# What every handler keeps to (`server.c` and the services)

A handler may look at the request, the machine, the authority and the tasks. What it may
not look at is how the request got there and how the response will leave: `Handles` says
that it does the same whatever is in the queue of requests, and that it queues nothing, or
one response whose data is a block of its own with as many bytes as the head says.
`handles_processReqMsg` is that `ProcessReqMsg` keeps to it, one case for each handler, and
`dispatch_congr` that the address of the request's data makes no difference.

A response can come with a block of no bytes, when there are no policies to tell of; all
others are `Sendable`.
-/

namespace PowerApi

open Bytes

/-- `data` is NULL and there are no bytes, or it is a block with the bytes that the head
counts. -/
def PwrMsg.Whole (m : PwrMsg) : Prop :=
  match m.data with
  | .null => m.head.dataLen = 0
  | .heap a bs => a ≠ 0 ∧ bs.length = m.head.dataLen.toNat ∧ bs.length < 2 ^ 31
  | .wild _ => False

/-- With bytes to send, such a message can be sent. -/
theorem PwrMsg.Whole.sendable {m : PwrMsg} (h : m.Whole) (hlen : m.head.dataLen ≠ 0) :
    Sendable m := by
  rcases m with ⟨head, _ | ⟨a, bs⟩ | a⟩
  · exact absurd h hlen
  · obtain ⟨ha, hbs, hint⟩ := h
    exact ⟨⟨ha, hlen, hbs⟩, by rw [← hbs]; exact hint⟩
  · exact h.elim

/-- A machine whose data fits into a response: an `int` counts its bytes. -/
def Machine.Modest (m : Machine) : Prop := 16 + 16 * m.coreNum < 2 ^ 31

namespace Server

/-- The server with another queue of requests. -/
def withRecvBuff (srv : Server) (recvBuff : PwrMsgBuffer PwrMsg) : Server :=
  { srv with recvBuff := recvBuff }

/-- What a handler of `req` keeps to. -/
structure Handles (req : PwrMsg) (f : Server → Except Fault Server) : Prop where
  /-- it does not look at the queue of requests -/
  blind : ∀ srv recvBuff, f (srv.withRecvBuff recvBuff) =
    (f srv).map fun srv => srv.withRecvBuff recvBuff
  /-- it queues one response at most -/
  responds : ∀ srv srv', f srv = .ok srv' → srv'.sendBuff = srv.sendBuff ∨
    ∃ rsp : PwrMsg, rsp.Whole ∧ Answers rsp req ∧ srv'.sendBuff = enqueue srv.sendBuff rsp

section Handles

variable {req : PwrMsg} {m : Machine}

theorem handles_ok : Handles req fun srv => .ok srv where
  blind _ _ := rfl
  responds _ _ h := .inl (congrArg Server.sendBuff (Except.ok.inj h)).symm

theorem handles_error (f : Fault) : Handles req fun _ => .error f where
  blind _ _ := rfl
  responds _ _ h := by cases h

/-- What is worked out from the request and the machine comes first. -/
theorem handles_bind {α : Type} (x : Except Fault α) {f : α → Server → Except Fault Server}
    (h : ∀ a, x = .ok a → Handles req (f a)) : Handles req fun srv => x >>= fun a => f a srv := by
  cases x with
  | error e => exact handles_error e
  | ok a => exact h a rfl

theorem handles_ite {p : Prop} [Decidable p] {f g : Server → Except Fault Server}
    (hf : p → Handles req f) (hg : ¬ p → Handles req g) :
    Handles req fun srv => if p then f srv else g srv := by
  by_cases hp : p
  · simp only [if_pos hp]
    exact hf hp
  · simp only [if_neg hp]
    exact hg hp

theorem addToSendBuff_withRecvBuff (srv : Server) (recvBuff : PwrMsgBuffer PwrMsg) (msg : PwrMsg) :
    (srv.withRecvBuff recvBuff).addToSendBuff msg =
      (srv.addToSendBuff msg).map fun srv => srv.withRecvBuff recvBuff := by
  unfold addToSendBuff withRecvBuff
  dsimp only
  cases (addToBufferTail srv.sendBuff msg).2 with
  | none => rfl
  | some old =>
    dsimp only
    cases releasePwrMsg old <;> rfl

theorem handles_addToSendBuff {rspCode : Int} {data : DataPtr} {len : UInt32}
    (hwhole : (generateRspMsg req rspCode data len).Whole) :
    Handles req fun srv => srv.addToSendBuff (generateRspMsg req rspCode data len) where
  blind srv recvBuff := addToSendBuff_withRecvBuff srv recvBuff _
  responds srv srv' h := .inr ⟨_, hwhole, answers_generateRspMsg req rspCode data len, by
    rw [addToSendBuff_ok h]⟩

theorem handles_sendRsp {rspCode : Int} {data : DataPtr} {len : UInt32}
    (hwhole : data = .null ∧ len ≠ 0 ∨ (generateRspMsg req rspCode data len).Whole) :
    Handles req fun srv => srv.sendRspToClient m req rspCode data len := by
  unfold sendRspToClient
  refine handles_ite (fun _ => handles_ok) fun hdata => handles_ite (fun _ => ?_) fun _ => ?_
  · exact handles_bind data.free fun _ _ => handles_ok
  · exact handles_addToSendBuff (hwhole.resolve_left hdata)

/-- A code without data. -/
theorem handles_sendCode (rspCode : Int) :
    Handles req fun srv => srv.sendRspToClient m req rspCode .null 0 :=
  handles_sendRsp (.inr rfl)

/-- A block of data. -/
theorem handles_sendBlock {size : ℕ} (hsize : size < 2 ^ 31) (hdata : m.rspData ≠ 0) (rspCode : Int)
    (reading : Reading size) : Handles req fun srv =>
      srv.sendRspToClient m req rspCode (.heap m.rspData reading.data) (UInt32.ofNat size) := by
  have hlen : reading.data.length = (UInt32.ofNat size).toNat := by
    rw [reading.length_data, UInt32.toNat_ofNat', Nat.mod_eq_of_lt (by omega)]
  exact handles_sendRsp (.inr ⟨hdata, hlen, by rwa [reading.length_data]⟩)

theorem handles_sendReading {size : ℕ} (hsize : size < 2 ^ 31)
    (read : Except Fault (Reading size)) : Handles req fun srv => srv.sendReading m req read := by
  unfold sendReading
  exact handles_ite (fun _ => handles_ok) fun hdata =>
    handles_bind read fun reading _ => handles_sendBlock hsize hdata _ reading

/-- A code that is worked out from request and machine. -/
theorem handles_code (x : Except Fault Int) :
    Handles req fun srv => x >>= fun rspCode => srv.sendRspToClient m req rspCode .null 0 :=
  handles_bind x fun rspCode _ => handles_sendCode rspCode

/-- A handler that decides about the authority or the tasks first. -/
theorem handles_decision (decision : Server → RtnCode × Server)
    (hblind : ∀ srv recvBuff, decision (srv.withRecvBuff recvBuff) =
      ((decision srv).1, (decision srv).2.withRecvBuff recvBuff))
    (hsend : ∀ srv, (decision srv).2.sendBuff = srv.sendBuff) :
    Handles req fun srv =>
      (decision srv).2.sendRspToClient m req (decision srv).1.code .null 0 where
  blind srv recvBuff := by
    rw [hblind]
    exact (handles_sendCode _).blind _ _
  responds srv srv' h := by
    rw [← hsend srv]
    exact (handles_sendCode _).responds _ _ h

/-! ## The handlers -/

theorem handles_createDataCollTask : Handles req fun srv => srv.createDataCollTask m req := by
  refine handles_ite (fun _ => handles_ok) fun _ => handles_bind req.data.deref fun data _ => ?_
  exact handles_decision (fun srv =>
    let r := srv.tasks.createTask (basicDcTaskInfoOf data) req.head.sysId m.create
    (r.1, { srv with tasks := r.2 })) (fun _ _ => rfl) fun _ => rfl

theorem handles_deleteDataCollTask : Handles req fun srv => srv.deleteDataCollTask m req := by
  refine handles_ite (fun _ => handles_ok) fun _ => handles_bind req.data.deref fun data _ => ?_
  exact handles_decision (fun srv =>
    let r := srv.tasks.deleteTask (UInt32.ofNat (fieldAt data 0 4)) req.head.sysId
    (r.1, { srv with tasks := r.2 })) (fun _ _ => rfl) fun _ => rfl

theorem handles_requestControlAuth : Handles req fun srv => srv.requestControlAuth m req :=
  handles_decision (fun srv =>
    let r := srv.auth.doAuthRequest req.head.sysId
    (r.1, { srv with auth := r.2 })) (fun _ _ => rfl) fun _ => rfl

theorem handles_releaseControlAuth : Handles req fun srv => srv.releaseControlAuth m req :=
  handles_decision (fun srv =>
    let r := srv.auth.doAuthRelease req.head.sysId
    (r.1, { srv with auth := r.2 })) (fun _ _ => rfl) fun _ => rfl

theorem handles_setSysPowerState : Handles req fun srv => srv.setSysPowerState m req :=
  handles_bind (m.powerSet req.data) fun _ _ =>
    handles_ite (fun _ => handles_ok) fun _ => handles_addToSendBuff rfl

theorem handles_setCpuFreqGovernor : Handles req fun srv => srv.setCpuFreqGovernor m req :=
  handles_bind m.getPolicys fun policys _ =>
    handles_code (m.governorSet req.data (policys.getD (List.replicate m.stalePoNum [])))

theorem handles_setCpuFreqRange : Handles req fun srv => srv.setCpuFreqRange m req :=
  handles_code (m.freqRangeSet req.data)

theorem handles_setCpuFreq : Handles req fun srv => srv.setCpuFreq m req := by
  refine handles_bind (checkUserspace m _) fun rspCode _ => handles_ite (fun _ => ?_) fun _ => ?_
  · exact handles_sendCode _
  · exact handles_sendCode _

/-- The array has room for the policies that are listed. -/
theorem length_getPolicys {policys : List Bytes} (h : m.getPolicys = .ok (some policys)) :
    policys.length ≤ maxCpuListLen := by
  unfold Machine.getPolicys at h
  split at h
  · cases h
  · split at h
    · obtain rfl := Option.some.inj (Except.ok.inj h)
      rwa [List.length_map]
    · cases h

/-- It has for the names of the policies that are asked for as well. -/
theorem length_inputTargetPolicys {target : List Machine.CurFreq} {policys : List Bytes}
    (h : Machine.inputTargetPolicys target = .ok policys) : policys.length ≤ maxCpuListLen := by
  unfold Machine.inputTargetPolicys at h
  split at h <;> rename_i hle
  · rwa [← Except.ok.inj h, List.length_map]
  · cases h

/-- What `GetCpuFreq` answers with is not longer than the array of the names. -/
theorem length_targetPolicys {rspCode : Int} {policys : List Bytes}
    (h : targetPolicys m req = .ok (rspCode, policys)) :
    sizeofCurFreq * policys.length < 2 ^ 31 := by
  unfold targetPolicys at h
  split at h
  · obtain ⟨data, -, h⟩ := bind_eq_ok.mp h
    obtain ⟨target, -, h⟩ := bind_eq_ok.mp h
    obtain ⟨code, -, h⟩ := bind_eq_ok.mp h
    split at h
    · obtain rfl := congrArg Prod.snd (Except.ok.inj h)
      decide
    · obtain ⟨names, hnames, h⟩ := bind_eq_ok.mp h
      obtain rfl := congrArg Prod.snd (Except.ok.inj h)
      exact (Nat.mul_le_mul_left _ (length_inputTargetPolicys hnames)).trans_lt (by decide)
  · split at h
    · obtain rfl := congrArg Prod.snd (Except.ok.inj h)
      decide
    · obtain ⟨listed, hlisted, h⟩ := bind_eq_ok.mp h
      cases listed with
      | none =>
        obtain rfl := congrArg Prod.snd (Except.ok.inj h)
        decide
      | some listed =>
        obtain rfl := congrArg Prod.snd (Except.ok.inj h)
        exact (Nat.mul_le_mul_left _ (length_getPolicys hlisted)).trans_lt (by decide)

theorem handles_getCpuFreq : Handles req fun srv => srv.getCpuFreq m req := by
  refine handles_bind (targetPolicys m req) fun r hr => handles_ite (fun _ => ?_) fun _ => ?_
  · exact handles_sendCode _
  · exact handles_sendReading (length_targetPolicys hr) _

theorem handles_getCpuFreqAbility (hm : m.Modest) :
    Handles req fun srv => srv.getCpuFreqAbility m req := by
  refine handles_bind m.getPolicys fun policys hpolicys => ?_
  cases policys with
  | none => exact handles_sendCode _
  | some policys =>
    refine handles_ite (fun _ => handles_error _) fun _ => handles_ite (fun _ => handles_ok) ?_
    refine fun hdata => handles_bind (m.freqAbilityRead policys _) fun rspCode _ =>
      handles_sendBlock ?_ hdata rspCode _
    have hlen := length_getPolicys hpolicys
    have hcores := Nat.div_mul_le_self m.coreNum policys.length
    rw [Machine.Modest] at hm
    rw [maxCpuListLen] at hlen
    rw [sizeofFreqAbility, maxCpuIdWidth, Nat.add_mul, Nat.mul_right_comm]
    omega

/-- Every request is handled so. -/
theorem handles_dispatch (hm : m.Modest) : Handles req fun srv => srv.dispatch m req := by
  unfold dispatch
  cases OperationType.ofCode req.head.optType with
  | none => exact handles_ok
  | some op =>
    cases op with
    | comCreateDcTask => exact handles_createDataCollTask
    | comDeleteDcTask => exact handles_deleteDataCollTask
    | comRequestControlAuth => exact handles_requestControlAuth
    | comReleaseControlAuth => exact handles_releaseControlAuth
    | sysSetPowerState => exact handles_setSysPowerState
    | cpuSetFreqGovernor => exact handles_setCpuFreqGovernor
    | cpuGetCurFreq => exact handles_getCpuFreq
    | cpuSetCurFreq => exact handles_setCpuFreq
    | cpuGetFreqAbility => exact handles_getCpuFreqAbility hm
    | cpuSetFreqRange => exact handles_setCpuFreqRange
    | sysGetRtPower => exact handles_sendReading (by decide) _
    | cpuGetUsage => exact handles_sendReading hm _
    | cpuGetPerfData => exact handles_sendReading (by decide) _
    | cpuGetInfo => exact handles_sendReading (by decide) _
    | cpuGetFreqGovernor => exact handles_sendReading (by decide) _
    | cpuGetFreqRange => exact handles_sendReading (by decide) _
    | _ => exact handles_ok

theorem handles_processReqMsg (hm : m.Modest) :
    Handles req fun srv => srv.processReqMsg m req where
  blind srv recvBuff := by
    unfold processReqMsg
    rw [(handles_dispatch hm).blind]
    cases srv.dispatch m req with
    | error f => rfl
    | ok srv' =>
      dsimp only [Except.map, bind, Except.bind]
      cases releasePwrMsg req <;> rfl
  responds srv srv' h := by
    obtain ⟨srv₁, hdispatch, h⟩ := bind_eq_ok.mp h
    obtain ⟨u, -, h⟩ := bind_eq_ok.mp h
    obtain rfl := Except.ok.inj h
    exact (handles_dispatch hm).responds srv srv₁ hdispatch

/-! ## The address of the data -/

/-- A message with its data at another address. -/
theorem eq_of_contents {req req' : PwrMsg} (h : req.Holds) (h' : req'.Holds)
    (heq : contents req = contents req') :
    req = req' ∨ ∃ head a a' bs, req = ⟨head, .heap a bs⟩ ∧ req' = ⟨head, .heap a' bs⟩ := by
  obtain ⟨head, data⟩ := req
  obtain ⟨head', data'⟩ := req'
  obtain ⟨rfl, hpayload⟩ : head = head' ∧ _ := Prod.mk.inj heq
  cases data with
  | wild a => exact h.elim
  | null =>
    cases data' with
    | wild a => exact h'.elim
    | null => exact .inl rfl
    | heap a bs => exact absurd h h'.2.1
  | heap a bs =>
    cases data' with
    | wild a => exact h'.elim
    | null => exact absurd h' h.2.1
    | heap a' bs' =>
      obtain rfl : bs = bs' := hpayload
      exact .inr ⟨head, a, a', bs, rfl, rfl⟩

theorem targetPolicys_addr (m : Machine) (head : MsgHead) (a a' : UInt64) (bs : Bytes) :
    targetPolicys m ⟨head, .heap a bs⟩ = targetPolicys m ⟨head, .heap a' bs⟩ := by
  simp [targetPolicys, DataPtr.deref]

theorem dispatch_addr (srv : Server) (m : Machine) (head : MsgHead) (a a' : UInt64) (bs : Bytes) :
    srv.dispatch m ⟨head, .heap a bs⟩ = srv.dispatch m ⟨head, .heap a' bs⟩ := by
  unfold dispatch
  dsimp only
  cases OperationType.ofCode head.optType with
  | none => rfl
  | some op =>
    cases op with
    | cpuGetCurFreq =>
      dsimp only [getCpuFreq]
      rw [targetPolicys_addr m head a a' bs]
      rfl
    | _ => rfl

/-- `ProcessReqMsg` does the same with a request and with a copy of it. -/
theorem processReqMsg_congr {req req' : PwrMsg} (h : req.Holds) (h' : req'.Holds)
    (heq : contents req = contents req') (srv : Server) (m : Machine) :
    srv.processReqMsg m req = srv.processReqMsg m req' := by
  obtain rfl | ⟨head, a, a', bs, rfl, rfl⟩ := eq_of_contents h h' heq
  · rfl
  · rw [processReqMsg, processReqMsg, dispatch_addr srv m head a a' bs]
    rfl

end Handles

end Server

end PowerApi
