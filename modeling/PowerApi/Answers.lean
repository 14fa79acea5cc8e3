import PowerApi.Readings

/-!
# Which requests are answered

A request is to be answered, once, whatever its operation and its payload:
`Answered`. The dispatcher knows 16 of the operations, and some of its handlers
give up on some payloads, silently or with a fault. `Answerable` says which
requests get their response, and `processReqMsg_answered` that it says so exactly.
-/

namespace PowerApi

open Bytes

namespace Server

/-- `rsp` is a response to `req`. -/
structure Answers (rsp req : PwrMsg) : Prop where
  msgType : rsp.head.msgType = MsgType.mtRsp.code
  seqId : rsp.head.seqId = req.head.seqId
  optType : rsp.head.optType = req.head.optType
  taskNo : rsp.head.taskNo = req.head.taskNo
  sysId : rsp.head.sysId = req.head.sysId

/-- A step of the service thread queued one message, and it is a response to `req`. -/
def Answered (srv : Server) (req : PwrMsg) (r : Except Fault Server) : Prop :=
  ∃ srv' rsp, r = .ok srv' ∧ srv'.sendBuff = enqueue srv.sendBuff rsp ∧ Answers rsp req

/-- The array of a request. -/
def requested (req : PwrMsg) : List Machine.CurFreq :=
  Machine.curFreqs req.payload (req.head.dataLen.toNat / sizeofCurFreq)

/-- The ids of the policies that are listed. -/
def listedIds (m : Machine) : List Int :=
  (m.listing.getD []).map fun line => Machine.policyIdOf (Machine.policyName line)

/-- The policies that `GetCpuFreq` is to read are found: of those that are asked for, the ones that
have the number of a core are listed. -/
def PoliciesFound (m : Machine) (req : PwrMsg) : Prop :=
  m.listing ≠ none ∧ ∀ t ∈ requested req, t.policyId < m.coreNum → t.policyId ∈ listedIds m

/-- The requests that are answered, and the machines on which they are. -/
def Answerable (m : Machine) (host : Host) (p : Prior) (req : PwrMsg) : Prop :=
  match OperationType.ofCode req.head.optType with
  | some .comCreateDcTask => req.head.dataLen = sizeofBasicDcTaskInfo
  | some .comDeleteDcTask => req.head.dataLen = sizeofColDatatype
  | some .sysSetPowerState => req.data ≠ .null
  | some .sysGetRtPower =>
    ipmiRead m host sysPowerInfo = none ∨ Returns (getArch m host p.cpuInfo)
  | some .cpuGetInfo => Returns (cpuInfoRead m host)
  | some .cpuGetUsage => Returns (cpuUsageRead m host)
  | some .cpuGetPerfData => Returns (perfDataRead m host p.cpuInfo host.perf)
  | some .cpuSetFreqGovernor => m.ListingFits ∧ req.data ≠ .null
  | some .cpuGetCurFreq =>
    (m.ListingFits ∧ ∀ t ∈ requested req, 0 ≤ t.policyId) ∧
      (PoliciesFound m req → Returns (getArch m host p.cpuInfo))
  | some .cpuSetCurFreq => (currentGovernorRead m).1 ≠ RtnCode.success.code ∨ m.ListingFits
  | some .cpuGetFreqAbility =>
    m.ListingFits ∧ ∀ lines, m.listing = some lines → lines ≠ [] ∧
      (freqDriverRead host ≠ RtnCode.success.code ∨ GovernorsFit host ∧
        ((allGovernorsRead host).1 ≠ RtnCode.success.code ∨ ∀ line ∈ lines.head?,
          (host.file (affectedCpusFile (Machine.policyName line))).any (· ≠ []) = true →
            lines.length ≤ m.coreNum))
  | some .cpuSetFreqRange => m.ListingFits ∧ (m.listing = none ∨ req.data ≠ .null)
  | some op => op ∈ [.comRequestControlAuth, .comReleaseControlAuth, .cpuGetFreqGovernor,
      .cpuGetFreqRange]
  | none => False

theorem answers_generateRspMsg (req : PwrMsg) (rspCode : Int) (data : DataPtr) (len : UInt32) :
    Answers (generateRspMsg req rspCode data len) req := ⟨rfl, rfl, rfl, rfl, rfl⟩

theorem returns_checkUserspace {m : Machine} {target : List Machine.CurFreq} :
    Returns (checkUserspace m target) ↔
      m.currentGovernorRead.code ≠ RtnCode.success.code ∨ m.ListingFits := by
  unfold checkUserspace
  by_cases hgov : m.currentGovernorRead.code = RtnCode.success.code
  · rw [if_neg (not_not.mpr hgov), or_iff_right (not_not.mpr hgov)]
    refine Iff.trans (returns_bind_of_forall fun code => ?_) Machine.returns_checkPolicys
    split
    · exact ⟨_, rfl⟩
    · split <;> exact ⟨_, rfl⟩
  · rw [if_pos hgov]
    exact iff_of_true ⟨_, rfl⟩ (.inl hgov)

/-- The records of the domain table have room for a string when there are no more
policies than cores. -/
theorem domains_fit_iff {m : Machine} {host : Host} {p : Prior} {line : Bytes}
    {lines : List Bytes} :
    Returns ((m.reading host p).freqAbilityRead ((line :: lines).map Machine.policyName)
        (m.coreNum / ((line :: lines).map Machine.policyName).length * maxCpuIdWidth + 4)) ↔
      line :: lines ≠ [] ∧
      (freqDriverRead host ≠ RtnCode.success.code ∨ GovernorsFit host ∧
        ((allGovernorsRead host).1 ≠ RtnCode.success.code ∨ ∀ l ∈ (line :: lines).head?,
          (host.file (affectedCpusFile (Machine.policyName l))).any (· ≠ []) = true →
            (line :: lines).length ≤ m.coreNum)) := by
  have hstep : 4 < m.coreNum / (lines.length + 1) * maxCpuIdWidth + 4 ↔
      lines.length + 1 ≤ m.coreNum := by
    have hpos : 0 < m.coreNum / (lines.length + 1) ↔ lines.length + 1 ≤ m.coreNum := by simp
    rw [← hpos, maxCpuIdWidth]
    omega
  rw [returns_freqAbilityRead_reading]
  simp [hstep]

/-! ## The policies of a request -/

/-- The ids that `MergeDuplicatePolicys` marks. -/
def marked (m : Machine) (target : List Machine.CurFreq) : List ℕ :=
  (List.range m.coreNum).filter fun (i : ℕ) => target.any fun t => t.policyId = (i : Int)

section Marked

variable {m : Machine} {target : List Machine.CurFreq}

theorem mem_marked {i : ℕ} :
    i ∈ marked m target ↔ i < m.coreNum ∧ ∃ t ∈ target, t.policyId = i := by
  simp [marked]

/-- Every id that is marked is the one of an entry. -/
theorem length_marked_le (m : Machine) (target : List Machine.CurFreq) :
    (marked m target).length ≤ target.length := by
  have hnodup : ((marked m target).map Int.ofNat).Nodup :=
    (List.nodup_range.filter _).map fun _ _ h => Int.ofNat.inj h
  have hsub : (marked m target).map Int.ofNat ⊆ target.map Machine.CurFreq.policyId := by
    intro id hid
    obtain ⟨i, hi, rfl⟩ := List.mem_map.mp hid
    obtain ⟨-, t, ht, heq⟩ := mem_marked.mp hi
    exact List.mem_map.mpr ⟨t, ht, heq⟩
  have hle := (hnodup.subperm hsub).length_le
  rwa [List.length_map, List.length_map] at hle

/-- The entries take the ids. -/
theorem policyIds_zipWith {ids : List ℕ} (h : ids.length ≤ target.length) :
    (List.zipWith (fun (i : ℕ) (t : Machine.CurFreq) => { t with policyId := (i : Int) }) ids
      target).map Machine.CurFreq.policyId = ids.map Int.ofNat := by
  have hfst := congrArg (List.map Int.ofNat) (List.map_fst_zip h)
  rw [List.map_map, List.zip, List.map_zipWith] at hfst
  rw [List.map_zipWith]
  exact hfst

/-- The entries that are left have the ids that are marked. -/
theorem mergeDuplicatePolicys_eq (hscratch : m.scratchOk = true)
    (hmarked : ∀ t ∈ target, 0 ≤ t.policyId) :
    ∃ merged, m.mergeDuplicatePolicys target = .ok merged ∧
      merged.map Machine.CurFreq.policyId = (marked m target).map Int.ofNat := by
  have hneg : ¬ (target.any fun t => t.policyId < 0) = true := by simpa using hmarked
  refine ⟨_, ?_, policyIds_zipWith (length_marked_le m target)⟩
  rw [Machine.mergeDuplicatePolicys, if_neg (by simp [hscratch]), if_neg hneg]
  rfl

/-- Marked ids that are listed are not more than the listing has. -/
theorem length_merged_le {lines : List Bytes} (hl : m.listing = some lines)
    (hfits : lines.length ≤ maxCpuListLen) {merged : List Machine.CurFreq}
    (hids : merged.map Machine.CurFreq.policyId = (marked m target).map Int.ofNat)
    (hlisted : ∀ t ∈ merged, t.policyId ∈ listedIds m) : merged.length ≤ maxCpuListLen := by
  have hnodup : (merged.map Machine.CurFreq.policyId).Nodup := by
    rw [hids]
    exact (List.nodup_range.filter _).map fun _ _ h => Int.ofNat.inj h
  have hsub : merged.map Machine.CurFreq.policyId ⊆ listedIds m := by
    intro id hid
    obtain ⟨t, ht, rfl⟩ := List.mem_map.mp hid
    exact hlisted t ht
  have hle := (hnodup.subperm hsub).length_le
  rw [listedIds, hl, List.length_map, List.length_map] at hle
  exact hle.trans hfits

/-- What `CheckPolicys` finds out. -/
theorem checkPolicys_eq_ok {code : Int} (h : m.checkPolicys target = .ok code) :
    code = 0 ↔ m.listing ≠ none ∧ ∀ t ∈ target, t.policyId ∈ listedIds m := by
  obtain ⟨policys, hpolicys, hcode⟩ := bind_eq_ok.mp h
  obtain ⟨herr, -⟩ | ⟨hok, -⟩ := @Machine.getPolicys_cases m
  · cases herr.symm.trans hpolicys
  · obtain rfl := Except.ok.inj (hpolicys.symm.trans hok)
    rw [listedIds]
    cases hl : m.listing with
    | none =>
      rw [hl] at hcode
      obtain rfl := Except.ok.inj hcode
      exact iff_of_false (by decide) fun hand => hand.1 rfl
    | some lines =>
      rw [hl] at hcode
      obtain rfl := Except.ok.inj hcode
      rw [Option.getD_some, and_iff_right nofun, List.map_map]
      have hall : (target.all fun t => t.policyId ∈
          lines.map (Machine.policyIdOf ∘ Machine.policyName)) = true ↔
            ∀ t ∈ target, t.policyId ∈
              lines.map fun line => Machine.policyIdOf (Machine.policyName line) := by
        simp
      rw [← hall]
      split
      · exact iff_of_true rfl ‹_›
      · exact iff_of_false (by decide) ‹_›

end Marked

section Target

variable {m : Machine} {req : PwrMsg}

/-- With an array there the target policies are made from it. -/
theorem targetPolicys_of_data (h : req.Holds) (hlen : req.head.dataLen ≠ 0) :
    targetPolicys m req = m.mergeDuplicatePolicys (requested req) >>= fun target =>
      m.checkPolicys target >>= fun code =>
        if code ≠ 0 then .ok (RtnCode.errPolicyInvalide.code, [])
        else Machine.inputTargetPolicys target >>= fun policys => .ok (0, policys) := by
  obtain ⟨data, hdata⟩ := (DataPtr.returns_deref h).mpr (h.data_ne_null hlen)
  rw [targetPolicys, if_pos ⟨UInt32.pos_iff_ne_zero.mpr hlen, h.data_ne_null hlen⟩, hdata, ok_bind,
    ← DataPtr.payload_of_deref hdata, ← requested]
  rfl

/-- The marked ids are those of the entries that have the number of a core. -/
theorem mem_merged {target merged : List Machine.CurFreq}
    (hids : merged.map Machine.CurFreq.policyId = (marked m target).map Int.ofNat)
    (hmarked : ∀ t ∈ target, 0 ≤ t.policyId) {id : Int} :
    (∃ t ∈ merged, t.policyId = id) ↔ ∃ t ∈ target, t.policyId < m.coreNum ∧ t.policyId = id := by
  rw [← List.mem_map, hids, List.mem_map]
  constructor
  · rintro ⟨i, hi, rfl⟩
    obtain ⟨hlt, t, ht, heq⟩ := mem_marked.mp hi
    exact ⟨t, ht, by omega, heq⟩
  · rintro ⟨t, ht, hlt, rfl⟩
    have hpos := hmarked t ht
    exact ⟨t.policyId.toNat, mem_marked.mpr ⟨by omega, t, ht, by omega⟩, Int.toNat_of_nonneg hpos⟩

/-- What `GetCpuFreq` makes of an array: names, or the code for unknown policies. -/
theorem targetPolicys_asked (hm : m.scratchOk = true) (h : req.Holds)
    (hlen : req.head.dataLen ≠ 0) (hfits : m.ListingFits)
    (hmarked : ∀ t ∈ requested req, 0 ≤ t.policyId) :
    ∃ r, targetPolicys m req = .ok r ∧ (r.1 = 0 ↔ PoliciesFound m req) := by
  obtain ⟨merged, hmerge, hids⟩ := mergeDuplicatePolicys_eq hm hmarked
  obtain ⟨code, hcheck⟩ : Returns (m.checkPolicys merged) := Machine.returns_checkPolicys.mpr hfits
  have hfound : (∀ t ∈ merged, t.policyId ∈ listedIds m) ↔
      ∀ t ∈ requested req, t.policyId < m.coreNum → t.policyId ∈ listedIds m := by
    constructor
    · intro hall t ht hlt
      obtain ⟨t', ht', heq⟩ := (mem_merged hids hmarked).mpr ⟨t, ht, hlt, rfl⟩
      exact heq ▸ hall t' ht'
    · intro hall t ht
      obtain ⟨t', ht', hlt, heq⟩ := (mem_merged hids hmarked).mp ⟨t, ht, rfl⟩
      exact heq ▸ hall t' ht' hlt
  have hcode : code = 0 ↔ PoliciesFound m req :=
    (checkPolicys_eq_ok hcheck).trans (and_congr_right fun _ => hfound)
  rw [targetPolicys_of_data h hlen, hmerge, ok_bind, hcheck, ok_bind, ← hcode]
  by_cases h0 : code = 0
  · obtain ⟨hlisting, hlisted⟩ := (checkPolicys_eq_ok hcheck).mp h0
    obtain ⟨lines, hl⟩ := Option.ne_none_iff_exists'.mp hlisting
    have hroom := length_merged_le hl (hfits lines hl) hids hlisted
    rw [if_neg (not_not.mpr h0), Machine.inputTargetPolicys, if_pos hroom, ok_bind]
    exact ⟨_, rfl, iff_of_true rfl h0⟩
  · rw [if_pos h0]
    exact ⟨_, rfl, iff_of_false (by decide) h0⟩

/-- Without an array it takes the policies that are listed. -/
theorem targetPolicys_listed (hlen : req.head.dataLen = 0) (hfits : m.ListingFits) :
    ∃ r, targetPolicys m req = .ok r ∧ (r.1 = 0 ↔ PoliciesFound m req) := by
  have h0 : ¬ req.head.dataLen > 0 := by simp [hlen]
  have hnone : requested req = [] := by
    rw [requested, hlen]
    rfl
  rw [targetPolicys, if_neg fun hand => h0 hand.1, if_neg h0, PoliciesFound, hnone,
    and_iff_left nofun]
  obtain ⟨-, hnot⟩ | ⟨hok, -⟩ := @Machine.getPolicys_cases m
  · exact absurd hfits hnot
  · rw [hok, ok_bind]
    cases m.listing with
    | none => exact ⟨_, rfl, iff_of_false (by decide) fun hne => hne rfl⟩
    | some lines => exact ⟨_, rfl, iff_of_true rfl nofun⟩

/-- The policies of a `GetCpuFreq` request are looked for unless one of them is negative. -/
theorem returns_targetPolicys (hm : m.scratchOk = true) (h : req.Holds) :
    Returns (targetPolicys m req) ↔ m.ListingFits ∧ ∀ t ∈ requested req, 0 ≤ t.policyId := by
  by_cases hlen : req.head.dataLen = 0
  · have hnone : requested req = [] := by
      rw [requested, hlen]
      rfl
    rw [hnone, and_iff_left nofun]
    constructor
    · intro hret
      by_contra hfits
      obtain ⟨herr, -⟩ | ⟨-, hyes⟩ := @Machine.getPolicys_cases m
      · have h0 : ¬ req.head.dataLen > 0 := by simp [hlen]
        rw [targetPolicys, if_neg fun hand => h0 hand.1, if_neg h0, herr] at hret
        exact not_returns_error _ hret
      · exact hfits hyes
    · intro hfits
      obtain ⟨r, hr, -⟩ := targetPolicys_listed hlen hfits
      exact ⟨r, hr⟩
  · constructor
    · rintro ⟨r, hr⟩
      rw [targetPolicys_of_data h hlen] at hr
      obtain ⟨merged, hmerge, hr⟩ := bind_eq_ok.mp hr
      obtain ⟨code, hcheck, -⟩ := bind_eq_ok.mp hr
      exact ⟨Machine.returns_checkPolicys.mp ⟨code, hcheck⟩,
        (Machine.returns_mergeDuplicatePolicys hm).mp ⟨merged, hmerge⟩⟩
    · rintro ⟨hfits, hmarked⟩
      obtain ⟨r, hr, -⟩ := targetPolicys_asked hm h hlen hfits hmarked
      exact ⟨r, hr⟩

/-- The code says whether the policies are found. -/
theorem targetPolicys_code (hm : m.scratchOk = true) (h : req.Holds) {r : Int × List Bytes}
    (hr : targetPolicys m req = .ok r) : r.1 = 0 ↔ PoliciesFound m req := by
  obtain ⟨hfits, hmarked⟩ := (returns_targetPolicys hm h).mp ⟨r, hr⟩
  by_cases hlen : req.head.dataLen = 0
  · obtain ⟨r', hr', hcode⟩ := targetPolicys_listed hlen hfits
    obtain rfl := Except.ok.inj (hr'.symm.trans hr)
    exact hcode
  · obtain ⟨r', hr', hcode⟩ := targetPolicys_asked hm h hlen hfits hmarked
    obtain rfl := Except.ok.inj (hr'.symm.trans hr)
    exact hcode

end Target

section Answered

variable {srv : Server} {m : Machine} {req : PwrMsg}

theorem not_answered_error {f : Fault} : ¬ Answered srv req (.error f) := nofun

/-- A request that leaves the queue as it was is not answered. -/
theorem not_answered_silent : ¬ Answered srv req (.ok srv) := by
  rintro ⟨srv', rsp, hok, hsend, -⟩
  obtain rfl := Except.ok.inj hok
  exact enqueue_ne_self _ _ hsend

/-- With memory at hand, `SendRspToClient` queues the response. -/
theorem sendRspToClient_eq (hrsp : m.rspOk = true)
    (hsend : ∀ msg ∈ srv.sendBuff.toList, releasePwrMsg msg = .ok ()) {rspCode : Int}
    {data : DataPtr} {len : UInt32} (hdata : data = .null → len = 0) :
    srv.sendRspToClient m req rspCode data len =
      .ok { srv with sendBuff := enqueue srv.sendBuff (generateRspMsg req rspCode data len) } := by
  rw [sendRspToClient, if_neg fun h => h.2 (hdata h.1), if_neg (by simp [hrsp]),
    addToSendBuff_eq hsend]

variable (hm : m.AllocOk) (hwf : srv.WF)
include hm hwf

theorem answered_sendRsp {srv' : Server} (hsame : srv'.sendBuff = srv.sendBuff) {rspCode : Int}
    {data : DataPtr} {len : UInt32} (hdata : data = .null → len = 0) :
    Answered srv req (srv'.sendRspToClient m req rspCode data len) := by
  refine ⟨_, _, sendRspToClient_eq hm.rspOk (hsame ▸ hwf.send_free) hdata, ?_,
    answers_generateRspMsg req rspCode data len⟩
  rw [hsame]

theorem answered_sendReading {size : ℕ} {read : Except Fault (Reading size)} :
    Answered srv req (srv.sendReading m req read) ↔ Returns read := by
  rw [sendReading, if_neg hm.rspData]
  cases read with
  | error f => exact iff_of_false not_answered_error (not_returns_error f)
  | ok reading =>
    rw [ok_bind]
    exact iff_of_true (answered_sendRsp hm hwf rfl nofun) (returns_ok reading)

/-- A handler that computes a code and sends it answers unless the computation fails. -/
theorem answered_code {x : Except Fault Int} :
    Answered srv req (x >>= fun rspCode => srv.sendRspToClient m req rspCode .null 0) ↔
      Returns x := by
  cases x with
  | error f => exact iff_of_false not_answered_error (not_returns_error f)
  | ok c =>
    rw [ok_bind]
    exact iff_of_true (answered_sendRsp hm hwf rfl fun _ => rfl) (returns_ok c)

theorem answered_createDataCollTask (h : req.Holds) :
    Answered srv req (srv.createDataCollTask m req) ↔ req.head.dataLen = sizeofBasicDcTaskInfo := by
  rw [createDataCollTask]
  by_cases hlen : req.head.dataLen = sizeofBasicDcTaskInfo
  · rw [if_neg (not_not.mpr hlen)]
    refine iff_of_true ?_ hlen
    obtain ⟨data, hdata⟩ := (DataPtr.returns_deref h).mpr (h.data_ne_null (by rw [hlen]; decide))
    rw [hdata, ok_bind]
    cases srv.tasks.createTask (basicDcTaskInfoOf data) req.head.sysId m.create with
    | mk rspCode tasks =>
      refine answered_sendRsp hm hwf ?_ fun _ => rfl
      rfl
  · rw [if_pos hlen]
    exact iff_of_false not_answered_silent hlen

theorem answered_deleteDataCollTask (h : req.Holds) :
    Answered srv req (srv.deleteDataCollTask m req) ↔ req.head.dataLen = sizeofColDatatype := by
  rw [deleteDataCollTask]
  by_cases hlen : req.head.dataLen = sizeofColDatatype
  · rw [if_neg (not_not.mpr hlen)]
    refine iff_of_true ?_ hlen
    obtain ⟨data, hdata⟩ := (DataPtr.returns_deref h).mpr (h.data_ne_null (by rw [hlen]; decide))
    rw [hdata, ok_bind]
    cases srv.tasks.deleteTask (UInt32.ofNat (fieldAt data 0 4)) req.head.sysId with
    | mk rspCode tasks =>
      refine answered_sendRsp hm hwf ?_ fun _ => rfl
      rfl
  · rw [if_pos hlen]
    exact iff_of_false not_answered_silent hlen

theorem answered_setSysPowerState (h : req.Holds) :
    Answered srv req (srv.setSysPowerState m req) ↔ req.data ≠ .null := by
  rw [← Machine.returns_powerSet (m := m) h, setSysPowerState]
  cases m.powerSet req.data with
  | error f => exact iff_of_false not_answered_error (not_returns_error f)
  | ok rspCode =>
    refine iff_of_true ?_ (returns_ok rspCode)
    have hsend : Answered srv req (srv.sendRspToClient m req rspCode .null 0) :=
      answered_sendRsp hm hwf rfl fun _ => rfl
    rwa [sendRspToClient, if_neg (by simp)] at hsend

theorem answered_setCpuFreqGovernor (h : req.Holds) :
    Answered srv req (srv.setCpuFreqGovernor m req) ↔ m.ListingFits ∧ req.data ≠ .null := by
  rw [← Machine.returns_getPolicys, setCpuFreqGovernor]
  cases m.getPolicys with
  | error f => exact iff_of_false not_answered_error fun hand => not_returns_error f hand.1
  | ok policys =>
    refine (answered_code hm hwf).trans ((Machine.returns_governorSet h).trans ?_)
    exact (and_iff_right (returns_ok policys)).symm

theorem answered_setCpuFreqRange (h : req.Holds) :
    Answered srv req (srv.setCpuFreqRange m req) ↔
      m.ListingFits ∧ (m.listing = none ∨ req.data ≠ .null) :=
  (answered_code hm hwf).trans (Machine.returns_freqRangeSet h)

theorem answered_setCpuFreq :
    Answered srv req (srv.setCpuFreq m req) ↔
      m.currentGovernorRead.code ≠ RtnCode.success.code ∨ m.ListingFits := by
  rw [← @returns_checkUserspace m
    (Machine.curFreqs req.payload (req.head.dataLen.toNat / sizeofCurFreq)), setCpuFreq]
  dsimp only
  cases checkUserspace m _ with
  | error f => exact iff_of_false not_answered_error (not_returns_error f)
  | ok code =>
    refine iff_of_true ?_ (returns_ok code)
    rw [ok_bind]
    split <;> exact answered_sendRsp hm hwf rfl fun _ => rfl

theorem answered_getCpuFreq :
    Answered srv req (srv.getCpuFreq m req) ↔
      ∃ r, targetPolicys m req = .ok r ∧ (r.1 = 0 → Returns (m.freqRead r.2)) := by
  rw [getCpuFreq]
  cases targetPolicys m req with
  | error f => exact iff_of_false not_answered_error nofun
  | ok r =>
    rw [ok_bind]
    simp only [Except.ok.injEq, exists_eq_left']
    split <;> rename_i hcode
    · exact iff_of_true (answered_sendRsp hm hwf rfl fun _ => rfl) fun h0 => absurd h0 hcode
    · rw [forall_prop_of_true (not_not.mp hcode)]
      exact answered_sendReading hm hwf

end Answered

section Reading

variable {srv : Server} {m : Machine} {host : Host} {p : Prior} {req : PwrMsg}
variable (hm : m.AllocOk) (hwf : srv.WF)
include hm hwf

theorem answered_getCpuFreq_reading (h : req.Holds) :
    Answered srv req (srv.getCpuFreq (m.reading host p) req) ↔
      (m.ListingFits ∧ ∀ t ∈ requested req, 0 ≤ t.policyId) ∧
        (PoliciesFound m req → Returns (getArch m host p.cpuInfo)) := by
  have hm' : (m.reading host p).AllocOk := ⟨hm.rspOk, hm.rspData, hm.scratchOk, hm.create⟩
  have hread : ∀ policys, Returns ((m.reading host p).freqRead policys) ↔
      Returns (getArch m host p.cpuInfo) := fun _ => returns_fillFreq
  have hfound : ∀ r, targetPolicys m req = .ok r → (r.1 = 0 ↔ PoliciesFound m req) :=
    fun _ => targetPolicys_code hm.scratchOk h
  rw [answered_getCpuFreq hm' hwf, ← returns_targetPolicys hm.scratchOk h]
  constructor
  · rintro ⟨r, hr, hcode⟩
    exact ⟨⟨r, hr⟩, fun hfind => (hread _).mp (hcode ((hfound r hr).mpr hfind))⟩
  · rintro ⟨⟨r, hr⟩, hcode⟩
    exact ⟨r, hr, fun h0 => (hread _).mpr (hcode ((hfound r hr).mp h0))⟩

theorem answered_getCpuFreqAbility :
    Answered srv req (srv.getCpuFreqAbility (m.reading host p) req) ↔
      m.ListingFits ∧ ∀ lines, m.listing = some lines → lines ≠ [] ∧
        (freqDriverRead host ≠ RtnCode.success.code ∨ GovernorsFit host ∧
          ((allGovernorsRead host).1 ≠ RtnCode.success.code ∨ ∀ line ∈ lines.head?,
            (host.file (affectedCpusFile (Machine.policyName line))).any (· ≠ []) = true →
              lines.length ≤ m.coreNum)) := by
  have hm' : (m.reading host p).AllocOk := ⟨hm.rspOk, hm.rspData, hm.scratchOk, hm.create⟩
  have hpolicys : (m.reading host p).getPolicys = m.getPolicys := rfl
  have hcores : (m.reading host p).coreNum = m.coreNum := rfl
  unfold getCpuFreqAbility
  rw [hpolicys, Machine.ListingFits, Machine.getPolicys]
  cases m.listing with
  | none =>
    refine iff_of_true ?_ ⟨nofun, nofun⟩
    rw [ok_bind]
    exact answered_sendRsp hm' hwf rfl fun _ => rfl
  | some lines =>
    simp only [Option.some.injEq, forall_eq']
    by_cases hle : lines.length ≤ maxCpuListLen
    · rw [if_pos hle, and_iff_right hle, ok_bind]
      cases lines with
      | nil => exact iff_of_false not_answered_error fun h => h.1 rfl
      | cons line lines =>
        rw [← @domains_fit_iff m host p]
        dsimp only
        rw [hcores, if_neg (by simp), if_neg hm'.rspData]
        cases (m.reading host p).freqAbilityRead _ _ with
        | error f => exact iff_of_false not_answered_error (not_returns_error f)
        | ok code =>
          refine iff_of_true ?_ (returns_ok code)
          rw [ok_bind]
          exact answered_sendRsp hm' hwf rfl nofun
    · rw [if_neg hle]
      exact iff_of_false not_answered_error fun h => hle h.1

/-- The dispatcher answers exactly the answerable requests. -/
theorem answered_dispatch (h : req.Holds) :
    Answered srv req (srv.dispatch (m.reading host p) req) ↔ Answerable m host p req := by
  have hm' : (m.reading host p).AllocOk := ⟨hm.rspOk, hm.rspData, hm.scratchOk, hm.create⟩
  unfold dispatch Answerable
  cases OperationType.ofCode req.head.optType with
  | none => exact iff_of_false not_answered_silent not_false
  | some op =>
    cases op with
    | comCreateDcTask => exact answered_createDataCollTask hm' hwf h
    | comDeleteDcTask => exact answered_deleteDataCollTask hm' hwf h
    | sysSetPowerState => exact answered_setSysPowerState hm' hwf h
    | cpuSetFreqGovernor => exact answered_setCpuFreqGovernor hm' hwf h
    | cpuGetCurFreq => exact answered_getCpuFreq_reading hm hwf h
    | cpuSetCurFreq => exact answered_setCpuFreq hm' hwf
    | cpuGetFreqAbility => exact answered_getCpuFreqAbility hm hwf
    | cpuSetFreqRange => exact answered_setCpuFreqRange hm' hwf h
    | comRequestControlAuth =>
      exact iff_of_true (answered_sendRsp hm' hwf (by rfl) fun _ => rfl) (by simp)
    | comReleaseControlAuth =>
      exact iff_of_true (answered_sendRsp hm' hwf (by rfl) fun _ => rfl) (by simp)
    | sysGetRtPower =>
      exact (answered_sendReading hm' hwf).trans
        (returns_fillBlock.trans returns_sysRtPowerWrites)
    | cpuGetUsage =>
      exact (answered_sendReading hm' hwf).trans (returns_fillBlock.trans returns_cpuUsageWrites)
    | cpuGetPerfData => exact (answered_sendReading hm' hwf).trans returns_fillBlock
    | cpuGetInfo =>
      exact (answered_sendReading hm' hwf).trans (returns_fillBlock.trans returns_cpuInfoWrites)
    | cpuGetFreqGovernor =>
      exact iff_of_true ((answered_sendReading hm' hwf).mpr ⟨_, rfl⟩) (by simp)
    | cpuGetFreqRange =>
      exact iff_of_true ((answered_sendReading hm' hwf).mpr ⟨_, rfl⟩) (by simp)
    -- the operations without a handler
    | _ => exact iff_of_false not_answered_silent (by simp)

end Reading

/-- A reading of zeros. -/
def zeroReading (size : ℕ) : Reading size := ⟨0, List.replicate size 0, List.length_replicate⟩

/-- A machine with memory to spare on which no command starts. -/
def bareMachine : Machine where
  rspOk := true
  rspData := 1
  scratchOk := true
  create := ⟨true, true, ⟨0, 0⟩⟩
  past := []
  popen := fun _ => none
  writeFile := fun _ _ => false
  stalePoNum := 0
  noReturn := 0
  coreNum := 1
  sysRtPowerRead := .ok (zeroReading 24)
  cpuInfoRead := .ok (zeroReading 4480)
  cpuUsageRead := .ok (zeroReading (16 + 16 * 1))
  perfDataRead := .ok (zeroReading 16)
  currentGovernorRead := zeroReading maxElementNameLen
  freqRangeRead := zeroReading sizeofFreqRange
  freqRead := fun policys => .ok (zeroReading (sizeofCurFreq * policys.length))
  freqDriverRead := 1
  allGovernorsRead := .ok 1
  affectedCpus := fun _ => false
  freqAbility := zeroReading

/-- A host with nothing to read. -/
def emptyHost : Host where
  statAgain := none
  file := fun _ => none
  atof := fun _ => 0
  staleBuf := List.replicate maxStringLen 0
  staleParas := (⟨0, []⟩, ⟨0, []⟩)
  perf := ⟨fun _ => none, fun _ _ => 0⟩
  length_staleBuf := length_zeros

/-- A request without data as client 1 makes it. -/
def plainRequest (op : OperationType) : PwrMsg :=
  (createReqMsg ⟨1, 0⟩ op 0 0 .null).1

/-- The server after its start. -/
def started : ServerState where
  val := init
  property := ⟨TaskReg.wf_empty.initTaskService, by decide, nofun, nofun⟩

end Server

end PowerApi
