import PowerApi.Leftovers
import PowerApi.Commands

/-!
# The policies of a request (`GetCpuFreq`, `SetCpuFreq`)

A request about frequencies holds an array of policies. `GetCpuFreq` marks their ids in
an array of the size of the machine, counts the marks, checks what is left and makes
the names of the policies to read; `SetCpuFreq` only checks. Three helpers share this
work, and each of the two callers asks something else of their return codes.

`UnknownRefused` is what an unknown policy is to come to, `AsAsked` what a request for
known ones is to be answered with.
-/

namespace PowerApi

open Bytes MemoryBlock

namespace Server

/-- The same request for another operation. -/
def asking (op : OperationType) (req : PwrMsg) : PwrMsg :=
  { req with head := { req.head with optType := op.code } }

/-- A response with this code is queued. -/
def RespondsWith (srv : Server) (x : Except Fault Server) (req : PwrMsg) (rspCode : Int) : Prop :=
  ∃ rsp, srv.Puts x rsp ∧ Answers rsp req ∧ rsp.head.rspCode = UInt16.ofInt rspCode

/-! ## Unknown policies -/

/-- Both handlers refuse the array, and nothing is written. -/
structure UnknownRefused (srv : Server) (m : Machine) (host : Host) (p : Prior) (req : PwrMsg) :
    Prop where
  get : srv.RespondsWith (srv.serve m host p (asking .cpuGetCurFreq req))
    (asking .cpuGetCurFreq req) RtnCode.errPolicyInvalide.code
  set : srv.RespondsWith (srv.serve m host p (asking .cpuSetCurFreq req))
    (asking .cpuSetCurFreq req) RtnCode.errPolicyInvalide.code
  unwritten : ∀ rspCode lines,
    m.setCpuFreqRun (asking .cpuSetCurFreq req) = .ok (rspCode, lines) → lines = []

/-- The policies cannot be listed, and nothing else is wrong with the array. -/
structure Refusable (m : Machine) (req : PwrMsg) : Prop where
  unlisted : m.listing = none
  governor : m.currentGovernorRead.code = RtnCode.success.code
  range : m.freqRangeRead.code = 0
  inRange : Machine.checkFreqInRange (requested req) (Machine.freqRangeOf m.freqRangeRead.data) = 0
  marked : m.scratchOk = true → ∀ t ∈ requested req, 0 ≤ t.policyId
  rspOk : m.rspOk = true

section Unknown

variable {srv : Server} {m : Machine} {host : Host} {p : Prior} {req : PwrMsg}

theorem respondsWith_sendRsp (hwf : srv.WF) {code code' : Int} (h : 0 ≤ code ∧ code < 2 ^ 16)
    (h' : 0 ≤ code' ∧ code' < 2 ^ 16) :
    srv.RespondsWith (srv.sendRspToClient m req code .null 0) req code' ↔
      m.rspOk = true ∧ code = code' := by
  have hnat : ∀ n : Int, (UInt16.ofInt n).toNat = (n % 2 ^ 16).toNat := fun n => by
    rw [UInt16.ofInt, UInt16.toNat_ofNat', Nat.mod_eq_of_lt (by omega)]
  have hinj : UInt16.ofInt code = UInt16.ofInt code' ↔ code = code' := by
    rw [← UInt16.toNat_inj, hnat, hnat]
    omega
  rw [← hinj]
  constructor
  · rintro ⟨rsp, hputs, -, hcode⟩
    obtain ⟨hok, rfl⟩ := (puts_sendRsp hwf fun _ => rfl).mp hputs
    exact ⟨hok, hcode⟩
  · rintro ⟨hok, hcode⟩
    exact ⟨_, (puts_sendRsp hwf fun _ => rfl).mpr ⟨hok, rfl⟩, answers_generateRspMsg .., hcode⟩

theorem not_respondsWith_error {f : Fault} {code : Int} :
    ¬ srv.RespondsWith (.error f) req code := fun ⟨_, hputs, _⟩ => not_puts_error hputs

/-- What `SetCpuFreq` answers if it is not the policies that it refuses. -/
def otherCodes : List Int :=
  [0, RtnCode.errCommon.code, RtnCode.errGovernorInvalide.code, RtnCode.errFreqNotInRange.code]

theorem not_respondsWith_other (hwf : srv.WF) {code : Int} (h : code ∈ otherCodes) :
    ¬ srv.RespondsWith (srv.sendRspToClient m req code .null 0) req
      RtnCode.errPolicyInvalide.code := by
  simp only [otherCodes, List.mem_cons, List.not_mem_nil, or_false, RtnCode.code] at h
  rw [RtnCode.code, respondsWith_sendRsp hwf (by omega) (by decide)]
  omega

theorem freqSet_mem (m : Machine) (target : List Machine.CurFreq) :
    m.freqSet target ∈ otherCodes := by
  rw [Machine.freqSet]
  split <;> decide

/-- What the first part of `SetCpuFreq` comes to. -/
theorem checkUserspace_cases (m : Machine) (target : List Machine.CurFreq) :
    (m.currentGovernorRead.code = RtnCode.success.code ∧ m.listing = none ∧
      checkUserspace m target = .ok RtnCode.errPolicyInvalide.code) ∨
    (¬ (m.currentGovernorRead.code = RtnCode.success.code ∧ m.listing = none) ∧
      ∀ code, checkUserspace m target = .ok code → code ∈ otherCodes) := by
  rw [checkUserspace]
  by_cases hgov : m.currentGovernorRead.code = RtnCode.success.code
  · rw [if_neg (not_not.mpr hgov), Machine.checkPolicys]
    cases hl : m.listing with
    | none =>
      refine .inl ⟨hgov, rfl, ?_⟩
      rw [Machine.getPolicys, hl]
      rfl
    | some lines =>
      refine .inr ⟨fun h => absurd h.2 (Option.some_ne_none _), fun code hcode => ?_⟩
      obtain ⟨checked, hchecked, hcode⟩ := bind_eq_ok.mp hcode
      obtain ⟨policys, hlist, hchecked⟩ := bind_eq_ok.mp hchecked
      rw [Machine.getPolicys, hl] at hlist
      have hsome : policys = some (lines.map Machine.policyName) := by
        dsimp only at hlist
        split at hlist
        · exact (Except.ok.inj hlist).symm
        · cases hlist
      rw [hsome] at hchecked
      have hne : checked ≠ 1 := by
        rw [← Except.ok.inj hchecked]
        split <;> decide
      rw [if_neg hne] at hcode
      split at hcode
      · rw [← Except.ok.inj hcode]
        decide
      · rw [← Except.ok.inj hcode]
        decide
  · refine .inr ⟨fun h => hgov h.1, fun code hcode => ?_⟩
    rw [if_pos hgov] at hcode
    rw [← Except.ok.inj hcode]
    decide

/-- The second part lets a code pass, or puts one of its own in its place. -/
theorem checkInRange_cases (m : Machine) (target : List Machine.CurFreq) (rspCode : Int) :
    (m.freqRangeRead.code = 0 ∧
      Machine.checkFreqInRange target (Machine.freqRangeOf m.freqRangeRead.data) = 0 ∧
        checkInRange m target rspCode = rspCode) ∨
    (¬ (m.freqRangeRead.code = 0 ∧
      Machine.checkFreqInRange target (Machine.freqRangeOf m.freqRangeRead.data) = 0) ∧
        checkInRange m target rspCode ∈ otherCodes) := by
  rw [checkInRange]
  split <;> rename_i hrange
  · exact .inr ⟨fun h => hrange h.1, by decide⟩
  · rw [not_not] at hrange
    split <;> rename_i hin
    · exact .inr ⟨fun h => hin h.2, by decide⟩
    · exact .inl ⟨hrange, not_not.mp hin, rfl⟩

/-- `SetCpuFreq` refuses an array for its policies if they cannot be listed, and if the
range does not put another code in the place of the refusal. -/
theorem set_respondsWith_iff (hwf : srv.WF) :
    srv.RespondsWith (srv.setCpuFreq m req) req RtnCode.errPolicyInvalide.code ↔
      (m.currentGovernorRead.code = RtnCode.success.code ∧ m.listing = none) ∧
        (m.freqRangeRead.code = 0 ∧ Machine.checkFreqInRange (requested req)
          (Machine.freqRangeOf m.freqRangeRead.data) = 0) ∧ m.rspOk = true := by
  rw [setCpuFreq, ← requested]
  dsimp only
  obtain ⟨hgov, hlisting, hcheck⟩ | ⟨hnot, hcodes⟩ := checkUserspace_cases m (requested req)
  · rw [and_iff_right ⟨hgov, hlisting⟩, hcheck, ok_bind]
    obtain ⟨hrange, hin, heq⟩ | ⟨hnot, hcode⟩ :=
      checkInRange_cases m (requested req) RtnCode.errPolicyInvalide.code
    · rw [and_iff_right ⟨hrange, hin⟩, heq, if_pos (by decide),
        respondsWith_sendRsp hwf (by decide) (by decide), and_iff_left rfl]
    · refine iff_of_false (fun h => ?_) fun h => hnot h.1
      split at h
      · exact not_respondsWith_other hwf hcode h
      · exact not_respondsWith_other hwf (freqSet_mem m _) h
  · refine iff_of_false (fun h => ?_) fun h => hnot h.1
    cases hcheck : checkUserspace m (requested req) with
    | error f =>
      rw [hcheck] at h
      exact not_respondsWith_error h
    | ok code =>
      have hrange : checkInRange m (requested req) code ∈ otherCodes := by
        obtain ⟨-, -, heq⟩ | ⟨-, hother⟩ := checkInRange_cases m (requested req) code
        · rw [heq]
          exact hcodes code hcheck
        · exact hother
      rw [hcheck, ok_bind] at h
      split at h
      · exact not_respondsWith_other hwf hrange h
      · exact not_respondsWith_other hwf (freqSet_mem m _) h

/-- Then it executes no command. -/
theorem setCpuFreqRun_refused (hgov : m.currentGovernorRead.code = RtnCode.success.code)
    (hl : m.listing = none) (hrange : m.freqRangeRead.code = 0)
    (hin : Machine.checkFreqInRange (requested req)
      (Machine.freqRangeOf m.freqRangeRead.data) = 0) :
    m.setCpuFreqRun req = .ok (RtnCode.errPolicyInvalide.code, []) := by
  rw [Machine.setCpuFreqRun, ← requested]
  obtain ⟨-, -, hcheck⟩ | ⟨hnot, -⟩ := checkUserspace_cases m (requested req)
  · obtain ⟨-, -, heq⟩ | ⟨hnot, -⟩ :=
      checkInRange_cases m (requested req) RtnCode.errPolicyInvalide.code
    · dsimp only
      rw [hcheck, ok_bind, heq]
      rfl
    · exact absurd ⟨hrange, hin⟩ hnot
  · exact absurd ⟨hgov, hl⟩ hnot

/-- Where the policies cannot be listed `GetCpuFreq` refuses every array that it marks. -/
theorem get_respondsWith_iff (hwf : srv.WF) (h : req.Holds)
    (hop : OperationType.ofCode req.head.optType = some .cpuGetCurFreq)
    (hl : m.listing = none) (hne : requested req ≠ []) :
    srv.RespondsWith (srv.serve m host p req) req RtnCode.errPolicyInvalide.code ↔
      (m.scratchOk = true → ∀ t ∈ requested req, 0 ≤ t.policyId) ∧ m.rspOk = true := by
  have hlen : req.head.dataLen ≠ 0 := by
    intro h0
    rw [requested, h0] at hne
    exact hne rfl
  have htarget : targetPolicys m req = m.mergeDuplicatePolicys (requested req) >>= fun _ =>
      .ok (RtnCode.errPolicyInvalide.code, []) := by
    rw [targetPolicys_of_data h hlen]
    refine bind_congr fun target => ?_
    rw [Machine.checkPolicys, Machine.getPolicys, hl]
    rfl
  have hmerge : Returns (m.mergeDuplicatePolicys (requested req)) ↔
      (m.scratchOk = true → ∀ t ∈ requested req, 0 ≤ t.policyId) := by
    cases hscratch : m.scratchOk with
    | false =>
      rw [Machine.mergeDuplicatePolicys, if_pos hscratch]
      exact iff_of_true ⟨_, rfl⟩ (by rintro ⟨⟩)
    | true => rw [Machine.returns_mergeDuplicatePolicys hscratch, forall_prop_of_true rfl]
  rw [serve_getCpuFreq hop, htarget, ← hmerge]
  cases m.mergeDuplicatePolicys (requested req) with
  | error f => exact iff_of_false not_respondsWith_error fun hand => not_returns_error f hand.1
  | ok target =>
    rw [ok_bind, ok_bind, and_iff_right (returns_ok target)]
    dsimp only
    rw [if_pos (by decide), respondsWith_sendRsp hwf (by decide) (by decide), and_iff_left rfl]

end Unknown

/-- **Unknown policies are refused** by both handlers only where no policy is known. -/
theorem unknown_refused (srv : ServerState) (m : Machine) (host : Host) (p : Prior) {req : PwrMsg}
    (h : req.Holds) (hunknown : ∃ t ∈ requested req, t.policyId ∉ listedIds m) :
    srv.1.UnknownRefused m host p req ↔ Refusable m req := by
  have hne : requested req ≠ [] := by
    obtain ⟨t, ht, -⟩ := hunknown
    exact List.ne_nil_of_mem ht
  have hset : srv.1.serve m host p (asking .cpuSetCurFreq req) =
      srv.1.setCpuFreq m (asking .cpuSetCurFreq req) := rfl
  have hiff : ∀ hl : m.listing = none, _ := fun hl =>
    @get_respondsWith_iff srv.1 m host p (asking .cpuGetCurFreq req) srv.2 h rfl hl hne
  constructor
  · rintro ⟨hget, hset', -⟩
    rw [hset] at hset'
    obtain ⟨⟨hgov, hl⟩, ⟨hrange, hin⟩, hok⟩ := (set_respondsWith_iff srv.2).mp hset'
    exact ⟨hl, hgov, hrange, hin, ((hiff hl).mp hget).1, hok⟩
  · intro hr
    refine ⟨(hiff hr.unlisted).mpr ⟨hr.marked, hr.rspOk⟩, ?_, ?_⟩
    · rw [hset]
      exact (set_respondsWith_iff srv.2).mpr
        ⟨⟨hr.governor, hr.unlisted⟩, ⟨hr.range, hr.inRange⟩, hr.rspOk⟩
    · intro rspCode lines hrun
      have hrefused := @setCpuFreqRun_refused m (asking .cpuSetCurFreq req) hr.governor hr.unlisted
        hr.range hr.inRange
      exact (congrArg Prod.snd (Except.ok.inj (hrefused.symm.trans hrun))).symm

/-- A request with these policies, for 0 MHz. -/
def freqRequest (ids : List ℕ) : PwrMsg :=
  (createReqMsg ⟨1, 0⟩ .cpuGetCurFreq 0 (UInt32.ofNat (sizeofCurFreq * ids.length))
    (.heap 1 (ids.flatMap fun id => leBytes 4 id ++ List.replicate 12 0))).1

/-- A machine with these policies. -/
def policyMachine (lines : List Bytes) : Machine :=
  { bareMachine with popen := fun _ => some lines }

theorem unknown_refused_unlisted :
    started.1.UnknownRefused bareMachine emptyHost ⟨fun _ => 0, fun _ => 0⟩ (freqRequest [5]) ↔
      Refusable bareMachine (freqRequest [5]) :=
  unknown_refused started bareMachine emptyHost ⟨fun _ => 0, fun _ => 0⟩ (by decide)
    ⟨⟨5, 0⟩, by decide, by decide⟩

/-- With `policy0` alone there, `SetCpuFreq` does not refuse policy 5. -/
theorem policy5_not_refused :
    (∃ t ∈ requested (freqRequest [5]), t.policyId ∉ listedIds (policyMachine [text "policy0\n"])) ∧
      ¬ started.1.UnknownRefused (policyMachine [text "policy0\n"]) emptyHost
        ⟨fun _ => 0, fun _ => 0⟩ (freqRequest [5]) := by
  refine ⟨⟨⟨5, 0⟩, by decide, by decide +kernel⟩, fun h => ?_⟩
  obtain ⟨⟨-, hl⟩, -⟩ := (set_respondsWith_iff started.2).mp h.set
  cases hl

end Server

end PowerApi
