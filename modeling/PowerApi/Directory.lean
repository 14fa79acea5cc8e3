import PowerApi.Leftovers

/-!
# Any cpufreq directory (`cpuservice.c`)

Three handlers copy the listing of `cpufreq` to an array, or divide by the number
of policies in it. A request `Survives` a listing if it is answered, and if the
records of `GetCpuFreqAbility` have room for a string. `Survivable` is the
condition for this: an empty directory is a listing like any other for
`GetPolicys`, and the array has an end.
-/

namespace PowerApi

open Bytes

namespace Server

/-- The bytes of a record of `GetCpuFreqAbility`: an `int`, and `MAX_CPU_ID_WIDTH` for each
of a policy's cores. -/
def freqDomainStep (coreNum poNum : ℕ) : ℕ := coreNum / poNum * maxCpuIdWidth + 4

/-- What is asked of the three handlers when this is the listing. -/
def Survives (srv : Server) (m : Machine) (host : Host) (p : Prior) (lines : List Bytes)
    (req : PwrMsg) : Prop :=
  match OperationType.ofCode req.head.optType with
  | some .cpuGetFreqAbility =>
    Answered srv req (srv.serve m host p req) ∧ 4 < freqDomainStep m.coreNum lines.length
  | some .cpuGetCurFreq => req.head.dataLen = 0 → Answered srv req (srv.serve m host p req)
  | some .cpuSetFreqGovernor => Answered srv req (srv.serve m host p req)
  | _ => True

/-- The listings, and the requests, for which they do it. -/
def Survivable (m : Machine) (host : Host) (p : Prior) (lines : List Bytes) (req : PwrMsg) :
    Prop :=
  match OperationType.ofCode req.head.optType with
  | some .cpuGetFreqAbility =>
    (lines.length ≤ maxCpuListLen ∧ lines ≠ [] ∧ lines.length ≤ m.coreNum ∧ ¬ Silent m) ∧
      (freqDriverRead host ≠ RtnCode.success.code ∨ GovernorsFit host)
  | some .cpuGetCurFreq => req.head.dataLen = 0 →
    lines.length ≤ maxCpuListLen ∧ ¬ Silent m ∧ Returns (getArch m host p.cpuInfo)
  | some .cpuSetFreqGovernor =>
    lines.length ≤ maxCpuListLen ∧ req.data ≠ .null ∧ m.rspOk = true
  | _ => True

/-- The copy into a record has room for something if each policy has a core. -/
theorem lt_freqDomainStep {coreNum poNum : ℕ} (hpos : 0 < poNum) :
    4 < freqDomainStep coreNum poNum ↔ poNum ≤ coreNum := by
  rw [← Nat.div_pos_iff.trans (and_iff_right hpos), freqDomainStep, maxCpuIdWidth]
  omega

section Survives

variable {srv : Server} {m : Machine} {host : Host} {p : Prior} {lines : List Bytes}
  {req : PwrMsg}

/-- To answer is to put a response into the queue. -/
theorem answered_iff_puts {x : Except Fault Server} :
    Answered srv req x ↔ ∃ rsp, srv.Puts x rsp ∧ Answers rsp req := by
  constructor
  · rintro ⟨srv', rsp, hok, hsend, hrsp⟩
    exact ⟨rsp, ⟨srv', hok, hsend⟩, hrsp⟩
  · rintro ⟨rsp, ⟨srv', hok, hsend⟩, hrsp⟩
    exact ⟨srv', rsp, hok, hsend, hrsp⟩

theorem answered_sendRsp_iff (hwf : srv.WF) {rspCode : Int} {data : DataPtr} {len : UInt32}
    (hdata : data = .null → len = 0) :
    Answered srv req (srv.sendRspToClient m req rspCode data len) ↔ m.rspOk = true := by
  simp only [answered_iff_puts, puts_sendRsp hwf hdata]
  constructor
  · rintro ⟨rsp, ⟨hok, -⟩, -⟩
    exact hok
  · exact fun hok => ⟨_, ⟨hok, rfl⟩, answers_generateRspMsg ..⟩

theorem answered_sendReading_iff (hwf : srv.WF) {size : ℕ} {read : Except Fault (Reading size)} :
    Answered srv req (srv.sendReading m req read) ↔ ¬ Silent m ∧ Returns read := by
  simp only [answered_iff_puts, puts_sendReading hwf]
  constructor
  · rintro ⟨rsp, ⟨hloud, r, hr, -⟩, -⟩
    exact ⟨hloud, r, hr⟩
  · rintro ⟨hloud, r, hr⟩
    exact ⟨_, ⟨hloud, r, hr, rfl⟩, answers_generateRspMsg ..⟩

theorem getPolicys_of_listing (hl : m.listing = some lines) :
    m.getPolicys = if lines.length ≤ maxCpuListLen then .ok (some (lines.map Machine.policyName))
      else .error .overrun := by
  rw [Machine.getPolicys, hl]

theorem answered_ability_iff (hwf : srv.WF) (hl : m.listing = some lines) :
    Answered srv req (srv.getCpuFreqAbility (m.reading host p) req) ∧
        4 < freqDomainStep m.coreNum lines.length ↔
      (lines.length ≤ maxCpuListLen ∧ lines ≠ [] ∧ lines.length ≤ m.coreNum ∧ ¬ Silent m) ∧
        (freqDriverRead host ≠ RtnCode.success.code ∨ GovernorsFit host) := by
  have hpolicys : (m.reading host p).getPolicys = m.getPolicys := rfl
  have hcoreNum : (m.reading host p).coreNum = m.coreNum := rfl
  have hblock : (m.reading host p).rspData = m.rspData := rfl
  rw [getCpuFreqAbility, hpolicys, getPolicys_of_listing hl, and_assoc]
  by_cases hle : lines.length ≤ maxCpuListLen
  · rw [if_pos hle, ok_bind, and_iff_right hle]
    cases lines with
    | nil => exact iff_of_false (fun h => not_answered_error h.1) fun h => h.1.1 rfl
    | cons line lines =>
      have hpos : 0 < (line :: lines).length := Nat.zero_lt_succ _
      rw [and_iff_right (List.cons_ne_nil line lines), lt_freqDomainStep hpos, and_comm, and_assoc]
      refine and_congr_right fun hcores => ?_
      dsimp only
      rw [List.length_map, if_neg (by simp), hcoreNum, hblock]
      by_cases hdata : m.rspData = 0
      · rw [if_pos hdata]
        exact iff_of_false not_answered_silent fun hloud => hloud.1 (.inl hdata)
      · -- with enough cores the records have room, and the governors decide
        have hread : Returns ((m.reading host p).freqAbilityRead
            ((line :: lines).map Machine.policyName)
            (m.coreNum / (line :: lines).length * maxCpuIdWidth + 4)) ↔
              freqDriverRead host ≠ RtnCode.success.code ∨ GovernorsFit host :=
          returns_freqAbilityRead_reading.trans (or_congr_right (and_iff_left
            (.inr fun _ _ _ => (lt_freqDomainStep hpos).mpr hcores)))
        have hloud : ¬ Silent m ↔ (m.reading host p).rspOk = true := by
          simp [Silent, hdata, Machine.reading]
        rw [if_neg hdata, ← hread, hloud]
        cases (m.reading host p).freqAbilityRead _ _ with
        | error f => exact iff_of_false not_answered_error fun h => not_returns_error f h.2
        | ok code =>
          rw [ok_bind, and_iff_left (returns_ok code)]
          exact answered_sendRsp_iff hwf fun h => absurd h (by simp)
  · rw [if_neg hle]
    exact iff_of_false (fun h => not_answered_error h.1) fun h => hle h.1

theorem answered_getCpuFreq_iff (hwf : srv.WF) (hl : m.listing = some lines)
    (hop : OperationType.ofCode req.head.optType = some .cpuGetCurFreq)
    (hlen : req.head.dataLen = 0) :
    Answered srv req (srv.serve m host p req) ↔
      lines.length ≤ maxCpuListLen ∧ ¬ Silent m ∧ Returns (getArch m host p.cpuInfo) := by
  have hspec : ¬ req.head.dataLen > 0 := by simp [hlen]
  rw [serve_getCpuFreq hop, targetPolicys, if_neg fun h => hspec h.1, if_neg hspec,
    getPolicys_of_listing hl]
  by_cases hle : lines.length ≤ maxCpuListLen
  · rw [if_pos hle, and_iff_right hle, ok_bind, ← @returns_fillFreq m host p]
    exact answered_sendReading_iff hwf
  · rw [if_neg hle]
    exact iff_of_false not_answered_error fun h => hle h.1

theorem answered_setGovernor_iff (hwf : srv.WF) (hl : m.listing = some lines) (h : req.Holds) :
    Answered srv req (srv.setCpuFreqGovernor m req) ↔
      lines.length ≤ maxCpuListLen ∧ req.data ≠ .null ∧ m.rspOk = true := by
  rw [setCpuFreqGovernor, getPolicys_of_listing hl]
  by_cases hle : lines.length ≤ maxCpuListLen
  · rw [if_pos hle, and_iff_right hle, ok_bind,
      ← @Machine.returns_governorSet m req h (lines.map Machine.policyName)]
    dsimp only [Option.getD_some]
    cases m.governorSet req.data (lines.map Machine.policyName) with
    | error f => exact iff_of_false not_answered_error fun hand => not_returns_error f hand.1
    | ok rspCode =>
      rw [ok_bind, answered_sendRsp_iff hwf fun _ => rfl, and_iff_right (returns_ok rspCode)]
  · rw [if_neg hle]
    exact iff_of_false not_answered_error fun hand => hle hand.1

end Survives

/-- **Which cpufreq directories are survived.** -/
theorem directory_survived (srv : ServerState) (m : Machine) (host : Host) (p : Prior)
    {lines : List Bytes} (hl : m.listing = some lines) {req : PwrMsg} (h : req.Holds) :
    srv.1.Survives m host p lines req ↔ Survivable m host p lines req := by
  rw [Survives, Survivable]
  cases hop : OperationType.ofCode req.head.optType with
  | none => exact Iff.rfl
  | some op =>
    cases op with
    | cpuGetFreqAbility =>
      have hserve : srv.1.serve m host p req =
          srv.1.getCpuFreqAbility (m.reading host p) req := by
        rw [serve, hop]
        dsimp only
        rw [dispatch, hop]
      dsimp only
      rw [hserve]
      exact answered_ability_iff srv.2 hl
    | cpuGetCurFreq => exact forall_congr' fun hlen => answered_getCpuFreq_iff srv.2 hl hop hlen
    | cpuSetFreqGovernor =>
      have hserve : srv.1.serve m host p req = srv.1.setCpuFreqGovernor m req := by
        rw [serve, hop]
        dsimp only
        rw [dispatch, hop]
        rfl
      dsimp only
      rw [hserve]
      exact answered_setGovernor_iff srv.2 hl h
    | _ => exact Iff.rfl

/-- A machine with these policies. -/
def listingMachine (lines : List Bytes) : Machine :=
  { bareMachine with popen := fun _ => some lines }

theorem directory_survived_one :
    started.1.Survives (listingMachine [text "policy0\n"]) emptyHost zeroPrior [text "policy0\n"]
        (plainRequest .cpuGetFreqAbility) ↔
      Survivable (listingMachine [text "policy0\n"]) emptyHost zeroPrior [text "policy0\n"]
        (plainRequest .cpuGetFreqAbility) :=
  directory_survived started (listingMachine [text "policy0\n"]) emptyHost zeroPrior rfl rfl

/-- Without a policy the server divides by zero. -/
theorem noPolicy_not_survived : ¬ started.1.Survives (listingMachine []) emptyHost zeroPrior []
    (plainRequest .cpuGetFreqAbility) := fun h => not_answered_error h.1

end Server

end PowerApi
