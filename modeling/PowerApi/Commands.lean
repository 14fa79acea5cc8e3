import PowerApi.Answers

/-!
# The commands of the setters (`PowerSet`, `GovernorSet`, `FreqSet`)

Three handlers change the machine through the shell: they put a command line
together from the data of the request and hand it to `popen`. Here these functions
give, beside their code, the command lines that the shell executes, in order.
`dispatch_settings` ties them to the handlers. The commands that only read the
machine are not followed; they are made of constants, of names that the machine
lists and of printed numbers.

A payload is `Interpreted` if only commands of the fixed forms come of it, and an
error code if none comes. The builders check what they are given in different ways:
`PowerSet` not at all, `GovernorSet` against the governors of the policy whose name is
cut to the length of the governor, `FreqSet` prints numbers. `interpreted_iff` says for
which payloads that is enough.
-/

namespace PowerApi

/-- Where a text that does not begin again inside itself is found once more behind
its own front, it is in what follows. -/
theorem infix_of_shifted {α : Type} {c : α} {t p p' z : List α} (hc : c ∉ t) (hz : z ≠ [])
    (h : (c :: t) ++ p = z ++ ((c :: t) ++ p')) : (c :: t) <:+: p := by
  obtain ⟨w, rfl, hp⟩ | ⟨w, hw, hp⟩ := List.append_eq_append_iff.mp h
  · exact ⟨w, p', by rw [hp, List.append_assoc]⟩
  · cases w with
    | nil => exact ⟨[], p', hp⟩
    | cons d w =>
      obtain ⟨e, z, rfl⟩ := List.exists_cons_of_ne_nil hz
      obtain rfl : c = d := (List.cons.inj hp).1
      obtain rfl := (List.cons.inj hw).2
      exact absurd (List.mem_append_right z List.mem_cons_self) hc

/-- A text split at the last occurrence of a delimiter is split in one way. -/
theorem eq_of_delimited {α : Type} {c : α} {t a a' p p' : List α} (hc : c ∉ t)
    (hp : ¬ (c :: t) <:+: p) (hp' : ¬ (c :: t) <:+: p')
    (h : a ++ ((c :: t) ++ p) = a' ++ ((c :: t) ++ p')) : a = a' ∧ p = p' := by
  obtain ⟨z, rfl, hz⟩ | ⟨z, rfl, hz⟩ := List.append_eq_append_iff.mp h
  · cases z with
    | nil => exact ⟨(List.append_nil a).symm, List.append_cancel_left hz⟩
    | cons d z => exact absurd (infix_of_shifted hc (List.cons_ne_nil d z) hz) hp
  · cases z with
    | nil => exact ⟨List.append_nil a', (List.append_cancel_left hz).symm⟩
    | cons d z => exact absurd (infix_of_shifted hc (List.cons_ne_nil d z) hz) hp'

namespace Machine

/-! ## Command lines -/

/-- The command line of `PowerSet`. -/
def powerLine (state : Bytes) : Bytes :=
  text "sleep 10 && echo " ++ state ++ text "> /sys/power/state &"

/-- The command line of `GovernorSet` for a policy. -/
def governorLine (gov policy : Bytes) : Bytes :=
  text "echo " ++ gov ++ text "> /sys/devices/system/cpu/cpufreq/" ++ policy ++
    text "/scaling_governor"

/-- The command line of `FreqSet` for an entry. -/
def speedLine (freq policyId : Int) : Bytes :=
  text "echo " ++ decimal freq ++ text " > /sys/devices/system/cpu/cpufreq/policy" ++
    decimal policyId ++ text "/scaling_setspeed"

/-- The name of policy N. -/
def policyN (n : ℕ) : Bytes := text "policy" ++ decimal n

variable (m : Machine)

/-- The tokens of a policy's list of available governors. -/
def availableGovernors (policy : Bytes) : List Bytes :=
  match m.popen (text "cat /sys/devices/system/cpu/cpufreq/" ++ policy ++
      text "/scaling_available_governors") with
  | some (buf :: _) => ((cString (buf.filter (· ≠ 10))).splitOn 32).filter (· ≠ [])
  | _ => []

/-- The forms that a command line has. -/
def FixedForm (line : Bytes) : Prop :=
  (∃ state ∈ [text "mem", text "disk"], line = powerLine state) ∨
    (∃ n, ∃ gov ∈ m.availableGovernors (policyN n), line = governorLine gov (policyN n)) ∨
    ∃ freq policyId, line = speedLine freq policyId

/-! ## The builders -/

/-- A loop that hands one command line after the other to `popen` and ends when one
does not start: its code and the lines that did. -/
def runLines : List Bytes → Int × List Bytes
  | [] => (RtnCode.success.code, [])
  | line :: lines =>
    match m.popen line with
    | none => (RtnCode.errCommon.code, [])
    | some _ => ((runLines lines).1, line :: (runLines lines).2)

/-- `PowerSet` with its command. -/
def powerSetRun (powerState : DataPtr) : Except Fault (Int × List Bytes) := do
  let mem ← powerState.deref
  let stateStr := powerLine (cString (mem ++ m.past))
  if m.scratchOk = false then return (1, [])
  else
    match m.popen stateStr with
    | none => return (1, [])
    | some _ => return (RtnCode.success.code, [stateStr])

/-- `GovernorSet` with its commands. -/
def governorSetRun (gov : DataPtr) (policys : List Bytes) : Except Fault (Int × List Bytes) := do
  let mem ← gov.deref
  let gov := cString (mem ++ m.past)
  if policys.any fun policy => m.checkAvailableGovernor gov policy ≠ 0 then
    return (RtnCode.errInvalideParam.code, [])
  else if m.scratchOk = false then return (1, [])
  else return m.runLines (policys.map (governorLine gov))

/-- The command lines of `FreqSet`. -/
def speedLines (target : List CurFreq) : List Bytes :=
  target.map fun t =>
    speedLine (wrapInt ((Float.ofBits t.curFreq).toInt32.toInt * thousand)) t.policyId

/-- The policies of `SetCpuFreqGovernor`. -/
def governorPolicys : List Bytes :=
  match m.listing with
  | none => List.replicate m.stalePoNum []
  | some lines => lines.map policyName

/-- `SetCpuFreqGovernor` with its commands. -/
def setCpuFreqGovernorRun (req : PwrMsg) : Except Fault (Int × List Bytes) := do
  let policys := (← m.getPolicys).getD (List.replicate m.stalePoNum [])
  m.governorSetRun req.data policys

/-- `SetCpuFreq` with its commands. -/
def setCpuFreqRun (req : PwrMsg) : Except Fault (Int × List Bytes) := do
  let target := curFreqs req.payload (req.head.dataLen.toNat / sizeofCurFreq)
  let rspCode := Server.checkInRange m target (← Server.checkUserspace m target)
  if rspCode ≠ 0 then return (rspCode, [])
  else return m.runLines (speedLines target)

/-- The handlers that set something through the shell: their code and their commands. -/
def settings (req : PwrMsg) : Option (Except Fault (Int × List Bytes)) :=
  match OperationType.ofCode req.head.optType with
  | some .sysSetPowerState => some (m.powerSetRun req.data)
  | some .cpuSetFreqGovernor => some (m.setCpuFreqGovernorRun req)
  | some .cpuSetCurFreq => some (m.setCpuFreqRun req)
  | _ => none

/-- A handler that comes to commands of the fixed forms, or to an error code if it
comes to none. -/
def Shaped (run : Except Fault (Int × List Bytes)) : Prop :=
  ∃ rspCode lines, run = .ok (rspCode, lines) ∧ (∀ line ∈ lines, m.FixedForm line) ∧
    (lines = [] → rspCode ≠ RtnCode.success.code)

/-- Whatever the payload of a request is, no other commands come of it. -/
def Interpreted (req : PwrMsg) : Prop := ∀ run ∈ m.settings req, m.Shaped run

/-! ## Which payloads are interpreted -/

/-- The C string that a handler finds at the front of a payload. -/
def argument (req : PwrMsg) : Bytes := cString (req.payload ++ m.past)

/-- A state for `PowerSet`. -/
def PowerFits (state : Bytes) : Prop :=
  m.scratchOk = false ∨ m.popen (powerLine state) = none ∨ state ∈ [text "mem", text "disk"]

/-- A governor for `GovernorSet`: there is a policy, and where the check of every policy
lets the governor pass, each policy that it is written to has it. -/
def GovernorFits (gov : Bytes) : Prop :=
  m.scratchOk = false ∨ m.governorPolicys ≠ [] ∧
    ((∀ policy ∈ m.governorPolicys, gov ∈ m.availableGovernors (policy.take gov.length)) →
      ∀ policy ∈ m.governorPolicys.takeWhile fun policy =>
          (m.popen (governorLine gov policy)).isSome,
        ∃ n, policy = policyN n ∧ gov ∈ m.availableGovernors policy)

/-- An array for `FreqSet`: it has an entry, or it is refused anyway. -/
def SpeedFits (dataLen : UInt32) : Prop :=
  sizeofCurFreq ≤ dataLen.toNat ∨ m.currentGovernorRead.code ≠ RtnCode.success.code ∨
    m.listing = none ∨ cString m.currentGovernorRead.data ≠ text "userspace" ∨
    m.freqRangeRead.code ≠ 0

/-- The requests whose payloads are interpreted. -/
def Fits (req : PwrMsg) : Prop :=
  match OperationType.ofCode req.head.optType with
  | some .sysSetPowerState => req.data ≠ .null ∧ m.PowerFits (m.argument req)
  | some .cpuSetFreqGovernor =>
    req.data ≠ .null ∧ m.ListingFits ∧ m.GovernorFits (m.argument req)
  | some .cpuSetCurFreq =>
    (m.currentGovernorRead.code = RtnCode.success.code → m.ListingFits) ∧
      m.SpeedFits req.head.dataLen
  | _ => True

variable {m}

/-! ## The builders and the functions that they spell out -/

theorem runLines_fst (lines : List Bytes) :
    (m.runLines lines).1 = if lines.all fun line => (m.popen line).isSome then
      RtnCode.success.code else RtnCode.errCommon.code := by
  induction lines with
  | nil => rfl
  | cons line lines ih =>
    rw [runLines]
    cases hline : m.popen line with
    | none => simp [hline]
    | some out => simp [hline, ih]

theorem runLines_snd (lines : List Bytes) :
    (m.runLines lines).2 = lines.takeWhile fun line => (m.popen line).isSome := by
  induction lines with
  | nil => rfl
  | cons line lines ih =>
    rw [runLines]
    cases hline : m.popen line with
    | none => simp [hline]
    | some out => simp [hline, ih]

/-- A loop that succeeds has executed all its lines. -/
theorem runLines_success {lines : List Bytes} (h : (m.runLines lines).1 = RtnCode.success.code) :
    (m.runLines lines).2 = lines := by
  rw [runLines_fst] at h
  split at h <;> rename_i hall
  · rw [runLines_snd]
    exact List.takeWhile_eq_self_iff.mpr (List.all_eq_true.mp hall)
  · cases h

theorem powerSetRun_code (powerState : DataPtr) :
    m.powerSet powerState = m.powerSetRun powerState >>= fun run => .ok run.1 := by
  rw [powerSet, powerSetRun]
  cases powerState.deref with
  | error f => rfl
  | ok mem =>
    rw [ok_bind, ok_bind]
    dsimp only
    split
    · rfl
    · rw [← powerLine]
      cases m.popen (powerLine (cString (mem ++ m.past))) <;> rfl

theorem governorSetRun_code (gov : DataPtr) (policys : List Bytes) :
    m.governorSet gov policys = m.governorSetRun gov policys >>= fun run => .ok run.1 := by
  rw [governorSet, governorSetRun]
  cases gov.deref with
  | error f => rfl
  | ok mem =>
    rw [ok_bind, ok_bind]
    dsimp only
    split
    · rfl
    · split
      · rfl
      · have hfst := runLines_fst (m := m) (policys.map (governorLine (cString (mem ++ m.past))))
        rw [List.all_map] at hfst
        exact (apply_ite (@Except.ok Fault Int) _ _ _).symm.trans (congrArg Except.ok hfst.symm)

theorem freqSet_eq (target : List CurFreq) :
    m.freqSet target = (m.runLines (speedLines target)).1 := by
  rw [runLines_fst, speedLines, List.all_map]
  rfl

/-- The handlers answer with the codes of the builders. -/
theorem dispatch_settings {srv : Server} {req : PwrMsg} {run : Except Fault (Int × List Bytes)}
    (h : m.settings req = some run) :
    srv.dispatch m req = run >>= fun r => srv.sendRspToClient m req r.1 .null 0 := by
  unfold settings at h
  unfold Server.dispatch
  cases hop : OperationType.ofCode req.head.optType with
  | none =>
    rw [hop] at h
    cases h
  | some op =>
    rw [hop] at h
    cases op with
    | sysSetPowerState =>
      obtain rfl := Option.some.inj h
      dsimp only [Server.setSysPowerState]
      rw [powerSetRun_code]
      cases m.powerSetRun req.data with
      | error f => rfl
      | ok r =>
        have hdata : ¬ (DataPtr.null = .null ∧ (0 : UInt32) ≠ 0) := fun hlen => hlen.2 rfl
        dsimp only [ok_bind]
        rw [Server.sendRspToClient, if_neg hdata]
        rfl
    | cpuSetFreqGovernor =>
      obtain rfl := Option.some.inj h
      dsimp only [Server.setCpuFreqGovernor, setCpuFreqGovernorRun]
      cases m.getPolicys with
      | error f => rfl
      | ok policys =>
        rw [ok_bind, ok_bind, governorSetRun_code]
        cases m.governorSetRun req.data (policys.getD _) <;> rfl
    | cpuSetCurFreq =>
      obtain rfl := Option.some.inj h
      dsimp only [Server.setCpuFreq, setCpuFreqRun]
      cases Server.checkUserspace m _ with
      | error f => rfl
      | ok rspCode =>
        dsimp only [ok_bind]
        split
        · rfl
        · rw [freqSet_eq]
          rfl
    | _ => cases h

/-! ## The forms of the lines -/

theorem text_sleep : text "sleep 10 && echo " = 115 :: text "leep 10 && echo " := by
  decide +kernel

theorem text_echo : text "echo " = 101 :: text "cho " := by decide +kernel

/-- What is between a governor and its policy. -/
theorem text_cpufreq : text "> /sys/devices/system/cpu/cpufreq/" =
    62 :: text " /sys/devices/system/cpu/cpufreq/" := by decide +kernel

theorem powerLine_inj {state state' : Bytes} (h : powerLine state = powerLine state') :
    state = state' :=
  List.append_cancel_left (List.append_cancel_right h)

theorem powerLine_ne_echo {state rest : Bytes} : powerLine state ≠ text "echo " ++ rest := by
  rw [powerLine, text_sleep, text_echo]
  intro h
  exact absurd (List.cons.inj h).1 (by decide)

/-- The lines of `GovernorSet` end otherwise than those of `FreqSet`. -/
theorem governorLine_ne_speedLine {gov policy : Bytes} {freq policyId : Int} :
    governorLine gov policy ≠ speedLine freq policyId := by
  intro h
  have hlen : (text "/scaling_governor").length = (text "/scaling_setspeed").length := by
    decide +kernel
  exact absurd (List.append_inj_right' h hlen) (by decide +kernel)

/-- The name of a policy has no `>`. -/
theorem gt_not_mem_policyN (n : ℕ) : 62 ∉ policyN n := by
  intro hmem
  obtain hmem | hmem := List.mem_append.mp hmem
  · exact absurd hmem (by decide +kernel)
  · exact absurd ((decimal_digits n).1 62 hmem) (by decide)

/-- A short name leaves no doubt about governor and policy. -/
theorem governorLine_inj {gov gov' policy : Bytes} {n : ℕ} (hlen : policy.length < maxElementNameLen)
    (h : governorLine gov policy = governorLine gov' (policyN n)) :
    gov = gov' ∧ policy = policyN n := by
  have hsplit : gov ++ (text "> /sys/devices/system/cpu/cpufreq/" ++ policy) =
      gov' ++ (text "> /sys/devices/system/cpu/cpufreq/" ++ policyN n) := by
    have hfront := List.append_cancel_right h
    simp only [List.append_assoc] at hfront
    exact List.append_cancel_left hfront
  rw [text_cpufreq] at hsplit
  refine eq_of_delimited (by decide +kernel) (fun hin => ?_) (fun hin => ?_) hsplit
  · have h34 : (text " /sys/devices/system/cpu/cpufreq/").length = 33 := by decide +kernel
    have := hin.length_le
    rw [List.length_cons, h34] at this
    rw [maxElementNameLen] at hlen
    omega
  · exact gt_not_mem_policyN n (hin.subset List.mem_cons_self)

theorem fixedForm_powerLine {state : Bytes} :
    m.FixedForm (powerLine state) ↔ state ∈ [text "mem", text "disk"] := by
  constructor
  · rintro (⟨state', hmem, h⟩ | ⟨n, gov, -, h⟩ | ⟨freq, policyId, h⟩)
    · exact powerLine_inj h ▸ hmem
    · simp only [governorLine, List.append_assoc] at h
      exact absurd h powerLine_ne_echo
    · simp only [speedLine, List.append_assoc] at h
      exact absurd h powerLine_ne_echo
  · exact fun hmem => .inl ⟨state, hmem, rfl⟩

theorem fixedForm_governorLine {gov policy : Bytes} (hlen : policy.length < maxElementNameLen) :
    m.FixedForm (governorLine gov policy) ↔
      ∃ n, policy = policyN n ∧ gov ∈ m.availableGovernors policy := by
  constructor
  · rintro (⟨state, -, h⟩ | ⟨n, gov', hgov, h⟩ | ⟨freq, policyId, h⟩)
    · simp only [governorLine, List.append_assoc] at h
      exact absurd h.symm powerLine_ne_echo
    · obtain ⟨rfl, rfl⟩ := governorLine_inj hlen h
      exact ⟨n, rfl, hgov⟩
    · exact absurd h governorLine_ne_speedLine
  · rintro ⟨n, rfl, hgov⟩
    exact .inr (.inl ⟨n, gov, hgov, rfl⟩)

theorem fixedForm_speedLines {target : List CurFreq} {line : Bytes}
    (h : line ∈ speedLines target) : m.FixedForm line := by
  obtain ⟨t, -, rfl⟩ := List.mem_map.mp h
  exact .inr (.inr ⟨_, _, rfl⟩)

/-- The names of policies are short. -/
theorem length_governorPolicys {policy : Bytes} (h : policy ∈ m.governorPolicys) :
    policy.length < maxElementNameLen := by
  unfold governorPolicys at h
  cases hl : m.listing with
  | none =>
    rw [hl] at h
    obtain rfl := List.eq_of_mem_replicate h
    decide
  | some lines =>
    rw [hl] at h
    obtain ⟨line, -, rfl⟩ := List.mem_map.mp h
    refine (List.length_take_le _ _).trans_lt ?_
    decide

/-! ## Which runs are of that shape -/

theorem shaped_ok {run : Int × List Bytes} :
    m.Shaped (.ok run) ↔
      (∀ line ∈ run.2, m.FixedForm line) ∧ (run.2 = [] → run.1 ≠ RtnCode.success.code) := by
  constructor
  · rintro ⟨rspCode, lines, hrun, h⟩
    obtain rfl := Except.ok.inj hrun
    exact h
  · exact fun h => ⟨run.1, run.2, rfl, h⟩

theorem not_shaped_error {f : Fault} : ¬ m.Shaped (.error f) := nofun

/-- A request that is refused. -/
theorem shaped_refused {rspCode : Int} (h : rspCode ≠ RtnCode.success.code) :
    m.Shaped (.ok (rspCode, [])) :=
  shaped_ok.mpr ⟨nofun, fun _ => h⟩

theorem shaped_runLines {lines : List Bytes} :
    m.Shaped (.ok (m.runLines lines)) ↔ lines ≠ [] ∧
      ∀ line ∈ lines.takeWhile fun line => (m.popen line).isSome, m.FixedForm line := by
  rw [shaped_ok, ← runLines_snd, and_comm]
  refine and_congr_left fun _ => ⟨?_, ?_⟩
  · rintro hcode rfl
    exact hcode rfl rfl
  · intro hne hnil hcode
    exact hne ((runLines_success hcode).symm.trans hnil)

/-- A builder reads the payload first. -/
theorem shaped_deref {req : PwrMsg} (h : req.Holds) {k : Bytes → Except Fault (Int × List Bytes)} :
    m.Shaped (req.data.deref >>= k) ↔ req.data ≠ .null ∧ m.Shaped (k req.payload) := by
  rw [← DataPtr.returns_deref h]
  cases hdata : req.data.deref with
  | error f => exact iff_of_false not_shaped_error fun hand => not_returns_error f hand.1
  | ok data =>
    rw [ok_bind, DataPtr.payload_of_deref hdata]
    exact (and_iff_right (returns_ok data)).symm

theorem powerSetRun_shaped {req : PwrMsg} (h : req.Holds) :
    m.Shaped (m.powerSetRun req.data) ↔ req.data ≠ .null ∧ m.PowerFits (m.argument req) := by
  refine (shaped_deref h).trans (and_congr_right fun _ => ?_)
  rw [← argument, PowerFits]
  dsimp only
  by_cases hscratch : m.scratchOk = false
  · rw [if_pos hscratch]
    exact iff_of_true (shaped_refused (by decide)) (.inl hscratch)
  · rw [if_neg hscratch, or_iff_right hscratch]
    cases hline : m.popen (powerLine (m.argument req)) with
    | none => exact iff_of_true (shaped_refused (by decide)) (.inl rfl)
    | some out =>
      rw [or_iff_right (by simp), ← @fixedForm_powerLine m]
      refine shaped_ok.trans ?_
      simp

theorem checkAvailableGovernor_eq_zero {gov policy : Bytes} :
    m.checkAvailableGovernor gov policy = 0 ↔
      m.scratchOk = true ∧ gov ∈ m.availableGovernors (policy.take gov.length) := by
  unfold checkAvailableGovernor availableGovernors
  cases m.scratchOk with
  | false => simp
  | true =>
    rw [if_neg (by simp), and_iff_right rfl]
    generalize m.popen (_ ++ _) = out
    rcases out with _ | _ | ⟨buf, bufs⟩
    · simp
    · simp
    · dsimp only
      split <;> rename_i hmem
      · exact iff_of_true rfl hmem
      · exact iff_of_false (by decide) hmem

/-- The check of every policy. -/
theorem any_check_iff {gov : Bytes} {policys : List Bytes} (hscratch : m.scratchOk = true) :
    (policys.any fun policy => m.checkAvailableGovernor gov policy ≠ 0) = true ↔
      ¬ ∀ policy ∈ policys, gov ∈ m.availableGovernors (policy.take gov.length) := by
  simp [checkAvailableGovernor_eq_zero, hscratch]

theorem governorSetRun_shaped {req : PwrMsg} (h : req.Holds) :
    m.Shaped (m.governorSetRun req.data m.governorPolicys) ↔
      req.data ≠ .null ∧ m.GovernorFits (m.argument req) := by
  refine (shaped_deref h).trans (and_congr_right fun _ => ?_)
  rw [← argument, GovernorFits]
  generalize m.argument req = gov
  dsimp only
  by_cases hscratch : m.scratchOk = false
  · refine iff_of_true ?_ (.inl hscratch)
    split <;> exact shaped_refused (by decide)
  · have hcheck := @any_check_iff m gov m.governorPolicys (by simpa using hscratch)
    rw [or_iff_right hscratch]
    by_cases hall : ∀ policy ∈ m.governorPolicys,
        gov ∈ m.availableGovernors (policy.take gov.length)
    · rw [if_neg fun hany => hcheck.mp hany hall, if_neg hscratch, and_congr_right_iff.mpr
        fun _ => forall_prop_of_true hall]
      refine shaped_runLines.trans (and_congr (not_congr List.map_eq_nil_iff) ?_)
      rw [List.takeWhile_map, List.forall_mem_map]
      refine forall₂_congr fun policy hmem => fixedForm_governorLine ?_
      exact length_governorPolicys ((List.takeWhile_sublist _).subset hmem)
    · rw [if_pos (hcheck.mpr hall)]
      refine iff_of_true (shaped_refused (by decide)) ⟨?_, fun hmem => absurd hmem hall⟩
      intro hnil
      exact hall (by simp [hnil])

theorem setCpuFreqGovernorRun_shaped {req : PwrMsg} (h : req.Holds) :
    m.Shaped (m.setCpuFreqGovernorRun req) ↔
      req.data ≠ .null ∧ m.ListingFits ∧ m.GovernorFits (m.argument req) := by
  have hget : (m.listing.map (List.map policyName)).getD (List.replicate m.stalePoNum []) =
      m.governorPolicys := by
    unfold governorPolicys
    cases m.listing <;> rfl
  unfold setCpuFreqGovernorRun
  obtain ⟨herr, hfits⟩ | ⟨hok, hfits⟩ := @getPolicys_cases m
  · rw [herr]
    exact iff_of_false not_shaped_error fun hand => hfits hand.2.1
  · rw [hok, ok_bind]
    dsimp only
    rw [hget, governorSetRun_shaped h, and_iff_right hfits]

/-- The checks of `SetCpuFreq` on an array without an entry. -/
theorem checks_nil {rspCode : Int} (h : Server.checkUserspace m [] = .ok rspCode) :
    Server.checkInRange m [] rspCode ≠ 0 ↔ m.currentGovernorRead.code ≠ RtnCode.success.code ∨
      m.listing = none ∨ cString m.currentGovernorRead.data ≠ text "userspace" ∨
      m.freqRangeRead.code ≠ 0 := by
  have hcode : rspCode ≠ 0 ↔ m.currentGovernorRead.code ≠ RtnCode.success.code ∨
      m.listing = none ∨ cString m.currentGovernorRead.data ≠ text "userspace" := by
    unfold Server.checkUserspace at h
    by_cases hgov : m.currentGovernorRead.code = RtnCode.success.code
    · rw [if_neg (not_not.mpr hgov)] at h
      rw [or_iff_right (not_not.mpr hgov)]
      obtain ⟨checked, hchecked, hrest⟩ := bind_eq_ok.mp h
      unfold checkPolicys getPolicys at hchecked
      cases hl : m.listing with
      | none =>
        rw [hl] at hchecked
        obtain rfl := Except.ok.inj hchecked
        obtain rfl := Except.ok.inj hrest
        exact iff_of_true (by decide) (.inl rfl)
      | some lines =>
        rw [hl] at hchecked
        dsimp only at hchecked
        split at hchecked
        · obtain rfl := Except.ok.inj hchecked
          rw [or_iff_right (by simp)]
          rw [List.all_nil, if_pos rfl, if_neg (by decide)] at hrest
          split at hrest <;> rename_i hname
          · obtain rfl := Except.ok.inj hrest
            exact iff_of_true (by decide) hname
          · obtain rfl := Except.ok.inj hrest
            exact iff_of_false (fun hne => hne rfl) hname
        · cases hchecked
    · rw [if_pos hgov] at h
      obtain rfl := Except.ok.inj h
      exact iff_of_true (by decide) (.inl hgov)
  unfold Server.checkInRange
  split <;> rename_i hrange
  · exact iff_of_true (by decide) (.inr (.inr (.inr hrange)))
  · have hin : ¬ checkFreqInRange [] (freqRangeOf m.freqRangeRead.data) ≠ 0 := fun hne => hne rfl
    rw [if_neg hin, hcode, or_iff_left hrange]

/-- An array without an entry is refused when the governor or the range is not there. -/
theorem setCpuFreqRun_shaped {req : PwrMsg} :
    m.Shaped (m.setCpuFreqRun req) ↔
      (m.currentGovernorRead.code = RtnCode.success.code → m.ListingFits) ∧
        m.SpeedFits req.head.dataLen := by
  have hentry : curFreqs req.payload (req.head.dataLen.toNat / sizeofCurFreq) ≠ [] ↔
      sizeofCurFreq ≤ req.head.dataLen.toNat := by
    rw [curFreqs, Ne, List.map_eq_nil_iff, List.range_eq_nil, Nat.div_eq_zero_iff, sizeofCurFreq]
    omega
  unfold setCpuFreqRun SpeedFits
  dsimp only
  rw [← hentry]
  generalize curFreqs req.payload (req.head.dataLen.toNat / sizeofCurFreq) = target
  have hreturns := @Server.returns_checkUserspace m target
  rw [← imp_iff_not_or] at hreturns
  rw [← hreturns]
  cases hchecked : Server.checkUserspace m target with
  | error f => exact iff_of_false not_shaped_error fun hand => not_returns_error f hand.1
  | ok rspCode =>
    rw [ok_bind, and_iff_right (returns_ok rspCode)]
    by_cases hnil : target = []
    · subst hnil
      rw [or_iff_right (not_not.mpr rfl), ← checks_nil hchecked]
      split <;> rename_i hrefused
      · exact iff_of_true (shaped_refused hrefused) hrefused
      · exact iff_of_false (fun hshaped => (shaped_runLines.mp hshaped).1 rfl) hrefused
    · refine iff_of_true ?_ (.inl hnil)
      split <;> rename_i hrefused
      · exact shaped_refused hrefused
      · refine shaped_runLines.mpr ⟨fun hmap => hnil (List.map_eq_nil_iff.mp hmap), ?_⟩
        exact fun line hmem => fixedForm_speedLines ((List.takeWhile_sublist _).subset hmem)

/-- **No client bytes reach the shell uninterpreted** exactly for these payloads. -/
theorem interpreted_iff (m : Machine) {req : PwrMsg} (h : req.Holds) :
    m.Interpreted req ↔ m.Fits req := by
  have hone : ∀ run, (∀ r ∈ some run, m.Shaped r) ↔ m.Shaped run :=
    fun run => ⟨fun hall => hall run rfl, fun hrun r hr => Option.some.inj hr ▸ hrun⟩
  unfold Interpreted settings Fits
  cases OperationType.ofCode req.head.optType with
  | none => exact iff_of_true nofun trivial
  | some op =>
    cases op with
    | sysSetPowerState => exact (hone _).trans (powerSetRun_shaped h)
    | cpuSetFreqGovernor => exact (hone _).trans (setCpuFreqGovernorRun_shaped h)
    | cpuSetCurFreq => exact (hone _).trans setCpuFreqRun_shaped
    | _ => exact iff_of_true nofun trivial

/-- A machine whose shell executes what it gets. -/
def shellMachine : Machine := { Server.bareMachine with popen := fun _ => some [] }

/-- A request to set the power state, with this string. -/
def powerRequest (state : String) : PwrMsg :=
  (createReqMsg ⟨1, 0⟩ .sysSetPowerState 0 (UInt32.ofNat (text state ++ [0]).length)
    (.heap 1 (text state ++ [0]))).1

theorem interpreted_iff_mem :
    shellMachine.Interpreted (powerRequest "mem") ↔ shellMachine.Fits (powerRequest "mem") :=
  interpreted_iff shellMachine (by decide +kernel)

/-- A payload can carry a command of its own. -/
theorem reboot_not_interpreted : ¬ shellMachine.Interpreted (powerRequest "x; reboot #") := by
  intro h
  have hrun := h _ rfl
  have hholds : (powerRequest "x; reboot #").Holds := by decide +kernel
  obtain ⟨-, hscratch | hstart | hstate⟩ := (powerSetRun_shaped hholds).mp hrun
  · cases hscratch
  · cases hstart
  · exact absurd hstate (by decide +kernel)

end Machine

end PowerApi
