import PowerApi.CpuReaders

/-!
# The machine that the readers make (`cpuservice.c`, `sysservice.c`)

The other readers: `PerfDataRead` and `SysRtPowerRead`, and the three parts of
`FreqAbilityRead`. `Machine.reading` is a machine on which the handlers get what all the readers
leave in their blocks, with what `malloc` left in these before, the `Prior`.

A store outside of an array, or a string that does not end in its buffer, is a fault, and with it
nothing more is said about the run. A store that a loop makes too far is one as well where other
fields of the same struct are behind the array, as in `AllGovernorsRead`.
-/

namespace PowerApi

open Bytes MemoryBlock

/-! ## `PerfDataRead` -/

/-- The sums of the counts. -/
structure PerfSums where
  cacheMiss : UInt64
  ins : UInt64
  cycles : UInt64
  deriving DecidableEq, Repr

/-- One line of the report, in a `buf` that holds other text behind it. -/
def perfLine (buf line : Bytes) (sums : PerfSums) : Except Fault (Bytes × PerfSums) := do
  let buf := deleteChar (deleteChar (deleteChar (putString buf line) 10) 32) 44
  let s ← stringAt buf 0
  if text "r0033" <:+: s ∨ text "LLC-load-misses" <:+: s then
    let buf ← deleteSubstr buf 0 (text "r0033")
    let buf ← deleteSubstr buf 0 (text "LLC-load-misses")
    let s ← stringAt buf 0
    return (buf, { sums with cacheMiss := sums.cacheMiss + strtoul s 10 })
  else if text "instructions" <:+: s then
    let buf ← deleteSubstr buf 0 (text "instructions")
    let s ← stringAt buf 0
    return (buf, { sums with ins := sums.ins + strtoul s 10 })
  else if text "cycles" <:+: s then
    let buf ← deleteSubstr buf 0 (text "cycles")
    let s ← stringAt buf 0
    return (buf, { sums with cycles := sums.cycles + strtoul s 10 })
  else return (buf, sums)

/-- The loop over the report. -/
def perfLines : List Bytes → Bytes → PerfSums → Except Fault PerfSums
  | [], _, sums => return sums
  | line :: lines, buf, sums => do
    let (buf, sums) ← perfLine buf line sums
    perfLines lines buf sums

/-- The command for an architecture. -/
def perfCommand (arch : Int) : Option Bytes :=
  if arch = 0 then
    some (text "perf stat -e r0033 -e instructions -e cycles -a sleep 0.1 &>perf.txt")
  else if arch = 1 then
    some (text "perf stat -e LLC-load-misses -e instructions -e cycles -a sleep 0.1 &>perf.txt")
  else none

/-- `PerfDataRead`. -/
def perfDataRead (m : Machine) (host : Host) (info : ℕ → UInt8) (perf : PerfHost) :
    Except Fault (Int × List (Write UInt8)) := do
  let arch ← getArch m host info
  match (perfCommand arch).bind perf.report with
  | none => return (1, [])
  | some lines =>
    let sums ← perfLines (lines.flatMap fgetsCalls) host.staleBuf ⟨0, 0, 0⟩
    return (RtnCode.success.code,
      [setDouble 8 (perf.quotient sums.cacheMiss sums.ins),
        setDouble 0 (perf.quotient sums.ins sums.cycles)])

/-! ## `SysRtPowerRead` -/

/-- The commands of `SysRtPowerRead`. -/
def sysPowerInfo : Bytes :=
  text ("printf \"%d\" 0x$(ipmitool raw 0x30 0x93 0xdb 0x07 0x00 0x11 0x0 | " ++
    "awk '\x7bprint $7$6$5$4\x7d')")

def cpuPowerInfo : Bytes :=
  text ("printf \"%d\" 0x$(ipmitool raw 0x30 0x93 0xdb 0x07 0x00 0x11 0x4 | " ++
    "awk '\x7bprint $5$4\x7d')")

def memPowerInfo : Bytes :=
  text ("printf \"%d\" 0x$(ipmitool raw 0x30 0x93 0xdb 0x07 0x00 0x11 0x5 | " ++
    "awk '\x7bprint $5$4\x7d')")

/-- `IpmiRead`: the `double` by its bits, if there is one. -/
def ipmiRead (m : Machine) (host : Host) (componentInfo : Bytes) : Option UInt64 :=
  match m.popen componentInfo with
  | some (buf :: _) => some (host.atof (((cString buf).filter (· ≠ 10)).filter (· ≠ 32)))
  | _ => none

/-- `SysRtPowerRead`; `info` is what the `PWR_CPU_Info` of `GetArch` held. -/
def sysRtPowerRead (m : Machine) (host : Host) (info : ℕ → UInt8) :
    Except Fault (Int × List (Write UInt8)) := do
  match ipmiRead m host sysPowerInfo with
  | none => return (RtnCode.errCommon.code, [])
  | some sysPower =>
    if (← getArch m host info) ≠ 1 then return (RtnCode.success.code, [setDouble 0 sysPower])
    else
      match ipmiRead m host cpuPowerInfo, ipmiRead m host memPowerInfo with
      | some cpuPower, some memPower =>
        return (RtnCode.success.code,
          [setDouble 0 sysPower, setDouble 8 cpuPower, setDouble 16 memPower])
      | _, _ => return (RtnCode.errCommon.code, [setDouble 0 sysPower])

/-! ## `FreqAbilityRead` -/

/-- `FreqDriverRead`, by its code. -/
def freqDriverRead (host : Host) : Int :=
  match host.file (text "/sys/devices/system/cpu/cpufreq/policy0/scaling_driver") with
  | none => 1
  | some content => if content = [] then 1 else 0

def maxGovNum : ℕ := 16

/-- A loop that stores its items one behind the other from index `num` on, with what is
stored there. -/
def storesFrom (item : Bytes → Bytes) : ℕ → List Bytes → List (ℕ × Bytes)
  | _, [] => []
  | num, str :: strs => (num, item str) :: storesFrom item (num + 1) strs

/-- The file that `AllGovernorsRead` reads. -/
def availableGovernors : Bytes :=
  text "/sys/devices/system/cpu/cpufreq/policy0/scaling_available_governors"

/-- The tokens of `AllGovernorsRead`: the buffer takes one character less than it has. -/
def governorTokens (content : Bytes) : List Bytes :=
  let buf := content.take (maxElementNameLen * maxGovNum - 1)
  ((cString (buf.filter (· ≠ 10))).splitOn 32).filter (· ≠ [])

/-- A token as it is copied to `govList`. -/
def governorItem (temp : Bytes) : Bytes := (temp.filter (· ≠ 32)).take (maxElementNameLen - 1)

/-- `AllGovernorsRead`: the code, `govNum` and the loop over the tokens. -/
def allGovernorsRead (host : Host) : Int × ℕ × List (ℕ × Bytes) :=
  match host.file availableGovernors with
  | none => (1, 0, [])
  | some content =>
    if content = [] then (1, 0, [])
    else
      let tokens := governorTokens content
      (0, tokens.length, storesFrom governorItem 0 tokens)

/-- There are not more governors than `govList` has room for. -/
def GovernorsFit (host : Host) : Prop :=
  ∀ content, host.file availableGovernors = some content →
    (governorTokens content).length ≤ maxGovNum

/-- The code of `AllGovernorsRead`, unless a name is stored behind `avGovList`. -/
def governorsCode (host : Host) : Except Fault Int :=
  let (code, govNum, _) := allGovernorsRead host
  if govNum ≤ maxGovNum then .ok code else .error .overrun

namespace Server

/-- The file with the CPUs of a policy. -/
def affectedCpusFile (policy : Bytes) : Bytes := Machine.policyFile policy (text "/affected_cpus")

end Server

/-! ## The blocks -/

/-- What the blocks hold that `malloc` hands out while a request is served. -/
structure Prior where
  /-- the block of response data -/
  rstData : ℕ → UInt8
  /-- the `PWR_CPU_Info` of `GetArch` -/
  cpuInfo : ℕ → UInt8

namespace Server

/-- The blocks of an allocator that clears them. -/
def zeroPrior : Prior := ⟨fun _ => 0, fun _ => 0⟩

instance : Inhabited Prior := ⟨zeroPrior⟩

/-- `sizeof` of a pointer, and of a `size_t`. -/
def sizeofPtr : ℕ := 8

/-- A block of response data after the assignments of a reader. -/
def writtenBlock (size : ℕ) (read : Int × List (Write UInt8)) (p : Prior) : Reading size where
  code := read.1
  data := contents size (fill read.2 p.rstData)
  length_data := length_contents _ _

/-- The same for a reader that can run into a fault. -/
def fillBlock (size : ℕ) (read : Except Fault (Int × List (Write UInt8))) (p : Prior) :
    Except Fault (Reading size) := do
  return writtenBlock size (← read) p

/-- The assignments of `GetCpuinfo`: `bzero` takes the size of the pointer. -/
def cpuInfoWrites (m : Machine) (host : Host) : Except Fault (Int × List (Write UInt8)) := do
  let (code, ws) ← cpuInfoRead m host
  return (code, bzero sizeofPtr :: ws)

/-- The assignments of `GetCpuUsage`: `bzero` takes the size of a size. -/
def cpuUsageWrites (m : Machine) (host : Host) : Except Fault (Int × List (Write UInt8)) := do
  let (code, ws) ← cpuUsageRead m host
  return (code, bzero sizeofPtr :: ws)

/-- The array of `GetCpuFreq`. -/
def fillFreq (m : Machine) (host : Host) (p : Prior) (policys : List Bytes) :
    Except Fault (Reading (sizeofCurFreq * policys.length)) := do
  let (code, ws) ← freqRead m host p.cpuInfo policys
  return {
    code
    data := freqReadData code policys.length (fill ws p.rstData)
    length_data := length_freqReadData _ _ _ }

/-- The assignments of `GetSysRtPowerInfo`. -/
def sysRtPowerWrites (m : Machine) (host : Host) (info : ℕ → UInt8) :
    Except Fault (Int × List (Write UInt8)) := do
  let (code, ws) ← sysRtPowerRead m host info
  return (code, setDouble 8 0 :: setDouble 16 0 :: ws)

end Server

/-- The machine with the readers in full. -/
def Machine.reading (m : Machine) (host : Host) (p : Prior) : Machine :=
  { m with
    sysRtPowerRead := Server.fillBlock 24 (Server.sysRtPowerWrites m host p.cpuInfo) p
    cpuInfoRead := Server.fillBlock sizeofCpuInfo (Server.cpuInfoWrites m host) p
    cpuUsageRead := Server.fillBlock (sizeofCpuUsage + 16 * m.coreNum)
      (Server.cpuUsageWrites m host) p
    perfDataRead := Server.fillBlock 16 (PowerApi.perfDataRead m host p.cpuInfo host.perf) p
    currentGovernorRead := Server.writtenBlock maxElementNameLen (PowerApi.currentGovernorRead m) p
    freqRangeRead := Server.writtenBlock sizeofFreqRange (PowerApi.freqRangeRead host) p
    freqRead := Server.fillFreq m host p
    freqDriverRead := PowerApi.freqDriverRead host
    allGovernorsRead := governorsCode host
    affectedCpus := fun policy => (host.file (Server.affectedCpusFile policy)).any (· ≠ []) }

/-! ## Which of the readers come to their end -/

section Reading

variable {m : Machine} {host : Host} {p : Prior}

theorem govNum_le_iff : (allGovernorsRead host).2.1 ≤ maxGovNum ↔ GovernorsFit host := by
  rw [allGovernorsRead, GovernorsFit]
  cases host.file availableGovernors with
  | none => exact iff_of_true (Nat.zero_le _) (by simp)
  | some content =>
    simp only [Option.some.injEq, forall_eq']
    split <;> rename_i hempty
    · subst hempty
      exact iff_of_true (Nat.zero_le _) (by decide)
    · exact Iff.rfl

theorem governorsCode_eq_ok {code : Int} :
    governorsCode host = .ok code ↔ GovernorsFit host ∧ (allGovernorsRead host).1 = code := by
  rw [governorsCode, ← govNum_le_iff]
  dsimp only
  split <;> simp_all

/-- The three parts of `FreqAbilityRead`: only a driver that can be read gets it to the
governors, and only governors that can be read to the table of the domains. -/
theorem returns_freqAbilityRead_reading {policys : List Bytes} {step : ℕ} :
    Returns ((m.reading host p).freqAbilityRead policys step) ↔
      freqDriverRead host ≠ RtnCode.success.code ∨ GovernorsFit host ∧
        ((allGovernorsRead host).1 ≠ RtnCode.success.code ∨ ∀ policy ∈ policys.head?,
          (host.file (Server.affectedCpusFile policy)).any (· ≠ []) = true → 4 < step) := by
  have hgov : ∀ code, (m.reading host p).allGovernorsRead = .ok code ↔
      GovernorsFit host ∧ (allGovernorsRead host).1 = code := fun _ => governorsCode_eq_ok
  rw [Machine.returns_freqAbilityRead]
  simp only [hgov, and_assoc, exists_and_left, exists_eq_left']
  exact Iff.rfl

theorem returns_sysRtPowerRead {info : ℕ → UInt8} :
    Returns (sysRtPowerRead m host info) ↔
      ipmiRead m host sysPowerInfo = none ∨ Returns (getArch m host info) := by
  rw [sysRtPowerRead]
  cases ipmiRead m host sysPowerInfo with
  | none => exact iff_of_true ⟨_, rfl⟩ (.inl rfl)
  | some sysPower =>
    rw [or_iff_right nofun]
    refine returns_bind_of_forall fun arch => ?_
    split
    · exact ⟨_, rfl⟩
    · split <;> exact ⟨_, rfl⟩

namespace Server

theorem returns_fillBlock {size : ℕ} {read : Except Fault (Int × List (Write UInt8))} :
    Returns (fillBlock size read p) ↔ Returns read :=
  returns_bind_of_forall fun _ => ⟨_, rfl⟩

theorem returns_sysRtPowerWrites {info : ℕ → UInt8} :
    Returns (sysRtPowerWrites m host info) ↔
      ipmiRead m host sysPowerInfo = none ∨ Returns (getArch m host info) :=
  (returns_bind_of_forall fun _ => ⟨_, rfl⟩).trans returns_sysRtPowerRead

theorem returns_cpuInfoWrites : Returns (cpuInfoWrites m host) ↔ Returns (cpuInfoRead m host) :=
  returns_bind_of_forall fun _ => ⟨_, rfl⟩

theorem returns_cpuUsageWrites : Returns (cpuUsageWrites m host) ↔ Returns (cpuUsageRead m host) :=
  returns_bind_of_forall fun _ => ⟨_, rfl⟩

/-- The files of the policies do no harm, whatever is in them. -/
theorem returns_fillFreq {policys : List Bytes} :
    Returns (fillFreq m host p policys) ↔ Returns (getArch m host p.cpuInfo) :=
  (returns_bind_of_forall fun _ => ⟨_, rfl⟩).trans (returns_bind_of_forall fun _ => ⟨_, rfl⟩)

end Server

end Reading

end PowerApi
