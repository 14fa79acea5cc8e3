import PowerApi.Service
import PowerApi.MemoryBlock

/-!
# The readers of the machine (`cpuservice.c`, `utils.c`)

`CpuInfoRead`, `CPUUsageRead`, `CurrentGovernorRead`, `FreqRead` and
`FreqRangeRead` fill a block of response data from what commands print and what
files hold. A reader is given here by its code and by the list of assignments
that it makes to the block, in their order; the block itself, which `malloc`
hands out with something in it, is not looked at before `FreqRead` sorts it.

Strings are cut up in place, in a `buf` on the stack. `stringAt` is the string
at a position of such a buffer; one that does not end in there is an overrun.
-/

namespace PowerApi

open Bytes MemoryBlock

def maxNameLen : ℕ := 128
def maxStringLen : ℕ := 1000
def maxNumaNodeNum : ℕ := 16
def cpusWidth : ℕ := 6
def cpuUsageColumn : ℕ := 8
def cpuIdleColumn : ℕ := 4

/-- A row of `paras`: the number of a core and the columns behind it. -/
structure ParasRow where
  core : UInt64
  columns : List UInt64
  deriving Repr

/-- What `PerfDataRead` finds beside a machine and its files. -/
structure PerfHost where
  /-- the lines of `perf.txt` after a command; `none` if it cannot be opened -/
  report : Bytes → Option (List Bytes)
  /-- the quotient of two counts as a `double`, by its bits -/
  quotient : UInt64 → UInt64 → UInt64

/-- What the readers find beside the commands that they start once. -/
structure Host where
  /-- `cat /proc/stat`, the second time -/
  statAgain : Option (List Bytes)
  /-- what a file holds; `none` if it cannot be read -/
  file : Bytes → Option Bytes
  /-- `atof`, the `double` by its bits -/
  atof : Bytes → UInt64
  /-- an uninitialised `char buf[MAX_STRING_LEN]` -/
  staleBuf : Bytes
  /-- the uninitialised rows of `paras` -/
  staleParas : ParasRow × ParasRow
  /-- the report of `perf stat` -/
  perf : PerfHost
  length_staleBuf : staleBuf.length = maxStringLen

theorem length_zeros : (List.replicate maxStringLen (0 : UInt8)).length = maxStringLen :=
  List.length_replicate

/-! ## Strings in a buffer -/

/-- The string at a position of a buffer. -/
def stringAt (buf : Bytes) (i : ℕ) : Except Fault Bytes :=
  if 0 ∈ buf.drop i then .ok (cString (buf.drop i)) else .error .overrun

/-- What `fgets` hands out of a line, call by call: the buffer is `MAX_STRING_LEN - 1`
long, with the end of the string. -/
def fgetsCalls (line : Bytes) : List Bytes :=
  if maxStringLen - 2 < line.length then
    line.take (maxStringLen - 2) :: fgetsCalls (line.drop (maxStringLen - 2))
  else [line]
termination_by line.length
decreasing_by
  rw [List.length_drop]
  have : maxStringLen = 1000 := rfl
  omega

/-- A string put at the front of a buffer, as `fgets` does; what is behind it stays. -/
def putString (buf str : Bytes) : Bytes := str ++ 0 :: buf.drop (str.length + 1)

/-- `Ltrim`. -/
def ltrim (buf : Bytes) (s : ℕ) : Except Fault ℕ := do
  return s + ((← stringAt buf s).takeWhile isSpace).length

/-- The first call of `strtok`: the token's position, and the buffer with an end put
behind it. -/
def strtok (buf : Bytes) (delim : UInt8) : Except Fault (Option (ℕ × Bytes)) := do
  let start := (buf.takeWhile (· = delim)).length
  let s ← stringAt buf start
  if s = [] then return none
  else
    let len := (s.takeWhile (· ≠ delim)).length
    return some (start, if len < s.length then buf.set (start + len) 0 else buf)

/-- `DeleteSubstr` in its buffer. Behind the new end of the string there are bytes from
behind the old one. -/
def deleteSubstr (buf : Bytes) (str : ℕ) (substr : Bytes) : Except Fault Bytes := do
  let s ← stringAt buf str
  match (List.range s.length).find? fun k => substr <+: s.drop k with
  | none => return buf
  | some k =>
    if buf.length < str + s.length + substr.length then throw .overrun
    else return buf.take (str + k) ++ (buf.drop (str + k + substr.length)).take (s.length - k) ++
      buf.drop (str + s.length)

/-- `DeleteChar` in its buffer. -/
def deleteChar (buf : Bytes) (a : UInt8) : Bytes := putString buf ((cString buf).filter (· ≠ a))

/-- `ReadFile`: the buffer with the text of a file. -/
def readFile (host : Host) (strInfo buf : Bytes) (bufLen : ℕ) : Option Bytes :=
  match host.file strInfo with
  | none => none
  | some content =>
    let got := content.take (bufLen - 1)
    if got = [] then none else some (deleteChar (got ++ buf.drop got.length) 10)

/-- The value of a digit; 36 for what is none. -/
def digitOf (c : UInt8) : ℕ :=
  if isDigit c then c.toNat - 48
  else if 97 ≤ c ∧ c ≤ 122 then c.toNat - 87
  else if 65 ≤ c ∧ c ≤ 90 then c.toNat - 55
  else 36

/-- The base of a number and its digits: base 0 goes by what the number begins with. -/
def radix (base : ℕ) (str : Bytes) : ℕ × Bytes :=
  if base ≠ 0 then (base, str)
  else
    match str with
    | 48 :: x :: c :: rest =>
      if (x = 120 ∨ x = 88) ∧ digitOf c < 16 then (16, c :: rest) else (8, str)
    | 48 :: _ => (8, str)
    | _ => (10, str)

/-- `strtoul`. -/
def strtoul (str : Bytes) (base : ℕ) : UInt64 :=
  let (neg, str) := sign (str.dropWhile isSpace)
  let (base, str) := radix base str
  let value := (str.takeWhile fun c => digitOf c < base).foldl (fun n c => n * base + digitOf c) 0
  if 2 ^ 64 ≤ value then UInt64.ofNat (2 ^ 64 - 1)
  else if neg then -UInt64.ofNat value
  else UInt64.ofNat value

/-! ## Assignments to a block -/

/-- An assignment to an `int` of a block. -/
def setInt (off : ℕ) (n : Int) : Write UInt8 := ⟨off, leBytes 4 (n % 2 ^ 32).toNat⟩

/-- An assignment to a `double` of a block. -/
def setDouble (off : ℕ) (bits : UInt64) : Write UInt8 := ⟨off, leBytes 8 bits.toNat⟩

/-- `bzero`. -/
def bzero (size : ℕ) : Write UInt8 := ⟨0, List.replicate size 0⟩

/-- `StrCopy` into a block: as much of the string as has room, and its end. -/
def strCopy (dest : ℕ) (src : Bytes) (destSize : ℕ) : Write UInt8 :=
  ⟨dest, src.take (destSize - 1) ++ [0]⟩

/-! ## `CpuInfoRead` -/

/-- `enum CpuAttType`. -/
inductive CpuAttType where
  | arch
  | modelName
  | byteOr
  | numaNumber
  | numaNode
  | cpuNumber
  | onlineCpu
  | threadsPerCore
  | coresPerSocket
  | maxMhz
  | minMhz
  deriving DecidableEq, Repr

/-- `cpuAttributes`. -/
def CpuAttType.attribute : CpuAttType → Bytes
  | arch => text "Architecture"
  | modelName => text "Model name"
  | byteOr => text "Byte Order"
  | numaNumber => text "NUMA node(s)"
  | numaNode => text "NUMA node"
  | cpuNumber => text "CPU(s)"
  | onlineCpu => text "On-line CPU"
  | threadsPerCore => text "Thread(s) per core"
  | coresPerSocket => text "Core(s) per socket"
  | maxMhz => text "max MHz"
  | minMhz => text "min MHz"

/-- All attributes, in the order of the table. -/
def CpuAttType.all : List CpuAttType :=
  [arch, modelName, byteOr, numaNumber, numaNode, cpuNumber, onlineCpu, threadsPerCore,
    coresPerSocket, maxMhz, minMhz]

/-- `GetCpuArrId`: the first attribute that is part of the text. -/
def getCpuArrId (att : Bytes) : Option CpuAttType :=
  CpuAttType.all.find? fun t => t.attribute <:+: att

/-- Where the fields of a `PWR_CPU_Info` are. -/
def CpuAttType.offset : CpuAttType → ℕ
  | arch => 0
  | modelName => 32
  | byteOr => 160
  | cpuNumber => 164
  | onlineCpu => 168
  | threadsPerCore => 416
  | coresPerSocket => 420
  | maxMhz => 424
  | minMhz => 432
  | numaNumber => 440
  | numaNode => 444

/-- `sizeof(PWR_CPU_NumaInfo)`: an `int` and a list of CPUs. -/
def sizeofNumaInfo : ℕ := 252

/-- `sizeof(PWR_CPU_Info)`: the fields, and padding up to a multiple of 8. -/
def sizeofCpuInfo : ℕ := 4480

/-- `CpuInfoCopy`: the buffer of the two strings, and the assignments to the block. -/
def cpuInfoCopy (host : Host) (buf : Bytes) (att value : ℕ) :
    Except Fault (Bytes × List (Write UInt8)) := do
  let a ← stringAt buf att
  let v ← stringAt buf value
  match getCpuArrId a with
  | some .arch => return (buf, [strCopy CpuAttType.arch.offset v maxElementNameLen])
  | some .modelName => return (buf, [strCopy CpuAttType.modelName.offset v maxNameLen])
  | some .byteOr =>
    return (buf, [setInt CpuAttType.byteOr.offset (if text "Little" <:+: v then 0 else 1)])
  | some .numaNumber => return (buf, [setInt CpuAttType.numaNumber.offset (atoi v)])
  | some .numaNode =>
    let buf ← deleteSubstr buf att (text "NUMA node")
    let buf ← deleteSubstr buf att (text " CPU(s)")
    let j := atoi (← stringAt buf att)
    -- `numa[j]`
    if 0 ≤ j ∧ j < maxNumaNodeNum then
      let numa := CpuAttType.numaNode.offset + sizeofNumaInfo * j.toNat
      return (buf, [setInt numa j, strCopy (numa + 4) (← stringAt buf value) maxCpuListLen])
    else throw .overrun
  | some .cpuNumber =>
    -- also `On-line CPU(s) list` and the like, which are too long
    return (buf, if a.length = cpusWidth then [setInt CpuAttType.cpuNumber.offset (atoi v)] else [])
  | some .onlineCpu => return (buf, [strCopy CpuAttType.onlineCpu.offset v maxCpuListLen])
  | some .threadsPerCore => return (buf, [setInt CpuAttType.threadsPerCore.offset (atoi v)])
  | some .coresPerSocket => return (buf, [setInt CpuAttType.coresPerSocket.offset (atoi v)])
  | some .maxMhz => return (buf, [setDouble CpuAttType.maxMhz.offset (host.atof v)])
  | some .minMhz => return (buf, [setDouble CpuAttType.minMhz.offset (host.atof v)])
  | none => return (buf, [])

/-- One line of `lscpu`. -/
def cpuInfoLine (host : Host) (buf line : Bytes) : Except Fault (Bytes × List (Write UInt8)) := do
  let buf := putString buf line
  match ← strtok buf 58 with
  | none => return (buf, [])
  | some (att, buf) =>
    -- counted from `buf`, not from the token
    let value := (← stringAt buf att).length + 1
    let att ← ltrim buf att
    let value ← ltrim buf value
    let len := (← stringAt buf value).length
    cpuInfoCopy host (buf.set (value + len - 1) 0) att value

/-- The loop of `CpuInfoRead`. -/
def cpuInfoLines (host : Host) : List Bytes → Bytes → Except Fault (List (Write UInt8))
  | [], _ => return []
  | line :: lines, buf => do
    let (buf, ws) ← cpuInfoLine host buf line
    return ws ++ (← cpuInfoLines host lines buf)

/-- The command of `CpuInfoRead`. -/
def lscpu : Bytes :=
  text ("lscpu|grep -E \"Architecture|Byte|Thread|On-line|CPU|Core|Model name|NUMA node\"" ++
    "|grep -v \"BIOS\"")

/-- `CpuInfoRead`. -/
def cpuInfoRead (m : Machine) (host : Host) : Except Fault (Int × List (Write UInt8)) :=
  match m.popen lscpu with
  | none => .ok (1, [])
  | some lines => do return (RtnCode.success.code, ← cpuInfoLines host lines host.staleBuf)

/-- `GetArch`; `info` is what its `PWR_CPU_Info` held before. -/
def getArch (m : Machine) (host : Host) (info : ℕ → UInt8) : Except Fault Int := do
  if m.scratchOk = false then return -1
  else
    let (code, ws) ← cpuInfoRead m host
    if code ≠ 0 then return -1
    else
      let arch ← stringAt (contents sizeofCpuInfo (fill ws info)) CpuAttType.arch.offset
      if text "aarch64" <:+: arch then return 0
      else if text "x86_64" <:+: arch then return 1
      else return -1

/-! ## `CPUUsageRead` -/

/-- One turn of the loop of `UsageToLong`: the text up to a space, and what begins behind
the spaces. -/
def usageToken (buf : Bytes) : Except Fault (Bytes × Bytes) :=
  let rest := buf.dropWhile (· ≠ 32)
  if rest.dropWhile (· = 32) = [] then .error .overrun
  else .ok (cString (buf.takeWhile (· ≠ 32)), rest.dropWhile (· = 32))

/-- The columns behind the first one. -/
def usageColumns : ℕ → Bytes → Except Fault (List UInt64)
  | 0, _ => return []
  | n + 1, buf => do
    let (temp, buf) ← usageToken buf
    return strtoul temp 0 :: (← usageColumns n buf)

/-- `UsageToLong`. It reads a column more than a row has, and puts it where the next row
begins or behind the array; nothing looks at it there. -/
def usageToLong (buf : Bytes) (paras : ParasRow) (line : ℕ) : Except Fault (Int × ParasRow) := do
  let (temp, buf) ← usageToken buf
  if 0 < line ∧ ¬ text "cpu" <:+: temp then return (-2, paras)
  else
    let core := if 0 < line then strtoul (Machine.deleteSubstr (text "cpu") temp) 0 else paras.core
    let columns ← usageColumns cpuUsageColumn buf
    return (if line = 0 then -1 else wrapInt core.toNat, ⟨core, columns.take (cpuUsageColumn - 1)⟩)

/-- The share of the time that was not idle, by its bits. -/
def usageBits (paras : ParasRow × ParasRow) : UInt64 :=
  let idle (row : ParasRow) : UInt64 := row.columns.getD (cpuIdleColumn - 1) 0
  let parasSum1 := paras.1.columns.sum
  let parasSum2 := paras.2.columns.sum
  (1 - (idle paras.2 - idle paras.1).toFloat / (parasSum2 - parasSum1).toFloat).toBits

/-- Where `coreUsage` of a `PWR_CPU_Usage` begins: a `double`, an `int`, padding. -/
def sizeofCpuUsage : ℕ := 16

/-- `CalculateUsage`. An element of `coreUsage` is an `int`, padding, a `double`. -/
def calculateUsage (coreNum : ℕ) (paras : ParasRow × ParasRow) (i : ℕ) :
    Except Fault (List (Write UInt8)) :=
  if i = 0 then .ok [setDouble 0 (usageBits paras)]
  -- `coreUsage[paras[0][0]]`
  else if paras.1.core.toNat < coreNum then
    let elem := sizeofCpuUsage + 16 * paras.1.core.toNat
    .ok [setInt elem paras.1.core.toNat, setDouble (elem + 8) (usageBits paras)]
  else .error .overrun

/-- The loop of `CPUUsageRead`, with the number of turns that are left. -/
def cpuUsageLoop (coreNum : ℕ) : ℕ → ℕ → List Bytes → List Bytes → Bytes × Bytes →
    ParasRow × ParasRow → Except Fault (Int × List (Write UInt8))
  | 0, _, _, _, _, _ => return (RtnCode.success.code, [])
  | _ + 1, _, [], _, _, _ => return (RtnCode.errCommon.code, [])
  | _ + 1, _, _ :: _, [], _, _ => return (RtnCode.errCommon.code, [])
  | n + 1, i, line1 :: lines1, line2 :: lines2, (buf1, buf2), (paras1, paras2) => do
    let buf1 := putString buf1 line1
    let buf2 := putString buf2 line2
    let (core1, paras1) ← usageToLong buf1 paras1 i
    let (core2, paras2) ← usageToLong buf2 paras2 i
    if core1 ≠ core2 then return (RtnCode.errCommon.code, [])
    -- two lines without a core count as equal, `paras` is that of the line before
    else
      let ws ← calculateUsage coreNum (paras1, paras2) i
      let (code, ws') ← cpuUsageLoop coreNum n (i + 1) lines1 lines2 (buf1, buf2) (paras1, paras2)
      return (code, ws ++ ws')

/-- `CPUUsageRead`. -/
def cpuUsageRead (m : Machine) (host : Host) : Except Fault (Int × List (Write UInt8)) :=
  match m.popen (text "cat /proc/stat"), host.statAgain with
  | some lines1, some lines2 => do
    let buf := List.replicate maxStringLen 0
    let (code, ws) ← cpuUsageLoop m.coreNum (m.coreNum + 1) 0 lines1 lines2 (buf, buf)
      host.staleParas
    return (code, setInt 8 m.coreNum :: ws)
  | _, _ => .ok (RtnCode.errCommon.code, [])

/-! ## Governor and frequencies -/

/-- The governor in a line. -/
def governorName (buf : Bytes) : Bytes :=
  (cString (buf.filter (· ≠ 10))).filter (· ≠ 32)

/-- The command of `CurrentGovernorRead`. -/
def scalingGovernor : Bytes :=
  text "cat /sys/devices/system/cpu/cpufreq/policy0/scaling_governor"

/-- `CurrentGovernorRead`. -/
def currentGovernorRead (m : Machine) : Int × List (Write UInt8) :=
  match m.popen scalingGovernor with
  | none => (1, [])
  | some [] => (RtnCode.errCommon.code, [])
  | some (buf :: _) => (RtnCode.success.code, [strCopy 0 (governorName buf) maxElementNameLen])

/-- The file of a frequency bound. -/
def scalingFreq (bound : Bytes) : Bytes :=
  text "/sys/devices/system/cpu/cpufreq/policy0/scaling_" ++ bound ++ text "_freq"

/-- `FreqRangeRead`. The second file is read over the text of the first. -/
def freqRangeRead (host : Host) : Int × List (Write UInt8) :=
  let buf := List.replicate maxElementNameLen 0
  match readFile host (scalingFreq (text "min")) buf maxElementNameLen with
  | none => (1, [])
  | some buf =>
    let minFreq := setInt 0 ((atoi (cString buf)).tdiv thousand)
    match readFile host (scalingFreq (text "max")) buf maxElementNameLen with
    | none => (1, [minFreq])
    | some buf => (0, [minFreq, setInt 4 ((atoi (cString buf)).tdiv thousand)])

/-- The assignments of `FreqRead` to the entry of one policy. -/
def setFreq (i : ℕ) (policy buf : Bytes) : List (Write UInt8) :=
  let curFreq := (strtoul (governorName buf) 10).toFloat / 1000
  [setInt (sizeofCurFreq * i) (Machine.policyIdOf policy),
    setDouble (sizeofCurFreq * i + 8) curFreq.toBits]

/-- The loop of `FreqRead` from the entry `i` on, `s2` being the file to read. -/
def freqReadLoop (m : Machine) (s2 : Bytes) : ℕ → List Bytes → Int × List (Write UInt8)
  | _, [] => (RtnCode.success.code, [])
  | i, policy :: policys =>
    match m.popen (text "cat /sys/devices/system/cpu/cpufreq/" ++ policy ++ s2) with
    | none => (1, [])
    | some [] => (RtnCode.errCommon.code, [])
    | some (buf :: _) =>
      let (code, ws) := freqReadLoop m s2 (i + 1) policys
      (code, setFreq i policy buf ++ ws)

/-- The entries of an array of `PWR_CPU_CurFreq`, byte by byte. -/
def entries (len : ℕ) (mem : ℕ → UInt8) : List Bytes :=
  (List.range len).map fun i => contents sizeofCurFreq fun k => mem (sizeofCurFreq * i + k)

section Sorting

variable {α : Type}

/-- The inner loop of `FreqSortByPolicy` over the first `n` neighbours. -/
def sortPass (key : α → Int) : ℕ → List α → List α
  | n + 1, a :: b :: l =>
    if key a > key b then b :: sortPass key n (a :: l) else a :: sortPass key n (b :: l)
  | _, l => l

/-- `FreqSortByPolicy`. -/
def freqSortByPolicy (key : α → Int) (l : List α) : List α :=
  (List.range l.length).foldl (fun rst i => sortPass key (l.length - i - 1) rst) l

theorem sortPass_perm (key : α → Int) (n : ℕ) (l : List α) : (sortPass key n l).Perm l := by
  fun_induction sortPass key n l with
  | case1 n a b l hgt ih => exact (ih.cons b).trans (.swap a b l)
  | case2 n a b l hle ih => exact ih.cons a
  | case3 n l => exact .refl l

/-- The entries are only moved about. -/
theorem freqSortByPolicy_perm (key : α → Int) (l : List α) : (freqSortByPolicy key l).Perm l := by
  have hfold : ∀ (is : List ℕ) (rst : List α),
      (is.foldl (fun rst i => sortPass key (l.length - i - 1) rst) rst).Perm rst := by
    intro is
    induction is with
    | nil => exact fun rst => .refl rst
    | cons i is ih => exact fun rst => (ih _).trans (sortPass_perm key _ rst)
  exact hfold _ l

end Sorting

/-- `FreqRead` up to the sorting; `info` is what the `PWR_CPU_Info` of `GetArch` held. -/
def freqRead (m : Machine) (host : Host) (info : ℕ → UInt8) (policys : List Bytes) :
    Except Fault (Int × List (Write UInt8)) := do
  let arch ← getArch m host info
  let s2 := if arch = 0 then text "/cpuinfo_cur_freq"
    else if arch = 1 then text "/scaling_cur_freq" else []
  return freqReadLoop m s2 0 policys

/-- The array that `FreqRead` leaves: where all entries were read they are sorted. -/
def freqReadData (code : Int) (len : ℕ) (rstData : ℕ → UInt8) : Bytes :=
  let policyId (entry : Bytes) : Int := intArg (UInt32.ofNat (fieldAt entry 0 4))
  if code ≠ RtnCode.success.code then (entries len rstData).flatten
  else (freqSortByPolicy policyId (entries len rstData)).flatten

/-- The array is made of its entries, in some order. -/
theorem freqReadData_perm (code : Int) (len : ℕ) (rstData : ℕ → UInt8) :
    ∃ rst : List Bytes, rst.Perm (entries len rstData) ∧
      freqReadData code len rstData = rst.flatten := by
  rw [freqReadData]
  split
  · exact ⟨_, .refl _, rfl⟩
  · exact ⟨_, freqSortByPolicy_perm _ _, rfl⟩

theorem length_freqReadData (code : Int) (len : ℕ) (rstData : ℕ → UInt8) :
    (freqReadData code len rstData).length = sizeofCurFreq * len := by
  obtain ⟨rst, hperm, heq⟩ := freqReadData_perm code len rstData
  rw [heq, hperm.flatten.length_eq, entries, List.length_flatten, List.map_map]
  have hconst : (List.length ∘ fun i => contents sizeofCurFreq fun k =>
      rstData (sizeofCurFreq * i + k)) = fun _ : ℕ => sizeofCurFreq :=
    funext fun i => length_contents _ _
  rw [hconst, List.map_const', List.length_range, List.sum_replicate_nat, Nat.mul_comm]

/-! ## What the readers leave out -/

/-- No assignment covers this byte. -/
def Leaves (i : ℕ) (ws : List (Write UInt8)) : Prop := ∀ w ∈ ws, ¬ w.Covers i

section Leaves

variable {i off : ℕ}

theorem leaves_nil : Leaves i [] := nofun

theorem leaves_append {ws ws' : List (Write UInt8)} (h : Leaves i ws) (h' : Leaves i ws') :
    Leaves i (ws ++ ws') := fun w hw => (List.mem_append.mp hw).elim (h w) (h' w)

theorem leaves_cons {w : Write UInt8} {ws : List (Write UInt8)} (h : Leaves i [w])
    (h' : Leaves i ws) : Leaves i (w :: ws) := @leaves_append i [w] ws h h'

theorem leaves_setInt (h : i < off ∨ off + 4 ≤ i) (n : Int) : Leaves i [setInt off n] := by
  intro w hw hcovers
  rw [List.mem_singleton.mp hw, Write.Covers, setInt, length_leBytes] at hcovers
  dsimp only at hcovers
  omega

theorem leaves_setDouble (h : i < off ∨ off + 8 ≤ i) (bits : UInt64) :
    Leaves i [setDouble off bits] := by
  intro w hw hcovers
  rw [List.mem_singleton.mp hw, Write.Covers, setDouble, length_leBytes] at hcovers
  dsimp only at hcovers
  omega

theorem length_strCopy (dest : ℕ) (src : Bytes) (destSize : ℕ) :
    (strCopy dest src destSize).data.length = min (destSize - 1) src.length + 1 := by
  rw [strCopy, List.length_append, List.length_take, List.length_singleton]

/-- `StrCopy` stays inside its destination. -/
theorem leaves_strCopy {size : ℕ} (hpos : 0 < size) (h : i < off ∨ off + size ≤ i) (src : Bytes) :
    Leaves i [strCopy off src size] := by
  intro w hw hcovers
  have hoff : (strCopy off src size).off = off := rfl
  rw [List.mem_singleton.mp hw, Write.Covers, length_strCopy, hoff] at hcovers
  omega

end Leaves

/-! ## Fields that are read back -/

/-- An `int` is what its four bytes stand for. -/
theorem intArg_emod {n : Int} (hlo : -2 ^ 31 ≤ n) (hhi : n < 2 ^ 31) :
    intArg (UInt32.ofNat (n % 2 ^ 32).toNat) = n := by
  have hnat : ((n % 2 ^ 32).toNat : Int) = n % 2 ^ 32 := Int.toNat_of_nonneg (by omega)
  have hbits : intArg (UInt32.ofNat (n % 2 ^ 32).toNat) = ((n % 2 ^ 32).toNat : Int).bmod (2 ^ 32) :=
    BitVec.toInt_ofNat _
  have hmod : (n % 2 ^ 32).bmod (2 ^ 32) = n.bmod (2 ^ 32) := Int.emod_bmod ..
  rw [hbits, hnat, hmod, Int.bmod_eq_of_le (by omega) (by omega)]

section Fields

variable {size off : ℕ} {ws ws' : List (Write UInt8)}

/-- A field that nothing is written over. -/
theorem fieldAt_fill {w : Write UInt8} (mem : ℕ → UInt8) (hsize : w.off + w.data.length ≤ size)
    (hlater : ∀ i < w.data.length, Leaves (w.off + i) ws') :
    fieldAt (contents size (fill (ws ++ w :: ws') mem)) w.off w.data.length = leNat w.data := by
  rw [fieldAt, region_contents hsize, region_fill mem fun v hv i hi => hlater i hi v hv]

theorem int_fill {n : Int} (hlo : -2 ^ 31 ≤ n) (hhi : n < 2 ^ 31) (mem : ℕ → UInt8)
    (hsize : off + 4 ≤ size) (hlater : ∀ i < 4, Leaves (off + i) ws') :
    intArg (UInt32.ofNat (fieldAt (contents size (fill (ws ++ setInt off n :: ws') mem)) off 4)) =
      n := by
  have hfield : fieldAt (contents size (fill (ws ++ setInt off n :: ws') mem)) off 4 =
      leNat (setInt off n).data := @fieldAt_fill size ws ws' (setInt off n) mem hsize hlater
  rw [hfield, setInt, leNat_leBytes, Nat.mod_eq_of_lt (by omega), intArg_emod hlo hhi]

theorem double_fill (bits : UInt64) (mem : ℕ → UInt8) (hsize : off + 8 ≤ size)
    (hlater : ∀ i < 8, Leaves (off + i) ws') :
    UInt64.ofNat (fieldAt (contents size (fill (ws ++ setDouble off bits :: ws') mem)) off 8) =
      bits := by
  have hfield : fieldAt (contents size (fill (ws ++ setDouble off bits :: ws') mem)) off 8 =
      leNat (setDouble off bits).data :=
    @fieldAt_fill size ws ws' (setDouble off bits) mem hsize hlater
  have hlt : bits.toNat < 256 ^ 8 := bits.toNat_lt
  rw [hfield, setDouble, leNat_leBytes, Nat.mod_eq_of_lt hlt, UInt64.ofNat_toNat]

end Fields

/-- The last byte of a `PWR_CPU_Info` is padding. -/
def cpuInfoPadding : ℕ := 4479

theorem leaves_numa {j : Int} (hj : 0 ≤ j ∧ j < maxNumaNodeNum) (v : Bytes) :
    Leaves cpuInfoPadding
      [setInt (CpuAttType.numaNode.offset + sizeofNumaInfo * j.toNat) j,
        strCopy (CpuAttType.numaNode.offset + sizeofNumaInfo * j.toNat + 4) v maxCpuListLen] := by
  have hlt : j.toNat < 16 := by
    have := hj.2
    simp only [maxNumaNodeNum] at this
    omega
  have hoff : CpuAttType.numaNode.offset + sizeofNumaInfo * j.toNat + 252 ≤ cpuInfoPadding := by
    simp only [CpuAttType.offset, sizeofNumaInfo, cpuInfoPadding]
    omega
  refine leaves_cons (leaves_setInt (.inr (by omega)) j) (leaves_strCopy (by decide) (.inr ?_) v)
  rw [maxCpuListLen]
  omega

/-- `CpuInfoCopy` assigns fields only. -/
theorem cpuInfoCopy_leaves {host : Host} {buf buf' : Bytes} {att value : ℕ}
    {ws : List (Write UInt8)} (h : cpuInfoCopy host buf att value = .ok (buf', ws)) :
    Leaves cpuInfoPadding ws := by
  rw [cpuInfoCopy] at h
  obtain ⟨a, -, h⟩ := bind_eq_ok.mp h
  obtain ⟨v, -, h⟩ := bind_eq_ok.mp h
  rcases hid : getCpuArrId a with _ | ty <;> rw [hid] at h
  · cases h
    exact leaves_nil
  cases ty with
  | arch | modelName | onlineCpu =>
    cases h
    exact leaves_strCopy (by decide) (.inr (by decide)) v
  | byteOr | numaNumber | threadsPerCore | coresPerSocket =>
    cases h
    exact leaves_setInt (.inr (by decide)) _
  | maxMhz | minMhz =>
    cases h
    exact leaves_setDouble (.inr (by decide)) _
  | cpuNumber =>
    cases h
    split
    · exact leaves_setInt (.inr (by decide)) _
    · exact leaves_nil
  | numaNode =>
    obtain ⟨buf₁, -, h⟩ := bind_eq_ok.mp h
    obtain ⟨buf₂, -, h⟩ := bind_eq_ok.mp h
    obtain ⟨s, -, h⟩ := bind_eq_ok.mp h
    dsimp only at h
    split at h <;> rename_i hj
    · obtain ⟨v', -, h⟩ := bind_eq_ok.mp h
      cases h
      exact leaves_numa hj v'
    · cases h

theorem cpuInfoLine_leaves {host : Host} {buf line buf' : Bytes} {ws : List (Write UInt8)}
    (h : cpuInfoLine host buf line = .ok (buf', ws)) : Leaves cpuInfoPadding ws := by
  rw [cpuInfoLine] at h
  obtain ⟨token, -, h⟩ := bind_eq_ok.mp h
  rcases token with _ | ⟨att, buf₁⟩
  · cases h
    exact leaves_nil
  · obtain ⟨s, -, h⟩ := bind_eq_ok.mp h
    obtain ⟨att, -, h⟩ := bind_eq_ok.mp h
    obtain ⟨value, -, h⟩ := bind_eq_ok.mp h
    obtain ⟨v, -, h⟩ := bind_eq_ok.mp h
    exact cpuInfoCopy_leaves h

theorem cpuInfoLines_leaves {host : Host} {lines : List Bytes} {buf : Bytes}
    {ws : List (Write UInt8)} (h : cpuInfoLines host lines buf = .ok ws) :
    Leaves cpuInfoPadding ws := by
  induction lines generalizing buf ws with
  | nil =>
    cases h
    exact leaves_nil
  | cons line lines ih =>
    rw [cpuInfoLines] at h
    obtain ⟨⟨buf', ws₁⟩, hline, h⟩ := bind_eq_ok.mp h
    obtain ⟨ws₂, hlines, h⟩ := bind_eq_ok.mp h
    cases h
    exact leaves_append (cpuInfoLine_leaves hline) (ih hlines)

theorem cpuInfoRead_leaves {m : Machine} {host : Host} {code : Int} {ws : List (Write UInt8)}
    (h : cpuInfoRead m host = .ok (code, ws)) : Leaves cpuInfoPadding ws := by
  rw [cpuInfoRead] at h
  split at h
  · cases h
    exact leaves_nil
  · obtain ⟨ws', hlines, h⟩ := bind_eq_ok.mp h
    cases h
    exact cpuInfoLines_leaves hlines

/-- In front of `coreUsage` there is padding. -/
def cpuUsagePadding : ℕ := 12

/-- Nothing is assigned to the padding behind the number of cores. -/
theorem calculateUsage_leaves {coreNum i : ℕ} {paras : ParasRow × ParasRow}
    {ws : List (Write UInt8)} (h : calculateUsage coreNum paras i = .ok ws) :
    Leaves cpuUsagePadding ws := by
  rw [calculateUsage] at h
  split at h
  · cases h
    exact leaves_setDouble (.inr (by decide)) _
  · split at h
    · cases h
      refine leaves_cons (leaves_setInt (.inl ?_) _) (leaves_setDouble (.inl ?_) _)
      · simp only [sizeofCpuUsage, cpuUsagePadding]
        omega
      · simp only [sizeofCpuUsage, cpuUsagePadding]
        omega
    · cases h

theorem cpuUsageLoop_leaves {coreNum n i : ℕ} {lines1 lines2 : List Bytes} {bufs : Bytes × Bytes}
    {paras : ParasRow × ParasRow} {code : Int} {ws : List (Write UInt8)}
    (h : cpuUsageLoop coreNum n i lines1 lines2 bufs paras = .ok (code, ws)) :
    Leaves cpuUsagePadding ws := by
  induction n generalizing i lines1 lines2 bufs paras code ws with
  | zero =>
    cases h
    exact leaves_nil
  | succ n ih =>
    cases lines1 with
    | nil =>
      cases h
      exact leaves_nil
    | cons line1 lines1 =>
      cases lines2 with
      | nil =>
        cases h
        exact leaves_nil
      | cons line2 lines2 =>
        obtain ⟨⟨core1, paras1⟩, -, h⟩ := bind_eq_ok.mp h
        obtain ⟨⟨core2, paras2⟩, -, h⟩ := bind_eq_ok.mp h
        dsimp only at h
        split at h
        · cases h
          exact leaves_nil
        · obtain ⟨ws₁, hline, h⟩ := bind_eq_ok.mp h
          obtain ⟨⟨code', ws₂⟩, hlines, h⟩ := bind_eq_ok.mp h
          cases h
          exact leaves_append (calculateUsage_leaves hline) (ih hlines)

theorem cpuUsageRead_leaves {m : Machine} {host : Host} {code : Int} {ws : List (Write UInt8)}
    (h : cpuUsageRead m host = .ok (code, ws)) : Leaves cpuUsagePadding ws := by
  rw [cpuUsageRead] at h
  split at h
  · obtain ⟨⟨code', ws'⟩, hloop, h⟩ := bind_eq_ok.mp h
    cases h
    exact leaves_cons (leaves_setInt (.inr (by decide)) _) (cpuUsageLoop_leaves hloop)
  · cases h
    exact leaves_nil

/-- Nothing is assigned to the padding of an entry. -/
theorem freqReadLoop_leaves (m : Machine) (s2 : Bytes) (i : ℕ) (policys : List Bytes) (k : ℕ) :
    Leaves (sizeofCurFreq * k + 4) (freqReadLoop m s2 i policys).2 := by
  induction policys generalizing i with
  | nil => exact leaves_nil
  | cons policy policys ih =>
    rw [freqReadLoop]
    split
    · exact leaves_nil
    · exact leaves_nil
    · refine leaves_append ?_ (ih (i + 1))
      refine leaves_cons (leaves_setInt ?_ _) (leaves_setDouble ?_ _)
      · simp only [sizeofCurFreq]
        omega
      · simp only [sizeofCurFreq]
        omega

theorem freqRead_leaves {m : Machine} {host : Host} {info : ℕ → UInt8} {policys : List Bytes}
    {code : Int} {ws : List (Write UInt8)} (h : freqRead m host info policys = .ok (code, ws))
    (k : ℕ) : Leaves (sizeofCurFreq * k + 4) ws := by
  obtain ⟨arch, -, h⟩ := bind_eq_ok.mp h
  have hws : ws = _ := congrArg Prod.snd (Except.ok.inj h).symm
  rw [hws]
  exact freqReadLoop_leaves m _ 0 policys k

end PowerApi
