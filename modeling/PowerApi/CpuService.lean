import PowerApi.Server
import PowerApi.CStrings

/-!
# What the services do on the machine (`sysservice.c`, `cpuservice.c`)

The handlers of system and CPU requests read and write the machine through
`popen`, sysfs files and `sysconf`. `Machine` is what they find there while they
serve one request: which commands start and what these print, which files can
be written, and, for the readers that look at the machine only, the code and
the block of data that they come to, or the fault. `Machine.reading` has them in full.

The functions that touch the request are given in full, with the places where
they can go wrong: a payload that is NULL, an index that leaves an array, a
division by a number of policies. A C string that the payload does not end goes
on in the memory behind it, `past`.
-/

namespace PowerApi

open Bytes

def maxElementNameLen : ℕ := 32
def maxCpuListLen : ℕ := 248
def maxCpuIdWidth : ℕ := 5
def thousand : Int := 1000

/-- `sizeof(PWR_CPU_CurFreq)`: an `int`, padding, a `double`. -/
def sizeofCurFreq : ℕ := 16
/-- `sizeof(PWR_CPU_FreqRange)`: two `int`s. -/
def sizeofFreqRange : ℕ := 8
/-- `sizeof(PWR_CPU_FreqAbility)`, without the table of frequency domains. -/
def sizeofFreqAbility : ℕ := 556

/-- What a reader of the machine leaves in a block of `size` bytes, and its code. -/
structure Reading (size : ℕ) where
  code : Int
  data : Bytes
  length_data : data.length = size

/-- The machine, and the allocator, while one request is served. -/
structure Machine where
  /-- `malloc` of a response message -/
  rspOk : Bool
  /-- `malloc` of a block of response data: its address, 0 is NULL -/
  rspData : UInt64
  /-- `malloc` of a command line or of a working array -/
  scratchOk : Bool
  /-- what creating a task runs into -/
  create : CreateEnv
  /-- memory behind the payload of the request -/
  past : Bytes
  /-- what `fgets` gets from a command, call by call; `none` if it does not start -/
  popen : Bytes → Option (List Bytes)
  /-- `WriteFile` with a path and a text succeeds -/
  writeFile : Bytes → Bytes → Bool
  /-- an uninitialised `int poNum` -/
  stalePoNum : ℕ
  /-- the result of a function that ends without a return statement -/
  noReturn : Int
  /-- `sysconf(_SC_NPROCESSORS_CONF)` -/
  coreNum : ℕ
  sysRtPowerRead : Except Fault (Reading 24)
  cpuInfoRead : Except Fault (Reading 4480)
  cpuUsageRead : Except Fault (Reading (16 + 16 * coreNum))
  perfDataRead : Except Fault (Reading 16)
  currentGovernorRead : Reading maxElementNameLen
  freqRangeRead : Reading sizeofFreqRange
  freqRead : (policys : List Bytes) → Except Fault (Reading (sizeofCurFreq * policys.length))
  freqDriverRead : Int
  allGovernorsRead : Except Fault Int
  /-- the `affected_cpus` file of a policy can be read -/
  affectedCpus : Bytes → Bool
  /-- the block that `FreqAbilityRead` fills -/
  freqAbility : (size : ℕ) → Reading size

/-- Memory is not short. -/
structure Machine.AllocOk (m : Machine) : Prop where
  rspOk : m.rspOk = true
  rspData : m.rspData ≠ 0
  scratchOk : m.scratchOk = true
  create : m.create.mallocOk = true

/-- A computation that does not run into a fault. -/
def Returns {α : Type} (x : Except Fault α) : Prop := ∃ a, x = .ok a

@[simp] theorem returns_ok {α : Type} (a : α) : Returns (.ok a : Except Fault α) := ⟨a, rfl⟩

@[simp] theorem returns_pure {α : Type} (a : α) : Returns (pure a : Except Fault α) := ⟨a, rfl⟩

@[simp] theorem not_returns_error {α : Type} (f : Fault) :
    ¬ Returns (.error f : Except Fault α) := nofun

@[simp] theorem ok_bind {ε α β : Type} (a : α) (k : α → Except ε β) : (.ok a >>= k) = k a := rfl

@[simp] theorem error_bind {ε α β : Type} (f : ε) (k : α → Except ε β) :
    (.error f >>= k) = .error f := rfl

theorem bind_eq_ok {ε α β : Type} {x : Except ε α} {k : α → Except ε β} {b : β} :
    (x >>= k) = .ok b ↔ ∃ a, x = .ok a ∧ k a = .ok b := by
  cases x with
  | error f => exact iff_of_false nofun (by rintro ⟨a, h, -⟩; cases h)
  | ok a => simp

theorem returns_bind {α β : Type} {x : Except Fault α} {k : α → Except Fault β} :
    Returns (x >>= k) ↔ ∃ a, x = .ok a ∧ Returns (k a) := by
  cases x with
  | error f => exact iff_of_false nofun (by rintro ⟨a, h, -⟩; cases h)
  | ok a => simp

/-- A computation whose continuation cannot go wrong. -/
theorem returns_bind_of_forall {α β : Type} {x : Except Fault α} {k : α → Except Fault β}
    (hk : ∀ a, Returns (k a)) : Returns (x >>= k) ↔ Returns x := by
  rw [returns_bind]
  exact exists_congr fun a => and_iff_left (hk a)

namespace DataPtr

/-- What a pointer that is dereferenced points to. -/
def deref : DataPtr → Except Fault Bytes
  | null => .error .nullDeref
  | heap _ bs => .ok bs
  | wild _ => .error .overrun

/-- The payload of a message that owns its data can be read unless there is none. -/
theorem returns_deref {req : PwrMsg} (h : req.Holds) : Returns req.data.deref ↔ req.data ≠ .null := by
  rcases req with ⟨head, _ | ⟨a, bs⟩ | a⟩
  · exact iff_of_false nofun fun hne => hne rfl
  · exact iff_of_true ⟨bs, rfl⟩ nofun
  · exact h.elim

theorem payload_of_deref {req : PwrMsg} {data : Bytes} (h : req.data.deref = .ok data) :
    req.payload = data := by
  rcases req with ⟨head, _ | ⟨a, bs⟩ | a⟩
  · cases h
  · exact Except.ok.inj h
  · cases h

/-- A computation on the payload depends on what it does there only. -/
theorem deref_bind_congr {α : Type} {req : PwrMsg} {k k' : Bytes → Except Fault α}
    (h : k req.payload = k' req.payload) : (req.data.deref >>= k) = (req.data.deref >>= k') := by
  cases hdata : req.data.deref with
  | error f => rw [error_bind, error_bind]
  | ok data => rw [ok_bind, ok_bind, ← payload_of_deref hdata, h]

end DataPtr

namespace Machine

variable (m : Machine)

/-- `PowerSet`. -/
def powerSet (powerState : DataPtr) : Except Fault Int := do
  let mem ← powerState.deref
  let state := cString (mem ++ m.past)
  if m.scratchOk = false then return 1
  else
    match m.popen (text "sleep 10 && echo " ++ state ++ text "> /sys/power/state &") with
    | none => return 1
    | some _ => return RtnCode.success.code

/-! ## Policies -/

/-- The listing of the policies. -/
def listing : Option (List Bytes) :=
  m.popen (text "ls /sys/devices/system/cpu/cpufreq | grep policy")

/-- The name of a policy from a line of the listing. -/
def policyName (buf : Bytes) : Bytes :=
  (cString (buf.filter (· ≠ 10))).take (maxElementNameLen - 1)

/-- `GetPolicys`: the policies under `cpufreq`, `none` if they cannot be listed. The
caller's array has room for `MAX_CPU_LIST_LEN` names. -/
def getPolicys : Except Fault (Option (List Bytes)) :=
  match m.listing with
  | none => .ok none
  | some lines =>
    if lines.length ≤ maxCpuListLen then .ok (some (lines.map policyName))
    else .error .overrun

/-- `StrMatch`: what follows `want` at the front of the string. -/
def strMatch : Bytes → Bytes → Option Bytes
  | str, [] => some str
  | [], _ :: _ => none
  | a :: str, b :: want => if a ≠ b then none else strMatch str want

/-- `DeleteSubstr`: the string without the first occurrence of a substring. -/
def deleteSubstr (substr : Bytes) : Bytes → Bytes
  | [] => []
  | a :: str =>
    match strMatch (a :: str) substr with
    | some next => next
    | none => a :: deleteSubstr substr str

/-- The number in a policy's name. -/
def policyIdOf (policy : Bytes) : Int := atoi (deleteSubstr (text "policy") policy)

/-- `PWR_CPU_CurFreq`; the `double` by its bits. -/
structure CurFreq where
  policyId : Int
  curFreq : UInt64
  deriving DecidableEq, Repr

/-- The array of the first `len` entries in a payload. -/
def curFreqs (data : Bytes) (len : ℕ) : List CurFreq :=
  (List.range len).map fun i =>
    ⟨intArg (UInt32.ofNat (fieldAt data (sizeofCurFreq * i) 4)),
      UInt64.ofNat (fieldAt data (sizeofCurFreq * i + 8) 8)⟩

/-- `MergeDuplicatePolicys`: the entries that `*len` counts afterwards. -/
def mergeDuplicatePolicys (target : List CurFreq) : Except Fault (List CurFreq) :=
  if m.scratchOk = false then .ok target
  -- `validId[target[i].policyId] = 1`
  else if target.any fun t => t.policyId < 0 then .error .overrun
  else
    let ids := (List.range m.coreNum).filter fun (i : ℕ) => target.any fun t => t.policyId = (i : Int)
    .ok (List.zipWith (fun (i : ℕ) t => { t with policyId := (i : Int) }) ids target)

/-- `CheckPolicys`. -/
def checkPolicys (target : List CurFreq) : Except Fault Int := do
  match ← m.getPolicys with
  | none => return 1
  | some policys =>
    let policysId := policys.map policyIdOf
    return if target.all fun t => t.policyId ∈ policysId then 0
      else RtnCode.errInvalideParam.code

/-- `InputTargetPolicys`: every name is made from the first entry. The caller's array has
room for `MAX_CPU_LIST_LEN` names. -/
def inputTargetPolicys (target : List CurFreq) : Except Fault (List Bytes) :=
  if target.length ≤ maxCpuListLen then
    .ok (target.map fun _ => text "policy" ++ decimal (target.head?.elim 0 CurFreq.policyId))
  else .error .overrun

/-- A file of a policy. -/
def policyFile (policy file : Bytes) : Bytes :=
  text "/sys/devices/system/cpu/cpufreq/" ++ policy ++ file

/-! ## Governors -/

/-- `CheckAvailableGovernor`. -/
def checkAvailableGovernor (gov policy : Bytes) : Int :=
  if m.scratchOk = false then 1
  else
    match m.popen (text "cat /sys/devices/system/cpu/cpufreq/" ++ policy.take gov.length ++
      text "/scaling_available_governors") with
    | none => 1
    | some [] => 1
    | some (buf :: _) =>
      if gov ∈ ((cString (buf.filter (· ≠ 10))).splitOn 32).filter (· ≠ []) then 0 else 1

/-- `GovernorSet`. -/
def governorSet (gov : DataPtr) (policys : List Bytes) : Except Fault Int := do
  let mem ← gov.deref
  let gov := cString (mem ++ m.past)
  if policys.any fun policy => m.checkAvailableGovernor gov policy ≠ 0 then
    return RtnCode.errInvalideParam.code
  else if m.scratchOk = false then return 1
  else if policys.all fun policy => (m.popen (text "echo " ++ gov ++
      text "> /sys/devices/system/cpu/cpufreq/" ++ policy ++ text "/scaling_governor")).isSome then
    return RtnCode.success.code
  else return RtnCode.errCommon.code

/-! ## Frequencies -/

/-- `FreqSet`. -/
def freqSet (target : List CurFreq) : Int :=
  if target.all fun t =>
      let freq := wrapInt ((Float.ofBits t.curFreq).toInt32.toInt * thousand)
      (m.popen (text "echo " ++ decimal freq ++
        text " > /sys/devices/system/cpu/cpufreq/policy" ++ decimal t.policyId ++
        text "/scaling_setspeed")).isSome then
    RtnCode.success.code
  else RtnCode.errCommon.code

/-- The two fields of a `PWR_CPU_FreqRange`. -/
def freqRangeOf (data : Bytes) : Int × Int :=
  (intArg (UInt32.ofNat (fieldAt data 0 4)), intArg (UInt32.ofNat (fieldAt data 4 4)))

/-- `CheckFreqInRange`. -/
def checkFreqInRange (target : List CurFreq) (freqRange : Int × Int) : Int :=
  if target.any fun t =>
      Float.ofBits t.curFreq < Float.ofInt freqRange.1 ∨
        Float.ofInt freqRange.2 < Float.ofBits t.curFreq then 1
  else 0

/-- One of the two loops of `FreqRangeSet`: the same text to a file of every policy. -/
def writePolicys (policys : List Bytes) (file buf : Bytes) : Bool :=
  policys.all fun policy =>
    m.writeFile (text "/sys/devices/system/cpu/cpufreq/" ++ policy ++ file) buf

/-- `FreqRangeSet`, the policies being listed. -/
def freqRangeSetOf (policys : List Bytes) (rstData : DataPtr) : Except Fault Int := do
  let mem ← rstData.deref
  let (minFreq, maxFreq) := freqRangeOf (mem ++ m.past)
  if m.writePolicys policys (text "/scaling_min_freq")
      (decimal (wrapInt (minFreq * thousand))) = false then return 1
  else if m.writePolicys policys (text "/scaling_max_freq")
      (decimal (wrapInt (maxFreq * thousand))) = false then return 1
  else return 0

/-- `FreqRangeSet`. -/
def freqRangeSet (rstData : DataPtr) : Except Fault Int := do
  match ← m.getPolicys with
  | none => return 1
  | some policys => m.freqRangeSetOf policys rstData

/-- `FreqDomainRead`: a record of `step` bytes for every policy. -/
def freqDomainRead (step : ℕ) : List Bytes → Except Fault Int
  | [] => .ok 0
  | policy :: policys =>
    if m.affectedCpus policy = false then .ok 1
    -- `StrCopy` with a size of 0
    else if step ≤ 4 then .error .overrun
    else freqDomainRead step policys

/-- `FreqAbilityRead`. -/
def freqAbilityRead (policys : List Bytes) (step : ℕ) : Except Fault Int := do
  if m.freqDriverRead ≠ RtnCode.success.code then return RtnCode.errCommon.code
  else if (← m.allGovernorsRead) ≠ RtnCode.success.code then return RtnCode.errCommon.code
  else if (← m.freqDomainRead step policys) ≠ RtnCode.success.code then
    return RtnCode.errCommon.code
  else return m.noReturn

/-! ## Names of policies -/

theorem strMatch_append (want rest : Bytes) : strMatch (want ++ rest) want = some rest := by
  induction want with
  | nil => cases rest <;> rfl
  | cons a want ih =>
    rw [List.cons_append, strMatch, if_neg (not_not.mpr rfl)]
    exact ih

theorem deleteSubstr_append {substr : Bytes} (h : substr ≠ []) (rest : Bytes) :
    deleteSubstr substr (substr ++ rest) = rest := by
  obtain ⟨a, substr, rfl⟩ := List.exists_cons_of_ne_nil h
  rw [List.cons_append, deleteSubstr, ← List.cons_append, strMatch_append]

/-- The number in the name that is made of a number. -/
theorem policyIdOf_decimal {id : Int} (hlo : -2 ^ 31 ≤ id) (hhi : id < 2 ^ 31) :
    policyIdOf (text "policy" ++ decimal id) = id := by
  rw [policyIdOf, deleteSubstr_append (by decide +kernel), atoi_decimal_int hlo hhi]

/-! ## Which of these functions return -/

/-- The listing fits the arrays that it is copied to. -/
def ListingFits : Prop := ∀ lines, m.listing = some lines → lines.length ≤ maxCpuListLen

variable {m}

/-- The policies are found, or the listing does not fit. -/
theorem getPolicys_cases : (m.getPolicys = .error .overrun ∧ ¬ m.ListingFits) ∨
    (m.getPolicys = .ok (m.listing.map (List.map policyName)) ∧ m.ListingFits) := by
  unfold getPolicys ListingFits
  cases m.listing with
  | none => exact .inr ⟨rfl, nofun⟩
  | some lines =>
    dsimp only
    by_cases hle : lines.length ≤ maxCpuListLen
    · rw [if_pos hle]
      exact .inr ⟨rfl, by simpa using hle⟩
    · rw [if_neg hle]
      exact .inl ⟨rfl, fun hfits => hle (hfits lines rfl)⟩

theorem returns_getPolicys : Returns m.getPolicys ↔ m.ListingFits := by
  unfold getPolicys ListingFits
  cases m.listing with
  | none => simp
  | some lines => by_cases hle : lines.length ≤ maxCpuListLen <;> simp [hle]

theorem returns_checkPolicys {target : List CurFreq} :
    Returns (m.checkPolicys target) ↔ m.ListingFits := by
  refine Iff.trans (returns_bind_of_forall fun policys => ?_) returns_getPolicys
  cases policys <;> exact ⟨_, rfl⟩

theorem returns_powerSet {req : PwrMsg} (h : req.Holds) :
    Returns (m.powerSet req.data) ↔ req.data ≠ .null := by
  refine Iff.trans (returns_bind_of_forall fun mem => ?_) (DataPtr.returns_deref h)
  dsimp only
  split
  · exact ⟨_, rfl⟩
  · split <;> exact ⟨_, rfl⟩

theorem returns_governorSet {req : PwrMsg} (h : req.Holds) {policys : List Bytes} :
    Returns (m.governorSet req.data policys) ↔ req.data ≠ .null := by
  refine Iff.trans (returns_bind_of_forall fun mem => ?_) (DataPtr.returns_deref h)
  dsimp only
  split
  · exact ⟨_, rfl⟩
  · split
    · exact ⟨_, rfl⟩
    · split <;> exact ⟨_, rfl⟩

theorem returns_freqRangeSet {req : PwrMsg} (h : req.Holds) :
    Returns (m.freqRangeSet req.data) ↔
      m.ListingFits ∧ (m.listing = none ∨ req.data ≠ .null) := by
  have hset : ∀ policys, Returns (m.freqRangeSetOf policys req.data) ↔ req.data ≠ .null := by
    intro policys
    refine Iff.trans (returns_bind_of_forall fun mem => ?_) (DataPtr.returns_deref h)
    dsimp only
    split
    · exact ⟨_, rfl⟩
    · split <;> exact ⟨_, rfl⟩
  unfold freqRangeSet getPolicys ListingFits
  cases hl : m.listing with
  | none => exact iff_of_true ⟨_, rfl⟩ ⟨nofun, .inl rfl⟩
  | some lines =>
    dsimp only
    by_cases hle : lines.length ≤ maxCpuListLen
    · rw [if_pos hle]
      refine (hset _).trans ?_
      simpa using fun _ => hle
    · rw [if_neg hle]
      exact iff_of_false nofun fun hfits => hle (hfits.1 lines rfl)

/-- Marking the policies of a request stays inside the array if none is negative. -/
theorem returns_mergeDuplicatePolicys (hm : m.scratchOk = true) {target : List CurFreq} :
    Returns (m.mergeDuplicatePolicys target) ↔ ∀ t ∈ target, 0 ≤ t.policyId := by
  rw [mergeDuplicatePolicys, hm, if_neg (by simp)]
  split <;> rename_i hneg
  · refine iff_of_false nofun fun h => ?_
    obtain ⟨t, ht, hlt⟩ := List.any_eq_true.mp hneg
    exact absurd (h t ht) (by simpa using hlt)
  · refine iff_of_true ⟨_, rfl⟩ fun t ht => ?_
    have := fun hlt => hneg (List.any_eq_true.mpr ⟨t, ht, hlt⟩)
    simpa using this

/-- The records of the domain table have room for a string. -/
theorem returns_freqDomainRead {step : ℕ} {policys : List Bytes} :
    Returns (m.freqDomainRead step policys) ↔
      ∀ policy ∈ policys.head?, m.affectedCpus policy = true → 4 < step := by
  induction policys with
  | nil => exact iff_of_true ⟨_, rfl⟩ nofun
  | cons policy policys ih =>
    rw [freqDomainRead]
    cases hread : m.affectedCpus policy with
    | false => simp [hread]
    | true =>
      by_cases hstep : step ≤ 4
      · simp [hread, hstep]
      · have hlt : 4 < step := not_le.mp hstep
        rw [if_neg (by simp), if_neg hstep, ih]
        exact iff_of_true (fun _ _ _ => hlt) fun _ _ _ => hlt

/-- Where no governor is stored outside of its array. -/
theorem returns_freqAbilityRead {step : ℕ} {policys : List Bytes} :
    Returns (m.freqAbilityRead policys step) ↔
      m.freqDriverRead ≠ RtnCode.success.code ∨ ∃ code, m.allGovernorsRead = .ok code ∧
        (code ≠ RtnCode.success.code ∨
          ∀ policy ∈ policys.head?, m.affectedCpus policy = true → 4 < step) := by
  unfold freqAbilityRead
  by_cases hdriver : m.freqDriverRead = RtnCode.success.code
  · rw [if_neg (not_not.mpr hdriver), or_iff_right (not_not.mpr hdriver), returns_bind]
    refine exists_congr fun code => and_congr_right fun _ => ?_
    by_cases hgov : code = RtnCode.success.code
    · rw [if_neg (not_not.mpr hgov), or_iff_right (not_not.mpr hgov), ← returns_freqDomainRead]
      refine returns_bind_of_forall fun code => ?_
      split <;> exact ⟨_, rfl⟩
    · rw [if_pos hgov]
      exact iff_of_true ⟨_, rfl⟩ (.inl hgov)
  · rw [if_pos hdriver]
    exact iff_of_true ⟨_, rfl⟩ (.inl hdriver)

end Machine

end PowerApi
