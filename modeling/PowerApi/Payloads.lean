import PowerApi.Commands

/-!
# What the handlers read of a payload

Each operation has a format of its own for its payload: a struct, an array or a C
string. `reads` lists the offsets at which a handler reads, counted from where
`req->data` points. A NULL pointer comes with a `dataLen` of 0, so a request whose
handler `StaysInside` is one for which no NULL pointer is dereferenced and nothing
behind the payload is looked at: `StaysInside.ne_null` and, of the handlers themselves,
`dispatch_withPast`. A listing that overruns the array of the policies' names does not end the
handler there: it goes on, and it goes on to the payload.

`staysInside_iff` says for which payloads that is so: the array handlers count the
entries that are there, but nobody checks that a C string ends inside the payload or
that a `PWR_CPU_FreqRange` fits into it. `ClientCall` has the requests that the client
library makes. It counts the end of a governor's name in, and does not send the end of
a power state.
-/

namespace PowerApi

open Bytes

namespace Machine

variable (m : Machine)

/-- `strlen`: the C string at the front of a payload, with its end. -/
def stringReads (req : PwrMsg) : List ℕ := List.range ((m.argument req).length + 1)

/-- One field of every entry of an array of `PWR_CPU_CurFreq`. -/
def entryReads (dataLen : UInt32) (off size : ℕ) : List ℕ :=
  (List.range (dataLen.toNat / sizeofCurFreq)).flatMap fun i =>
    (List.range size).map fun k => sizeofCurFreq * i + off + k

/-- The first loop of `FreqRangeSet` has written `minFreq` to every policy. -/
def minFreqSet (policys : List Bytes) (req : PwrMsg) : Bool :=
  m.writePolicys policys (text "/scaling_min_freq")
    (decimal (wrapInt ((freqRangeOf (req.payload ++ m.past)).1 * thousand)))

/-- The offsets of the payload at which the handler of a request reads. Of a struct or
an entry, a field that it may not come to is counted with the others. -/
def reads (req : PwrMsg) : List ℕ :=
  match OperationType.ofCode req.head.optType with
  | some .comCreateDcTask =>
    if req.head.dataLen ≠ Server.sizeofBasicDcTaskInfo then [] else List.range 8
  | some .comDeleteDcTask =>
    if req.head.dataLen ≠ Server.sizeofColDatatype then [] else List.range 4
  | some .sysSetPowerState => m.stringReads req
  | some .cpuSetFreqGovernor => m.stringReads req
  | some .cpuGetCurFreq =>
    if req.head.dataLen > 0 ∧ req.data ≠ .null then entryReads req.head.dataLen 0 4 else []
  | some .cpuSetCurFreq => entryReads req.head.dataLen 0 4 ++ entryReads req.head.dataLen 8 8
  | some .cpuSetFreqRange =>
    match m.listing with
    | some lines =>
      List.range 4 ++
        if m.minFreqSet (lines.map policyName) req then (List.range 4).map (4 + ·) else []
    | none => []
  | _ => []

/-- A handler reads inside the payload only. -/
def StaysInside (req : PwrMsg) : Prop := ∀ k ∈ m.reads req, k < req.head.dataLen.toNat

/-- The payloads that have what their handler reads. -/
def Encoded (req : PwrMsg) : Prop :=
  match OperationType.ofCode req.head.optType with
  | some .sysSetPowerState => 0 ∈ req.payload
  | some .cpuSetFreqGovernor => 0 ∈ req.payload
  | some .cpuSetFreqRange => ∀ lines, m.listing = some lines →
    4 ≤ req.head.dataLen.toNat ∧
      (m.minFreqSet (lines.map policyName) req = true → 8 ≤ req.head.dataLen.toNat)
  | _ => True

/-! ## Where the reads lie -/

variable {m}

theorem stringReads_inside {req : PwrMsg} (h : req.Holds) :
    (∀ k ∈ m.stringReads req, k < req.head.dataLen.toNat) ↔ 0 ∈ req.payload := by
  rw [← h.length_payload, ← @length_cString_lt req.payload m.past, ← argument, stringReads]
  constructor
  · exact fun hall => hall _ (List.mem_range.mpr (Nat.lt_succ_self _))
  · exact fun hlt k hk => (Nat.le_of_lt_succ (List.mem_range.mp hk)).trans_lt hlt

/-- A struct is read where the payload has its size. -/
theorem wholeReads_inside {dataLen sizeof : UInt32} {size : ℕ} (hsize : sizeof.toNat = size) :
    ∀ k ∈ (if dataLen ≠ sizeof then [] else List.range size), k < dataLen.toNat := by
  intro k hk
  split at hk <;> rename_i hlen
  · cases hk
  · rw [not_not.mp hlen, hsize]
    exact List.mem_range.mp hk

/-- The array has as many entries as the payload has room for. -/
theorem entryReads_inside {dataLen : UInt32} {off size : ℕ} (hfield : off + size ≤ sizeofCurFreq) :
    ∀ k ∈ entryReads dataLen off size, k < dataLen.toNat := by
  intro k hk
  obtain ⟨i, hi, hk⟩ := List.mem_flatMap.mp hk
  obtain ⟨j, hj, rfl⟩ := List.mem_map.mp hk
  have hi := List.mem_range.mp hi
  have hj := List.mem_range.mp hj
  have hmul := Nat.mul_le_mul_left sizeofCurFreq (Nat.succ_le_of_lt hi)
  have hdiv := Nat.mul_div_le dataLen.toNat sizeofCurFreq
  rw [Nat.mul_succ] at hmul
  omega

theorem freqRangeReads_inside {req : PwrMsg} {policys : List Bytes} :
    (∀ k ∈ List.range 4 ++ (if m.minFreqSet policys req then (List.range 4).map (4 + ·) else []),
        k < req.head.dataLen.toNat) ↔
      4 ≤ req.head.dataLen.toNat ∧
        (m.minFreqSet policys req = true → 8 ≤ req.head.dataLen.toNat) := by
  rw [List.forall_mem_append]
  refine and_congr ?_ ?_
  · exact ⟨fun hall => hall 3 (by decide), fun hle k hk => (List.mem_range.mp hk).trans_le hle⟩
  · cases m.minFreqSet policys req with
    | false => exact iff_of_true nofun nofun
    | true =>
      rw [if_pos rfl, List.forall_mem_map, forall_prop_of_true rfl]
      exact ⟨fun hall => hall 3 (by decide), fun hle k hk => by have := List.mem_range.mp hk; omega⟩

/-- A handler stays inside the payload exactly if the payload has what it reads. -/
theorem staysInside_iff (m : Machine) {req : PwrMsg} (h : req.Holds) :
    m.StaysInside req ↔ m.Encoded req := by
  unfold StaysInside reads Encoded
  cases OperationType.ofCode req.head.optType with
  | none => exact iff_of_true nofun trivial
  | some op =>
    cases op with
    | comCreateDcTask => exact iff_of_true (wholeReads_inside rfl) trivial
    | comDeleteDcTask => exact iff_of_true (wholeReads_inside rfl) trivial
    | sysSetPowerState => exact stringReads_inside h
    | cpuSetFreqGovernor => exact stringReads_inside h
    | cpuGetCurFreq =>
      refine iff_of_true (fun k hk => ?_) trivial
      dsimp only at hk
      split at hk
      · exact entryReads_inside (by decide) k hk
      · cases hk
    | cpuSetCurFreq =>
      refine iff_of_true (fun k hk => ?_) trivial
      obtain hk | hk := List.mem_append.mp hk
      · exact entryReads_inside (by decide) k hk
      · exact entryReads_inside (by decide) k hk
    | cpuSetFreqRange =>
      cases m.listing with
      | none => exact iff_of_true nofun nofun
      | some lines =>
        refine freqRangeReads_inside.trans ⟨?_, fun hall => hall lines rfl⟩
        rintro hand lines' hlines
        obtain rfl := Option.some.inj hlines
        exact hand
    | _ => exact iff_of_true nofun trivial

/-! ## What is behind the payload -/

/-- The machine with other memory behind the payload. -/
def withPast (m : Machine) (past : Bytes) : Machine := { m with past := past }

theorem argument_withPast {req : PwrMsg} (h : 0 ∈ req.payload) (past : Bytes) :
    (m.withPast past).argument req = m.argument req :=
  (cString_append h past).trans (cString_append h m.past).symm

theorem powerSet_withPast {req : PwrMsg} (h : 0 ∈ req.payload) (past : Bytes) :
    (m.withPast past).powerSet req.data = m.powerSet req.data := by
  refine DataPtr.deref_bind_congr ?_
  dsimp only
  rw [← argument, ← argument, argument_withPast h]
  rfl

theorem governorSet_withPast {req : PwrMsg} (h : 0 ∈ req.payload) (past : Bytes)
    (policys : List Bytes) :
    (m.withPast past).governorSet req.data policys = m.governorSet req.data policys := by
  refine DataPtr.deref_bind_congr ?_
  dsimp only
  rw [← argument, ← argument, argument_withPast h]
  rfl

/-- The two fields of a struct that the payload has. -/
theorem freqRangeOf_append {data : Bytes} (h4 : 4 ≤ data.length) (rest : Bytes) :
    (freqRangeOf (data ++ rest)).1 = (freqRangeOf data).1 ∧
      (8 ≤ data.length → freqRangeOf (data ++ rest) = freqRangeOf data) := by
  have hmin : fieldAt (data ++ rest) 0 4 = fieldAt data 0 4 := fieldAt_append_left h4 rest
  unfold freqRangeOf
  rw [hmin]
  refine ⟨rfl, fun h8 => ?_⟩
  rw [fieldAt_append_left h8]

theorem freqRangeSetOf_withPast {req : PwrMsg} {policys : List Bytes} (h4 : 4 ≤ req.payload.length)
    (h8 : m.minFreqSet policys req = true → 8 ≤ req.payload.length) (past : Bytes) :
    (m.withPast past).freqRangeSetOf policys req.data = m.freqRangeSetOf policys req.data := by
  obtain ⟨hmin, hrange⟩ := freqRangeOf_append h4 past
  obtain ⟨hmin', hrange'⟩ := freqRangeOf_append h4 m.past
  have hpast : (m.withPast past).past = past := rfl
  have hwrite : (m.withPast past).writePolicys = m.writePolicys := rfl
  unfold minFreqSet at h8
  refine DataPtr.deref_bind_congr ?_
  rw [hpast, hwrite]
  by_cases hset : m.writePolicys policys (text "/scaling_min_freq")
      (decimal (wrapInt ((freqRangeOf (req.payload ++ m.past)).1 * thousand))) = true
  · rw [hrange (h8 hset), hrange' (h8 hset)]
  · have hset : m.writePolicys policys (text "/scaling_min_freq")
        (decimal (wrapInt ((freqRangeOf (req.payload ++ m.past)).1 * thousand))) = false := by
      simpa using hset
    dsimp only
    rw [hmin, ← hmin', if_pos hset, if_pos hset]

theorem freqDomainRead_withPast (past : Bytes) (step : ℕ) (policys : List Bytes) :
    (m.withPast past).freqDomainRead step policys = m.freqDomainRead step policys := by
  have haffected : (m.withPast past).affectedCpus = m.affectedCpus := rfl
  induction policys with
  | nil => rfl
  | cons policy policys ih => rw [freqDomainRead, freqDomainRead, ih, haffected]

/-- A handler does the same whatever is behind a payload that has what it reads. -/
theorem dispatch_withPast {srv : Server} {req : PwrMsg} (h : req.Holds) (henc : m.Encoded req)
    (past : Bytes) : srv.dispatch (m.withPast past) req = srv.dispatch m req := by
  unfold Encoded at henc
  unfold Server.dispatch
  cases hop : OperationType.ofCode req.head.optType with
  | none => rfl
  | some op =>
    rw [hop] at henc
    cases op with
    | sysSetPowerState =>
      dsimp only [Server.setSysPowerState]
      rw [powerSet_withPast henc]
      rfl
    | cpuSetFreqGovernor =>
      have hpolicys : (m.withPast past).getPolicys = m.getPolicys := rfl
      dsimp only [Server.setCpuFreqGovernor]
      rw [hpolicys]
      obtain ⟨herr, hfits⟩ | ⟨hok, hfits⟩ := @getPolicys_cases m
      · rw [herr, error_bind, error_bind]
      · rw [hok, ok_bind, ok_bind, governorSet_withPast henc]
        rfl
    | cpuSetFreqRange =>
      have hset : (m.withPast past).freqRangeSet req.data = m.freqRangeSet req.data := by
        have hpolicys : (m.withPast past).getPolicys = m.getPolicys := rfl
        unfold freqRangeSet
        rw [hpolicys]
        obtain ⟨herr, hfits⟩ | ⟨hok, hfits⟩ := @getPolicys_cases m
        · rw [herr, error_bind, error_bind]
        · rw [hok, ok_bind, ok_bind]
          cases hl : m.listing with
          | none => rfl
          | some lines =>
            obtain ⟨h4, h8⟩ := henc lines hl
            rw [← h.length_payload] at h4 h8
            exact freqRangeSetOf_withPast h4 h8 past
      dsimp only [Server.setCpuFreqRange]
      rw [hset]
      rfl
    | cpuGetFreqAbility =>
      have hread : (m.withPast past).freqAbilityRead = m.freqAbilityRead := by
        funext policys step
        unfold freqAbilityRead
        rw [freqDomainRead_withPast]
        rfl
      dsimp only [Server.getCpuFreqAbility]
      rw [hread]
      rfl
    | _ => rfl

/-- A handler that stays inside does not read through a NULL pointer. -/
theorem StaysInside.ne_null {req : PwrMsg} (hin : m.StaysInside req) (h : req.Holds) {k : ℕ}
    (hk : k ∈ m.reads req) : req.data ≠ .null := by
  intro hnull
  have hlen : req.head.dataLen = 0 := by rwa [PwrMsg.Holds, hnull] at h
  have hlt := hin k hk
  rw [hlen] at hlt
  exact Nat.not_lt_zero k hlt

end Machine

/-! ## The payloads of the client library -/

/-- The functions of the client library that send data. -/
inductive ClientCall where
  | setPowerState (powerState : Int)
  | setFreqGovernor (gov : Bytes)
  | setFreqRange (minFreq maxFreq : Int)
  /-- an array and its length; `curFreq` is the memory at the pointer -/
  | setFreq (curFreq : Bytes) (len : UInt32)
  | createDcTask (basicDcTaskInfo : BasicDcTaskInfo)
  | deleteDcTask (dataType : UInt32)

namespace ClientCall

/-- An `int` in memory. -/
def intBytes (n : Int) : Bytes := leBytes 4 (UInt32.ofInt n).toNat

/-- `input.optType`. -/
def optType : ClientCall → OperationType
  | setPowerState _ => .sysSetPowerState
  | setFreqGovernor _ => .cpuSetFreqGovernor
  | setFreqRange _ _ => .cpuSetFreqRange
  | setFreq _ _ => .cpuSetCurFreq
  | createDcTask _ => .comCreateDcTask
  | deleteDcTask _ => .comDeleteDcTask

/-- `input.data`, up to `input.dataLen`; none if the call is refused. -/
def payload : ClientCall → Option Bytes
  | setPowerState powerState =>
    if powerState = 1 then some (text "mem")
    else if powerState = 2 then some (text "disk")
    else none
  | setFreqGovernor gov =>
    if gov.length = 0 ∨ maxElementNameLen ≤ gov.length then none else some (gov ++ [0])
  | setFreqRange minFreq maxFreq => some (intBytes minFreq ++ intBytes maxFreq)
  | setFreq curFreq len =>
    if len = 0 then none else some (curFreq.take (UInt32.ofNat sizeofCurFreq * len).toNat)
  | createDcTask info => some (leBytes 4 info.dataType.toNat ++ intBytes info.interval)
  | deleteDcTask dataType => some (leBytes 4 dataType.toNat)

/-- The request as the server has it once it is received, at some address. -/
def request (call : ClientCall) (f : MsgFactory) (taskNo : UInt32) (addr : UInt64) : Option PwrMsg :=
  call.payload.map fun data =>
    (createReqMsg f call.optType taskNo (UInt32.ofNat data.length)
      (if data = [] then .null else .heap addr data)).1

variable {call : ClientCall} {f : MsgFactory} {taskNo : UInt32} {addr : UInt64} {req : PwrMsg}

theorem request_spec (h : call.request f taskNo addr = some req) :
    OperationType.ofCode req.head.optType = some call.optType ∧ call.payload = some req.payload := by
  obtain ⟨data, hdata, rfl⟩ := Option.map_eq_some_iff.mp h
  refine ⟨OperationType.ofCode_code _, hdata.trans (congrArg some ?_)⟩
  rw [PwrMsg.payload, createReqMsg, generateReqMsgHead]
  dsimp only
  by_cases hnil : data = []
  · rw [if_pos hnil, hnil]
  · rw [if_neg hnil]

/-- Only the payload of a power state lacks what its handler reads. -/
theorem encoded_iff {m : Machine} (h : call.request f taskNo addr = some req) (hreq : req.Holds) :
    m.Encoded req ↔ ∀ powerState, call ≠ .setPowerState powerState := by
  obtain ⟨hop, hdata⟩ := request_spec h
  unfold Machine.Encoded
  rw [hop]
  cases call with
  | setPowerState powerState =>
    refine iff_of_false (fun hmem : 0 ∈ req.payload => ?_) fun hne => hne powerState rfl
    dsimp only [payload] at hdata
    split at hdata
    · rw [← Option.some.inj hdata] at hmem
      exact absurd hmem (by decide +kernel)
    · split at hdata
      · rw [← Option.some.inj hdata] at hmem
        exact absurd hmem (by decide +kernel)
      · cases hdata
  | setFreqGovernor gov =>
    refine iff_of_true ?_ nofun
    dsimp only [payload] at hdata
    split at hdata
    · cases hdata
    · change 0 ∈ req.payload
      rw [← Option.some.inj hdata]
      exact List.mem_append_right gov List.mem_cons_self
  | setFreqRange minFreq maxFreq =>
    have hlen : 8 = req.payload.length := congrArg List.length (Option.some.inj hdata)
    rw [hreq.length_payload] at hlen
    exact iff_of_true (fun _ _ => ⟨by omega, fun _ => hlen.le⟩) nofun
  | _ => exact iff_of_true trivial nofun

end ClientCall

/-- **Handlers stay inside the payload** exactly if the payload has what they read; of the
requests of the client library, those for a power state do not. -/
theorem handlers_stay_inside (m : Machine) {req : PwrMsg} (h : req.Holds) :
    (m.StaysInside req ↔ m.Encoded req) ∧
      ∀ (call : ClientCall) (f : MsgFactory) (taskNo : UInt32) (addr : UInt64),
        call.request f taskNo addr = some req →
          (m.StaysInside req ↔ ∀ powerState, call ≠ .setPowerState powerState) := by
  refine ⟨Machine.staysInside_iff m h, fun call f taskNo addr hreq => ?_⟩
  exact (Machine.staysInside_iff m h).trans (ClientCall.encoded_iff hreq h)

theorem handlers_stay_inside_mem :
    (Machine.shellMachine.StaysInside (Machine.powerRequest "mem") ↔
        Machine.shellMachine.Encoded (Machine.powerRequest "mem")) ∧
      ∀ (call : ClientCall) (f : MsgFactory) (taskNo : UInt32) (addr : UInt64),
        call.request f taskNo addr = some (Machine.powerRequest "mem") →
          (Machine.shellMachine.StaysInside (Machine.powerRequest "mem") ↔
            ∀ powerState, call ≠ .setPowerState powerState) :=
  handlers_stay_inside Machine.shellMachine (by decide +kernel)

/-- `PWR_SYS_SetPowerState(MEM)` sends three bytes, and the server reads a fourth. -/
theorem setPowerState_not_inside :
    ∃ req, ClientCall.request (.setPowerState 1) ⟨1, 0⟩ 0 1 = some req ∧
      ¬ Machine.shellMachine.StaysInside req := by
  refine ⟨_, rfl, fun hin => ?_⟩
  exact absurd (hin 3 (by decide +kernel)) (by decide +kernel)

end PowerApi
