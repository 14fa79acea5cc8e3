import PowerApi.Clients
import PowerApi.Getters

/-!
# Array calls (`powerapi.c`, `pwrcpu.c`, `pwrdisk.c`, `pwrusb.c`)

Ten calls of the client library take an array and the number of its elements. Each works
out the size of the array, which is the size of an element times the number, and keeps it
in 32 bits: a setter as the `dataLen` of its request, a getter as `*rspBuffSize`, the room
for the response. `GetCpuCurFreq` alone has a limit on the number.

`array_full_length_iff` says for which numbers the size is that of the array: those for
which it is less than 2³², and for a getter also those for which nothing is left of it,
since `SendReqAndWaitForRsp` refuses a buffer without room.
-/

namespace PowerApi

/-- `ReqInputParam`, but for `taskNo`, which no array call sets. -/
structure ReqInputParam where
  optType : OperationType
  dataLen : UInt32
  /-- a pointer of the caller; 0 is NULL -/
  data : UInt64
  deriving DecidableEq

/-- `RspOutputParam`. -/
structure RspOutputParam where
  /-- what `rspBuffSize` points to, if it is not NULL -/
  rspBuffSize : Option UInt32
  rspData : UInt64
  deriving DecidableEq

/-- `SendReqAndWaitForRsp` does not take these parameters. -/
def RspOutputParam.refused (output : RspOutputParam) : Bool :=
  output.rspData ≠ 0 && output.rspBuffSize.getD 0 == 0

namespace Arrays

/-- What a call hands to `SendReqAndWaitForRsp`. -/
abbrev Params := ReqInputParam × RspOutputParam

/-! ## The requests -/

/-- A setter: the array is the data of the request. -/
def setArray (optType : OperationType) (sizeof : UInt64) (arr : UInt64) (len : UInt32) : Params :=
  let dataLen := sizeof * len.toUInt64
  (⟨optType, dataLen.toUInt32, arr⟩, ⟨none, 0⟩)

/-- A getter: the array is the buffer for the response, and with `spec` also the data. -/
def getArray (optType : OperationType) (sizeof : UInt64) (arr : UInt64) (len : UInt32)
    (spec : Int) : Params :=
  let s := sizeof * len.toUInt64
  let size := s.toUInt32
  (if spec ≠ 0 then ⟨optType, size, arr⟩ else ⟨optType, 0, 0⟩, ⟨some size, arr⟩)

/-- `SetCpuCurFreq`. -/
def setCpuCurFreq : UInt64 → UInt32 → Params := setArray .cpuSetCurFreq 16

/-- `GetCpuCurFreq`. -/
def getCpuCurFreq (curFreq : UInt64) (len : UInt32) (spec : Int) : Except RtnCode Params :=
  if maxInputNum < len then .error .errInputOversize
  else .ok (getArray .cpuGetCurFreq 16 curFreq len spec)

/-- `GetDiskList`. The product is one of 32 bits from the start. -/
def getDiskList (diskList : UInt64) (len : UInt32) : Params :=
  let size : UInt32 := 32 * len
  (⟨.diskGetList, 0, 0⟩, ⟨some size, diskList⟩)

/-- `GetDiskLoad`. -/
def getDiskLoad : UInt64 → UInt32 → Int → Params := getArray .diskGetLoad 40

/-- `GetDiskPwrLevel`. -/
def getDiskPwrLevel : UInt64 → UInt32 → Int → Params := getArray .diskGetPowerLevel 36

/-- `SetDiskPwrLevel`. -/
def setDiskPwrLevel : UInt64 → UInt32 → Params := setArray .diskSetPowerLevel 36

/-- `GetDiskScsiPolicy`. -/
def getDiskScsiPolicy : UInt64 → UInt32 → Int → Params := getArray .diskGetScsiPolicy 36

/-- `SetDiskScsiPolicy`. -/
def setDiskScsiPolicy : UInt64 → UInt32 → Params := setArray .diskSetScsiPolicy 36

/-- `GetUsbAutoSuspend`. -/
def getUsbAutoSuspend (usbAts : UInt64) (len : UInt32) : Params :=
  getArray .usbGetAutoSuspend 44 usbAts len 0

/-- `SetUsbAutoSuspend`. -/
def setUsbAutoSuspend : UInt64 → UInt32 → Params := setArray .usbSetAutoSuspend 44

/-! ## The calls of the API -/

/-- The ten calls. -/
inductive Call where
  | cpuSetFreq
  | cpuGetFreq
  | diskGetList
  | diskGetLoad
  | diskGetPwrLevel
  | diskSetPwrLevel
  | diskGetScsiPolicy
  | diskSetScsiPolicy
  | usbGetAutoSuspend
  | usbSetAutoSuspend
  deriving DecidableEq, Repr

/-- The arguments of a call. A setter has its number by value. -/
structure Args where
  arr : UInt64
  /-- `len`, or what it points to; none if that is NULL -/
  len : Option UInt32
  spec : Int

/-- `CHECK_STATUS`, with the code that it returns. -/
def checkStatus (status needed : ApiStatus) : Except RtnCode Unit :=
  if status.check needed then .ok ()
  else .error (if needed = .registered then .errNotRegisted else .errNotAuthed)

/-- `CHECK_NULL_POINTER`. -/
def checkNullPointer (p : UInt64) : Except RtnCode Unit :=
  if p = 0 then .error .errNullPointer else .ok ()

/-- The number of elements, if it is given and positive. -/
def checkLen (len : Option UInt32) : Except RtnCode UInt32 :=
  match len with
  | none => .error .errInvalideParam
  | some len => if len = 0 then .error .errInvalideParam else .ok len

/-- `TRUE` or `FALSE`. -/
def checkSpec (spec : Int) : Except RtnCode Unit :=
  if spec ≠ 1 ∧ spec ≠ 0 then .error .errInvalideParam else .ok ()

/-- A setter of `powerapi.c`. -/
def pwrSet (set : UInt64 → UInt32 → Params) (status : ApiStatus) (args : Args) :
    Except RtnCode Params := do
  checkStatus status .authed
  checkNullPointer args.arr
  let len ← checkLen args.len
  return set args.arr len

/-- A getter of `powerapi.c`. -/
def pwrGet (get : UInt64 → UInt32 → Params) (status : ApiStatus) (args : Args) :
    Except RtnCode Params := do
  checkStatus status .registered
  checkNullPointer args.arr
  let len ← checkLen args.len
  return get args.arr len

/-- A getter of `powerapi.c` for all elements or for those that are named. -/
def pwrGetSpec (get : UInt64 → UInt32 → Int → Except RtnCode Params) (status : ApiStatus)
    (args : Args) : Except RtnCode Params := do
  checkStatus status .registered
  checkNullPointer args.arr
  let len ← checkLen args.len
  checkSpec args.spec
  get args.arr len args.spec

/-- The functions of `powerapi.c`, up to `SendReqAndWaitForRsp`. -/
def Call.pwr : Call → ApiStatus → Args → Except RtnCode Params
  | .cpuSetFreq => pwrSet setCpuCurFreq
  | .cpuGetFreq => pwrGetSpec getCpuCurFreq
  | .diskGetList => pwrGet getDiskList
  | .diskGetLoad => pwrGetSpec fun arr len spec => .ok (getDiskLoad arr len spec)
  | .diskGetPwrLevel => pwrGetSpec fun arr len spec => .ok (getDiskPwrLevel arr len spec)
  | .diskSetPwrLevel => pwrSet setDiskPwrLevel
  | .diskGetScsiPolicy => pwrGetSpec fun arr len spec => .ok (getDiskScsiPolicy arr len spec)
  | .diskSetScsiPolicy => pwrSet setDiskScsiPolicy
  | .usbGetAutoSuspend => pwrGet getUsbAutoSuspend
  | .usbSetAutoSuspend => pwrSet setUsbAutoSuspend

/-- A call, with the first check of `SendReqAndWaitForRsp`: what goes on to `CreateReqMsg`. -/
def Call.accepted (call : Call) (status : ApiStatus) (args : Args) : Except RtnCode Params := do
  let params ← call.pwr status args
  if params.2.refused then .error .errInvalideParam else .ok params

/-- The array is the data of the request. -/
def Call.isSetter : Call → Bool
  | .cpuSetFreq | .diskSetPwrLevel | .diskSetScsiPolicy | .usbSetAutoSuspend => true
  | _ => false

/-- The size of an element: of a `PWR_CPU_CurFreq`, of a name and so on. -/
def Call.sizeofElem : Call → ℕ
  | .cpuSetFreq | .cpuGetFreq => 16
  | .diskGetList => 32
  | .diskGetLoad => 40
  | .diskGetPwrLevel | .diskSetPwrLevel | .diskGetScsiPolicy | .diskSetScsiPolicy => 36
  | .usbGetAutoSuspend | .usbSetAutoSuspend => 44

/-- The size that goes with the array: the length of the data or the room for the response. -/
def Call.byteSize (call : Call) (params : Params) : Option UInt32 :=
  if call.isSetter then some params.1.dataLen else params.2.rspBuffSize

/-- An array of `len` elements that is not refused goes with its full size. -/
def Call.FullLength (call : Call) (len : UInt32) : Prop :=
  ∀ (status : ApiStatus) (args : Args) (params : Params), args.len = some len →
    call.accepted status args = .ok params →
      (call.byteSize params).map UInt32.toNat = some (call.sizeofElem * len.toNat)

/-- The numbers of elements for which that is so. -/
def Call.Fits (call : Call) (len : UInt32) : Prop :=
  match call with
  -- at most `MAX_INPUT_NUM` elements
  | .cpuGetFreq => True
  | call =>
    call.sizeofElem * len.toNat < 2 ^ 32 ∨
      -- no room is left, which is refused
      (call.isSetter = false ∧ 2 ^ 32 ∣ call.sizeofElem * len.toNat)

/-! ## The sizes -/

/-- What a call makes of the size of its array. -/
structure Sized (call : Call) (len : UInt32) (params : Params) : Prop where
  size : (call.byteSize params).map UInt32.toNat = some (call.sizeofElem * len.toNat % 2 ^ 32)
  refused : params.2.refused = true ↔
    call.isSetter = false ∧ call.sizeofElem * len.toNat % 2 ^ 32 = 0

/-- A product of 64 bits, cut to 32. -/
theorem toNat_product (sizeof : UInt64) (len : UInt32) :
    (sizeof * len.toUInt64).toUInt32.toNat = sizeof.toNat * len.toNat % 2 ^ 32 := by
  rw [UInt64.toNat_toUInt32, UInt64.toNat_mul, UInt32.toNat_toUInt64]
  exact Nat.mod_mod_of_dvd _ (by decide)

section Sizes

variable {call : Call} {arr : UInt64} {len : UInt32} {spec : Int} {optType : OperationType}
  {sizeof : UInt64} {params : Params}

theorem setArray_sized (hset : call.isSetter = true) (hsize : sizeof.toNat = call.sizeofElem) :
    Sized call len (setArray optType sizeof arr len) where
  size := by
    rw [Call.byteSize, if_pos hset, ← hsize, ← toNat_product]
    rfl
  refused := by
    rw [hset]
    exact iff_of_false nofun nofun

/-- The room for a response, whatever the request is. -/
theorem sized_of_room {input : ReqInputParam} {size : UInt32} (hget : call.isSetter = false)
    (harr : arr ≠ 0) (hsize : size.toNat = call.sizeofElem * len.toNat % 2 ^ 32) :
    Sized call len (input, ⟨some size, arr⟩) where
  size := by
    rw [Call.byteSize, hget, ← hsize]
    rfl
  refused := by
    rw [RspOutputParam.refused, Option.getD_some, Bool.and_eq_true, decide_eq_true_iff, beq_iff_eq,
      ← hsize, ← UInt32.toNat_inj]
    exact ⟨fun h => ⟨hget, h.2⟩, fun h => ⟨harr, h.2⟩⟩

theorem getArray_sized (hget : call.isSetter = false) (harr : arr ≠ 0)
    (hsize : sizeof.toNat = call.sizeofElem) :
    Sized call len (getArray optType sizeof arr len spec) :=
  sized_of_room hget harr (hsize ▸ toNat_product sizeof len)

theorem getDiskList_sized (harr : arr ≠ 0) : Sized .diskGetList len (getDiskList arr len) :=
  sized_of_room rfl harr (UInt32.toNat_mul 32 len)

theorem getCpuCurFreq_sized (harr : arr ≠ 0) (h : getCpuCurFreq arr len spec = .ok params) :
    len ≤ maxInputNum ∧ Sized .cpuGetFreq len params := by
  rw [getCpuCurFreq] at h
  split at h <;> rename_i hlen
  · cases h
  · cases h
    exact ⟨UInt32.not_lt.mp hlen, getArray_sized rfl harr rfl⟩

end Sizes

/-! ## The checks -/

section Checks

variable {call : Call} {status : ApiStatus} {args : Args} {params : Params} {len : UInt32}

theorem checkNullPointer_eq_ok {p : UInt64} {u : Unit} (h : checkNullPointer p = .ok u) :
    p ≠ 0 := by
  rw [checkNullPointer] at h
  split at h <;> rename_i hp
  · cases h
  · exact hp

theorem checkLen_eq_ok {n : UInt32} (hargs : args.len = some len) (h : checkLen args.len = .ok n) :
    n = len := by
  rw [hargs] at h
  dsimp only [checkLen] at h
  split at h
  · cases h
  · cases h
    rfl

theorem pwrSet_eq_ok {set : UInt64 → UInt32 → Params} (hargs : args.len = some len)
    (h : pwrSet set status args = .ok params) : set args.arr len = params := by
  obtain ⟨-, -, h⟩ := bind_eq_ok.mp h
  obtain ⟨-, -, h⟩ := bind_eq_ok.mp h
  obtain ⟨n, hn, h⟩ := bind_eq_ok.mp h
  rw [← checkLen_eq_ok hargs hn]
  exact Except.ok.inj h

theorem pwrGet_eq_ok {get : UInt64 → UInt32 → Params} (hargs : args.len = some len)
    (h : pwrGet get status args = .ok params) : args.arr ≠ 0 ∧ get args.arr len = params := by
  obtain ⟨-, -, h⟩ := bind_eq_ok.mp h
  obtain ⟨_, hnull, h⟩ := bind_eq_ok.mp h
  obtain ⟨n, hn, h⟩ := bind_eq_ok.mp h
  rw [← checkLen_eq_ok hargs hn]
  exact ⟨checkNullPointer_eq_ok hnull, Except.ok.inj h⟩

theorem pwrGetSpec_eq_ok {get : UInt64 → UInt32 → Int → Except RtnCode Params}
    (hargs : args.len = some len) (h : pwrGetSpec get status args = .ok params) :
    args.arr ≠ 0 ∧ get args.arr len args.spec = .ok params := by
  obtain ⟨-, -, h⟩ := bind_eq_ok.mp h
  obtain ⟨_, hnull, h⟩ := bind_eq_ok.mp h
  obtain ⟨n, hn, h⟩ := bind_eq_ok.mp h
  obtain ⟨-, -, h⟩ := bind_eq_ok.mp h
  rw [← checkLen_eq_ok hargs hn]
  exact ⟨checkNullPointer_eq_ok hnull, h⟩

/-- Each function of `powerapi.c` cuts the size of its array to 32 bits. -/
theorem pwr_sized (hargs : args.len = some len) (h : call.pwr status args = .ok params) :
    Sized call len params := by
  cases call with
  | cpuSetFreq | diskSetPwrLevel | diskSetScsiPolicy | usbSetAutoSuspend =>
    obtain rfl := pwrSet_eq_ok hargs h
    exact setArray_sized rfl rfl
  | cpuGetFreq =>
    obtain ⟨harr, h⟩ := pwrGetSpec_eq_ok hargs h
    exact (getCpuCurFreq_sized harr h).2
  | diskGetList =>
    obtain ⟨harr, rfl⟩ := pwrGet_eq_ok hargs h
    exact getDiskList_sized harr
  | usbGetAutoSuspend =>
    obtain ⟨harr, rfl⟩ := pwrGet_eq_ok hargs h
    exact getArray_sized rfl harr rfl
  | diskGetLoad | diskGetPwrLevel | diskGetScsiPolicy =>
    dsimp only [Call.pwr] at h
    obtain ⟨harr, h⟩ := pwrGetSpec_eq_ok hargs h
    obtain rfl := Except.ok.inj h
    exact getArray_sized rfl harr rfl

theorem accepted_eq_ok : call.accepted status args = .ok params ↔
    call.pwr status args = .ok params ∧ params.2.refused ≠ true := by
  rw [Call.accepted, bind_eq_ok]
  refine ⟨?_, fun ⟨h, hr⟩ => ⟨params, h, if_neg hr⟩⟩
  rintro ⟨params', hpwr, h⟩
  split at h <;> rename_i hr
  · cases h
  · cases h
    exact ⟨hpwr, hr⟩

/-- With the authority, an array at address 1 of which the number of elements is given. -/
def arrayArgs (len : UInt32) : Args := ⟨1, some len, 0⟩

/-- Any number of elements passes the checks of `powerapi.c`, but for `GetCpuCurFreq`. -/
theorem exists_pwr (hcall : call ≠ .cpuGetFreq) (hlen : len ≠ 0) :
    ∃ params, call.pwr .authed (arrayArgs len) = .ok params := by
  have hcheck : checkLen (arrayArgs len).len = .ok len := if_neg hlen
  cases call with
  | cpuGetFreq => exact absurd rfl hcall
  | cpuSetFreq | diskSetPwrLevel | diskSetScsiPolicy | usbSetAutoSuspend =>
    exact ⟨_, bind_eq_ok.mpr ⟨(), rfl, bind_eq_ok.mpr ⟨(), rfl, bind_eq_ok.mpr ⟨len, hcheck, rfl⟩⟩⟩⟩
  | diskGetList | usbGetAutoSuspend =>
    exact ⟨_, bind_eq_ok.mpr ⟨(), rfl, bind_eq_ok.mpr ⟨(), rfl, bind_eq_ok.mpr ⟨len, hcheck, rfl⟩⟩⟩⟩
  | diskGetLoad | diskGetPwrLevel | diskGetScsiPolicy =>
    exact ⟨_, bind_eq_ok.mpr ⟨(), rfl, bind_eq_ok.mpr ⟨(), rfl,
      bind_eq_ok.mpr ⟨len, hcheck, bind_eq_ok.mpr ⟨(), rfl, rfl⟩⟩⟩⟩⟩

end Checks

/-! ## Which sizes are right -/

namespace Call

variable {call : Call} {len : UInt32}

/-- A limit of 512 elements keeps the size small. -/
theorem cpuGetFreq_fullLength (len : UInt32) : Call.cpuGetFreq.FullLength len := by
  intro status args params hargs h
  obtain ⟨hpwr, -⟩ := accepted_eq_ok.mp h
  have hsize := (pwr_sized hargs hpwr).size
  obtain ⟨harr, hget⟩ := pwrGetSpec_eq_ok hargs hpwr
  have hlen : len.toNat ≤ 512 := UInt32.le_iff_toNat_le.mp (getCpuCurFreq_sized harr hget).1
  have hmul : Call.cpuGetFreq.sizeofElem * len.toNat < 2 ^ 32 :=
    (Nat.mul_le_mul_left 16 hlen).trans_lt (by decide)
  rwa [Nat.mod_eq_of_lt hmul] at hsize

/-- Without a limit, a size that is cut short goes out, unless nothing is left of it. -/
theorem fullLength_iff (hcall : call ≠ .cpuGetFreq) :
    call.FullLength len ↔ call.sizeofElem * len.toNat < 2 ^ 32 ∨
      (call.isSetter = false ∧ 2 ^ 32 ∣ call.sizeofElem * len.toNat) := by
  constructor
  · intro hfull
    by_cases hlen : len = 0
    · rw [hlen]
      exact .inl (by rw [UInt32.toNat_zero, mul_zero]; decide)
    obtain ⟨params, hpwr⟩ := exists_pwr hcall hlen
    have hsized := @pwr_sized _ _ (arrayArgs len) _ _ rfl hpwr
    by_cases hrefused : params.2.refused = true
    · obtain ⟨hget, hzero⟩ := hsized.refused.mp hrefused
      exact .inr ⟨hget, Nat.dvd_of_mod_eq_zero hzero⟩
    · have hsize := hfull _ (arrayArgs len) _ rfl (accepted_eq_ok.mpr ⟨hpwr, hrefused⟩)
      rw [hsized.size] at hsize
      exact .inl ((Nat.mod_eq_iff_lt (by decide)).mp (Option.some.inj hsize))
  · intro hfits status args params hargs h
    obtain ⟨hpwr, hrefused⟩ := accepted_eq_ok.mp h
    have hsized := pwr_sized hargs hpwr
    obtain hlt | ⟨hget, hdvd⟩ := hfits
    · rw [hsized.size, Nat.mod_eq_of_lt hlt]
    · exact absurd (hsized.refused.mpr ⟨hget, Nat.mod_eq_zero_of_dvd hdvd⟩) hrefused

end Call

/-- **Array requests have their full length** exactly if the size of the array fits into
32 bits, or a getter is left without room and refused; `PWR_CPU_GetFreq` sees to it. -/
theorem array_full_length_iff (call : Call) (len : UInt32) :
    call.FullLength len ↔ call.Fits len := by
  cases call with
  | cpuGetFreq => exact iff_of_true (Call.cpuGetFreq_fullLength len) trivial
  | _ => exact Call.fullLength_iff nofun

/-- `PWR_CPU_SetFreq` with 2²⁸ entries sends none. -/
theorem cpuSetFreq_not_full_length :
    (Call.cpuSetFreq.accepted .authed (arrayArgs (2 ^ 28))).map (fun params => params.1.dataLen) =
        .ok 0 ∧
      ¬ ∀ (call : Call) (len : UInt32), call.FullLength len := by
  refine ⟨by decide, fun h => ?_⟩
  have hcall : Call.cpuSetFreq ≠ .cpuGetFreq := by decide
  exact absurd ((Call.fullLength_iff hcall).mp (h .cpuSetFreq (2 ^ 28))) (by decide)

end Arrays

end PowerApi
