import PowerApi.CpuService

/-!
# The counts that the getters hand back (`pwrcpu.c`, `pwrnet.c`, `pwrdisk.c`, `pwrusb.c`)

A getter of the client library gives `SendReqAndWaitForRsp` the caller's buffer, which
gets as much of the response as it has room for. Nine getters also hand back how many
records there are: in the header that came with the response (`coreNum`, `ethNum`,
`freqDomainNum`) or in `*len`. The caller goes by that number, so it should be the
number of complete records among the bytes that were copied.

`GetCpuUsage`, `GetNetInfo` and `GetCpuCurFreq` set the count right after a success; the
others do so in the failure branch, where nothing has been copied. `counts_fit_iff` says
for which answers that does no harm.
-/

namespace PowerApi

open Bytes

/-- `MAX_INPUT_NUM`. -/
def maxInputNum : UInt32 := 512

/-! ## The fields of a buffer -/

/-- The `int` at an offset of a buffer. -/
def intAt (buf : Bytes) (off : ℕ) : Int := intArg (UInt32.ofNat (fieldAt buf off 4))

/-- An assignment to it. -/
def putInt (buf : Bytes) (off : ℕ) (n : Int) : Bytes :=
  buf.take off ++ leBytes 4 (n % 2 ^ 32).toNat ++ buf.drop (off + 4)

/-- The difference of two values as a `size_t`. -/
def sizeSub (a b : ℕ) : ℕ := (a + 2 ^ 64 - b) % 2 ^ 64

theorem intAt_putInt {buf : Bytes} {off n : ℕ} (hoff : off ≤ buf.length) (hn : n < 2 ^ 31) :
    intAt (putInt buf off n) off = n := by
  have hlen : (buf.take off).length = off := List.length_take_of_le hoff
  have hmod : ((n : Int) % 2 ^ 32).toNat = n := by omega
  have hfield : fieldAt (putInt buf off n) off 4 = n := by
    rw [putInt, List.append_assoc, fieldAt_append _ _ _ _ hlen.le, hlen, Nat.sub_self,
      fieldAt_leBytes, hmod]
    omega
  have hnat : (UInt32.ofNat n).toNat = n := UInt32.toNat_ofNat_of_lt' (hn.trans (by decide))
  rw [intAt, hfield, intArg_of_lt (by rwa [hnat]), hnat]

/-- The fields that were copied are those of the response. -/
theorem intAt_append_take {data rest : Bytes} {off m : ℕ} (hm : off + 4 ≤ m)
    (hdata : off + 4 ≤ data.length) : intAt (data.take m ++ rest) off = intAt data off := by
  have hlen : off + 4 ≤ (data.take m).length := by
    rw [List.length_take]
    omega
  rw [intAt, fieldAt_append_left hlen, fieldAt_take hm, intAt]

/-! ## `SendReqAndWaitForRsp` -/

/-- `SendReqAndWaitForRsp` with a buffer for response data, `rsp` being what the server
answered: the result, the bytes that are copied, and `*rspBuffSize` afterwards. -/
def sendReqAndWaitForRsp (rsp : PwrMsg) (rspBuffSize : UInt32) :
    Except Fault (Int × Bytes × UInt32) :=
  if rspBuffSize = 0 then .ok (RtnCode.errInvalideParam.code, [], rspBuffSize)
  else if rsp.head.rspCode ≠ 0 then .ok (rsp.head.rspCode.toNat, [], rspBuffSize)
  else
    match rsp.data with
    | .null => .ok (RtnCode.errWrongResponseFromServer.code, [], rspBuffSize)
    | .wild _ => .error .overrun
    | .heap _ bytes =>
      let dlen := if rspBuffSize < rsp.head.dataLen then rspBuffSize else rsp.head.dataLen
      -- `memcpy` with an `int`
      if intArg dlen < 0 ∨ bytes.length < dlen.toNat then .error .overrun
      else .ok (RtnCode.success.code, bytes.take dlen.toNat, dlen)

/-- What a getter hands back. -/
structure Handed where
  ret : Int
  /-- the bytes of the response that are in the caller's buffer -/
  copied : Bytes
  /-- the count for the caller -/
  count : Int
  deriving DecidableEq

/-! ## The getters -/

/-- The caller's buffer behind the bytes that were copied to its front. -/
def received (copied mem : Bytes) : Bytes := copied ++ mem.drop copied.length

/-- A getter that counts the elements behind a header anew after a success. -/
def getCounted (sizeofHead sizeofElem countOff : ℕ) (mem : Bytes) (bufferSize : UInt32)
    (rsp : PwrMsg) : Except Fault Handed := do
  let (ret, copied, size) ← sendReqAndWaitForRsp rsp bufferSize
  let buf := received copied mem
  if ret ≠ RtnCode.success.code then return ⟨ret, copied, intAt buf countOff⟩
  else
    -- Remediate
    let num := sizeSub size.toNat sizeofHead / sizeofElem
    return ⟨ret, copied, intAt (putInt buf countOff num) countOff⟩

/-- `GetCpuUsage`. -/
def getCpuUsage (usage : Bytes) (bufferSize : UInt32) (rsp : PwrMsg) : Except Fault Handed :=
  getCounted 16 16 8 usage bufferSize rsp

/-- `GetNetInfo`. -/
def getNetInfo (netInfo : Bytes) (bufferSize : UInt32) (rsp : PwrMsg) : Except Fault Handed :=
  getCounted 4 40 0 netInfo bufferSize rsp

/-- Where `freqDomainNum` and `freqDomainStep` are in a `PWR_CPU_FreqAbility`, and where
the table of frequency domains begins. -/
def freqDomainNumOff : ℕ := 548
def freqDomainStepOff : ℕ := 552
def freqDomainOff : ℕ := 556

/-- `GetCpuFreqAbility`. -/
def getCpuFreqAbility (freqAbi : Bytes) (bufferSize : UInt32) (rsp : PwrMsg) :
    Except Fault Handed := do
  let (ret, copied, size) ← sendReqAndWaitForRsp rsp bufferSize
  let buf := received copied freqAbi
  let step := intAt buf freqDomainStepOff
  if ret ≠ RtnCode.success.code ∧ step ≠ 0 then
    -- Remediate the data to avoid error happens in buffersize is smaller then real data length.
    let num := sizeSub size.toNat freqDomainOff / (step % 2 ^ 64).toNat
    return ⟨ret, copied, intAt (putInt buf freqDomainNumOff num) freqDomainNumOff⟩
  else return ⟨ret, copied, intAt buf freqDomainNumOff⟩

/-- `GetCpuCurFreq`. -/
def getCpuCurFreq (len : UInt32) (rsp : PwrMsg) : Except Fault Handed := do
  if maxInputNum < len then return ⟨RtnCode.errInputOversize.code, [], len.toNat⟩
  else
    let (ret, copied, size) ← sendReqAndWaitForRsp rsp (UInt32.ofNat (16 * len.toNat))
    return ⟨ret, copied, (size / 16).toNat⟩

/-- A getter that sets `*len` after a failure. -/
def getElems (sizeofElem : ℕ) (len : UInt32) (rsp : PwrMsg) : Except Fault Handed := do
  let (ret, copied, size) ← sendReqAndWaitForRsp rsp (UInt32.ofNat (sizeofElem * len.toNat))
  if ret ≠ RtnCode.success.code then
    return ⟨ret, copied, (size.toNat / sizeofElem : ℕ)⟩
  else return ⟨ret, copied, len.toNat⟩

/-- `GetDiskList`. -/
def getDiskList (len : UInt32) (rsp : PwrMsg) : Except Fault Handed := getElems 32 len rsp

/-- `GetDiskLoad`. -/
def getDiskLoad (len : UInt32) (rsp : PwrMsg) : Except Fault Handed := getElems 40 len rsp

/-- `GetDiskPwrLevel`. -/
def getDiskPwrLevel (len : UInt32) (rsp : PwrMsg) : Except Fault Handed := getElems 36 len rsp

/-- `GetDiskScsiPolicy`. -/
def getDiskScsiPolicy (len : UInt32) (rsp : PwrMsg) : Except Fault Handed := getElems 36 len rsp

/-- `GetUsbAutoSuspend`. -/
def getUsbAutoSuspend (len : UInt32) (rsp : PwrMsg) : Except Fault Handed := getElems 44 len rsp

/-- The getters with an answer of variable length. -/
inductive Getter where
  | cpuUsage
  | cpuFreqAbility
  | cpuCurFreq
  | netInfo
  | diskList
  | diskLoad
  | diskPwrLevel
  | diskScsiPolicy
  | usbAutoSuspend
  deriving DecidableEq, Repr

namespace Getter

/-- The call of a getter; `arg` is `bufferSize` or `*len`. -/
def call : Getter → Bytes → UInt32 → PwrMsg → Except Fault Handed
  | cpuUsage, mem, arg, rsp => getCpuUsage mem arg rsp
  | cpuFreqAbility, mem, arg, rsp => getCpuFreqAbility mem arg rsp
  | cpuCurFreq, _, arg, rsp => getCpuCurFreq arg rsp
  | netInfo, mem, arg, rsp => getNetInfo mem arg rsp
  | diskList, _, arg, rsp => getDiskList arg rsp
  | diskLoad, _, arg, rsp => getDiskLoad arg rsp
  | diskPwrLevel, _, arg, rsp => getDiskPwrLevel arg rsp
  | diskScsiPolicy, _, arg, rsp => getDiskScsiPolicy arg rsp
  | usbAutoSuspend, _, arg, rsp => getUsbAutoSuspend arg rsp

/-- What `PWR_CPU_GetUsage` and its like let pass. -/
def Admits : Getter → UInt32 → Prop
  | cpuUsage, arg => 16 ≤ arg.toNat
  | cpuFreqAbility, arg => freqDomainOff ≤ arg.toNat
  | netInfo, arg => 4 < arg.toNat
  | _, arg => arg ≠ 0

/-- Where the records begin. -/
def sizeofHead : Getter → ℕ
  | cpuUsage => 16
  | cpuFreqAbility => freqDomainOff
  | netInfo => 4
  | _ => 0

/-- The size of a record, given the header. -/
def stride : Getter → Bytes → ℕ
  | cpuUsage, _ => 16
  | cpuFreqAbility, head => (intAt head freqDomainStepOff).toNat
  | cpuCurFreq, _ => 16
  | netInfo, _ => 40
  | diskList, _ => 32
  | diskLoad, _ => 40
  | diskPwrLevel, _ => 36
  | diskScsiPolicy, _ => 36
  | usbAutoSuspend, _ => 44

/-- The number of complete records among the bytes that were copied. -/
def records (g : Getter) (copied : Bytes) : ℕ :=
  (copied.length - g.sizeofHead) / g.stride copied

/-- A successful response with a complete header. That of `CPU_GET_FREQ_ABILITY` has as
many records as it says. -/
structure WellFormed (g : Getter) (rsp : PwrMsg) : Prop where
  holds : rsp.Holds
  rspCode : rsp.head.rspCode = 0
  head : g.sizeofHead ≤ rsp.payload.length
  table : g = cpuFreqAbility → 0 < g.stride rsp.payload ∧
    0 ≤ intAt rsp.payload freqDomainNumOff ∧ rsp.payload.length =
      freqDomainOff + g.stride rsp.payload * (intAt rsp.payload freqDomainNumOff).toNat

/-- After `SUCCESS` the count is that of the complete records that were copied. -/
def CountFits (g : Getter) (mem : Bytes) (arg : UInt32) (rsp : PwrMsg) : Prop :=
  ∀ out, g.call mem arg rsp = .ok out → out.ret = RtnCode.success.code →
    out.count = g.records out.copied

end Getter

/-- The response gets into a buffer of this size: neither is empty, and the number of
bytes to be copied is an `int`. -/
def Copies (size : UInt32) (rsp : PwrMsg) : Prop :=
  size ≠ 0 ∧ rsp.head.dataLen ≠ 0 ∧ min size.toNat rsp.head.dataLen.toNat < 2 ^ 31

instance (size : UInt32) (rsp : PwrMsg) : Decidable (Copies size rsp) :=
  inferInstanceAs (Decidable (_ ∧ _ ∧ _))

/-- The answers for which the count of a getter is right. -/
def Getter.Covers (g : Getter) (arg : UInt32) (rsp : PwrMsg) : Prop :=
  match g with
  | cpuUsage | cpuCurFreq | netInfo => True
  -- all of the table has room
  | cpuFreqAbility => Copies arg rsp → rsp.head.dataLen ≤ arg
  -- the caller's array is filled
  | g => Copies (UInt32.ofNat (g.stride [] * arg.toNat)) rsp →
    g.stride [] * arg.toNat ≤ rsp.head.dataLen.toNat

/-! ## Which counts are right -/

theorem toNat_smaller (a b : UInt32) : (if a < b then a else b).toNat = min a.toNat b.toNat := by
  split <;> rename_i hlt <;> rw [UInt32.lt_iff_toNat_lt] at hlt <;> omega

section Send

variable {rsp : PwrMsg} {size n : UInt32} {copied : Bytes}

/-- A success has copied the front of the response. -/
theorem sendReqAndWaitForRsp_success (hholds : rsp.Holds) (hcode : rsp.head.rspCode = 0) :
    sendReqAndWaitForRsp rsp size = .ok (RtnCode.success.code, copied, n) ↔
      Copies size rsp ∧ n.toNat = min size.toNat rsp.head.dataLen.toNat ∧
        copied = rsp.payload.take n.toNat := by
  rw [sendReqAndWaitForRsp]
  by_cases hsize : size = 0
  · rw [if_pos hsize]
    exact iff_of_false nofun fun h => h.1.1 hsize
  rw [if_neg hsize, if_neg (not_not.mpr hcode)]
  rcases rsp with ⟨head, _ | ⟨a, bytes⟩ | a⟩
  · exact iff_of_false nofun fun h => h.1.2.1 hholds
  · obtain ⟨-, hlen, hbytes⟩ := hholds
    have hmin := toNat_smaller size head.dataLen
    generalize (if size < head.dataLen then size else head.dataLen) = dlen at hmin
    dsimp only at hmin hbytes ⊢
    by_cases hint : dlen.toNat < 2 ^ 31
    · rw [if_neg (by rw [intArg_of_lt hint]; omega)]
      refine ⟨fun h => ?_, fun ⟨_, hn, hcopied⟩ => ?_⟩
      · cases h
        exact ⟨⟨hsize, hlen, hmin ▸ hint⟩, hmin, rfl⟩
      · obtain rfl : n = dlen := UInt32.toNat_inj.mp (hn.trans hmin.symm)
        rw [hcopied]
        rfl
    · -- the number of bytes turns negative
      rw [if_pos (.inl (intArg_neg hint))]
      exact iff_of_false nofun fun h => hint (hmin ▸ h.1.2.2)
  · exact hholds.elim

/-- What is copied if the response gets into the buffer. -/
theorem exists_copied (hholds : rsp.Holds) (hcode : rsp.head.rspCode = 0)
    (hcopies : Copies size rsp) :
    ∃ n : UInt32, n.toNat = min size.toNat rsp.head.dataLen.toNat ∧
      sendReqAndWaitForRsp rsp size = .ok (RtnCode.success.code, rsp.payload.take n.toNat, n) :=
  ⟨_, toNat_smaller _ _,
    (sendReqAndWaitForRsp_success hholds hcode).mpr ⟨hcopies, toNat_smaller _ _, rfl⟩⟩

theorem length_take_payload (hholds : rsp.Holds)
    (hn : n.toNat = min size.toNat rsp.head.dataLen.toNat) :
    (rsp.payload.take n.toNat).length = n.toNat := by
  rw [List.length_take, hholds.length_payload]
  omega

end Send

namespace Getter

variable {rsp : PwrMsg} {arg : UInt32} {mem : Bytes} {out : Handed}

/-- A header that is counted anew counts what was copied. -/
theorem getCounted_count {sizeofHead sizeofElem countOff : ℕ} (hholds : rsp.Holds)
    (hcode : rsp.head.rspCode = 0) (hoff : countOff ≤ sizeofHead) (harg : sizeofHead ≤ arg.toNat)
    (hhead : sizeofHead ≤ rsp.payload.length)
    (h : getCounted sizeofHead sizeofElem countOff mem arg rsp = .ok out)
    (hret : out.ret = RtnCode.success.code) :
    out.count = ((out.copied.length - sizeofHead) / sizeofElem : ℕ) := by
  obtain ⟨⟨ret, copied, n⟩, hsend, h⟩ := bind_eq_ok.mp h
  dsimp only at h
  split at h <;> rename_i hne
  · cases h
    exact absurd hret hne
  · cases h
    rw [not_not.mp hne] at hsend
    obtain ⟨hcopies, hn, rfl⟩ := (sendReqAndWaitForRsp_success hholds hcode).mp hsend
    have hlen := length_take_payload hholds hn
    rw [hholds.length_payload] at hhead
    have hsub : sizeSub n.toNat sizeofHead = n.toNat - sizeofHead := by
      rw [sizeSub]
      have := n.toNat_lt
      omega
    have hlt : (n.toNat - sizeofHead) / sizeofElem < 2 ^ 31 :=
      (Nat.div_le_self _ _).trans_lt (by have := hcopies.2.2; omega)
    dsimp only
    rw [hlen, hsub, intAt_putInt _ hlt]
    rw [received, List.length_append, hlen]
    omega

/-- `*len` stays what it was after a success: the size of the caller's array. -/
theorem getElems_fits {sizeofElem : ℕ} (hpos : 0 < sizeofElem) (hholds : rsp.Holds)
    (hcode : rsp.head.rspCode = 0) :
    (∀ out, getElems sizeofElem arg rsp = .ok out → out.ret = RtnCode.success.code →
        out.count = (out.copied.length / sizeofElem : ℕ)) ↔
      (Copies (UInt32.ofNat (sizeofElem * arg.toNat)) rsp →
        sizeofElem * arg.toNat ≤ rsp.head.dataLen.toNat) := by
  generalize hsize : UInt32.ofNat (sizeofElem * arg.toNat) = size
  have hmod : size.toNat = sizeofElem * arg.toNat % 2 ^ 32 := by
    rw [← hsize]
    exact UInt32.toNat_ofNat'
  have hdata := rsp.head.dataLen.toNat_lt
  -- the elements that were copied, against the length of the array
  have hfull : arg.toNat ≤ min size.toNat rsp.head.dataLen.toNat / sizeofElem ↔
      sizeofElem * arg.toNat ≤ rsp.head.dataLen.toNat := by
    rw [Nat.le_div_iff_mul_le hpos, mul_comm arg.toNat, le_min_iff, hmod]
    refine ⟨fun h => h.2, fun h => ⟨?_, h⟩⟩
    rw [Nat.mod_eq_of_lt (h.trans_lt hdata)]
  have hle : min size.toNat rsp.head.dataLen.toNat / sizeofElem ≤ arg.toNat := by
    refine Nat.div_le_of_le_mul ((min_le_left _ _).trans ?_)
    rw [hmod]
    exact Nat.mod_le _ _
  constructor
  · intro hfits hcopies
    obtain ⟨n, hn, hsend⟩ := exists_copied hholds hcode hcopies
    have hcount := hfits ⟨RtnCode.success.code, rsp.payload.take n.toNat, arg.toNat⟩
      (by rw [getElems, hsize, hsend]; rfl) rfl
    rw [length_take_payload hholds hn, hn, Nat.cast_inj] at hcount
    exact hfull.mp hcount.le
  · intro hcovers out h hret
    rw [getElems, hsize] at h
    obtain ⟨⟨ret, copied, n⟩, hsend, h⟩ := bind_eq_ok.mp h
    dsimp only at h
    split at h <;> rename_i hne
    · cases h
      exact absurd hret hne
    · cases h
      rw [not_not.mp hne] at hsend
      obtain ⟨hcopies, hn, rfl⟩ := (sendReqAndWaitForRsp_success hholds hcode).mp hsend
      dsimp only
      rw [length_take_payload hholds hn, hn]
      exact congrArg Nat.cast (le_antisymm (hfull.mpr (hcovers hcopies)) hle)

/-- The array of `GetCpuCurFreq` is short enough for its size to be a `uint32_t`. -/
theorem getCpuCurFreq_count (hholds : rsp.Holds) (hcode : rsp.head.rspCode = 0)
    (h : getCpuCurFreq arg rsp = .ok out) (hret : out.ret = RtnCode.success.code) :
    out.count = (out.copied.length / 16 : ℕ) := by
  rw [getCpuCurFreq] at h
  split at h
  · cases h
    cases hret
  · obtain ⟨⟨ret, copied, n⟩, hsend, h⟩ := bind_eq_ok.mp h
    cases h
    obtain rfl : ret = RtnCode.success.code := hret
    obtain ⟨-, hn, rfl⟩ := (sendReqAndWaitForRsp_success hholds hcode).mp hsend
    dsimp only
    rw [length_take_payload hholds hn, UInt32.toNat_div]
    rfl

/-- A table of `k` records is complete in a buffer that has room for all of it. -/
theorem complete_iff {head step k size : ℕ} (hstep : 0 < step) (hhead : head ≤ size) :
    k = (min size (head + step * k) - head) / step ↔ head + step * k ≤ size := by
  constructor
  · intro heq
    have hmul := Nat.mul_div_le (min size (head + step * k) - head) step
    rw [← heq] at hmul
    omega
  · intro hle
    rw [min_eq_right hle, Nat.add_sub_cancel_left, Nat.mul_div_cancel_left k hstep]

/-- The header of a frequency table is read behind a copy as it is in the response. -/
theorem freqDomain_copied {data : Bytes} {n : ℕ} (hn : freqDomainOff ≤ n)
    (hdata : freqDomainOff ≤ data.length) :
    intAt (received (data.take n) mem) freqDomainNumOff = intAt data freqDomainNumOff ∧
      cpuFreqAbility.stride (data.take n) = cpuFreqAbility.stride data := by
  have hnum : freqDomainNumOff + 4 ≤ freqDomainOff := by decide
  have hstep : freqDomainStepOff + 4 ≤ freqDomainOff := by decide
  have hcopied := @intAt_append_take data [] freqDomainStepOff n (hstep.trans hn) (hstep.trans hdata)
  rw [List.append_nil] at hcopied
  exact ⟨intAt_append_take (hnum.trans hn) (hnum.trans hdata), congrArg Int.toNat hcopied⟩

/-- The number of frequency domains comes with the response, and stays after a success. -/
theorem getCpuFreqAbility_fits (harg : freqDomainOff ≤ arg.toNat)
    (hwf : cpuFreqAbility.WellFormed rsp) :
    cpuFreqAbility.CountFits mem arg rsp ↔ (Copies arg rsp → rsp.head.dataLen ≤ arg) := by
  obtain ⟨hholds, hcode, hhead, htable⟩ := hwf
  obtain ⟨hstep, hnum, hlen⟩ := htable rfl
  obtain ⟨k, hk⟩ := Int.eq_ofNat_of_zero_le hnum
  rw [hk, Int.toNat_natCast] at hlen
  have hdata : rsp.head.dataLen.toNat = freqDomainOff + cpuFreqAbility.stride rsp.payload * k :=
    hholds.length_payload.symm.trans hlen
  -- the count and the records after a copy of `n` bytes
  have hcopied : ∀ n : UInt32, n.toNat = min arg.toNat rsp.head.dataLen.toNat →
      intAt (received (rsp.payload.take n.toNat) mem) freqDomainNumOff = k ∧
        (k = cpuFreqAbility.records (rsp.payload.take n.toNat) ↔ rsp.head.dataLen ≤ arg) := by
    intro n hn
    have hin : freqDomainOff ≤ rsp.payload.length := hhead
    obtain ⟨hcount, hstride⟩ := @freqDomain_copied mem rsp.payload n.toNat (by omega) hin
    refine ⟨hcount.trans hk, ?_⟩
    rw [records, hstride, length_take_payload hholds hn, hn, hdata, UInt32.le_iff_toNat_le, hdata]
    exact complete_iff hstep harg
  constructor
  · intro hfits hcopies
    obtain ⟨n, hn, hsend⟩ := exists_copied hholds hcode hcopies
    obtain ⟨hcount, hfull⟩ := hcopied n hn
    have hout := hfits ⟨RtnCode.success.code, rsp.payload.take n.toNat, k⟩
      (by rw [call, getCpuFreqAbility, hsend, ← hcount]; rfl) rfl
    exact hfull.mp (Nat.cast_inj.mp hout)
  · intro hcovers out h hret
    obtain ⟨⟨ret, copied, n⟩, hsend, h⟩ := bind_eq_ok.mp h
    dsimp only at h
    split at h <;> rename_i hne
    · cases h
      exact absurd hret hne.1
    · cases h
      obtain rfl : ret = RtnCode.success.code := hret
      obtain ⟨hcopies, hn, rfl⟩ := (sendReqAndWaitForRsp_success hholds hcode).mp hsend
      obtain ⟨hcount, hfull⟩ := hcopied n hn
      exact hcount.trans (congrArg Nat.cast (hfull.mpr (hcovers hcopies)))

end Getter

/-- **The counts fit** exactly where setting them after a failure is as good: `*len` if
the answer fills the caller's array, `freqDomainNum` if the buffer has room for the table.
The counts that are set after a success always fit. -/
theorem counts_fit_iff (g : Getter) (mem : Bytes) {arg : UInt32} (harg : g.Admits arg)
    {rsp : PwrMsg} (hwf : g.WellFormed rsp) : g.CountFits mem arg rsp ↔ g.Covers arg rsp := by
  obtain ⟨hholds, hcode, hhead, -⟩ := id hwf
  cases g with
  | cpuUsage =>
    exact iff_of_true (fun out h hret => Getter.getCounted_count hholds hcode (by decide) harg hhead
      h hret) trivial
  | netInfo =>
    exact iff_of_true (fun out h hret => Getter.getCounted_count hholds hcode (by decide)
      (le_of_lt harg) hhead h hret) trivial
  | cpuCurFreq =>
    exact iff_of_true (fun out h hret => Getter.getCpuCurFreq_count hholds hcode h hret) trivial
  | cpuFreqAbility => exact Getter.getCpuFreqAbility_fits harg hwf
  | diskList | diskLoad | diskPwrLevel | diskScsiPolicy | usbAutoSuspend =>
    exact Getter.getElems_fits (by decide) hholds hcode

/-- A list of disks with one name on it. -/
def oneDisk : PwrMsg where
  head := { MsgHead.zero with dataLen := 32 }
  data := .heap 1 (text "sda" ++ List.replicate 29 0)

theorem counts_fit_iff_oneDisk :
    Getter.diskList.CountFits [] 1 oneDisk ↔ Getter.diskList.Covers 1 oneDisk :=
  counts_fit_iff .diskList [] (by decide : (1 : UInt32) ≠ 0)
    ⟨by decide +kernel, rfl, by decide +kernel, nofun⟩

/-- There is one disk and the caller has room for two: `*len` says two. -/
theorem diskList_count_not_fit :
    Getter.diskList.Admits 2 ∧ Getter.diskList.WellFormed oneDisk ∧
      ¬ Getter.diskList.CountFits [] 2 oneDisk := by
  refine ⟨(by decide : (2 : UInt32) ≠ 0), ⟨by decide +kernel, rfl, by decide +kernel, nofun⟩,
    fun h => ?_⟩
  exact absurd (h ⟨0, oneDisk.payload, 2⟩ (by decide +kernel) rfl) (by decide +kernel)

end PowerApi
