import PowerApi.Bytes

/-!
# Messages (`pwrmsg.h`, `pwrmsg.c`, `pwrerr.h`)

The message that client library and server exchange. A `PwrMsg` is a C struct
of 40 bytes: a 32-byte head and the `data` pointer, which travels over the
socket with the struct. `DataPtr` keeps apart what such a pointer can be: NULL,
a buffer the process itself allocated, or an address that was only copied in
from the peer. Releasing a message frees its pointer, which is a `Fault` for an
address of the last kind.

Structs are laid out little endian, as on the two supported architectures.
-/

namespace PowerApi

abbrev Bytes := List UInt8

/-! ## Return codes -/

/-- `enum RtnCode`. -/
inductive RtnCode where
  | success
  | errCommon
  | errTimeout
  | errSysException
  | errNullPointer
  | errInputOversize
  | errInvalideParam
  | errInvalideDatatype
  | errPolicyInvalide
  | errGovernorInvalide
  | errFreqNotInRange
  | errCallbackFunctionShouldBeSetFirst
  | errModifyBanUpdateAttrCurrently
  | errPathNormalize
  | errPathVerify
  | errNotRegisted
  | errNotAuthed
  | errOverMaxConnection
  | errDisconnected
  | errWrongResponseFromServer
  | errAnswerLongerThanSize
  | errCreateTaskFailed
  | errTaskNotExists
  | errOverMaxTaskNum
  | errControlAuthRequested
  | errControlAuthOwneredByOthers
  deriving DecidableEq, Repr

/-- The `int` value of a return code. -/
def RtnCode.code : RtnCode → Int
  | success => 0
  | errCommon => 1
  | errTimeout => 2
  | errSysException => 3
  | errNullPointer => 4
  | errInputOversize => 5
  | errInvalideParam => 6
  | errInvalideDatatype => 7
  | errPolicyInvalide => 8
  | errGovernorInvalide => 9
  | errFreqNotInRange => 10
  | errCallbackFunctionShouldBeSetFirst => 11
  | errModifyBanUpdateAttrCurrently => 12
  | errPathNormalize => 13
  | errPathVerify => 14
  | errNotRegisted => 100
  | errNotAuthed => 101
  | errOverMaxConnection => 102
  | errDisconnected => 300
  | errWrongResponseFromServer => 301
  | errAnswerLongerThanSize => 302
  | errCreateTaskFailed => 400
  | errTaskNotExists => 401
  | errOverMaxTaskNum => 402
  | errControlAuthRequested => 403
  | errControlAuthOwneredByOthers => 404

/-- What stops a process: the memory errors the modelled functions can run
into, and an integer division by zero. -/
inductive Fault where
  /-- a NULL pointer is dereferenced -/
  | nullDeref
  /-- `free` is given an address that no allocation of this process returned -/
  | wildFree
  /-- memory outside a buffer is written or handed to the kernel -/
  | overrun
  /-- integer division by zero -/
  | divByZero
  deriving DecidableEq, Repr

theorem toOption_eq_some {α : Type} {x : Except Fault α} {a : α} (h : x.toOption = some a) :
    x = .ok a := by
  cases x with
  | error f => cases h
  | ok b => rw [Option.some.inj h]

/-! ## The message -/

/-- `enum OperationType`. -/
inductive OperationType where
  | comCreateDcTask
  | comDeleteDcTask
  | comCallbackData
  | comRequestControlAuth
  | comReleaseControlAuth
  | sysSetPowerState
  | sysGetRtPower
  | cpuGetInfo
  | cpuGetUsage
  | cpuGetPerfData
  | cpuGetFreqAbility
  | cpuGetFreqRange
  | cpuSetFreqRange
  | cpuGetFreqGovernor
  | cpuSetFreqGovernor
  | cpuGetCurFreq
  | cpuSetCurFreq
  | cpuGetDmaLatency
  | cpuSetDmaLatency
  | diskGetIoRate
  | diskGetList
  | diskGetLoad
  | diskGetPowerLevel
  | diskSetPowerLevel
  | diskGetScsiPolicy
  | diskSetScsiPolicy
  | netGetInfo
  | netGetThrough
  | netGetSpeedMod
  | netSetSpeedMod
  | usbGetAutoSuspend
  | usbSetAutoSuspend
  deriving DecidableEq, Repr

namespace OperationType

/-- The value of an operation in `head.optType`. -/
def code : OperationType → UInt16
  | comCreateDcTask => 10
  | comDeleteDcTask => 11
  | comCallbackData => 12
  | comRequestControlAuth => 13
  | comReleaseControlAuth => 14
  | sysSetPowerState => 100
  | sysGetRtPower => 101
  | cpuGetInfo => 200
  | cpuGetUsage => 201
  | cpuGetPerfData => 202
  | cpuGetFreqAbility => 203
  | cpuGetFreqRange => 204
  | cpuSetFreqRange => 205
  | cpuGetFreqGovernor => 206
  | cpuSetFreqGovernor => 207
  | cpuGetCurFreq => 208
  | cpuSetCurFreq => 209
  | cpuGetDmaLatency => 210
  | cpuSetDmaLatency => 211
  | diskGetIoRate => 300
  | diskGetList => 301
  | diskGetLoad => 302
  | diskGetPowerLevel => 303
  | diskSetPowerLevel => 304
  | diskGetScsiPolicy => 305
  | diskSetScsiPolicy => 306
  | netGetInfo => 400
  | netGetThrough => 401
  | netGetSpeedMod => 402
  | netSetSpeedMod => 403
  | usbGetAutoSuspend => 500
  | usbSetAutoSuspend => 501

/-- All operations, in the order of the enumeration. -/
def all : List OperationType :=
  [comCreateDcTask, comDeleteDcTask, comCallbackData, comRequestControlAuth,
    comReleaseControlAuth, sysSetPowerState, sysGetRtPower, cpuGetInfo, cpuGetUsage,
    cpuGetPerfData, cpuGetFreqAbility, cpuGetFreqRange, cpuSetFreqRange, cpuGetFreqGovernor,
    cpuSetFreqGovernor, cpuGetCurFreq, cpuSetCurFreq, cpuGetDmaLatency, cpuSetDmaLatency,
    diskGetIoRate, diskGetList, diskGetLoad, diskGetPowerLevel, diskSetPowerLevel,
    diskGetScsiPolicy, diskSetScsiPolicy, netGetInfo, netGetThrough, netGetSpeedMod,
    netSetSpeedMod, usbGetAutoSuspend, usbSetAutoSuspend]

/-- The operation an `optType` field stands for, if any: what a `switch` over
the enumeration tells apart. -/
def ofCode (c : UInt16) : Option OperationType := all.find? fun op => op.code = c

theorem code_of_ofCode {c : UInt16} {op : OperationType} (h : ofCode c = some op) :
    op.code = c := by
  simpa using List.find?_some h

@[simp] theorem ofCode_code (op : OperationType) : ofCode op.code = some op := by
  cases op <;> rfl

theorem ofCode_eq_some {c : UInt16} {op : OperationType} : ofCode c = some op ↔ c = op.code :=
  ⟨fun h => (code_of_ofCode h).symm, fun h => h ▸ ofCode_code op⟩

end OperationType

/-- `enum MsgType`. -/
inductive MsgType where
  /-- request -/
  | mtReq
  /-- response -/
  | mtRsp
  /-- event notification -/
  | mtEvt
  /-- metadata -/
  | mtMdt
  deriving DecidableEq, Repr

/-- The value of a message type in `head.msgType`. -/
def MsgType.code : MsgType → UInt8
  | mtReq => 1
  | mtRsp => 2
  | mtEvt => 3
  | mtMdt => 4

def fmtBin : UInt8 := 0
def majorVersion : UInt8 := 1
def minorVersion : UInt8 := 0

/-- `MAX_DATA_SIZE`: the size of the buffer a message is sent from. -/
def maxDataSize : ℕ := 4096

/-- `MsgHead`; `reserved` is the word the four reserved bytes spell. -/
structure MsgHead where
  majorVer : UInt8
  minorVer : UInt8
  optType : UInt16
  dataFormat : UInt8
  msgType : UInt8
  rspCode : UInt16
  seqId : UInt32
  taskNo : UInt32
  crcMagic : UInt32
  dataLen : UInt32
  /-- system id of the message source: its process id -/
  sysId : UInt32
  reserved : UInt32
  deriving DecidableEq, Repr

/-- The head after `bzero`. -/
def MsgHead.zero : MsgHead := ⟨0, 0, 0, 0, 0, 0, 0, 0, 0, 0, 0, 0⟩

/-- What the `data` field of a message can be. -/
inductive DataPtr where
  | null
  /-- a live buffer of this process, with what it holds -/
  | heap (addr : UInt64) (bytes : Bytes)
  /-- a non-NULL address received from the peer -/
  | wild (addr : UInt64)
  deriving DecidableEq, Repr

namespace DataPtr

/-- The pointer's value. -/
def addr : DataPtr → UInt64
  | null => 0
  | heap a _ => a
  | wild a => a

/-- A pointer that was read from the wire. -/
def ofAddr (a : UInt64) : DataPtr := if a = 0 then null else wild a

/-- `free`. -/
def free : DataPtr → Except Fault Unit
  | null => .ok ()
  | heap _ _ => .ok ()
  | wild _ => .error .wildFree

end DataPtr

/-- `PwrMsg`. -/
structure PwrMsg where
  head : MsgHead
  data : DataPtr
  deriving DecidableEq, Repr

namespace PwrMsg

/-- The bytes `data` points to. -/
def payload (m : PwrMsg) : Bytes :=
  match m.data with
  | .heap _ bs => bs
  | _ => []

/-- `data` is NULL exactly when `head.dataLen` is 0 and otherwise a buffer of
`head.dataLen` bytes, as of every message that the receive functions hand on. -/
def Holds (m : PwrMsg) : Prop :=
  match m.data with
  | .null => m.head.dataLen = 0
  | .heap a bs => a ≠ 0 ∧ m.head.dataLen ≠ 0 ∧ bs.length = m.head.dataLen.toNat
  | .wild _ => False

instance (m : PwrMsg) : Decidable m.Holds := by
  unfold Holds
  split <;> infer_instance

theorem Holds.length_payload {m : PwrMsg} (h : m.Holds) :
    m.payload.length = m.head.dataLen.toNat := by
  rcases m with ⟨head, _ | ⟨a, bs⟩ | a⟩
  · have h0 : head.dataLen = 0 := h
    simp [payload, h0]
  · exact h.2.2
  · exact h.elim

/-- A payload that is not empty is there. -/
theorem Holds.data_ne_null {m : PwrMsg} (h : m.Holds) (hlen : m.head.dataLen ≠ 0) :
    m.data ≠ .null := by
  intro hnull
  rw [Holds, hnull] at h
  exact hlen h

end PwrMsg

/-- `ReleasePwrMsg` on a message that is not NULL. -/
def releasePwrMsg (m : PwrMsg) : Except Fault Unit := m.data.free

/-- A message that owns its data is released without a fault. -/
theorem releasePwrMsg_of_holds {m : PwrMsg} (h : m.Holds) : releasePwrMsg m = .ok () := by
  rcases m with ⟨head, _ | ⟨a, bs⟩ | a⟩
  · rfl
  · rfl
  · exact h.elim

/-! ## The struct on the wire -/

def sizeofMsgHead : ℕ := 32
def sizeofPwrMsg : ℕ := 40

open Bytes

/-- The memory of a `MsgHead`. -/
def MsgHead.toBytes (h : MsgHead) : Bytes :=
  leBytes 1 h.majorVer.toNat ++ (leBytes 1 h.minorVer.toNat ++ (leBytes 2 h.optType.toNat ++
    (leBytes 1 h.dataFormat.toNat ++ (leBytes 1 h.msgType.toNat ++ (leBytes 2 h.rspCode.toNat ++
    (leBytes 4 h.seqId.toNat ++ (leBytes 4 h.taskNo.toNat ++ (leBytes 4 h.crcMagic.toNat ++
    (leBytes 4 h.dataLen.toNat ++ (leBytes 4 h.sysId.toNat ++ leBytes 4 h.reserved.toNat))))))))))

/-- The head that a struct's bytes hold, field by field at its offset. -/
def MsgHead.ofBytes (bs : Bytes) : MsgHead where
  majorVer := UInt8.ofNat (fieldAt bs 0 1)
  minorVer := UInt8.ofNat (fieldAt bs 1 1)
  optType := UInt16.ofNat (fieldAt bs 2 2)
  dataFormat := UInt8.ofNat (fieldAt bs 4 1)
  msgType := UInt8.ofNat (fieldAt bs 5 1)
  rspCode := UInt16.ofNat (fieldAt bs 6 2)
  seqId := UInt32.ofNat (fieldAt bs 8 4)
  taskNo := UInt32.ofNat (fieldAt bs 12 4)
  crcMagic := UInt32.ofNat (fieldAt bs 16 4)
  dataLen := UInt32.ofNat (fieldAt bs 20 4)
  sysId := UInt32.ofNat (fieldAt bs 24 4)
  reserved := UInt32.ofNat (fieldAt bs 28 4)

/-- The memory of a `PwrMsg`: head, then the value of the pointer. -/
def PwrMsg.structBytes (m : PwrMsg) : Bytes :=
  m.head.toBytes ++ leBytes 8 m.data.addr.toNat

/-- The `PwrMsg` that `sizeof(PwrMsg)` received bytes make. -/
def PwrMsg.ofStruct (bs : Bytes) : PwrMsg where
  head := MsgHead.ofBytes bs
  data := DataPtr.ofAddr (UInt64.ofNat (fieldAt bs 32 8))

@[simp] theorem MsgHead.length_toBytes (h : MsgHead) : h.toBytes.length = sizeofMsgHead := by
  simp [MsgHead.toBytes, sizeofMsgHead]

@[simp] theorem PwrMsg.length_structBytes (m : PwrMsg) :
    m.structBytes.length = sizeofPwrMsg := by
  simp [PwrMsg.structBytes, sizeofMsgHead, sizeofPwrMsg]

/-- A head is read back as it was laid out. -/
theorem MsgHead.ofBytes_toBytes (h : MsgHead) (bs : Bytes) :
    MsgHead.ofBytes (h.toBytes ++ bs) = h := by
  have h16 : ∀ x : UInt16, x.toNat % 256 ^ 2 = x.toNat := fun x =>
    Nat.mod_eq_of_lt (by simpa using x.toNat_lt)
  have h32 : ∀ x : UInt32, x.toNat % 256 ^ 4 = x.toNat := fun x =>
    Nat.mod_eq_of_lt (by simpa using x.toNat_lt)
  simp only [MsgHead.ofBytes, MsgHead.toBytes, List.append_assoc]
  simp [fieldAt_append, fieldAt_leBytes, -Nat.reducePow, h16, h32]

theorem PwrMsg.ofStruct_structBytes (m : PwrMsg) (bs : Bytes) :
    PwrMsg.ofStruct (m.structBytes ++ bs) = ⟨m.head, DataPtr.ofAddr m.data.addr⟩ := by
  have hptr : fieldAt (m.structBytes ++ bs) 32 8 = m.data.addr.toNat := by
    rw [structBytes, List.append_assoc, fieldAt_append _ _ _ _ (by simp [sizeofMsgHead]),
      MsgHead.length_toBytes, sizeofMsgHead, Nat.sub_self, fieldAt_leBytes]
    exact Nat.mod_eq_of_lt (by simpa using m.data.addr.toNat_lt)
  rw [ofStruct, hptr, structBytes, List.append_assoc, MsgHead.ofBytes_toBytes, UInt64.ofNat_toNat]

/-- The wire form of a message: the struct, then the payload. -/
def PwrMsg.frame (m : PwrMsg) : Bytes := m.structBytes ++ m.payload

/-! ## Building messages -/

/-- The state of `GenerateSeqId`: `g_pid` and the static counter. -/
structure MsgFactory where
  pid : UInt32
  seed : UInt16
  deriving DecidableEq, Repr

/-- `GenerateSeqId`: process id in the upper half, a wrapping counter below. -/
def generateSeqId (f : MsgFactory) : UInt32 × MsgFactory :=
  ((f.pid <<< 16) + f.seed.toUInt32, { f with seed := f.seed + 1 })

def generateCrcMagic : UInt32 := 0

/-- `GenerateReqMsgHead`. -/
def generateReqMsgHead (f : MsgFactory) (optType : OperationType) (taskNo dataLen : UInt32) :
    MsgHead × MsgFactory :=
  let (seqId, f') := generateSeqId f
  ({ MsgHead.zero with
      majorVer := majorVersion
      minorVer := minorVersion
      optType := optType.code
      dataFormat := fmtBin
      msgType := MsgType.mtReq.code
      rspCode := 0
      seqId := seqId
      taskNo := taskNo
      crcMagic := generateCrcMagic
      dataLen := dataLen
      sysId := f.pid }, f')

/-- `CreateReqMsg`, its allocation having succeeded. -/
def createReqMsg (f : MsgFactory) (optType : OperationType) (taskNo dataLen : UInt32)
    (data : DataPtr) : PwrMsg × MsgFactory :=
  let (head, f') := generateReqMsgHead f optType taskNo dataLen
  (⟨head, data⟩, f')

/-- `GenerateRspMsg`: the answer to `req`. The `int` code is stored in the
16-bit `rspCode`. -/
def generateRspMsg (req : PwrMsg) (rspCode : Int) (data : DataPtr) (dataLen : UInt32) : PwrMsg where
  head := { MsgHead.zero with
    majorVer := req.head.majorVer
    minorVer := req.head.minorVer
    optType := req.head.optType
    dataFormat := fmtBin
    msgType := MsgType.mtRsp.code
    rspCode := UInt16.ofInt rspCode
    seqId := req.head.seqId
    taskNo := req.head.taskNo
    crcMagic := generateCrcMagic
    dataLen := dataLen
    sysId := req.head.sysId }
  data := data

end PowerApi
