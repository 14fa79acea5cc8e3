import PowerApi.CpuService

/-!
# The service thread (`server.c`, `comservice.c`, `taskservice.c`)

`processReqMsg` serves one request: it hands it to the handler of its operation,
which queues a response for the client, and releases it. The client library
offers more operations than there are handlers. `responds_processReqMsg` is what
the rest of the development needs to know about it: a request changes authority
and tasks as `decided` says, and queues at most one response.
-/

namespace PowerApi

open Bytes

namespace Server

/-! ## Responses -/

/-- `SendRspToClient`. -/
def sendRspToClient (srv : Server) (m : Machine) (req : PwrMsg) (rspCode : Int) (data : DataPtr)
    (len : UInt32) : Except Fault Server := do
  if data = .null ∧ len ≠ 0 then return srv
  else if m.rspOk = false then
    data.free
    return srv
  else srv.addToSendBuff (generateRspMsg req rspCode data len)

/-- The common end of the handlers that answer with data: a block of memory is
allocated, a reader fills it, and it goes into the response. -/
def sendReading (srv : Server) (m : Machine) (req : PwrMsg) {size : ℕ}
    (read : Except Fault (Reading size)) : Except Fault Server := do
  if m.rspData = 0 then return srv
  else
    let reading ← read
    srv.sendRspToClient m req reading.code (.heap m.rspData reading.data) (UInt32.ofNat size)

/-! ## Handlers -/

/-- `sizeof(PWR_COM_BasicDcTaskInfo)`: the data type and the interval. -/
def sizeofBasicDcTaskInfo : UInt32 := 8

/-- `sizeof(PWR_COM_COL_DATATYPE)`. -/
def sizeofColDatatype : UInt32 := 4

/-- The `PWR_COM_BasicDcTaskInfo` in a payload. -/
def basicDcTaskInfoOf (data : Bytes) : BasicDcTaskInfo where
  dataType := UInt32.ofNat (fieldAt data 0 4)
  interval := intArg (UInt32.ofNat (fieldAt data 4 4))

/-- `CreateDataCollTask`. -/
def createDataCollTask (srv : Server) (m : Machine) (req : PwrMsg) : Except Fault Server := do
  if req.head.dataLen ≠ sizeofBasicDcTaskInfo then return srv
  else
    let data ← req.data.deref
    let (rspCode, tasks) := srv.tasks.createTask (basicDcTaskInfoOf data) req.head.sysId m.create
    { srv with tasks := tasks }.sendRspToClient m req rspCode.code .null 0

/-- `DeleteDataCollTask`. -/
def deleteDataCollTask (srv : Server) (m : Machine) (req : PwrMsg) : Except Fault Server := do
  if req.head.dataLen ≠ sizeofColDatatype then return srv
  else
    let data ← req.data.deref
    let (rspCode, tasks) := srv.tasks.deleteTask (UInt32.ofNat (fieldAt data 0 4)) req.head.sysId
    { srv with tasks := tasks }.sendRspToClient m req rspCode.code .null 0

/-- `RequestControlAuth`. -/
def requestControlAuth (srv : Server) (m : Machine) (req : PwrMsg) : Except Fault Server :=
  let (rspCode, auth) := srv.auth.doAuthRequest req.head.sysId
  { srv with auth := auth }.sendRspToClient m req rspCode.code .null 0

/-- `ReleaseControlAuth`. -/
def releaseControlAuth (srv : Server) (m : Machine) (req : PwrMsg) : Except Fault Server :=
  let (rspCode, auth) := srv.auth.doAuthRelease req.head.sysId
  { srv with auth := auth }.sendRspToClient m req rspCode.code .null 0

/-- `SetSysPowerState`; it spells `SendRspToClient` out. -/
def setSysPowerState (srv : Server) (m : Machine) (req : PwrMsg) : Except Fault Server := do
  let rspCode ← m.powerSet req.data
  if m.rspOk = false then return srv
  else srv.addToSendBuff (generateRspMsg req rspCode .null 0)

/-- `GetSysRtPowerInfo`. -/
def getSysRtPowerInfo (srv : Server) (m : Machine) (req : PwrMsg) : Except Fault Server :=
  srv.sendReading m req m.sysRtPowerRead

/-- `GetCpuinfo`. -/
def getCpuinfo (srv : Server) (m : Machine) (req : PwrMsg) : Except Fault Server :=
  srv.sendReading m req m.cpuInfoRead

/-- `GetCpuUsage`. -/
def getCpuUsage (srv : Server) (m : Machine) (req : PwrMsg) : Except Fault Server :=
  srv.sendReading m req m.cpuUsageRead

/-- `GetCpuPerfData`. -/
def getCpuPerfData (srv : Server) (m : Machine) (req : PwrMsg) : Except Fault Server :=
  srv.sendReading m req m.perfDataRead

/-- `GetCpuFreqGovernor`. -/
def getCpuFreqGovernor (srv : Server) (m : Machine) (req : PwrMsg) : Except Fault Server :=
  srv.sendReading m req (.ok m.currentGovernorRead)

/-- `GetCpuFreqRange`. -/
def getCpuFreqRange (srv : Server) (m : Machine) (req : PwrMsg) : Except Fault Server :=
  srv.sendReading m req (.ok m.freqRangeRead)

/-- `SetCpuFreqGovernor`. Where `GetPolicys` fails, the names are empty and their
number was never set. -/
def setCpuFreqGovernor (srv : Server) (m : Machine) (req : PwrMsg) : Except Fault Server := do
  let policys := (← m.getPolicys).getD (List.replicate m.stalePoNum [])
  let rspCode ← m.governorSet req.data policys
  srv.sendRspToClient m req rspCode .null 0

/-- The policies that `GetCpuFreq` reads, or the error it answers with. -/
def targetPolicys (m : Machine) (req : PwrMsg) : Except Fault (Int × List Bytes) := do
  if req.head.dataLen > 0 ∧ req.data ≠ .null then
    -- spec = 1
    let data ← req.data.deref
    let target ← m.mergeDuplicatePolicys
      (Machine.curFreqs data (req.head.dataLen.toNat / sizeofCurFreq))
    if (← m.checkPolicys target) ≠ 0 then return (RtnCode.errPolicyInvalide.code, [])
    else return (0, ← Machine.inputTargetPolicys target)
  else if req.head.dataLen > 0 then return (RtnCode.errInvalideParam.code, [])
  else
    -- spec = 0
    match ← m.getPolicys with
    | none => return (RtnCode.errCommon.code, [])
    | some policys => return (0, policys)

/-- `GetCpuFreq`. -/
def getCpuFreq (srv : Server) (m : Machine) (req : PwrMsg) : Except Fault Server := do
  let (rspCode, policys) ← targetPolicys m req
  if rspCode ≠ 0 then srv.sendRspToClient m req rspCode .null 0
  else srv.sendReading m req (m.freqRead policys)

/-- The first part of `SetCpuFreq`: check whether current governor is userspace. -/
def checkUserspace (m : Machine) (target : List Machine.CurFreq) : Except Fault Int := do
  if m.currentGovernorRead.code ≠ RtnCode.success.code then return RtnCode.errCommon.code
  else if (← m.checkPolicys target) = 1 then return RtnCode.errPolicyInvalide.code
  else if cString m.currentGovernorRead.data ≠ text "userspace" then
    return RtnCode.errGovernorInvalide.code
  else return 0

/-- Its second part: check whether frequency is in range. -/
def checkInRange (m : Machine) (target : List Machine.CurFreq) (rspCode : Int) : Int :=
  if m.freqRangeRead.code ≠ 0 then RtnCode.errCommon.code
  else if Machine.checkFreqInRange target (Machine.freqRangeOf m.freqRangeRead.data) ≠ 0 then
    RtnCode.errFreqNotInRange.code
  else rspCode

/-- `SetCpuFreq`. An array of length 0 comes with a NULL pointer. -/
def setCpuFreq (srv : Server) (m : Machine) (req : PwrMsg) : Except Fault Server := do
  let target := Machine.curFreqs req.payload (req.head.dataLen.toNat / sizeofCurFreq)
  let rspCode := checkInRange m target (← checkUserspace m target)
  if rspCode ≠ 0 then srv.sendRspToClient m req rspCode .null 0
  else srv.sendRspToClient m req (m.freqSet target) .null 0

/-- `GetCpuFreqAbility`. -/
def getCpuFreqAbility (srv : Server) (m : Machine) (req : PwrMsg) : Except Fault Server := do
  match ← m.getPolicys with
  | none => srv.sendRspToClient m req RtnCode.errCommon.code .null 0
  | some policys =>
    let poNum := policys.length
    if poNum = 0 then throw .divByZero
    else
      let step := m.coreNum / poNum * maxCpuIdWidth + 4
      let size := sizeofFreqAbility + step * poNum
      if m.rspData = 0 then return srv
      else
        let rspCode ← m.freqAbilityRead policys step
        srv.sendRspToClient m req rspCode (.heap m.rspData (m.freqAbility size).data)
          (UInt32.ofNat size)

/-- `SetCpuFreqRange`. -/
def setCpuFreqRange (srv : Server) (m : Machine) (req : PwrMsg) : Except Fault Server := do
  let rspCode ← m.freqRangeSet req.data
  srv.sendRspToClient m req rspCode .null 0

/-- The `switch` of `ProcessReqMsg`. -/
def dispatch (srv : Server) (m : Machine) (req : PwrMsg) : Except Fault Server :=
  match OperationType.ofCode req.head.optType with
  | some .comCreateDcTask => srv.createDataCollTask m req
  | some .comDeleteDcTask => srv.deleteDataCollTask m req
  | some .comRequestControlAuth => srv.requestControlAuth m req
  | some .comReleaseControlAuth => srv.releaseControlAuth m req
  | some .sysSetPowerState => srv.setSysPowerState m req
  | some .sysGetRtPower => srv.getSysRtPowerInfo m req
  | some .cpuGetUsage => srv.getCpuUsage m req
  | some .cpuGetPerfData => srv.getCpuPerfData m req
  | some .cpuGetInfo => srv.getCpuinfo m req
  | some .cpuGetFreqGovernor => srv.getCpuFreqGovernor m req
  | some .cpuSetFreqGovernor => srv.setCpuFreqGovernor m req
  | some .cpuGetCurFreq => srv.getCpuFreq m req
  | some .cpuSetCurFreq => srv.setCpuFreq m req
  | some .cpuGetFreqAbility => srv.getCpuFreqAbility m req
  | some .cpuGetFreqRange => srv.getCpuFreqRange m req
  | some .cpuSetFreqRange => srv.setCpuFreqRange m req
  | _ => .ok srv

/-- `ProcessReqMsg`. -/
def processReqMsg (srv : Server) (m : Machine) (req : PwrMsg) : Except Fault Server := do
  let srv ← srv.dispatch m req
  releasePwrMsg req
  return srv

/-! ## What a request does to the server -/

/-- The server with the authority and the tasks as the handler of a request leaves
them; its other variables are not touched. -/
def decided (srv : Server) (m : Machine) (req : PwrMsg) : Server :=
  match OperationType.ofCode req.head.optType with
  | some .comCreateDcTask =>
    if req.head.dataLen ≠ sizeofBasicDcTaskInfo then srv
    else { srv with
      tasks := (srv.tasks.createTask (basicDcTaskInfoOf req.payload) req.head.sysId m.create).2 }
  | some .comDeleteDcTask =>
    if req.head.dataLen ≠ sizeofColDatatype then srv
    else { srv with
      tasks := (srv.tasks.deleteTask (UInt32.ofNat (fieldAt req.payload 0 4)) req.head.sysId).2 }
  | some .comRequestControlAuth => { srv with auth := (srv.auth.doAuthRequest req.head.sysId).2 }
  | some .comReleaseControlAuth => { srv with auth := (srv.auth.doAuthRelease req.head.sysId).2 }
  | _ => srv

/-- The code of the response that a request for or a release of the authority gets;
none for other requests. -/
def authCode (srv : Server) (req : PwrMsg) : Option RtnCode :=
  match OperationType.ofCode req.head.optType with
  | some .comRequestControlAuth => some (srv.auth.doAuthRequest req.head.sysId).1
  | some .comReleaseControlAuth => some (srv.auth.doAuthRelease req.head.sysId).1
  | _ => none

/-- A response code that the authority does not contradict. -/
def CodeFits (srv : Server) (req : PwrMsg) (rspCode : Int) : Prop :=
  ∀ code ∈ srv.authCode req, rspCode = code.code

/-- `srv'` is `srv` with at most one more message to send, a response to `req` with
such a code. -/
def Responds (req : PwrMsg) (ok : Int → Prop) (srv srv' : Server) : Prop :=
  srv' = srv ∨ ∃ rspCode data len, ok rspCode ∧
    srv' = { srv with sendBuff := enqueue srv.sendBuff (generateRspMsg req rspCode data len) }

theorem addToSendBuff_ok {srv srv' : Server} {msg : PwrMsg} (h : srv.addToSendBuff msg = .ok srv') :
    srv' = { srv with sendBuff := enqueue srv.sendBuff msg } := by
  unfold addToSendBuff at h
  dsimp only at h
  split at h <;> rename_i hrel
  · rename_i m
    cases hfree : releasePwrMsg m with
    | error f =>
      rw [hfree] at h
      cases h
    | ok u =>
      rw [hfree] at h
      exact (Except.ok.inj h).symm
  · exact (Except.ok.inj h).symm

section Responds

variable {srv srv' : Server} {m : Machine} {req : PwrMsg} {ok : Int → Prop}

theorem responds_sendRsp {rspCode : Int} {data : DataPtr} {len : UInt32}
    (h : srv.sendRspToClient m req rspCode data len = .ok srv') (hok : ok rspCode) :
    Responds req ok srv srv' := by
  unfold sendRspToClient at h
  split at h
  · exact .inl (Except.ok.inj h).symm
  · split at h
    · obtain ⟨u, -, hsrv⟩ := bind_eq_ok.mp h
      exact .inl (Except.ok.inj hsrv).symm
    · exact .inr ⟨rspCode, data, len, hok, addToSendBuff_ok h⟩

theorem responds_sendReading {size : ℕ} {read : Except Fault (Reading size)}
    (h : srv.sendReading m req read = .ok srv') (hok : ∀ c, ok c) :
    Responds req ok srv srv' := by
  unfold sendReading at h
  split at h
  · exact .inl (Except.ok.inj h).symm
  · obtain ⟨reading, -, hsend⟩ := bind_eq_ok.mp h
    exact responds_sendRsp hsend (hok _)

theorem responds_code {x : Except Fault Int}
    (h : (x >>= fun rspCode => srv.sendRspToClient m req rspCode .null 0) = .ok srv')
    (hok : ∀ c, ok c) : Responds req ok srv srv' := by
  obtain ⟨rspCode, -, hsend⟩ := bind_eq_ok.mp h
  exact responds_sendRsp hsend (hok rspCode)

theorem responds_setSysPowerState (h : srv.setSysPowerState m req = .ok srv') (hok : ∀ c, ok c) :
    Responds req ok srv srv' := by
  obtain ⟨rspCode, -, hsend⟩ := bind_eq_ok.mp h
  split at hsend
  · exact .inl (Except.ok.inj hsend).symm
  · exact .inr ⟨rspCode, .null, 0, hok _, addToSendBuff_ok hsend⟩

theorem responds_getCpuFreq (h : srv.getCpuFreq m req = .ok srv') (hok : ∀ c, ok c) :
    Responds req ok srv srv' := by
  obtain ⟨⟨rspCode, policys⟩, -, hsend⟩ := bind_eq_ok.mp h
  dsimp only at hsend
  split at hsend
  · exact responds_sendRsp hsend (hok _)
  · exact responds_sendReading hsend hok

theorem responds_setCpuFreq (h : srv.setCpuFreq m req = .ok srv') (hok : ∀ c, ok c) :
    Responds req ok srv srv' := by
  obtain ⟨rspCode, -, hsend⟩ := bind_eq_ok.mp h
  dsimp only at hsend
  split at hsend
  · exact responds_sendRsp hsend (hok _)
  · exact responds_sendRsp hsend (hok _)

theorem responds_getCpuFreqAbility (h : srv.getCpuFreqAbility m req = .ok srv')
    (hok : ∀ c, ok c) : Responds req ok srv srv' := by
  obtain ⟨policys, -, hsend⟩ := bind_eq_ok.mp h
  cases policys with
  | none => exact responds_sendRsp hsend (hok _)
  | some policys =>
    dsimp only at hsend
    split at hsend
    · cases hsend
    · split at hsend
      · exact .inl (Except.ok.inj hsend).symm
      · obtain ⟨rspCode, -, hsend⟩ := bind_eq_ok.mp hsend
        exact responds_sendRsp hsend (hok _)

/-- A request about a task is passed over if it has not the right length. -/
theorem responds_task {size : UInt32} (f : Bytes → RtnCode × TaskReg)
    (h : (do
      if req.head.dataLen ≠ size then return srv
      else
        let data ← req.data.deref
        let (rspCode, tasks) := f data
        { srv with tasks := tasks }.sendRspToClient m req rspCode.code .null 0) = .ok srv')
    (hok : ∀ c, ok c) :
    Responds req ok
      (if req.head.dataLen ≠ size then srv else { srv with tasks := (f req.payload).2 }) srv' := by
  split at h
  · rw [if_pos ‹_›]
    exact .inl (Except.ok.inj h).symm
  · rw [if_neg ‹_›]
    obtain ⟨data, hdata, hsend⟩ := bind_eq_ok.mp h
    rw [DataPtr.payload_of_deref hdata]
    exact responds_sendRsp hsend (hok _)

/-- A handler decides about authority and tasks first, and then responds at most once. -/
theorem responds_dispatch (h : srv.dispatch m req = .ok srv') :
    Responds req (srv.CodeFits req) (srv.decided m req) srv' := by
  unfold dispatch at h
  unfold decided CodeFits authCode
  cases hop : OperationType.ofCode req.head.optType with
  | none =>
    rw [hop] at h
    exact .inl (Except.ok.inj h).symm
  | some op =>
    rw [hop] at h
    cases op with
    | comCreateDcTask =>
      exact responds_task (fun data =>
        srv.tasks.createTask (basicDcTaskInfoOf data) req.head.sysId m.create) h nofun
    | comDeleteDcTask =>
      exact responds_task (fun data =>
        srv.tasks.deleteTask (UInt32.ofNat (fieldAt data 0 4)) req.head.sysId) h nofun
    | comRequestControlAuth =>
      exact responds_sendRsp h fun code hcode => congrArg RtnCode.code (Option.some.inj hcode)
    | comReleaseControlAuth =>
      exact responds_sendRsp h fun code hcode => congrArg RtnCode.code (Option.some.inj hcode)
    | sysSetPowerState => exact responds_setSysPowerState h nofun
    | cpuSetFreqGovernor =>
      obtain ⟨policys, -, hset⟩ := bind_eq_ok.mp h
      exact responds_code hset nofun
    | cpuGetCurFreq => exact responds_getCpuFreq h nofun
    | cpuSetCurFreq => exact responds_setCpuFreq h nofun
    | cpuGetFreqAbility => exact responds_getCpuFreqAbility h nofun
    | cpuSetFreqRange => exact responds_code h nofun
    | sysGetRtPower => exact responds_sendReading h nofun
    | cpuGetUsage => exact responds_sendReading h nofun
    | cpuGetPerfData => exact responds_sendReading h nofun
    | cpuGetInfo => exact responds_sendReading h nofun
    | cpuGetFreqGovernor => exact responds_sendReading h nofun
    | cpuGetFreqRange => exact responds_sendReading h nofun
    | _ => exact .inl (Except.ok.inj h).symm

/-- What a request does to the server. -/
theorem responds_processReqMsg (h : srv.processReqMsg m req = .ok srv') :
    Responds req (srv.CodeFits req) (srv.decided m req) srv' := by
  obtain ⟨srv₁, hdispatch, hrelease⟩ := bind_eq_ok.mp h
  obtain ⟨u, -, hsrv⟩ := bind_eq_ok.mp hrelease
  obtain rfl := Except.ok.inj hsrv
  exact responds_dispatch hdispatch

/-- A request changes neither the client table nor the queue of requests. -/
theorem processReqMsg_frame (h : srv.processReqMsg m req = .ok srv') :
    srv'.pwrClients = srv.pwrClients ∧ srv'.recvBuff = srv.recvBuff := by
  have hdecided : (srv.decided m req).pwrClients = srv.pwrClients ∧
      (srv.decided m req).recvBuff = srv.recvBuff := by
    unfold decided
    split
    · split <;> exact ⟨rfl, rfl⟩
    · split <;> exact ⟨rfl, rfl⟩
    · exact ⟨rfl, rfl⟩
    · exact ⟨rfl, rfl⟩
    · exact ⟨rfl, rfl⟩
  obtain rfl | ⟨rspCode, data, len, -, rfl⟩ := responds_processReqMsg h
  · exact hdecided
  · exact hdecided

end Responds

end Server

end PowerApi
