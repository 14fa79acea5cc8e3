import PowerApi.Framing
import PowerApi.Metadata
import PowerApi.CpuService

/-!
# From a collection task to the callback (`taskservice.c`, `sockclient.c`)

A collection task reads data into a `PWR_COM_CallbackData`, behind a head with the time, the
type and the length of the data, and sends a copy to each subscriber. The client library
checks the lengths and gives the callback a pointer to what it received.

`samples_delivered` says that it all fits together: of the messages that the server queues
for a client, samples and responses in any order, the callback gets exactly the samples, in
order, with the time, the type and all of the data, however `send` and `recv` cut the stream.
-/

namespace PowerApi

open Bytes

/-- `sizeof(PWR_COM_CallbackData)`: 25 bytes of time, 3 of padding, two `int`s. -/
def sizeofCallbackData : ℕ := 36

/-- `MAX_TIME_LEN`. -/
def maxTimeLen : ℕ := 25

/-- `PWR_COM_COL_DATATYPE`. -/
def datatypeCpuPerf : UInt32 := 1
def datatypeCpuUsage : UInt32 := 2

/-! ## The server's side -/

/-- `GetCurFullTime`: a text that does not fit is not stored. -/
def getCurFullTime (strTime : Bytes) : Bytes :=
  if maxTimeLen - 1 < strTime.length then [] else strTime

/-- `CreateMedataObject`, its allocation having succeeded. -/
def createMedataObject (dataLen : ℕ) (dataType : UInt32) (strTime : Bytes) : Bytes :=
  let ctime := getCurFullTime strTime
  let dLen := dataLen - sizeofCallbackData
  ctime ++ List.replicate (28 - ctime.length) 0 ++ leBytes 4 dataType.toNat ++ leBytes 4 dLen ++
    List.replicate dLen 0

/-- The object after a reader has filled `callbackData->data`. -/
def fillData (callbackData data : Bytes) : Bytes := callbackData.take sizeofCallbackData ++ data

/-- What `TaskProcessCpuPerf` and `TaskProcessCpuUsage` have in common: the data that are sent
to the subscribers, if any. -/
def taskProcess {size : ℕ} (mallocOk : Bool) (dataType : UInt32) (strTime : Bytes)
    (reading : Reading size) : Option Bytes :=
  if mallocOk = false then none
  else
    let callbackData := createMedataObject (sizeofCallbackData + size) dataType strTime
    if reading.code ≠ RtnCode.success.code then none
    else some (fillData callbackData reading.data)

/-- `TaskProcessCpuPerf`. -/
def taskProcessCpuPerf (mallocOk : Bool) (m : Machine) (strTime : Bytes) :
    Except Fault (Option Bytes) :=
  if mallocOk = false then .ok none
  else m.perfDataRead.map (taskProcess mallocOk datatypeCpuPerf strTime)

/-- `TaskProcessCpuUsage`. -/
def taskProcessCpuUsage (mallocOk : Bool) (m : Machine) (strTime : Bytes) :
    Except Fault (Option Bytes) :=
  if mallocOk = false then .ok none
  else m.cpuUsageRead.map (taskProcess mallocOk datatypeCpuUsage strTime)

/-! ## The client's side -/

/-- `PWR_COM_CallbackData`, as far as a callback can rely on it. -/
structure CallbackData where
  ctime : Bytes
  dataType : UInt32
  data : Bytes
  deriving DecidableEq

/-- What a callback reads through the pointer that it gets. Reading `dataLen` bytes of data
can go past the end of the message. -/
def CallbackData.read (mem : Bytes) : Except Fault CallbackData :=
  if mem.length < sizeofCallbackData + fieldAt mem 32 4 then .error .overrun
  else .ok {
    ctime := cString (mem.take maxTimeLen)
    dataType := UInt32.ofNat (fieldAt mem 28 4)
    data := (mem.drop sizeofCallbackData).take (fieldAt mem 32 4) }

/-- `DoDataCallback`: what the callback reads, if it is called. -/
def doDataCallback (msg : PwrMsg) : Except Fault (Option CallbackData) := do
  if msg.head.dataLen.toNat < sizeofCallbackData then
    releasePwrMsg msg
    return none
  else
    let mem ← msg.data.deref
    if intArg (UInt32.ofNat (fieldAt mem 32 4)) ≤ 0 then
      releasePwrMsg msg
      return none
    else
      let callBackData ← CallbackData.read mem
      releasePwrMsg msg
      return some callBackData

/-- `ProcessOtherMsg`. -/
def processOtherMsg (msg : PwrMsg) : Except Fault (Option CallbackData) := do
  if msg.head.optType = OperationType.comCallbackData.code then doDataCallback msg
  else
    releasePwrMsg msg
    return none

/-- What the callback reads of some received messages, one after the other. -/
def callbacks : List Delivery → Except Fault (List CallbackData)
  | [] => return []
  | .rsp _ :: ds => callbacks ds
  | .other msg :: ds => do
    let callBackData ← processOtherMsg msg
    return callBackData.toList ++ (← callbacks ds)

/-! ## A sample -/

/-- What a collection task has read for a subscriber. -/
structure Sample where
  sysId : UInt32
  strTime : Bytes
  dataType : UInt32
  data : Bytes

/-- The length of the object is an `int`, there are data, and the time is a string. -/
structure Sample.WF (x : Sample) : Prop where
  data_ne : x.data ≠ []
  length_lt : sizeofCallbackData + x.data.length < 2 ^ 31
  time : ∀ c ∈ x.strTime, c ≠ 0

/-- The bytes that are sent. -/
def Sample.object (x : Sample) : Bytes :=
  fillData (createMedataObject (sizeofCallbackData + x.data.length) x.dataType x.strTime) x.data

/-- What the callback is to read. -/
def Sample.callbackData (x : Sample) : CallbackData :=
  ⟨getCurFullTime x.strTime, x.dataType, x.data⟩

/-- What a task collects is the object of a sample. -/
theorem taskProcess_eq {size : ℕ} {dataType : UInt32} {strTime : Bytes} {reading : Reading size}
    {bytes : Bytes} {mallocOk : Bool}
    (h : taskProcess mallocOk dataType strTime reading = some bytes) (sysId : UInt32) :
    bytes = Sample.object ⟨sysId, strTime, dataType, reading.data⟩ := by
  unfold taskProcess at h
  split at h
  · cases h
  · split at h
    · cases h
    · rw [← Option.some.inj h, Sample.object, reading.length_data]

theorem length_getCurFullTime (strTime : Bytes) : (getCurFullTime strTime).length ≤ 24 := by
  unfold getCurFullTime maxTimeLen
  split
  · exact Nat.zero_le _
  · omega

/-- The head of the object, field by field. -/
theorem object_eq (x : Sample) : x.object =
    getCurFullTime x.strTime ++ List.replicate (28 - (getCurFullTime x.strTime).length) 0 ++
      leBytes 4 x.dataType.toNat ++ leBytes 4 x.data.length ++ x.data := by
  have htime := length_getCurFullTime x.strTime
  rw [Sample.object, fillData, createMedataObject, Nat.add_sub_cancel_left]
  congr 1
  rw [List.take_append_of_le_length (by simp [sizeofCallbackData]; omega)]
  exact List.take_of_length_le (by simp [sizeofCallbackData]; omega)

theorem length_object (x : Sample) : x.object.length = sizeofCallbackData + x.data.length := by
  have htime := length_getCurFullTime x.strTime
  rw [object_eq]
  simp [sizeofCallbackData]
  omega

theorem length_ctime (strTime : Bytes) : (getCurFullTime strTime ++
    List.replicate (28 - (getCurFullTime strTime).length) (0 : UInt8)).length = 28 := by
  have htime := length_getCurFullTime strTime
  rw [List.length_append, List.length_replicate]
  omega

theorem fieldAt_dataLen {x : Sample} (h : x.WF) : fieldAt x.object 32 4 = x.data.length := by
  have hctime := length_ctime x.strTime
  have hlen := h.length_lt
  rw [object_eq, List.append_assoc,
    fieldAt_append _ _ _ _ (by rw [List.length_append, hctime]; simp), List.length_append, hctime,
    length_leBytes, fieldAt_leBytes]
  exact Nat.mod_eq_of_lt (by omega)

/-- The callback reads what was collected. -/
theorem read_object {x : Sample} (h : x.WF) : CallbackData.read x.object = .ok x.callbackData := by
  have htime := length_getCurFullTime x.strTime
  have hlen := h.length_lt
  have hsize : (sizeofCallbackData : ℕ) = 36 := rfl
  have hctime := length_ctime x.strTime
  have hdata := fieldAt_dataLen h
  have htype : fieldAt x.object 28 4 = x.dataType.toNat := by
    rw [object_eq, List.append_assoc, List.append_assoc, fieldAt_append _ _ _ _ hctime.le, hctime,
      fieldAt_leBytes]
    exact Nat.mod_eq_of_lt x.dataType.toNat_lt
  have hdrop : x.object.drop sizeofCallbackData = x.data := by
    rw [object_eq]
    exact List.drop_left' (by simp [hsize]; omega)
  have htake : cString (x.object.take maxTimeLen) = getCurFullTime x.strTime := by
    have hzero : ∀ c ∈ getCurFullTime x.strTime, c ≠ 0 := by
      unfold getCurFullTime
      split
      · simp
      · exact h.time
    obtain ⟨k, hk⟩ : ∃ k, maxTimeLen - (getCurFullTime x.strTime).length = k + 1 :=
      ⟨24 - (getCurFullTime x.strTime).length, by rw [maxTimeLen]; omega⟩
    rw [object_eq, List.append_assoc, List.append_assoc, List.take_append_of_le_length
      (by rw [hctime]; decide), List.take_append,
      List.take_of_length_le (by rw [maxTimeLen]; omega), hk, List.take_replicate,
      Nat.min_eq_left (by rw [maxTimeLen] at hk; omega), List.replicate_succ]
    exact cString_append_zero hzero
  rw [CallbackData.read, if_neg (by rw [length_object, hdata]; omega), hdata, htype, hdrop, htake,
    List.take_length]
  simp [Sample.callbackData]

/-! ## Samples and responses on their way -/

/-- What the server queues for its clients. -/
inductive Item where
  /-- `SendMetadataToClient` with a copy of the object at `addr` -/
  | sample (x : Sample) (f : MsgFactory) (addr : UInt64)
  /-- a response -/
  | rsp (m : PwrMsg)

namespace Item

/-- The message. -/
def msg : Item → PwrMsg
  | sample x f addr =>
    (generateMetadataMsg f x.sysId (.heap addr x.object) (UInt32.ofNat x.object.length)).1
  | rsp m => m

/-- What the callback is to read of it. -/
def callback : Item → Option CallbackData
  | sample x _ _ => some x.callbackData
  | rsp _ => none

def WF : Item → Prop
  | sample x _ _ => x.WF
  | rsp m => m.head.msgType = MsgType.mtRsp.code

end Item

/-- `RecvMsgFromSocket` decides by the type of the message who gets it. -/
theorem ClientSock.ofMsg_of_recv {c c' : ClientSock} {mem : ClientAlloc} {conn conn' : Conn}
    {d : Delivery} (h : c.recvMsgFromSocket mem conn = .ok (some d, c', conn')) :
    d = Delivery.ofMsg d.msg := by
  unfold recvMsgFromSocket at h
  split at h
  · cases h
  dsimp only at h
  split at h
  · obtain ⟨u, -, h⟩ := bind_eq_ok.mp h
    cases h
  split at h
  · split at h
    · obtain ⟨u, -, h⟩ := bind_eq_ok.mp h
      cases h
    split at h
    · obtain ⟨u, -, h⟩ := bind_eq_ok.mp h
      cases h
    · obtain rfl := Option.some.inj (congrArg Prod.fst (Except.ok.inj h))
      rw [Delivery.msg_ofMsg]
  · obtain rfl := Option.some.inj (congrArg Prod.fst (Except.ok.inj h))
    rw [Delivery.msg_ofMsg]

theorem ClientSock.ofMsg_of_recvMsgs {mem : ℕ → ClientAlloc} {n : ℕ} {c c' : ClientSock}
    {conn conn' : Conn} {ds : List Delivery}
    (h : ClientSock.recvMsgs mem n c conn = .ok (ds, c', conn')) :
    ∀ d ∈ ds, d = Delivery.ofMsg d.msg := by
  induction n generalizing c c' conn conn' ds with
  | zero =>
    obtain rfl := congrArg Prod.fst (Except.ok.inj h)
    exact fun d hd => absurd hd List.not_mem_nil
  | succ n ih =>
    obtain ⟨⟨d, c₁, conn₁⟩, hfirst, h⟩ := bind_eq_ok.mp h
    obtain ⟨⟨ds₁, c₂, conn₂⟩, hrest, h⟩ := bind_eq_ok.mp h
    obtain rfl := congrArg Prod.fst (Except.ok.inj h)
    intro d' hd'
    rcases List.mem_append.mp hd' with hd' | hd'
    · obtain rfl := Option.mem_toList.mp hd'
      exact ClientSock.ofMsg_of_recv hfirst
    · exact ih hrest d' hd'

/-- A sample that is received is given to the callback. -/
theorem processOtherMsg_sample {x : Sample} (hx : x.WF) {f : MsgFactory} {addr : UInt64}
    {msg : PwrMsg} (h : contents msg = contents (Item.sample x f addr).msg) :
    processOtherMsg msg = .ok (some x.callbackData) := by
  have hlen := hx.length_lt
  have hsize : (sizeofCallbackData : ℕ) = 36 := rfl
  obtain ⟨head, data⟩ := msg
  obtain ⟨hhead, hpayload⟩ := Prod.mk.inj h
  have hne : x.object ≠ [] := fun hnil => by
    have hobject := length_object x
    rw [hnil, List.length_nil] at hobject
    omega
  obtain ⟨a, rfl⟩ : ∃ a, data = .heap a x.object := by
    cases data with
    | null => exact absurd hpayload.symm hne
    | heap a bs => exact ⟨a, congrArg (DataPtr.heap a) hpayload⟩
    | wild a => exact absurd hpayload.symm hne
  obtain rfl : head = (Item.sample x f addr).msg.head := hhead
  have hdataLen : (Item.sample x f addr).msg.head.dataLen.toNat =
      sizeofCallbackData + x.data.length := by
    change (UInt32.ofNat x.object.length).toNat = _
    rw [UInt32.toNat_ofNat', length_object]
    exact Nat.mod_eq_of_lt (by omega)
  have hfield := fieldAt_dataLen hx
  have hpos : 0 < x.data.length := List.length_pos_iff.mpr hx.data_ne
  have hint : ¬ intArg (UInt32.ofNat (fieldAt x.object 32 4)) ≤ 0 := by
    have hval : (UInt32.ofNat (fieldAt x.object 32 4)).toNat = x.data.length := by
      rw [UInt32.toNat_ofNat', hfield]
      exact Nat.mod_eq_of_lt (by omega)
    rw [intArg_of_lt (by omega), hval]
    omega
  have hopt : (Item.sample x f addr).msg.head.optType = OperationType.comCallbackData.code := rfl
  have hlong : ¬ (Item.sample x f addr).msg.head.dataLen.toNat < sizeofCallbackData := by omega
  rw [processOtherMsg, if_pos hopt, doDataCallback, if_neg hlong]
  dsimp only [DataPtr.deref, bind, Except.bind]
  rw [if_neg hint, read_object hx]
  rfl

/-- The callback reads the samples among the received messages, in order. -/
theorem callbacks_items {items : List Item} (hwf : ∀ i ∈ items, i.WF) {ds : List Delivery}
    (hof : ∀ d ∈ ds, d = Delivery.ofMsg d.msg)
    (h : ds.map (contents ∘ Delivery.msg) = (items.map Item.msg).map contents) :
    callbacks ds = .ok (items.filterMap Item.callback) := by
  induction items generalizing ds with
  | nil =>
    obtain rfl := List.map_eq_nil_iff.mp h
    rfl
  | cons i items ih =>
    obtain ⟨d, ds, rfl⟩ := List.exists_cons_of_ne_nil
      (fun hnil : ds = [] => by rw [hnil] at h; cases h)
    rw [List.map_cons, List.map_cons, List.map_cons, List.cons.injEq] at h
    obtain ⟨hfirst, hrest⟩ := h
    have htail := ih (fun j hj => hwf j (List.mem_cons_of_mem i hj))
      (fun d' hd' => hof d' (List.mem_cons_of_mem d hd')) hrest
    have hhead : d.msg.head = i.msg.head := congrArg Prod.fst hfirst
    have hd := hof d List.mem_cons_self
    cases i with
    | rsp m =>
      have htype : d.msg.head.msgType = MsgType.mtRsp.code := by
        rw [hhead]
        exact hwf (.rsp m) List.mem_cons_self
      rw [hd, Delivery.ofMsg, if_pos htype, callbacks, htail]
      rfl
    | sample x f addr =>
      have htype : d.msg.head.msgType ≠ MsgType.mtRsp.code := by
        rw [hhead]
        change MsgType.mtMdt.code ≠ MsgType.mtRsp.code
        decide
      rw [hd, Delivery.ofMsg, if_neg htype, callbacks,
        processOtherMsg_sample (hwf (.sample x f addr) List.mem_cons_self) hfirst, ok_bind, htail]
      rfl

/-- **The callback gets the samples**: when the server has sent what it queued, however `send` and
`recv` cut the bytes, a client that receives as often as there are messages for it has its callback
called with the time, the type and the data of each sample for it, in order. -/
theorem samples_delivered {srv srv' : Server} {out out' : Outgoing} {ops : List SendOp} {fd : Int}
    {items : List Item} (h : Session Server.sender Prod.snd (srv, out) ops (srv', out'))
    (hfd : fd ≠ invalidFd) (hitems : added ops = items.map Item.msg) (hwf : ∀ i ∈ items, i.WF)
    (hint : ∀ m ∈ added ops, m.head.dataLen.toNat < 2 ^ 31) (hdone : srv'.sendBuff.toList = [])
    (c : ClientSock) {mem : ℕ → ClientAlloc} (hmem : ∀ i, (mem i).Ok) {conn : Conn}
    (hconn : Conn.stream false conn = out'.writtenTo fd) :
    let mine := items.filter fun i => srv.pwrClients.getFdBySysId i.msg.head.sysId = fd
    ∃ ds conn', ClientSock.recvMsgs mem mine.length c conn = .ok (ds, c, conn') ∧
      Conn.stream false conn' = [] ∧ callbacks ds = .ok (mine.filterMap Item.callback) := by
  intro mine
  obtain ⟨-, hwritten⟩ := h.written (Server.emits srv.pwrClients) ⟨rfl, h.accepting⟩
  rw [hwritten hdone fd hfd] at hconn
  have hmine : (added ops).filter (fun m => srv.pwrClients.getFdBySysId m.head.sysId = fd) =
      mine.map Item.msg := by
    rw [hitems, List.filter_map]
    rfl
  have hframes : Conn.stream false conn = (mine.map Item.msg).flatMap PwrMsg.frame := by
    rw [← hmine]
    exact hconn
  obtain ⟨ds, conn', heq, hend, hds⟩ := ClientSock.recvMsgs_frames hmem c _ (fun m hm => by
    rw [← hmine] at hm
    exact sendable_added hint m (List.mem_of_mem_filter hm)) conn hframes
  rw [List.length_map] at heq
  exact ⟨ds, conn', heq, hend,
    callbacks_items (fun i hi => hwf i (List.mem_of_mem_filter hi))
      (ClientSock.ofMsg_of_recvMsgs heq) hds⟩

/-- The performance of a CPU, as it is read. -/
def perfSample : Sample := ⟨1, [49, 50, 58, 48, 48], datatypeCpuPerf, List.replicate 16 7⟩

theorem perfSample_wf : perfSample.WF := ⟨by decide, by decide, by decide +kernel⟩

theorem perfMsg_holds : (Item.sample perfSample ⟨1, 0⟩ 8).msg.Holds := by decide +kernel

/-- The message for it. -/
def perfMsg : {m : PwrMsg // m.Holds} where
  val := (Item.sample perfSample ⟨1, 0⟩ 8).msg
  property := perfMsg_holds

/-- Bytes that arrive all at once. -/
def oneChunk : Bytes → Conn
  | [] => []
  | b :: bs => [.data b bs]

theorem stream_oneChunk (bs : Bytes) : Conn.stream false (oneChunk bs) = bs := by
  cases bs with
  | nil => rfl
  | cons b bs => exact List.append_nil _

theorem samples_delivered_perf : ∃ srv' out' ds conn',
    Session Server.sender Prod.snd (Server.oneClient.1, ⟨[.accept 0, .accept 6], []⟩)
        [.add perfMsg, .process] (srv', out') ∧
      ClientSock.recvMsgs (fun _ => ⟨true, [], 16, []⟩) 1 ⟨10, initPwrMsgBuffer⟩
        (oneChunk (out'.writtenTo 10)) = .ok (ds, ⟨10, initPwrMsgBuffer⟩, conn') ∧
      callbacks ds = .ok [perfSample.callbackData] := by
  have h : Session Server.sender Prod.snd (Server.oneClient.1, ⟨[.accept 0, .accept 6], []⟩)
      [.add perfMsg, .process] (_, _) :=
    ⟨⟨[0, 6], rfl⟩, rfl, rfl, rfl⟩
  have hitems : added [.add perfMsg, .process] = [Item.sample perfSample ⟨1, 0⟩ 8].map Item.msg :=
    rfl
  have hmem : ∀ i, ((fun _ => ⟨true, [], 16, []⟩ : ℕ → ClientAlloc) i).Ok :=
    fun _ => ⟨rfl, (by decide : (16 : UInt64) ≠ 0)⟩
  obtain ⟨ds, conn', hrecv, -, hcallbacks⟩ := samples_delivered h (by decide) hitems
    (fun i hi => by
      obtain rfl := List.mem_singleton.mp hi
      exact perfSample_wf)
    (by decide +kernel) rfl ⟨10, initPwrMsgBuffer⟩ hmem (stream_oneChunk (Outgoing.writtenTo _ 10))
  exact ⟨_, _, ds, conn', h, hrecv, hcallbacks⟩

end PowerApi
