import PowerApi.Answers

/-!
# What a response shows of the heap (`cpuservice.c`)

The handlers that answer with data take a block from `malloc`, let a reader fill
it and send all of it. `serve` is `dispatch` on the machine that the readers make of such
blocks, and a request leaves no trace of the heap if the data of its response is the same
whatever the blocks held (`SameData`). Of a run that leaves an array nothing is said, and so
it is not one that leaves no trace.

`bzero` is called there with the size of a pointer. What the client gets to see
is then a question of which bytes the readers assign: the padding of a struct
never, the rest of a name only if the name has full length. `Overwritten` is the
condition that decides it.
-/

namespace PowerApi

open Bytes MemoryBlock

/-- The data of a message, as much as its head says. -/
def PwrMsg.sentData (msg : PwrMsg) : Bytes := msg.payload.take msg.head.dataLen.toNat

namespace Server

/-! ## The handlers and their readers -/

/-- `ProcessReqMsg` up to the release of the request, from what the blocks held. `SetCpuFreq`
reads governor and range into variables of its own. -/
def serve (srv : Server) (m : Machine) (host : Host) (p : Prior) (req : PwrMsg) :
    Except Fault Server :=
  match OperationType.ofCode req.head.optType with
  | some .cpuSetCurFreq => srv.setCpuFreq m req
  | _ => srv.dispatch (m.reading host p) req

/-- The operations whose handlers answer with what a reader left in a block. -/
def readOperations : List OperationType :=
  [.cpuGetInfo, .cpuGetUsage, .cpuGetFreqGovernor, .cpuGetCurFreq, .cpuGetFreqRange]

/-- `x` is the server with this message put into the queue. -/
def Puts (srv : Server) (x : Except Fault Server) (rsp : PwrMsg) : Prop :=
  ∃ srv', x = .ok srv' ∧ srv'.sendBuff = enqueue srv.sendBuff rsp

/-- The data of the response to a request is the same whatever the blocks of its handler
held, and no run leaves an array. -/
def SameData (srv : Server) (m : Machine) (host : Host) (req : PwrMsg) : Prop :=
  (∀ p, Returns (srv.serve m host p req)) ∧ ∀ p q rsp₁ rsp₂,
    srv.Puts (srv.serve m host p req) rsp₁ → srv.Puts (srv.serve m host q req) rsp₂ →
      rsp₁.sentData = rsp₂.sentData

/-! ## Which responses are the same -/

/-- Memory is short, and a handler that has data to send sends nothing. -/
def Silent (m : Machine) : Prop := m.rspData = 0 ∨ m.rspOk = false

section Puts

variable {srv : Server} {m : Machine} {host : Host} {req : PwrMsg}

theorem not_puts_self {rsp : PwrMsg} : ¬ srv.Puts (.ok srv) rsp := by
  rintro ⟨srv', hok, hsend⟩
  cases hok
  exact enqueue_ne_self _ _ hsend

theorem not_puts_error {f : Fault} {rsp : PwrMsg} : ¬ srv.Puts (.error f) rsp := by
  rintro ⟨srv', hok, -⟩
  cases hok

theorem puts_sendRsp (hwf : srv.WF) {rspCode : Int} {data : DataPtr} {len : UInt32} {rsp : PwrMsg}
    (hdata : data = .null → len = 0) :
    srv.Puts (srv.sendRspToClient m req rspCode data len) rsp ↔
      m.rspOk = true ∧ rsp = generateRspMsg req rspCode data len := by
  cases hrsp : m.rspOk with
  | false =>
    refine iff_of_false ?_ (by simp)
    rw [sendRspToClient, if_neg fun h => h.2 (hdata h.1), if_pos hrsp]
    cases data.free with
    | error f => exact not_puts_error
    | ok u => exact not_puts_self
  | true =>
    rw [sendRspToClient_eq hrsp hwf.send_free hdata, and_iff_right rfl]
    constructor
    · rintro ⟨srv', hok, hsend⟩
      cases hok
      exact (enqueue_inj hsend).symm
    · rintro rfl
      exact ⟨_, rfl, rfl⟩

theorem returns_sendRsp (hwf : srv.WF) {rspCode : Int} {data : DataPtr} {len : UInt32}
    (hdata : data = .null → len = 0) (hfree : Returns data.free) :
    Returns (srv.sendRspToClient m req rspCode data len) := by
  cases hrsp : m.rspOk with
  | false =>
    rw [sendRspToClient, if_neg fun h => h.2 (hdata h.1), if_pos hrsp]
    exact (returns_bind_of_forall fun _ => ⟨_, rfl⟩).mpr hfree
  | true => exact ⟨_, sendRspToClient_eq hrsp hwf.send_free hdata⟩

theorem returns_sendReading (hwf : srv.WF) {size : ℕ} {read : Except Fault (Reading size)} :
    Returns (srv.sendReading m req read) ↔ m.rspData = 0 ∨ Returns read := by
  by_cases hdata : m.rspData = 0
  · rw [sendReading, if_pos hdata]
    exact iff_of_true ⟨_, rfl⟩ (.inl hdata)
  · rw [sendReading, if_neg hdata, or_iff_right hdata]
    exact returns_bind_of_forall fun r => returns_sendRsp hwf (by intro h; cases h) ⟨_, rfl⟩

theorem puts_sendReading (hwf : srv.WF) {size : ℕ} {read : Except Fault (Reading size)}
    {rsp : PwrMsg} :
    srv.Puts (srv.sendReading m req read) rsp ↔ ¬ Silent m ∧ ∃ r, read = .ok r ∧
      rsp = generateRspMsg req r.code (.heap m.rspData r.data) (UInt32.ofNat size) := by
  by_cases hdata : m.rspData = 0
  · rw [sendReading, if_pos hdata]
    exact iff_of_false not_puts_self fun h => h.1 (.inl hdata)
  · rw [sendReading, if_neg hdata]
    have hsilent : ¬ Silent m ↔ m.rspOk = true := by simp [Silent, hdata]
    rw [hsilent]
    cases read with
    | error f => exact iff_of_false not_puts_error (by rintro ⟨-, r, hr, -⟩; cases hr)
    | ok r =>
      have hne : DataPtr.heap m.rspData r.data = .null → UInt32.ofNat size = 0 := by
        intro h
        cases h
      rw [ok_bind, puts_sendRsp hwf hne]
      simp

/-- A response that no block has part in. -/
theorem sameData_of_const (x : Except Fault Server) (hserve : ∀ p, srv.serve m host p req = x) :
    srv.SameData m host req ↔ Returns x := by
  simp only [SameData, hserve]
  refine (and_iff_left ?_).trans (forall_const Prior)
  rintro p q rsp₁ rsp₂ ⟨srv₁, hok₁, hsend₁⟩ ⟨srv₂, hok₂, hsend₂⟩
  cases hok₁.symm.trans hok₂
  rw [enqueue_inj (hsend₁.symm.trans hsend₂)]

/-- For a handler that only sends a reading it depends on the first bytes of the block. -/
theorem sameData_of_serve (hwf : srv.WF) {size : ℕ} {read : Prior → Except Fault (Reading size)}
    (hserve : ∀ p, srv.serve m host p req = srv.sendReading m req (read p)) :
    srv.SameData m host req ↔ m.rspData = 0 ∨ (∀ p, Returns (read p)) ∧
      (m.rspOk = false ∨ ∀ p q r s, read p = .ok r → read q = .ok s →
        r.data.take (UInt32.ofNat size).toNat = s.data.take (UInt32.ofNat size).toNat) := by
  simp only [SameData, hserve, returns_sendReading hwf, puts_sendReading hwf]
  by_cases hdata : m.rspData = 0
  · refine iff_of_true ⟨fun _ => .inl hdata, fun p q rsp₁ rsp₂ h => ?_⟩ (.inl hdata)
    exact absurd (.inl hdata) h.1
  · have hsilent : Silent m ↔ m.rspOk = false := or_iff_right hdata
    simp only [or_iff_right hdata, hsilent]
    refine and_congr_right fun _ => ?_
    by_cases hrsp : m.rspOk = false
    · exact iff_of_true (fun p q rsp₁ rsp₂ h => absurd hrsp h.1) (.inl hrsp)
    · rw [or_iff_right hrsp]
      constructor
      · intro h p q r s hr hs
        exact h p q _ _ ⟨hrsp, r, hr, rfl⟩ ⟨hrsp, s, hs, rfl⟩
      · rintro h p q rsp₁ rsp₂ ⟨-, r, hr, rfl⟩ ⟨-, s, hs, rfl⟩
        exact h p q r s hr hs

theorem toNat_ofNat_le (size : ℕ) : (UInt32.ofNat size).toNat ≤ size := by
  rw [UInt32.toNat_ofNat']
  exact Nat.mod_le ..

/-- If a reader does not look at the block, then all that is sent has to be assigned. -/
theorem sameData_of_fillBlock (hwf : srv.WF) {size : ℕ}
    {read : Except Fault (Int × List (Write UInt8))}
    (hserve : ∀ p, srv.serve m host p req = srv.sendReading m req (fillBlock size read p)) :
    srv.SameData m host req ↔ m.rspData = 0 ∨ ∃ code ws, read = .ok (code, ws) ∧
      (m.rspOk = false ∨ ∀ i < (UInt32.ofNat size).toNat, ∃ w ∈ ws, w.Covers i) := by
  rw [sameData_of_serve hwf hserve]
  refine or_congr_right ?_
  simp only [returns_fillBlock, forall_const]
  cases read with
  | error f => exact iff_of_false (fun h => not_returns_error f h.1) nofun
  | ok r =>
    obtain ⟨code, ws⟩ := r
    have : Nontrivial UInt8 := ⟨0, 1, by decide⟩
    have hcover := @contents_fill_eq_iff UInt8 _ ws (UInt32.ofNat size).toNat
    simp only [Except.ok.injEq, Prod.mk.injEq, and_assoc, exists_and_left, exists_eq_left']
    rw [and_iff_right (returns_ok _), ← hcover]
    refine or_congr_right ⟨fun h mem mem' => ?_, fun h p q r s hr hs => ?_⟩
    · have htake := h ⟨mem, mem⟩ ⟨mem', mem'⟩ _ _ rfl rfl
      rwa [writtenBlock, writtenBlock, take_contents (toNat_ofNat_le size),
        take_contents (toNat_ofNat_le size)] at htake
    · cases hr
      cases hs
      rw [writtenBlock, writtenBlock, take_contents (toNat_ofNat_le size),
        take_contents (toNat_ofNat_le size)]
      exact h p.rstData q.rstData

/-- The same for a reader that always comes to its end. -/
theorem sameData_of_writtenBlock (hwf : srv.WF) {size : ℕ} (hsize : size < 2 ^ 32)
    {read : Int × List (Write UInt8)}
    (hserve : ∀ p, srv.serve m host p req =
      srv.sendReading m req (.ok (writtenBlock size read p))) :
    srv.SameData m host req ↔ Silent m ∨ ∀ i < size, ∃ w ∈ read.2, w.Covers i := by
  have hfill : ∀ p, srv.serve m host p req =
      srv.sendReading m req (fillBlock size (.ok read) p) := hserve
  obtain ⟨code, ws⟩ := read
  rw [sameData_of_fillBlock hwf hfill, UInt32.toNat_ofNat', Nat.mod_eq_of_lt hsize, Silent,
    or_assoc]
  simp

end Puts

/-! ## One reader after the other -/

/-- The bounds of the frequency can be read. -/
def RangeReadable (host : Host) : Prop :=
  ∀ bound ∈ [text "min", text "max"], ∃ content, host.file (scalingFreq bound) = some content ∧
    content ≠ []

/-- The governor's name leaves no room in its block. -/
def GovernorFull (m : Machine) : Prop :=
  ∃ line lines, m.popen scalingGovernor = some (line :: lines) ∧
    maxElementNameLen - 1 ≤ (governorName line).length

/-- Nothing goes out that the handler of the request has not assigned. -/
def Overwritten (m : Machine) (host : Host) (req : PwrMsg) : Prop :=
  match OperationType.ofCode req.head.optType with
  | some .cpuGetInfo => m.rspData = 0 ∨ Returns (cpuInfoRead m host) ∧ m.rspOk = false
  | some .cpuGetUsage => m.rspData = 0 ∨ Returns (cpuUsageRead m host) ∧
    (m.rspOk = false ∨ UInt32.ofNat (sizeofCpuUsage + 16 * m.coreNum) = 0)
  | some .cpuGetFreqGovernor => Silent m ∨ GovernorFull m
  | some .cpuGetFreqRange => Silent m ∨ RangeReadable host
  | some .cpuGetCurFreq => ∃ r, targetPolicys m req = .ok r ∧ (r.1 = 0 → m.rspData = 0 ∨
      (∀ info, Returns (getArch m host info)) ∧
        (m.rspOk = false ∨ UInt32.ofNat (sizeofCurFreq * r.2.length) = 0))
  | _ => True

theorem leaves_bzero {i size : ℕ} (h : size ≤ i) : Leaves i [bzero size] := by
  intro w hw hcovers
  rw [List.mem_singleton.mp hw, Write.Covers, bzero, List.length_replicate] at hcovers
  dsimp only at hcovers
  omega

theorem not_covered_nil {i : ℕ} : ¬ ∃ w ∈ ([] : List (Write UInt8)), w.Covers i := by simp

/-- `StrCopy` assigns all of its destination if the string is long enough. -/
theorem covered_strCopy {size : ℕ} (hpos : 0 < size) {src : Bytes} :
    (∀ i < size, ∃ w ∈ [strCopy 0 src size], w.Covers i) ↔ size - 1 ≤ src.length := by
  have hoff : (strCopy 0 src size).off = 0 := rfl
  simp only [List.mem_singleton, exists_eq_left, Write.Covers, length_strCopy, hoff]
  constructor
  · intro h
    have hlast := (h (size - 1) (by omega)).2
    omega
  · intro h i hi
    omega

theorem covers_setInt {i off : ℕ} (n : Int) (hle : off ≤ i) (hlt : i < off + 4) :
    (setInt off n).Covers i := by
  rw [Write.Covers, setInt, length_leBytes]
  exact ⟨hle, hlt⟩

/-- `ReadFile` succeeds on a file that holds something. -/
theorem readFile_isSome {host : Host} {path buf : Bytes} {bufLen : ℕ} (hlen : 1 < bufLen) :
    (readFile host path buf bufLen).isSome ↔ ∃ content, host.file path = some content ∧
      content ≠ [] := by
  rw [readFile]
  cases host.file path with
  | none => simp
  | some content =>
    have htake : content.take (bufLen - 1) = [] ↔ content = [] := by
      rw [List.take_eq_nil_iff, or_iff_right (by omega)]
    dsimp only
    split <;> simp_all

section Readers

variable {srv : Server} {m : Machine} {host : Host} {req : PwrMsg}

/-- What `GetCpuinfo` sends ends with padding. -/
theorem sameData_getCpuinfo (hwf : srv.WF)
    (hop : OperationType.ofCode req.head.optType = some .cpuGetInfo) :
    srv.SameData m host req ↔ m.rspData = 0 ∨ Returns (cpuInfoRead m host) ∧ m.rspOk = false := by
  have hserve : ∀ p, srv.serve m host p req =
      srv.sendReading m req (fillBlock sizeofCpuInfo (cpuInfoWrites m host) p) := fun p => by
    rw [serve, hop]
    dsimp only
    rw [dispatch, hop]
    rfl
  rw [sameData_of_fillBlock hwf hserve, cpuInfoWrites]
  refine or_congr_right ?_
  cases hread : cpuInfoRead m host with
  | error f => exact iff_of_false nofun fun h => not_returns_error f h.1
  | ok r =>
    obtain ⟨code, ws⟩ := r
    rw [and_iff_right (returns_ok _)]
    constructor
    · rintro ⟨code', ws', heq, hrsp | hcovered⟩
      · exact hrsp
      · cases heq
        obtain ⟨w, hw, hcovers⟩ := hcovered cpuInfoPadding (by decide)
        exact (leaves_cons (leaves_bzero (by decide)) (cpuInfoRead_leaves hread) w hw hcovers).elim
    · exact fun hrsp => ⟨_, _, rfl, .inl hrsp⟩

/-- What `GetCpuUsage` sends has padding in front of the first core. -/
theorem sameData_getCpuUsage (hwf : srv.WF)
    (hop : OperationType.ofCode req.head.optType = some .cpuGetUsage) :
    srv.SameData m host req ↔ m.rspData = 0 ∨ Returns (cpuUsageRead m host) ∧
      (m.rspOk = false ∨ UInt32.ofNat (sizeofCpuUsage + 16 * m.coreNum) = 0) := by
  have hserve : ∀ p, srv.serve m host p req = srv.sendReading m req
      (fillBlock (sizeofCpuUsage + 16 * m.coreNum) (cpuUsageWrites m host) p) := fun p => by
    rw [serve, hop]
    dsimp only
    rw [dispatch, hop]
    rfl
  rw [sameData_of_fillBlock hwf hserve, cpuUsageWrites]
  refine or_congr_right ?_
  cases hread : cpuUsageRead m host with
  | error f => exact iff_of_false nofun fun h => not_returns_error f h.1
  | ok r =>
    obtain ⟨code, ws⟩ := r
    rw [and_iff_right (returns_ok _), ← UInt32.toNat_inj, UInt32.toNat_zero]
    constructor
    · rintro ⟨code', ws', heq, hcovered⟩
      cases heq
      refine hcovered.imp_right fun hcovered => ?_
      by_contra hlen
      -- the size is a multiple of 16, and the 32 bits that are left of it too
      have hin : cpuUsagePadding < (UInt32.ofNat (sizeofCpuUsage + 16 * m.coreNum)).toNat := by
        rw [UInt32.toNat_ofNat', sizeofCpuUsage] at hlen ⊢
        rw [cpuUsagePadding]
        omega
      obtain ⟨w, hw, hcovers⟩ := hcovered cpuUsagePadding hin
      exact leaves_cons (leaves_bzero (by decide)) (cpuUsageRead_leaves hread) w hw hcovers
    · refine fun h => ⟨_, _, rfl, h.imp_right fun hlen i hi => ?_⟩
      rw [hlen] at hi
      exact absurd hi (Nat.not_lt_zero i)

/-- What `GetCpuFreqGovernor` sends is the name and what was behind it in the block. -/
theorem sameData_getCpuFreqGovernor (hwf : srv.WF)
    (hop : OperationType.ofCode req.head.optType = some .cpuGetFreqGovernor) :
    srv.SameData m host req ↔ Silent m ∨ GovernorFull m := by
  have hserve : ∀ p, srv.serve m host p req = srv.sendReading m req
      (.ok (writtenBlock maxElementNameLen (currentGovernorRead m) p)) := fun p => by
    rw [serve, hop]
    dsimp only
    rw [dispatch, hop]
    rfl
  rw [sameData_of_writtenBlock hwf (by decide) hserve, currentGovernorRead, GovernorFull]
  refine or_congr_right ?_
  rcases m.popen scalingGovernor with _ | _ | ⟨line, lines⟩
  · exact iff_of_false (fun h => not_covered_nil (h 0 (by decide))) (by simp)
  · exact iff_of_false (fun h => not_covered_nil (h 0 (by decide))) (by simp)
  · simp only [covered_strCopy (show 0 < maxElementNameLen by decide)]
    constructor
    · exact fun h => ⟨line, lines, rfl, h⟩
    · rintro ⟨line', lines', heq, h⟩
      cases heq
      exact h

/-- What `GetCpuFreqRange` sends is set if both bounds are read. -/
theorem sameData_getCpuFreqRange (hwf : srv.WF)
    (hop : OperationType.ofCode req.head.optType = some .cpuGetFreqRange) :
    srv.SameData m host req ↔ Silent m ∨ RangeReadable host := by
  have hserve : ∀ p, srv.serve m host p req = srv.sendReading m req
      (.ok (writtenBlock sizeofFreqRange (freqRangeRead host) p)) := fun p => by
    rw [serve, hop]
    dsimp only
    rw [dispatch, hop]
    rfl
  rw [sameData_of_writtenBlock hwf (by decide) hserve, freqRangeRead]
  refine or_congr_right ?_
  have hreadable : ∀ buf', RangeReadable host ↔
      (readFile host (scalingFreq (text "min")) (List.replicate maxElementNameLen 0)
        maxElementNameLen).isSome ∧
      (readFile host (scalingFreq (text "max")) buf' maxElementNameLen).isSome := by
    intro buf'
    rw [readFile_isSome (by decide), readFile_isSome (by decide), RangeReadable,
      List.forall_mem_cons, List.forall_mem_singleton]
  dsimp only
  rcases hmin : readFile host (scalingFreq (text "min")) _ maxElementNameLen with _ | buf
  · refine iff_of_false (fun h => not_covered_nil (h 0 (by decide))) fun h => ?_
    have hsome := ((hreadable []).mp h).1
    rw [hmin] at hsome
    cases hsome
  rw [hreadable buf, hmin, and_iff_right Option.isSome_some]
  dsimp only
  cases readFile host (scalingFreq (text "max")) buf maxElementNameLen with
  | none =>
    refine iff_of_false (fun h => ?_) nofun
    obtain ⟨w, hw, hcovers⟩ := h 4 (by decide)
    exact leaves_setInt (.inr (by decide)) _ w hw hcovers
  | some buf' =>
    refine iff_of_true (fun i hi => ?_) rfl
    rcases lt_or_ge i 4 with hlt | hge
    · exact ⟨_, List.mem_cons_self, covers_setInt _ (Nat.zero_le i) hlt⟩
    · exact ⟨_, List.mem_cons_of_mem _ List.mem_cons_self, covers_setInt _ hge hi⟩

/-- Every entry of the array has padding, wherever the sorting puts it. -/
theorem getElem?_freqReadData {code : Int} {len : ℕ} {rstData : ℕ → UInt8} {b : UInt8}
    (hlen : 0 < len) (hpad : ∀ k, rstData (sizeofCurFreq * k + 4) = b) :
    (freqReadData code len rstData)[4]? = some b := by
  obtain ⟨rst, hperm, heq⟩ := freqReadData_perm code len rstData
  cases rst with
  | nil =>
    have hlength := hperm.length_eq
    rw [entries, List.length_map, List.length_range] at hlength
    exact absurd hlength.symm (Nat.ne_of_gt hlen)
  | cons entry rst =>
    obtain ⟨i, -, hentry⟩ := List.mem_map.mp (hperm.subset List.mem_cons_self)
    rw [heq, List.flatten_cons, ← hentry, List.getElem?_append_left (by simp [sizeofCurFreq]),
      contents, List.getElem?_map, List.getElem?_range (by decide), Option.map_some, hpad]

/-- The entries of two blocks differ in their padding. -/
theorem fillFreq_same_iff {policys : List Bytes} (harch : ∀ info, Returns (getArch m host info)) :
    (∀ p q r s, fillFreq m host p policys = .ok r → fillFreq m host q policys = .ok s →
      r.data.take (UInt32.ofNat (sizeofCurFreq * policys.length)).toNat =
        s.data.take (UInt32.ofNat (sizeofCurFreq * policys.length)).toNat) ↔
      UInt32.ofNat (sizeofCurFreq * policys.length) = 0 := by
  constructor
  · intro h
    by_contra hlen
    -- two arrays, of zeros and of ones, and for both a `PWR_CPU_Info` of zeros
    obtain ⟨⟨code, ws⟩, hread⟩ : Returns (freqRead m host (fun _ => 0) policys) :=
      (returns_bind_of_forall fun _ => ⟨_, rfl⟩).mpr (harch _)
    have hfill : ∀ b : UInt8, fillFreq m host ⟨fun _ => b, fun _ => 0⟩ policys =
        .ok ⟨code, freqReadData code policys.length (fill ws fun _ => b),
          length_freqReadData _ _ _⟩ := fun b => by
      rw [fillFreq, hread]
      rfl
    have hsame := congrArg (·[4]?) (h _ _ _ _ (hfill 0) (hfill 1))
    rw [← UInt32.toNat_inj, UInt32.toNat_zero, UInt32.toNat_ofNat', sizeofCurFreq] at hlen
    have hin : 4 < (UInt32.ofNat (sizeofCurFreq * policys.length)).toNat := by
      rw [UInt32.toNat_ofNat', sizeofCurFreq]
      omega
    have hpos : 0 < policys.length := by
      refine Nat.pos_of_ne_zero fun h0 => hlen ?_
      rw [h0]
    have hbyte : ∀ b : UInt8,
        (freqReadData code policys.length (fill ws fun _ => b))[4]? = some b := fun b =>
      getElem?_freqReadData hpos fun k => fill_of_not_covered (freqRead_leaves hread k) _
    dsimp only at hsame
    rw [List.getElem?_take_of_lt hin, List.getElem?_take_of_lt hin, hbyte, hbyte] at hsame
    exact absurd hsame (by decide)
  · intro hlen p q r s _ _
    rw [hlen, UInt32.toNat_zero, List.take_zero, List.take_zero]

theorem serve_getCpuFreq {p : Prior}
    (hop : OperationType.ofCode req.head.optType = some .cpuGetCurFreq) :
    srv.serve m host p req = targetPolicys m req >>= fun r =>
      if r.1 ≠ 0 then srv.sendRspToClient m req r.1 .null 0
      else srv.sendReading m req (fillFreq m host p r.2) := by
  rw [serve, hop]
  dsimp only
  rw [dispatch, hop]
  rfl

/-- What `GetCpuFreq` sends has padding in every entry. -/
theorem sameData_getCpuFreq (hwf : srv.WF)
    (hop : OperationType.ofCode req.head.optType = some .cpuGetCurFreq) :
    srv.SameData m host req ↔ ∃ r, targetPolicys m req = .ok r ∧ (r.1 = 0 → m.rspData = 0 ∨
      (∀ info, Returns (getArch m host info)) ∧
        (m.rspOk = false ∨ UInt32.ofNat (sizeofCurFreq * r.2.length) = 0)) := by
  have hserve := fun p => @serve_getCpuFreq srv m host req p hop
  cases htarget : targetPolicys m req with
  | error f =>
    rw [sameData_of_const (.error f) fun p => by rw [hserve, htarget, error_bind]]
    exact iff_of_false (not_returns_error f) nofun
  | ok r =>
    obtain ⟨rspCode, policys⟩ := r
    simp only [htarget, ok_bind] at hserve
    simp only [Except.ok.injEq, exists_eq_left']
    by_cases hcode : rspCode = 0
    · rw [forall_prop_of_true hcode]
      simp only [if_neg (not_not.mpr hcode)] at hserve
      rw [sameData_of_serve hwf hserve]
      have harch : (∀ p, Returns (fillFreq m host p policys)) ↔
          ∀ info, Returns (getArch m host info) :=
        ⟨fun h info => (@returns_fillFreq m host ⟨info, info⟩ policys).mp (h _),
          fun h p => returns_fillFreq.mpr (h _)⟩
      rw [harch]
      exact or_congr_right (and_congr_right fun h => or_congr_right (fillFreq_same_iff h))
    · rw [sameData_of_const (srv.sendRspToClient m req rspCode .null 0) fun p => by
        rw [hserve, if_pos hcode]]
      exact iff_of_true (returns_sendRsp hwf (fun _ => rfl) ⟨_, rfl⟩) fun h0 => absurd h0 hcode

end Readers

/-- The data of the response to a request is the same, whatever blocks from the heap held,
exactly if all of it has been assigned. -/
theorem sameData_iff_overwritten (srv : ServerState) (m : Machine) (host : Host) {req : PwrMsg}
    {op : OperationType} (hop : OperationType.ofCode req.head.optType = some op)
    (hread : op ∈ readOperations) : srv.1.SameData m host req ↔ Overwritten m host req := by
  rw [Overwritten, hop]
  cases op with
  | cpuGetInfo => exact sameData_getCpuinfo srv.2 hop
  | cpuGetUsage => exact sameData_getCpuUsage srv.2 hop
  | cpuGetFreqGovernor => exact sameData_getCpuFreqGovernor srv.2 hop
  | cpuGetFreqRange => exact sameData_getCpuFreqRange srv.2 hop
  | cpuGetCurFreq => exact sameData_getCpuFreq srv.2 hop
  | _ => exact absurd hread (by decide)

theorem sameData_iff_overwritten_governor :
    started.1.SameData bareMachine emptyHost (plainRequest .cpuGetFreqGovernor) ↔
      Overwritten bareMachine emptyHost (plainRequest .cpuGetFreqGovernor) :=
  sameData_iff_overwritten started bareMachine emptyHost rfl (by decide)

/-- A machine whose governor is `performance`. -/
def performanceMachine : Machine :=
  { bareMachine with popen := fun _ => some [text "performance\n"] }

/-- Behind a name of 11 characters the client gets 20 bytes of the heap. -/
theorem performance_not_same : ¬ started.1.SameData performanceMachine emptyHost
    (plainRequest .cpuGetFreqGovernor) := by
  rw [sameData_getCpuFreqGovernor started.2 rfl]
  rintro (hsilent | ⟨line, lines, heq, hlen⟩)
  · exact absurd hsilent (by simp [Silent, performanceMachine, bareMachine])
  · cases heq
    exact absurd hlen (by decide +kernel)

end Server

end PowerApi
