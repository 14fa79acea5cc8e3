import PowerApi.Policies
import PowerApi.Directory

/-!
# The frequencies that are asked for (`GetCpuFreq`)

A request for some policies, all of them listed, goes through four stages: the ids
that are marked take the places of the first entries, the check finds them, every name
is made from the first entry, and `FreqRead` reads one file for each name and sorts the
array. `AsAsked` is the answer that is wanted. It comes for one policy and for no other
array: `asked_answered`.
-/

namespace PowerApi

open Bytes MemoryBlock

namespace Server

/-- The file with the current frequency, by architecture. -/
def curFreqFile (arch : Int) : Bytes :=
  if arch = 0 then text "/cpuinfo_cur_freq"
  else if arch = 1 then text "/scaling_cur_freq" else []

/-- The command that reads the frequency of a policy. -/
def curFreqLine (arch : Int) (policy : Bytes) : Bytes :=
  text "cat /sys/devices/system/cpu/cpufreq/" ++ policy ++ curFreqFile arch

/-- The name of a policy with this id. -/
def nameOf (id : Int) : Bytes := text "policy" ++ decimal id

/-- The first line of a policy's file. -/
def freqLine (m : Machine) (arch : Int) (policy : Bytes) : Bytes :=
  ((m.popen (curFreqLine arch policy)).bind List.head?).getD []

/-- The frequency in a line, in MHz. -/
def freqIn (line : Bytes) : UInt64 := ((strtoul (governorName line) 10).toFloat / 1000).toBits

/-- The entry of the policy with this id, read from its own file. -/
def ownFreq (m : Machine) (arch : Int) (id : Int) : Machine.CurFreq :=
  ⟨id, freqIn (freqLine m arch (nameOf id))⟩

/-- The machine is of one of the two architectures, and every listed policy has its file. -/
structure FreqFiles (m : Machine) (host : Host) (p : Prior) (arch : Int) : Prop where
  getArch_eq : getArch m host p.cpuInfo = .ok arch
  known : arch = 0 ∨ arch = 1
  readable : ∀ id ∈ listedIds m, ∃ line lines,
    m.popen (curFreqLine arch (nameOf id)) = some (line :: lines)

/-- The answer for the policies that were asked for: each once, in increasing order, with
its own frequency. -/
def AsAsked (srv : Server) (m : Machine) (host : Host) (p : Prior) (arch : Int) (req : PwrMsg) :
    Prop :=
  ∃ (rsp : PwrMsg) (ids : List Int), srv.Puts (srv.serve m host p req) rsp ∧ Answers rsp req ∧
    rsp.head.rspCode = 0 ∧ ids.Pairwise (· < ·) ∧
    (∀ id, id ∈ ids ↔ ∃ t ∈ requested req, t.policyId = id) ∧
    rsp.head.dataLen.toNat = sizeofCurFreq * ids.length ∧
    Machine.curFreqs rsp.sentData ids.length = ids.map (ownFreq m arch)

/-- At most one policy is asked for, one of the first `coreNum`. -/
structure OneAsked (m : Machine) (req : PwrMsg) : Prop where
  listed : ∃ lines, m.listing = some lines ∧ lines.length ≤ maxCpuListLen
  one : requested req = [] ∨ ∃ id < m.coreNum, ∀ t ∈ requested req, t.policyId = (id : Int)
  loud : ¬ Silent m

/-! ## The array that is read -/

/-- The entry of an array. -/
def curFreqOf (entry : Bytes) : Machine.CurFreq :=
  ⟨intArg (UInt32.ofNat (fieldAt entry 0 4)), UInt64.ofNat (fieldAt entry 8 8)⟩

/-- An array is read entry by entry. -/
theorem curFreqs_flatten {l : List Bytes} (h : ∀ entry ∈ l, entry.length = sizeofCurFreq) :
    Machine.curFreqs l.flatten l.length = l.map curFreqOf := by
  induction l with
  | nil => rfl
  | cons entry l ih =>
    have hlen : entry.length = 16 := h entry List.mem_cons_self
    have hskip : ∀ i off k, fieldAt (entry ++ l.flatten) (sizeofCurFreq * (i + 1) + off) k =
        fieldAt l.flatten (sizeofCurFreq * i + off) k := by
      intro i off k
      rw [sizeofCurFreq, fieldAt_append _ _ _ _ (by omega), hlen]
      congr 1
      omega
    rw [Machine.curFreqs, List.length_cons, List.range_succ_eq_map, List.map_cons, List.map_map,
      List.flatten_cons, List.map_cons, ← ih fun e he => h e (List.mem_cons_of_mem _ he)]
    refine congrArg₂ List.cons ?_ (List.map_congr_left fun i _ => ?_)
    · rw [curFreqOf, Nat.mul_zero, fieldAt_append_left (by omega), fieldAt_append_left (by omega)]
    · have hid := hskip i 0 4
      rw [Nat.add_zero, Nat.add_zero] at hid
      rw [Function.comp_apply, Nat.succ_eq_add_one, hid, hskip]
      rfl

/-- The assignments of `FreqRead` where every file has a line. -/
def freqWrites (line : Bytes → Bytes) : ℕ → List Bytes → List (Write UInt8)
  | _, [] => []
  | i, policy :: policys => setFreq i policy (line policy) ++ freqWrites line (i + 1) policys

/-- What an entry is then read as. -/
def freqEntry (line : Bytes → Bytes) (policy : Bytes) : Machine.CurFreq :=
  ⟨Machine.policyIdOf policy, freqIn (line policy)⟩

section Array

variable {line : Bytes → Bytes}

theorem freqReadLoop_eq {m : Machine} {s2 : Bytes} {policys : List Bytes}
    (h : ∀ policy ∈ policys, ∃ lines,
      m.popen (text "cat /sys/devices/system/cpu/cpufreq/" ++ policy ++ s2) =
        some (line policy :: lines)) (i : ℕ) :
    freqReadLoop m s2 i policys = (RtnCode.success.code, freqWrites line i policys) := by
  induction policys generalizing i with
  | nil => rfl
  | cons policy policys ih =>
    obtain ⟨lines, hline⟩ := h policy List.mem_cons_self
    rw [freqReadLoop, hline, ih (fun p hp => h p (List.mem_cons_of_mem _ hp)), freqWrites]

/-- The assignments to the entries from `i` on leave those before. -/
theorem leaves_freqWrites {i k : ℕ} (hk : k < sizeofCurFreq * i) (policys : List Bytes) :
    Leaves k (freqWrites line i policys) := by
  induction policys generalizing i with
  | nil => exact leaves_nil
  | cons policy policys ih =>
    rw [sizeofCurFreq] at hk
    refine leaves_append (leaves_cons (leaves_setInt (.inl ?_) _)
      (leaves_setDouble (.inl ?_) _)) (ih ?_)
    · rw [sizeofCurFreq]
      omega
    · rw [sizeofCurFreq]
      omega
    · rw [sizeofCurFreq]
      omega

theorem policyIdOf_bounds (policy : Bytes) :
    -2 ^ 31 ≤ Machine.policyIdOf policy ∧ Machine.policyIdOf policy < 2 ^ 31 := wrapInt_bounds _

/-- The entry that is assigned last. -/
theorem curFreqOf_setFreq {i : ℕ} {policy : Bytes} {ws ws' : List (Write UInt8)}
    (mem : ℕ → UInt8) (hlater : ∀ k < sizeofCurFreq, Leaves (sizeofCurFreq * i + k) ws') :
    curFreqOf (region (sizeofCurFreq * i) sizeofCurFreq
      (fill (ws ++ (setFreq i policy (line policy) ++ ws')) mem)) = freqEntry line policy := by
  have hint := policyIdOf_bounds policy
  have hfield : ∀ off k, off + k ≤ sizeofCurFreq → ∀ mem : ℕ → UInt8,
      fieldAt (region (sizeofCurFreq * i) sizeofCurFreq mem) off k =
        fieldAt (contents (sizeofCurFreq * i + sizeofCurFreq) mem) (sizeofCurFreq * i + off) k := by
    intro off k hle mem
    rw [← @region_contents _ (sizeofCurFreq * i + sizeofCurFreq) _ _ le_rfl, fieldAt_take hle,
      fieldAt, fieldAt, List.drop_drop]
  have hid := @int_fill (sizeofCurFreq * i + sizeofCurFreq) (sizeofCurFreq * i) ws
    (setDouble (sizeofCurFreq * i + 8) (freqIn (line policy)) :: ws') _ hint.1 hint.2 mem
    (by rw [sizeofCurFreq]; omega) fun k hk => leaves_cons
      (leaves_setDouble (.inl (by omega)) _) (hlater k (by rw [sizeofCurFreq]; omega))
  have hfreq := @double_fill (sizeofCurFreq * i + sizeofCurFreq) (sizeofCurFreq * i + 8)
    (ws ++ [setInt (sizeofCurFreq * i) (Machine.policyIdOf policy)]) ws' (freqIn (line policy)) mem
    le_rfl fun k hk => by
      rw [Nat.add_assoc]
      exact hlater (8 + k) (by rw [sizeofCurFreq]; omega)
  rw [List.append_assoc, List.singleton_append] at hfreq
  rw [curFreqOf, hfield 0 4 (by decide), hfield 8 8 (by decide), Nat.add_zero]
  exact congrArg₂ Machine.CurFreq.mk hid hfreq

/-- Every entry is the one of its policy. -/
theorem map_curFreqOf_entries (policys : List Bytes) (i : ℕ) (ws : List (Write UInt8))
    (mem : ℕ → UInt8) :
    (List.range policys.length).map (fun k => curFreqOf (region (sizeofCurFreq * (i + k))
      sizeofCurFreq (fill (ws ++ freqWrites line i policys) mem))) =
      policys.map (freqEntry line) := by
  induction policys generalizing i ws with
  | nil => rfl
  | cons policy policys ih =>
    rw [List.length_cons, List.range_succ_eq_map, List.map_cons, List.map_map, List.map_cons,
      ← ih (i + 1) (ws ++ setFreq i policy (line policy)), freqWrites]
    refine congrArg₂ List.cons (curFreqOf_setFreq mem fun k hk => ?_)
      (List.map_congr_left fun k _ => ?_)
    · exact leaves_freqWrites (by rw [sizeofCurFreq] at hk ⊢; omega) policys
    · rw [Function.comp_apply, Nat.succ_eq_add_one, List.append_assoc, Nat.add_right_comm]
      rfl

/-- The array that `FreqRead` leaves holds the entries of its policies, in some order. -/
theorem curFreqs_freqReadData (policys : List Bytes) (mem : ℕ → UInt8) (code : Int) :
    (Machine.curFreqs (freqReadData code policys.length (fill (freqWrites line 0 policys) mem))
      policys.length).Perm (policys.map (freqEntry line)) := by
  obtain ⟨rst, hperm, hdata⟩ :=
    freqReadData_perm code policys.length (fill (freqWrites line 0 policys) mem)
  have hlen : rst.length = policys.length := by
    rw [hperm.length_eq, entries, List.length_map, List.length_range]
  have hentry : ∀ entry ∈ rst, entry.length = sizeofCurFreq := by
    intro entry hmem
    obtain ⟨i, -, rfl⟩ := List.mem_map.mp (hperm.subset hmem)
    exact length_contents _ _
  have hmap := @map_curFreqOf_entries line policys 0 [] mem
  rw [hdata, ← hlen, curFreqs_flatten hentry, ← hmap]
  refine (hperm.map curFreqOf).trans (List.Perm.of_eq ?_)
  rw [entries, List.map_map]
  exact List.map_congr_left fun i _ => by rw [Nat.zero_add]; rfl

end Array

/-! ## The ids that are marked -/

/-- The id that every name is made from. -/
def firstMarked (m : Machine) (target : List Machine.CurFreq) : Int :=
  ((marked m target).map Int.ofNat).head?.getD 0

section Marked

variable {m : Machine} {target : List Machine.CurFreq}

theorem inputTargetPolicys_eq {merged : List Machine.CurFreq} (h : merged.length ≤ maxCpuListLen) :
    Machine.inputTargetPolicys merged = .ok (List.replicate merged.length
      (nameOf ((merged.map Machine.CurFreq.policyId).head?.getD 0))) := by
  rw [Machine.inputTargetPolicys, if_pos h, List.map_const']
  cases merged <;> rfl

theorem checkPolicys_eq {lines : List Bytes} (hl : m.listing = some lines)
    (hfits : lines.length ≤ maxCpuListLen) (hknown : ∀ t ∈ target, t.policyId ∈ listedIds m) :
    m.checkPolicys target = .ok 0 := by
  have hids : ((lines.map Machine.policyName).map Machine.policyIdOf) = listedIds m := by
    rw [listedIds, hl, List.map_map]
    rfl
  rw [Machine.checkPolicys, getPolicys_of_listing hl, if_pos hfits, ok_bind]
  dsimp only
  rw [hids, if_pos (by simpa using hknown)]
  rfl

end Marked

section Stages

variable {srv : Server} {m : Machine} {host : Host} {p : Prior} {req : PwrMsg} {arch : Int}

/-- The names that are made for an array of listed policies. -/
theorem targetPolicys_eq (h : req.Holds) (hlen : req.head.dataLen ≠ 0)
    (hscratch : m.scratchOk = true) {lines : List Bytes} (hl : m.listing = some lines)
    (hfits : lines.length ≤ maxCpuListLen) (hmarked : ∀ t ∈ requested req, 0 ≤ t.policyId)
    (hknown : ∀ t ∈ requested req, t.policyId ∈ listedIds m) :
    targetPolicys m req = .ok (0, List.replicate (marked m (requested req)).length
      (nameOf (firstMarked m (requested req)))) := by
  obtain ⟨merged, hmerge, hids⟩ := mergeDuplicatePolicys_eq hscratch hmarked
  have hlisted : ∀ t ∈ merged, t.policyId ∈ listedIds m := by
    intro t ht
    have hid : t.policyId ∈ (marked m (requested req)).map Int.ofNat := by
      rw [← hids]
      exact List.mem_map_of_mem ht
    obtain ⟨i, hi, heq⟩ := List.mem_map.mp hid
    obtain ⟨-, t', ht', heq'⟩ := mem_marked.mp hi
    have hlisted := hknown t' ht'
    rw [heq'] at hlisted
    rwa [← heq]
  have hlength := congrArg List.length hids
  rw [List.length_map, List.length_map] at hlength
  have hroom := length_merged_le hl hfits hids hlisted
  rw [targetPolicys_of_data h hlen, hmerge, ok_bind, checkPolicys_eq hl hfits hlisted, ok_bind,
    if_neg (by decide), inputTargetPolicys_eq hroom, hids, hlength, firstMarked, ok_bind]

/-- A request that is answered with data has passed the stages before. -/
theorem passed_of_puts (hwf : srv.WF) (h : req.Holds)
    (hop : OperationType.ofCode req.head.optType = some .cpuGetCurFreq)
    (hlen : req.head.dataLen ≠ 0) (hscratch : m.scratchOk = true) {rsp : PwrMsg}
    (hputs : srv.Puts (srv.serve m host p req) rsp) (hcode : rsp.head.rspCode = 0) :
    (∀ t ∈ requested req, 0 ≤ t.policyId) ∧
      ∃ lines, m.listing = some lines ∧ lines.length ≤ maxCpuListLen := by
  obtain ⟨srv', hok, hsend⟩ := id hputs
  rw [serve_getCpuFreq hop] at hok
  obtain ⟨r, htarget, -⟩ := bind_eq_ok.mp hok
  obtain ⟨merged, hmerge, hcheck⟩ := bind_eq_ok.mp (targetPolicys_of_data h hlen ▸ htarget)
  obtain ⟨code, hcheck, hr⟩ := bind_eq_ok.mp hcheck
  refine ⟨(Machine.returns_mergeDuplicatePolicys hscratch).mp ⟨merged, hmerge⟩, ?_⟩
  have hfits := Machine.returns_checkPolicys.mp ⟨code, hcheck⟩
  cases hl : m.listing with
  | some lines => exact ⟨lines, rfl, hfits lines hl⟩
  | none =>
    rw [Machine.checkPolicys, Machine.getPolicys, hl] at hcheck
    have hone : code = 1 := (Except.ok.inj hcheck).symm
    rw [hone, if_pos (by decide)] at hr
    have hr := (Except.ok.inj hr).symm
    rw [serve_getCpuFreq hop, htarget, ok_bind, hr] at hputs
    dsimp only at hputs
    rw [if_pos (by decide), puts_sendRsp hwf fun _ => rfl] at hputs
    rw [hputs.2] at hcode
    cases hcode

/-- `FreqRead` finds the line of every policy that is listed. -/
theorem freqRead_listed (hfiles : FreqFiles m host p arch) {policys : List Bytes}
    (hlisted : ∀ policy ∈ policys, ∃ id ∈ listedIds m, policy = nameOf id) :
    freqRead m host p.cpuInfo policys =
      .ok (RtnCode.success.code, freqWrites (freqLine m arch) 0 policys) := by
  have hline : ∀ policy ∈ policys, ∃ lines, m.popen (text "cat /sys/devices/system/cpu/cpufreq/" ++
      policy ++ curFreqFile arch) = some (freqLine m arch policy :: lines) := by
    intro policy hpolicy
    obtain ⟨id, hid, rfl⟩ := hlisted policy hpolicy
    obtain ⟨line, lines, hpopen⟩ := hfiles.readable id hid
    refine ⟨lines, ?_⟩
    rw [freqLine, hpopen]
    exact hpopen
  rw [freqRead, hfiles.getArch_eq, ok_bind]
  exact congrArg Except.ok (freqReadLoop_eq hline 0)

theorem intArg_lt (n : UInt32) : intArg n < 2 ^ 31 := by
  have := @BitVec.toInt_lt 32 n.toBitVec
  rw [intArg]
  omega

theorem policyId_lt {t : Machine.CurFreq} (ht : t ∈ requested req) : t.policyId < 2 ^ 31 := by
  obtain ⟨i, -, rfl⟩ := List.mem_map.mp ht
  exact intArg_lt _

theorem length_requested (req : PwrMsg) :
    (requested req).length = req.head.dataLen.toNat / sizeofCurFreq := by
  rw [requested, Machine.curFreqs, List.length_map, List.length_range]

/-- The first id that is marked, if there is one. -/
theorem firstMarked_spec {target : List Machine.CurFreq} (hne : marked m target ≠ []) :
    ∃ id < m.coreNum, firstMarked m target = (id : Int) ∧
      ∃ t ∈ target, t.policyId = (id : Int) := by
  obtain ⟨id, ids, hmarked⟩ := List.exists_cons_of_ne_nil hne
  obtain ⟨hlt, ht⟩ := mem_marked.mp (hmarked ▸ List.mem_cons_self : id ∈ marked m target)
  refine ⟨id, hlt, ?_, ht⟩
  rw [firstMarked, hmarked]
  rfl

/-- What an entry made from a name is read as. -/
theorem freqEntry_nameOf {id : Int} (hlo : 0 ≤ id) (hhi : id < 2 ^ 31) :
    freqEntry (freqLine m arch) (nameOf id) = ownFreq m arch id := by
  rw [freqEntry, ownFreq, nameOf, Machine.policyIdOf_decimal (by omega) hhi]

/-- `FreqRead` for the names that are made. -/
theorem freqRead_marked (hfiles : FreqFiles m host p arch)
    (hknown : ∀ t ∈ requested req, t.policyId ∈ listedIds m) {policys : List Bytes}
    (hpolicys : policys = List.replicate (marked m (requested req)).length
      (nameOf (firstMarked m (requested req)))) :
    freqRead m host p.cpuInfo policys =
      .ok (RtnCode.success.code, freqWrites (freqLine m arch) 0 policys) := by
  refine freqRead_listed hfiles fun policy hpolicy => ?_
  rw [hpolicys, List.mem_replicate, ne_eq, List.length_eq_zero_iff] at hpolicy
  obtain ⟨id, -, hid, t, ht, heq⟩ := firstMarked_spec hpolicy.1
  exact ⟨id, heq ▸ hknown t ht, hid ▸ hpolicy.2⟩

/-- All entries are that of the first id. -/
theorem map_freqEntry_marked : (List.replicate (marked m (requested req)).length
    (nameOf (firstMarked m (requested req)))).map (freqEntry (freqLine m arch)) =
      List.replicate (marked m (requested req)).length
        (ownFreq m arch (firstMarked m (requested req))) := by
  rw [List.map_replicate]
  by_cases hnil : marked m (requested req) = []
  · rw [hnil]
    rfl
  · obtain ⟨id, -, hid, t, ht, heq⟩ := firstMarked_spec hnil
    rw [hid, freqEntry_nameOf (by omega) (heq ▸ policyId_lt ht)]

/-- What is sent: the entry of the first id that is marked, once for every such id. -/
theorem puts_serve_iff (hwf : srv.WF) (h : req.Holds)
    (hop : OperationType.ofCode req.head.optType = some .cpuGetCurFreq)
    (hlen : req.head.dataLen ≠ 0) (hscratch : m.scratchOk = true)
    (hfiles : FreqFiles m host p arch) {lines : List Bytes} (hl : m.listing = some lines)
    (hfits : lines.length ≤ maxCpuListLen) (hmarked : ∀ t ∈ requested req, 0 ≤ t.policyId)
    (hknown : ∀ t ∈ requested req, t.policyId ∈ listedIds m) :
    ∃ data, data.length = sizeofCurFreq * (marked m (requested req)).length ∧
      Machine.curFreqs data (marked m (requested req)).length =
        List.replicate (marked m (requested req)).length
          (ownFreq m arch (firstMarked m (requested req))) ∧
      ∀ rsp, srv.Puts (srv.serve m host p req) rsp ↔ ¬ Silent m ∧ rsp = generateRspMsg req 0
        (.heap m.rspData data)
        (UInt32.ofNat (sizeofCurFreq * (marked m (requested req)).length)) := by
  have htarget := targetPolicys_eq h hlen hscratch hl hfits hmarked hknown
  have hentries := @map_freqEntry_marked m req arch
  generalize hpolicys : List.replicate (marked m (requested req)).length
    (nameOf (firstMarked m (requested req))) = policys at htarget hentries
  have hread := freqRead_marked hfiles hknown hpolicys.symm
  have hlength : policys.length = (marked m (requested req)).length := by
    rw [← hpolicys, List.length_replicate]
  refine ⟨freqReadData RtnCode.success.code policys.length
    (fill (freqWrites (freqLine m arch) 0 policys) p.rstData), ?_, ?_, fun rsp => ?_⟩
  · rw [length_freqReadData, hlength]
  · have hperm := @curFreqs_freqReadData (freqLine m arch) policys p.rstData RtnCode.success.code
    rw [hlength] at hperm ⊢
    exact List.perm_replicate.mp (hperm.trans (List.Perm.of_eq hentries))
  · rw [serve_getCpuFreq hop, htarget, ok_bind]
    dsimp only
    rw [if_neg (by decide), puts_sendReading hwf, fillFreq, hread, ok_bind, ← hlength]
    constructor
    · rintro ⟨hloud, r, hr, rfl⟩
      cases hr
      exact ⟨hloud, rfl⟩
    · rintro ⟨hloud, rfl⟩
      exact ⟨hloud, _, rfl, rfl⟩

theorem pairwise_marked (m : Machine) (target : List Machine.CurFreq) :
    ((marked m target).map Int.ofNat).Pairwise (· < ·) :=
  (List.pairwise_lt_range.filter _).map _ fun _ _ => Int.ofNat_lt.mpr

/-- One id is marked where one is asked for. -/
theorem marked_eq {target : List Machine.CurFreq} {id : ℕ} (hid : id < m.coreNum)
    (hall : ∀ t ∈ target, t.policyId = (id : Int)) :
    marked m target = if target = [] then [] else [id] := by
  split <;> rename_i hne
  · rw [hne]
    simp [marked]
  · obtain ⟨t, ht⟩ := List.exists_mem_of_ne_nil _ hne
    refine List.perm_singleton.mp ((List.perm_ext_iff_of_nodup (List.nodup_range.filter _)
      (List.nodup_singleton _)).mpr fun i => mem_marked.trans ?_)
    rw [List.mem_singleton]
    constructor
    · rintro ⟨-, t', ht', heq⟩
      have := hall t' ht'
      omega
    · rintro rfl
      exact ⟨hid, t, ht, hall t ht⟩

/-- All of the block is sent. -/
theorem sentData_generateRspMsg {rspCode : Int} {a : UInt64} {data : Bytes}
    (hlen : data.length < 2 ^ 32) :
    (generateRspMsg req rspCode (.heap a data) (UInt32.ofNat data.length)).sentData = data := by
  have htake : (UInt32.ofNat data.length).toNat = data.length := by
    rw [UInt32.toNat_ofNat', Nat.mod_eq_of_lt hlen]
  rw [PwrMsg.sentData, generateRspMsg]
  dsimp only
  rw [htake]
  exact List.take_length

theorem scratchOk_of_freqFiles (hfiles : FreqFiles m host p arch) : m.scratchOk = true := by
  cases hscratch : m.scratchOk with
  | true => rfl
  | false =>
    have harch := hfiles.getArch_eq
    rw [getArch, if_pos hscratch] at harch
    have harch : (-1 : Int) = arch := Except.ok.inj harch
    have hknown := hfiles.known
    omega

/-- The answer is no longer than the request. -/
theorem size_marked_lt (m : Machine) (req : PwrMsg) :
    sizeofCurFreq * (marked m (requested req)).length < 2 ^ 32 := by
  have hle := length_marked_le m (requested req)
  have hlt := req.head.dataLen.toNat_lt
  rw [length_requested, sizeofCurFreq] at hle
  rw [sizeofCurFreq]
  omega

theorem oneAsked_of_asAsked (hwf : srv.WF) (h : req.Holds)
    (hop : OperationType.ofCode req.head.optType = some .cpuGetCurFreq)
    (hlen : req.head.dataLen ≠ 0) (hknown : ∀ t ∈ requested req, t.policyId ∈ listedIds m)
    (hfiles : FreqFiles m host p arch) : srv.AsAsked m host p arch req → OneAsked m req := by
  have hscratch := scratchOk_of_freqFiles hfiles
  have hsize := size_marked_lt m req
  rintro ⟨rsp, ids, hputs, -, hcode, -, hmem, hdataLen, hdata⟩
  obtain ⟨hmarked, lines, hl, hfits⟩ := passed_of_puts hwf h hop hlen hscratch hputs hcode
  obtain ⟨data, hlength, hread, hiff⟩ :=
    puts_serve_iff hwf h hop hlen hscratch hfiles hl hfits hmarked hknown
  obtain ⟨hloud, rfl⟩ := (hiff rsp).mp hputs
  rw [← hlength] at hsize
  rw [← hlength, sentData_generateRspMsg hsize] at hdata
  have hn : ids.length = (marked m (requested req)).length := by
    rw [← hlength] at hdataLen
    have hnat : (UInt32.ofNat data.length).toNat = sizeofCurFreq * ids.length := hdataLen
    rw [UInt32.toNat_ofNat', Nat.mod_eq_of_lt hsize, hlength, sizeofCurFreq] at hnat
    omega
  rw [hn, hread] at hdata
  refine ⟨⟨lines, hl, hfits⟩, or_iff_not_imp_left.mpr fun hne => ?_, hloud⟩
  have hfirst : ∀ t ∈ requested req, t.policyId = firstMarked m (requested req) := by
    intro t ht
    have hown := List.mem_map_of_mem (f := ownFreq m arch) ((hmem t.policyId).mpr ⟨t, ht, rfl⟩)
    rw [← hdata] at hown
    exact congrArg Machine.CurFreq.policyId (List.eq_of_mem_replicate hown)
  have hsome : marked m (requested req) ≠ [] := by
    obtain ⟨t, ht⟩ := List.exists_mem_of_ne_nil _ hne
    rw [← List.length_pos_iff, ← hn, List.length_pos_iff]
    exact List.ne_nil_of_mem ((hmem t.policyId).mpr ⟨t, ht, rfl⟩)
  obtain ⟨id, hid, heq, -⟩ := firstMarked_spec hsome
  exact ⟨id, hid, fun t ht => (hfirst t ht).trans heq⟩

theorem asAsked_of_oneAsked (hwf : srv.WF) (h : req.Holds)
    (hop : OperationType.ofCode req.head.optType = some .cpuGetCurFreq)
    (hlen : req.head.dataLen ≠ 0) (hknown : ∀ t ∈ requested req, t.policyId ∈ listedIds m)
    (hfiles : FreqFiles m host p arch) : OneAsked m req → srv.AsAsked m host p arch req := by
  have hscratch := scratchOk_of_freqFiles hfiles
  have hsize := size_marked_lt m req
  rintro ⟨⟨lines, hl, hfits⟩, hone, hloud⟩
  have hids : ∀ t ∈ requested req, 0 ≤ t.policyId ∧ t.policyId < m.coreNum := by
    rcases hone with hnil | ⟨id, hid, hall⟩
    · rw [hnil]
      nofun
    · intro t ht
      rw [hall t ht]
      omega
  obtain ⟨data, hlength, hread, hiff⟩ := puts_serve_iff hwf h hop hlen hscratch hfiles hl hfits
    (fun t ht => (hids t ht).1) hknown
  refine ⟨_, (marked m (requested req)).map Int.ofNat, (hiff _).mpr ⟨hloud, rfl⟩,
    answers_generateRspMsg .., rfl, pairwise_marked m _, fun id => ?_, ?_, ?_⟩
  · constructor
    · intro hid
      obtain ⟨i, hi, rfl⟩ := List.mem_map.mp hid
      exact (mem_marked.mp hi).2
    · rintro ⟨t, ht, rfl⟩
      have hin := hids t ht
      exact List.mem_map.mpr ⟨t.policyId.toNat, mem_marked.mpr ⟨by omega, t, ht, by omega⟩,
        Int.toNat_of_nonneg hin.1⟩
  · rw [List.length_map]
    exact (UInt32.toNat_ofNat' ..).trans (Nat.mod_eq_of_lt hsize)
  · rw [← hlength] at hsize
    rw [List.length_map, ← hlength, sentData_generateRspMsg hsize, hread, firstMarked]
    rcases hone with hnil | ⟨id, hid, hall⟩
    · rw [hnil]
      simp [marked]
    · rw [marked_eq hid hall]
      split <;> rfl

end Stages

/-- **The policies that were asked for** are answered only where there is one of them. -/
theorem asked_answered (srv : ServerState) {m : Machine} {host : Host} {p : Prior} {req : PwrMsg}
    {arch : Int} (h : req.Holds) (hop : OperationType.ofCode req.head.optType = some .cpuGetCurFreq)
    (hlen : req.head.dataLen ≠ 0) (hknown : ∀ t ∈ requested req, t.policyId ∈ listedIds m)
    (hfiles : FreqFiles m host p arch) : srv.1.AsAsked m host p arch req ↔ OneAsked m req :=
  ⟨oneAsked_of_asAsked srv.2 h hop hlen hknown hfiles,
    asAsked_of_oneAsked srv.2 h hop hlen hknown hfiles⟩

/-- A machine with two policies, at 2 GHz and at 1.5 GHz. -/
def cpufreqMachine : Machine :=
  { bareMachine with
    popen := fun command =>
      if command = lscpu then some [text "Architecture:        aarch64\n"]
      else if command = curFreqLine 0 (text "policy0") then some [text "2000000\n"]
      else if command = curFreqLine 0 (text "policy1") then some [text "1500000\n"]
      else some [text "policy0\n", text "policy1\n"]
    coreNum := 2
    cpuUsageRead := .ok (zeroReading (16 + 16 * 2)) }

theorem cpufreqMachine_listedIds : listedIds cpufreqMachine = [0, 1] := by decide +kernel

theorem cpufreqMachine_freqFiles :
    FreqFiles cpufreqMachine emptyHost ⟨fun _ => 0, fun _ => 0⟩ 0 := by
  refine ⟨by decide +kernel, .inl rfl, fun id hid => ?_⟩
  rw [cpufreqMachine_listedIds] at hid
  rcases List.mem_pair.mp hid with rfl | rfl
  · exact ⟨text "2000000\n", [], by decide +kernel⟩
  · exact ⟨text "1500000\n", [], by decide +kernel⟩

theorem asked_answered_policy1 :
    started.1.AsAsked cpufreqMachine emptyHost ⟨fun _ => 0, fun _ => 0⟩ 0 (freqRequest [1, 1]) ↔
      OneAsked cpufreqMachine (freqRequest [1, 1]) :=
  asked_answered started (by decide) rfl (by decide) (by decide +kernel) cpufreqMachine_freqFiles

/-- Who asks for `policy0` and `policy1` does not get them. -/
theorem two_not_answered :
    ((∀ t ∈ requested (freqRequest [0, 1]), t.policyId ∈ listedIds cpufreqMachine) ∧
      FreqFiles cpufreqMachine emptyHost ⟨fun _ => 0, fun _ => 0⟩ 0) ∧
      ¬ started.1.AsAsked cpufreqMachine emptyHost ⟨fun _ => 0, fun _ => 0⟩ 0
        (freqRequest [0, 1]) := by
  have hknown : ∀ t ∈ requested (freqRequest [0, 1]), t.policyId ∈ listedIds cpufreqMachine := by
    decide +kernel
  refine ⟨⟨hknown, cpufreqMachine_freqFiles⟩, fun h => ?_⟩
  obtain ⟨-, hnil | ⟨id, -, hall⟩, -⟩ := oneAsked_of_asAsked started.2 (by decide) rfl (by decide)
    hknown cpufreqMachine_freqFiles h
  · cases hnil
  · have h0 := hall ⟨0, 0⟩ (by decide)
    have h1 := hall ⟨1, 0⟩ (by decide)
    exact absurd (h0.trans h1.symm) (by decide)

end Server

end PowerApi
