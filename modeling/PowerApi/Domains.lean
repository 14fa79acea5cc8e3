import PowerApi.ReadBuffer
import PowerApi.Settings
import PowerApi.Frequencies

/-!
# The table of frequency domains (`FreqDomainRead`)

The table of `GetCpuFreqAbility` has a record for every policy: its id, and the list of
CPUs in its file. The records are filled one after the other, every list is read
into the same buffer, and the id is stored through a pointer to `char`. `decodes_iff` says
which tables are read back as they should be: those with ids of one byte, and with no list
so much shorter than one before it that something of the longer one is left in the buffer.
-/

namespace PowerApi

open Bytes MemoryBlock

namespace Server

/-- An assignment to a `char` of a block. -/
def setChar (off : ℕ) (n : Int) : Write UInt8 := ⟨off, leBytes 1 (n % 2 ^ 8).toNat⟩

/-- The assignments of `FreqDomainRead` to one record. -/
def setDomain (step i : ℕ) (policy domainbuf : Bytes) : List (Write UInt8) :=
  [setChar (i * step) (Machine.policyIdOf policy),
    strCopy (i * step + 4) (cString domainbuf) (step - 4)]

/-- `FreqDomainRead` from the record `i` on, with what `domainbuf` holds. -/
def freqDomainRead (host : Host) (step : ℕ) :
    ℕ → Bytes → List Bytes → Except Fault (Int × List (Write UInt8))
  | _, _, [] => return (0, [])
  | i, domainbuf, policy :: policys =>
    match readFile host (affectedCpusFile policy) domainbuf maxCpuListLen with
    | none => return (1, [])
    | some domainbuf =>
      -- `StrCopy` with a size of 0
      if step ≤ 4 then throw .overrun
      else do
        let (code, ws) ← freqDomainRead host step (i + 1) domainbuf policys
        return (code, setDomain step i policy domainbuf ++ ws)

/-- What a client finds at a place of the table: an `int`, and a string behind it. -/
def domainAt (data : Bytes) (off : ℕ) : Int × Bytes :=
  (intArg (UInt32.ofNat (fieldAt data off 4)), cString (data.drop (off + 4)))

/-- The table of these policies, in a block that is all zero. -/
def domainTable (step len : ℕ) (ws : List (Write UInt8)) : Bytes :=
  contents (step * len) (fill ws fun _ => 0)

/-- Policies with these lists of CPUs, each of them shorter than the buffer. -/
structure DomainLines (host : Host) (ids : List Int) (line : Int → Bytes) : Prop where
  int : ∀ id ∈ ids, -2 ^ 31 ≤ id ∧ id < 2 ^ 31
  file_eq : ∀ id ∈ ids, host.file (affectedCpusFile (nameOf id)) = some (line id ++ [10])
  plain : ∀ id ∈ ids, Plain (line id)
  length_lt : ∀ id ∈ ids, (line id).length + 1 < maxCpuListLen

/-- Every record is read back as what it stands for. -/
def Decodes (host : Host) (step : ℕ) (ids : List Int) (line : Int → Bytes) : Prop :=
  ∃ ws, freqDomainRead host step 0 (List.replicate maxCpuListLen 0) (ids.map nameOf) = .ok (0, ws) ∧
    ∀ i id, ids[i]? = some id →
      domainAt (domainTable step ids.length ws) (i * step) = (id, line id)

/-- The ids have one byte and the lists fit their records, and a list fills its record or
hides what the lists before it have left behind. -/
def Decodable (step : ℕ) (ids : List Int) (line : Int → Bytes) : Prop :=
  ∀ i id, ids[i]? = some id → (0 ≤ id ∧ id < 2 ^ 8) ∧ (line id).length + 5 ≤ step ∧
    ((line id).length + 5 = step ∨
      ∀ j < i, ∀ id', ids[j]? = some id' → (line id').length ≤ (line id).length + (i - j))

/-- The code of `FreqDomainRead` is what the machine has for it. -/
theorem freqDomainRead_code {m : Machine} {host : Host}
    (hfile : ∀ policy, m.affectedCpus policy = true ↔
      ∃ content, host.file (affectedCpusFile policy) = some content ∧ content ≠ [])
    (step i : ℕ) (domainbuf : Bytes) (policys : List Bytes) :
    (freqDomainRead host step i domainbuf policys).map Prod.fst =
      m.freqDomainRead step policys := by
  induction policys generalizing i domainbuf with
  | nil => rfl
  | cons policy policys ih =>
    have hread := (@readFile_isSome host (affectedCpusFile policy) domainbuf maxCpuListLen
      (by decide)).trans (hfile policy).symm
    rw [freqDomainRead, Machine.freqDomainRead]
    cases hbuf : readFile host (affectedCpusFile policy) domainbuf maxCpuListLen with
    | none =>
      rw [hbuf, Option.isSome_none] at hread
      rw [if_pos (by simpa using hread)]
      rfl
    | some domainbuf' =>
      rw [hbuf, Option.isSome_some] at hread
      rw [if_neg (by simpa using hread)]
      dsimp only
      split
      · rfl
      · rw [← ih (i + 1) domainbuf']
        cases freqDomainRead host step (i + 1) domainbuf' policys <;> rfl

/-! ## What is in the buffer -/

section Buffer

variable {host : Host} {step : ℕ} {line : Int → Bytes}

/-- The string in the buffer after the files of these policies. -/
def bufferAfter (line : Int → Bytes) (s : Bytes) (ids : List Int) : Bytes :=
  ids.foldl (fun s id => leftOver s (line id)) s

theorem length_leftOver_le {s t : Bytes} {n : ℕ} :
    (leftOver s t).length ≤ n ↔ t.length ≤ n ∧ s.length ≤ n + 1 := by
  rw [leftOver, List.length_append, List.length_drop]
  omega

/-- A string that is left over shrinks by one byte with every file. -/
theorem length_bufferAfter_le {s : Bytes} {ids : List Int} {n : ℕ} :
    (bufferAfter line s ids).length ≤ n ↔ s.length ≤ n + ids.length ∧
      ∀ j id, ids[j]? = some id → (line id).length + (j + 1) ≤ n + ids.length := by
  induction ids generalizing s with
  | nil => exact iff_of_eq (by simp [bufferAfter])
  | cons id ids ih =>
    rw [bufferAfter, List.foldl_cons]
    refine ih.trans ?_
    rw [length_leftOver_le, List.length_cons]
    constructor
    · rintro ⟨⟨hline, hs⟩, hrest⟩
      refine ⟨by omega, fun j id' hid => ?_⟩
      cases j with
      | zero =>
        cases hid
        omega
      | succ j =>
        have := hrest j id' hid
        omega
    · rintro ⟨hs, hall⟩
      have hfirst := hall 0 id rfl
      refine ⟨⟨by omega, by omega⟩, fun j id' hid => ?_⟩
      have := hall (j + 1) id' hid
      omega

/-- The assignments where every file is read. -/
def domainWrites (line : Int → Bytes) (step : ℕ) : ℕ → Bytes → List Int → List (Write UInt8)
  | _, _, [] => []
  | i, s, id :: ids =>
    [setChar (i * step) id, strCopy (i * step + 4) (leftOver s (line id)) (step - 4)] ++
      domainWrites line step (i + 1) (leftOver s (line id)) ids

theorem domainWrites_append (i : ℕ) (s : Bytes) (ids ids' : List Int) :
    domainWrites line step i s (ids ++ ids') = domainWrites line step i s ids ++
      domainWrites line step (i + ids.length) (bufferAfter line s ids) ids' := by
  induction ids generalizing i s with
  | nil => rfl
  | cons id ids ih =>
    rw [List.cons_append, domainWrites, ih, domainWrites, List.append_assoc, List.length_cons,
      Nat.add_right_comm]
    rfl

theorem plain_bufferAfter {s : Bytes} {ids : List Int} (hs : Plain s)
    (hplain : ∀ id ∈ ids, Plain (line id)) : Plain (bufferAfter line s ids) := by
  induction ids generalizing s with
  | nil => exact hs
  | cons id ids ih =>
    exact ih (hs.leftOver (hplain id List.mem_cons_self)) fun id' hid =>
      hplain id' (List.mem_cons_of_mem _ hid)

/-- With a file for every policy the loop comes to its end. -/
theorem freqDomainRead_eq {ids : List Int} (h : DomainLines host ids line) (hstep : 4 < step)
    {i : ℕ} {s : Bytes} (hs : Plain s) (hlen : s.length < maxCpuListLen) :
    freqDomainRead host step i (padded maxCpuListLen s) (ids.map nameOf) =
      .ok (0, domainWrites line step i s ids) := by
  induction ids generalizing i s with
  | nil => rfl
  | cons id ids ih =>
    have hrest : DomainLines host ids line :=
      ⟨fun x hx => h.int x (List.mem_cons_of_mem _ hx),
        fun x hx => h.file_eq x (List.mem_cons_of_mem _ hx),
        fun x hx => h.plain x (List.mem_cons_of_mem _ hx),
        fun x hx => h.length_lt x (List.mem_cons_of_mem _ hx)⟩
    have hplain := h.plain id List.mem_cons_self
    have hbuf := h.length_lt id List.mem_cons_self
    obtain ⟨hlo, hhi⟩ := h.int id List.mem_cons_self
    have hleft := hs.leftOver hplain
    rw [List.map_cons, freqDomainRead,
      readFile_padded (h.file_eq id List.mem_cons_self) hs hplain hlen hbuf]
    dsimp only
    rw [if_neg (Nat.not_le.mpr hstep), ih hrest hleft (length_leftOver_lt hlen hbuf), ok_bind,
      setDomain, cString_padded hleft, nameOf, Machine.policyIdOf_decimal hlo hhi, domainWrites]
    rfl

/-- Without room for a string the first copy leaves the block. -/
theorem freqDomainRead_narrow {id : Int} {ids : List Int} (h : DomainLines host (id :: ids) line)
    (hstep : step ≤ 4) : freqDomainRead host step 0 (padded maxCpuListLen [])
      ((id :: ids).map nameOf) = .error .overrun := by
  rw [List.map_cons, freqDomainRead, readFile_padded (h.file_eq id List.mem_cons_self) plain_nil
    (h.plain id List.mem_cons_self) (by decide) (h.length_lt id List.mem_cons_self)]
  dsimp only
  rw [if_pos hstep]
  rfl

/-- A record is assigned inside its bounds. -/
theorem leaves_record {k i : ℕ} (hstep : 4 < step) (h : k < i * step ∨ (i + 1) * step ≤ k)
    (id : Int) (text : Bytes) :
    Leaves k [setChar (i * step) id, strCopy (i * step + 4) text (step - 4)] := by
  rw [Nat.add_mul, Nat.one_mul] at h
  refine leaves_cons (fun w hw hcovers => ?_) (leaves_strCopy (by omega) (by omega) text)
  rw [List.mem_singleton.mp hw, Write.Covers, setChar, length_leBytes] at hcovers
  dsimp only at hcovers
  omega

theorem leaves_domainWrites {k i : ℕ} {s : Bytes} {ids : List Int} (hstep : 4 < step)
    (h : k < i * step ∨ (i + ids.length) * step ≤ k) :
    Leaves k (domainWrites line step i s ids) := by
  induction ids generalizing i s with
  | nil => exact leaves_nil
  | cons id ids ih =>
    have hmono : (i + 1) * step ≤ (i + (id :: ids).length) * step :=
      Nat.mul_le_mul_right step (by rw [List.length_cons]; omega)
    rw [List.length_cons, Nat.add_comm ids.length 1, ← Nat.add_assoc] at h hmono
    have hbelow : i * step ≤ (i + 1) * step := Nat.mul_le_mul_right step (Nat.le_succ i)
    exact leaves_append (leaves_record hstep (by omega) id _) (ih (by omega))

theorem not_covers_setChar {off k : ℕ} (h : k ≠ off) (n : Int) : Leaves k [setChar off n] := by
  intro w hw hcovers
  rw [List.mem_singleton.mp hw, Write.Covers, setChar, length_leBytes] at hcovers
  dsimp only at hcovers
  omega

/-- An `int` with zeros behind its first byte. -/
theorem intArg_char {size off : ℕ} {n : Int} {mem : ℕ → UInt8} (hsize : off + 4 ≤ size)
    (hchar : region off 1 mem = (setChar off n).data)
    (hzero : ∀ k, 0 < k → k < 4 → mem (off + k) = 0) :
    intArg (UInt32.ofNat (fieldAt (contents size mem) off 4)) = n % 2 ^ 8 := by
  have hregion : region off 4 mem =
      region off 1 mem ++ [mem (off + 1), mem (off + 2), mem (off + 3)] := rfl
  rw [hchar, hzero 1 (by omega) (by omega), hzero 2 (by omega) (by omega),
    hzero 3 (by omega) (by omega)] at hregion
  have hnat : leNat ((setChar off n).data ++ [0, 0, 0]) = (n % 2 ^ 8 % 2 ^ 32).toNat := by
    have hlow : UInt8.toNat (UInt8.ofNat (n % 2 ^ 8).toNat) = (n % 2 ^ 8).toNat % 256 :=
      UInt8.toNat_ofNat'
    simp only [setChar, leBytes, List.cons_append, List.nil_append, leNat, hlow, UInt8.toNat_zero]
    omega
  rw [fieldAt, region_contents hsize, hregion, hnat, intArg_emod (by omega) (by omega)]

/-- What is read at a record: of the id its low byte, of the string as much as has room. -/
theorem domainAt_fill {size i : ℕ} {id : Int} {str : Bytes} {ws ws' : List (Write UInt8)}
    (hstep : 4 < step) (hsize : i * step + step ≤ size) (hstr : ∀ c ∈ str, c ≠ 0)
    (hbefore : ∀ k < step, Leaves (i * step + k) ws)
    (hafter : ∀ k < step, Leaves (i * step + k) ws') :
    domainAt (contents size (fill (ws ++ ([setChar (i * step) id,
      strCopy (i * step + 4) str (step - 4)] ++ ws')) fun _ => 0)) (i * step) =
      (id % 2 ^ 8, str.take (step - 5)) := by
  generalize hcopy : strCopy (i * step + 4) str (step - 4) = copy
  have hdata : copy.data = str.take (step - 5) ++ [0] := by
    rw [← hcopy, strCopy, Nat.sub_sub]
  have hleaves : ∀ k < 4, Leaves (i * step + k) [copy] := fun k hk =>
    hcopy ▸ leaves_strCopy (by omega) (.inl (by omega)) str
  generalize hmem : fill (ws ++ ([setChar (i * step) id, copy] ++ ws')) (fun _ => 0) = mem
  have hchar : region (i * step) 1 mem = (setChar (i * step) id).data := by
    rw [← hmem]
    refine @region_fill _ (setChar (i * step) id) ws (copy :: ws') _ fun v hv k hk => ?_
    rw [setChar, length_leBytes] at hk
    exact leaves_cons (hleaves k (by omega)) (hafter k (by omega)) v hv
  have hzero : ∀ k, 0 < k → k < 4 → mem (i * step + k) = 0 := by
    intro k hpos hlt
    rw [← hmem]
    exact fill_of_not_covered (leaves_append (hbefore k (by omega)) (leaves_cons
      (not_covers_setChar (by omega) id) (leaves_cons (hleaves k hlt) (hafter k (by omega))))) _
  have hregion : region (i * step + 4) copy.data.length mem = copy.data := by
    have hoff : copy.off = i * step + 4 := hcopy ▸ rfl
    have hlen : copy.data.length ≤ step - 4 := by
      rw [← hcopy, length_strCopy]
      omega
    have hfill := @region_fill _ copy (ws ++ [setChar (i * step) id]) ws' (fun _ => 0)
      fun v hv k hk => by
        rw [hoff, Nat.add_assoc]
        exact hafter (4 + k) (by omega) v hv
    rw [hoff, ← List.append_cons] at hfill
    rw [← hmem]
    exact hfill
  have hstring : cString ((contents size mem).drop (i * step + 4)) = str.take (step - 5) := by
    have hlen : i * step + 4 + copy.data.length ≤ size := by
      rw [← hcopy, length_strCopy]
      omega
    rw [← region_contents hlen, hdata] at hregion
    rw [← List.take_append_drop _ ((contents size mem).drop (i * step + 4)), hregion,
      List.append_assoc]
    exact cString_append_zero fun c hc => hstr c (List.mem_of_mem_take hc)
  exact Prod.ext (intArg_char (by omega) hchar hzero) hstring

/-- The record shows the list alone if there is room for it, and none for more or nothing
left over. -/
theorem take_leftOver_iff {s t : Bytes} (hstep : 4 < step) :
    (leftOver s t).take (step - 5) = t ↔
      t.length + 5 ≤ step ∧ (t.length + 5 = step ∨ s.length ≤ t.length + 1) := by
  by_cases hfit : t.length + 5 ≤ step
  · rw [leftOver, List.take_append, List.take_of_length_le (by omega), List.append_right_eq_self,
      List.take_eq_nil_iff, List.drop_eq_nil_iff, and_iff_right hfit]
    omega
  · refine iff_of_false (fun heq => hfit ?_) fun h => hfit h.1
    have hlen := congrArg List.length heq
    rw [List.length_take] at hlen
    omega

/-- The records, each with what the ones before it have left. -/
theorem domainAt_domainTable {ids ids' : List Int} {id : Int} (hstep : 4 < step)
    (hplain : ∀ x ∈ ids ++ id :: ids', Plain (line x)) :
    domainAt (domainTable step (ids ++ id :: ids').length
      (domainWrites line step 0 [] (ids ++ id :: ids'))) (ids.length * step) =
      (id % 2 ^ 8, (leftOver (bufferAfter line [] ids) (line id)).take (step - 5)) := by
  have hbuf : Plain (bufferAfter line [] ids) :=
    plain_bufferAfter plain_nil fun x hx => hplain x (List.mem_append_left _ hx)
  have hstr := hbuf.leftOver (hplain id (by simp))
  have hnext : (ids.length + 1) * step = ids.length * step + step := Nat.succ_mul ..
  have hsize : ids.length * step + step ≤ step * (ids ++ id :: ids').length := by
    rw [← hnext, Nat.mul_comm step]
    exact Nat.mul_le_mul_right step (by rw [List.length_append, List.length_cons]; omega)
  rw [domainTable, domainWrites_append, Nat.zero_add, domainWrites]
  exact domainAt_fill hstep hsize (fun c hc => (hstr c hc).1)
    (fun k _ => leaves_domainWrites hstep (.inr (by rw [Nat.zero_add]; omega)))
    (fun k hk => leaves_domainWrites hstep (.inl (by omega)))

/-- A list around one of its places. -/
theorem split_at {ids : List Int} {i : ℕ} {id : Int} (h : ids[i]? = some id) :
    ∃ ids₁ ids₂, ids = ids₁ ++ id :: ids₂ ∧ ids₁.length = i := by
  obtain ⟨hi, heq⟩ := List.getElem?_eq_some_iff.mp h
  refine ⟨ids.take i, ids.drop (i + 1), ?_, List.length_take_of_le hi.le⟩
  rw [← heq, List.getElem_cons_drop, List.take_append_drop]

/-- The list of a record hides what is left over from those before it. -/
theorem hidden_iff {ids ids' : List Int} {id : Int} :
    (bufferAfter line [] ids).length ≤ (line id).length + 1 ↔
      ∀ j < ids.length, ∀ id', (ids ++ id :: ids')[j]? = some id' →
        (line id').length ≤ (line id).length + (ids.length - j) := by
  rw [length_bufferAfter_le]
  refine (and_iff_right (Nat.zero_le _)).trans ?_
  constructor
  · intro hall j hj id' hid'
    rw [List.getElem?_append_left hj] at hid'
    have := hall j id' hid'
    omega
  · intro hall j id' hid'
    obtain ⟨hj, -⟩ := List.getElem?_eq_some_iff.mp hid'
    have := hall j hj id' (by rwa [List.getElem?_append_left hj])
    omega

theorem decodes_iff_domainAt {ids : List Int} (h : DomainLines host ids line) (hstep : 4 < step) :
    Decodes host step ids line ↔ ∀ i id, ids[i]? = some id →
      domainAt (domainTable step ids.length (domainWrites line step 0 [] ids)) (i * step) =
        (id, line id) := by
  rw [Decodes, ← padded_nil, freqDomainRead_eq h hstep plain_nil (by decide)]
  constructor
  · rintro ⟨ws, heq, hall⟩
    cases heq
    exact hall
  · exact fun hall => ⟨_, rfl, hall⟩

end Buffer

/-- **The table of frequency domains** is read back as it should be if and only if the ids
have one byte, the lists fit, and no list has the rest of a longer one behind it. -/
theorem decodes_iff {host : Host} {step : ℕ} {ids : List Int} {line : Int → Bytes}
    (h : DomainLines host ids line) : Decodes host step ids line ↔ Decodable step ids line := by
  rcases Nat.lt_or_ge 4 step with hstep | hstep
  · rw [decodes_iff_domainAt h hstep, Decodable]
    refine forall_congr' fun i => forall_congr' fun id => imp_congr_right fun hid => ?_
    obtain ⟨ids₁, ids₂, rfl, rfl⟩ := split_at hid
    rw [domainAt_domainTable hstep h.plain, Prod.mk.injEq, take_leftOver_iff hstep, hidden_iff]
    refine and_congr_left fun _ => ?_
    constructor <;> intro hbyte <;> omega
  · cases ids with
    | nil => exact iff_of_true ⟨[], rfl, nofun⟩ nofun
    | cons id ids =>
      refine iff_of_false ?_ fun hall => ?_
      · rintro ⟨ws, hrun, -⟩
        cases (freqDomainRead_narrow h hstep).symm.trans hrun
      · obtain ⟨-, hfit, -⟩ := hall 0 id rfl
        omega

/-- The lists of two policies. -/
def domainLine (first second : Bytes) (id : Int) : Bytes := if id = 0 then first else second

/-- A host with `policy0` and `policy4`. -/
def domainHost (first second : Bytes) : Host :=
  { emptyHost with
    file := fun path =>
      if path = affectedCpusFile (nameOf 0) then some (first ++ [10]) else some (second ++ [10]) }

theorem domainLines_pair {first second : Bytes}
    (h : ∀ line ∈ [first, second], Plain line ∧ line.length < 20) :
    DomainLines (domainHost first second) [0, 4] (domainLine first second) := by
  have hline : ∀ id, domainLine first second id ∈ [first, second] := by
    intro id
    rw [domainLine]
    split <;> simp
  refine ⟨by decide, fun id hid => ?_, fun id _ => (h _ (hline id)).1, fun id _ => ?_⟩
  · rcases List.mem_pair.mp hid with rfl | rfl
    · exact if_pos rfl
    · exact if_neg (by decide +kernel)
  · have := (h _ (hline id)).2
    rw [maxCpuListLen]
    omega

theorem decodes_same_length :
    Decodes (domainHost (text "0 1 2 3") (text "4 5 6 7")) 24 [0, 4]
        (domainLine (text "0 1 2 3") (text "4 5 6 7")) ↔
      Decodable 24 [0, 4] (domainLine (text "0 1 2 3") (text "4 5 6 7")) :=
  decodes_iff (domainLines_pair (by decide +kernel))

/-- Behind four CPUs of `policy0`, the one CPU of `policy4` is read as `41 2 3`. -/
theorem policy4_not_decoded :
    DomainLines (domainHost (text "0 1 2 3") (text "4")) [0, 4]
        (domainLine (text "0 1 2 3") (text "4")) ∧
      ¬ Decodes (domainHost (text "0 1 2 3") (text "4")) 24 [0, 4]
        (domainLine (text "0 1 2 3") (text "4")) := by
  have hlines := @domainLines_pair (text "0 1 2 3") (text "4") (by decide +kernel)
  refine ⟨hlines, ?_⟩
  rintro ⟨ws, hrun, hall⟩
  have hrun' := @freqDomainRead_eq _ 24 _ _ hlines (by decide) 0 [] plain_nil (by decide)
  cases hrun'.symm.trans hrun
  have hread : domainAt (domainTable 24 2 (domainWrites (domainLine (text "0 1 2 3") (text "4"))
      24 0 [] [0, 4])) 24 = (4, text "41 2 3") := by decide +kernel
  have hline : text "41 2 3" = text "4" := congrArg Prod.snd (hread.symm.trans (hall 1 4 rfl))
  exact absurd hline (by decide +kernel)

end Server

end PowerApi
