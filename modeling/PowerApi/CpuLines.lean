import PowerApi.CpuReaders

/-!
# The lines of `lscpu` (`cpuservice.c`)

`lscpu` prints an attribute a line, a label and a value. `CpuInfoRead` cuts a line up in
its buffer; `CpuInfoCopy` takes the first entry of `cpuAttributes` that is part of the
label, and edits the label of a NUMA node in place until its number is left.

`traceLines` is the loop with the indices into `numa` beside it. `traceLines_line` says what
it makes of one line, whatever is left in the buffer: the assignments depend on label and
value only, and there are two ways to go wrong. One is the number of a node. The other is
a line that is longer than the buffer: what `fgets` leaves of it comes as further lines
without a colon, whose value is looked for behind the end of the text.
-/

namespace PowerApi

open MemoryBlock

/-! ## `CpuInfoRead`, step by step -/

/-- `CpuInfoRead` up to the call of `CpuInfoCopy`: the buffer, `att` and `value`. -/
def cutLine (buf line : Bytes) : Except Fault (Bytes × Option (ℕ × ℕ)) := do
  let buf := putString buf line
  match ← strtok buf 58 with
  | none => return (buf, none)
  | some (att, buf) =>
    let value := (← stringAt buf att).length + 1
    let att ← ltrim buf att
    let value ← ltrim buf value
    let len := (← stringAt buf value).length
    return (buf.set (value + len - 1) 0, some (att, value))

/-- The index into `numa` at which `CpuInfoCopy` stores, if it comes to that. -/
def numaIndex (buf : Bytes) (att : ℕ) : Except Fault (Option Int) := do
  match getCpuArrId (← stringAt buf att) with
  | some .numaNode =>
    let buf ← deleteSubstr buf att (text "NUMA node")
    let buf ← deleteSubstr buf att (text " CPU(s)")
    return some (atoi (← stringAt buf att))
  | _ => return none

/-- An index of `numa`. -/
def InNuma (j : Int) : Prop := 0 ≤ j ∧ j < maxNumaNodeNum

instance (j : Int) : Decidable (InNuma j) := inferInstanceAs (Decidable (_ ∧ _))

/-- What is known of a run: the indices into `numa` that come up, and the result. -/
abbrev NumaTrace := List Int × Except Fault (List (Write UInt8))

/-- A run with a line in front of it. -/
def NumaTrace.after (j : Option Int) (ws : List (Write UInt8)) (run : NumaTrace) : NumaTrace :=
  (j.toList ++ run.1, (ws ++ ·) <$> run.2)

/-- The loop of `CpuInfoRead` with the indices up to the one that goes wrong. -/
def traceLines (host : Host) : List Bytes → Bytes → NumaTrace
  | [], _ => ([], .ok [])
  | line :: lines, buf =>
    match cutLine buf line with
    | .error f => ([], .error f)
    | .ok (buf, none) => traceLines host lines buf
    | .ok (buf, some (att, value)) =>
      let j := (numaIndex buf att).toOption.join
      match cpuInfoCopy host buf att value with
      | .error f => (j.toList, .error f)
      | .ok (buf, ws) => (traceLines host lines buf).after j ws

theorem cpuInfoLine_eq (host : Host) (buf line : Bytes) :
    cpuInfoLine host buf line = cutLine buf line >>= fun
      | (buf, none) => .ok (buf, [])
      | (buf, some (att, value)) => cpuInfoCopy host buf att value := by
  rw [cpuInfoLine, cutLine]
  rcases strtok (putString buf line) 58 with f | _ | ⟨att, buf⟩
  · rfl
  · rfl
  · dsimp only [ok_bind]
    rcases stringAt buf att with f | s
    · rfl
    rcases ltrim buf att with f | att
    · rfl
    dsimp only [ok_bind]
    rcases ltrim buf (s.length + 1) with f | value
    · rfl
    dsimp only [ok_bind]
    rcases stringAt buf value with f | v
    · rfl
    · rfl

/-- Where `CpuInfoCopy` returns, the index is one of `numa`, and this is where the list goes. -/
theorem cpuInfoCopy_numaIndex {host : Host} {buf buf' : Bytes} {att value : ℕ}
    {ws : List (Write UInt8)} (h : cpuInfoCopy host buf att value = .ok (buf', ws)) :
    ∃ j, numaIndex buf att = .ok j ∧ ∀ n ∈ j, InNuma n ∧ ∃ v,
      ws = [setInt (CpuAttType.numaNode.offset + sizeofNumaInfo * n.toNat) n,
        strCopy (CpuAttType.numaNode.offset + sizeofNumaInfo * n.toNat + 4) v maxCpuListLen] := by
  rw [cpuInfoCopy] at h
  obtain ⟨a, ha, h⟩ := bind_eq_ok.mp h
  obtain ⟨v, -, h⟩ := bind_eq_ok.mp h
  rw [numaIndex, ha, ok_bind]
  by_cases hnode : getCpuArrId a = some .numaNode
  · rw [hnode] at h ⊢
    obtain ⟨buf₁, h₁, h⟩ := bind_eq_ok.mp h
    obtain ⟨buf₂, h₂, h⟩ := bind_eq_ok.mp h
    obtain ⟨s, hs, h⟩ := bind_eq_ok.mp h
    dsimp only at h ⊢
    rw [h₁, ok_bind, h₂, ok_bind, hs, ok_bind]
    refine ⟨_, rfl, fun n hn => ?_⟩
    cases hn
    split at h <;> rename_i hj
    · obtain ⟨v', -, h⟩ := bind_eq_ok.mp h
      cases h
      exact ⟨hj, v', rfl⟩
    · cases h
  · refine ⟨none, ?_, by rintro j ⟨⟩⟩
    rcases hid : getCpuArrId a with _ | ty
    · rfl
    · cases ty with
      | numaNode => exact absurd hid hnode
      | _ => rfl

/-- The indices are beside the run. -/
theorem traceLines_snd (host : Host) (lines : List Bytes) (buf : Bytes) :
    (traceLines host lines buf).2 = cpuInfoLines host lines buf := by
  induction lines generalizing buf with
  | nil => rfl
  | cons line lines ih =>
    rw [traceLines, cpuInfoLines, cpuInfoLine_eq]
    rcases cutLine buf line with f | ⟨buf, _ | ⟨att, value⟩⟩
    · rfl
    · rw [ok_bind]
      dsimp only
      rw [ih]
      exact (id_map _).symm
    · rw [ok_bind]
      dsimp only
      rcases cpuInfoCopy host buf att value with f | ⟨buf, ws⟩
      · rfl
      · dsimp only [NumaTrace.after]
        rw [ih]
        rfl

/-! ## A line in the buffer -/

section Buffer

variable {buf s r : Bytes} {i : ℕ}

theorem stringAt_of_drop (h : buf.drop i = s ++ 0 :: r) (hs : ∀ c ∈ s, c ≠ 0) :
    stringAt buf i = .ok s := by
  rw [stringAt, h, if_pos (List.mem_append_right _ List.mem_cons_self), cString_append_zero hs]

theorem ne_zero_of_isSpace {c : UInt8} (h : isSpace c = true) : c ≠ 0 := by
  rintro rfl
  exact absurd h (by decide)

/-- `Ltrim` of a string with blanks in front. -/
theorem ltrim_of_drop {blanks : Bytes} (h : buf.drop i = blanks ++ s ++ 0 :: r)
    (hblanks : ∀ c ∈ blanks, isSpace c = true) (hs : ∀ c ∈ s, c ≠ 0)
    (htrim : s.takeWhile isSpace = []) : ltrim buf i = .ok (i + blanks.length) := by
  have hno : ∀ c ∈ blanks ++ s, c ≠ 0 := fun c hc =>
    (List.mem_append.mp hc).elim (fun hc => ne_zero_of_isSpace (hblanks c hc)) (hs c)
  rw [ltrim, stringAt_of_drop h hno, ok_bind, List.takeWhile_append_of_pos hblanks, htrim,
    List.append_nil]
  rfl

theorem set_append_cons (a : Bytes) (c d : UInt8) (tail : Bytes) :
    (a ++ c :: tail ++ 0 :: r).set a.length d = a ++ d :: tail ++ 0 :: r := by
  rw [List.append_assoc, List.set_append_right _ _ (Nat.le_refl _), Nat.sub_self,
    List.cons_append, List.set_cons_zero, List.append_assoc, List.cons_append]

/-- `strtok` ends the string at the first colon. -/
theorem strtok_colon {key tail : Bytes} (hne : key ≠ []) (hkey : ∀ c ∈ key, c ≠ 0 ∧ c ≠ 58)
    (htail : ∀ c ∈ tail, c ≠ 0) :
    strtok (key ++ 58 :: tail ++ 0 :: r) 58 = .ok (some (0, key ++ 0 :: tail ++ 0 :: r)) := by
  obtain ⟨c, cs, rfl⟩ := List.exists_cons_of_ne_nil hne
  have hstart : ((c :: cs ++ 58 :: tail ++ 0 :: r).takeWhile (· = (58 : UInt8))).length = 0 := by
    simp [(hkey c List.mem_cons_self).2]
  have hno : ∀ d ∈ c :: cs ++ 58 :: tail, d ≠ 0 := by
    intro d hd
    rcases List.mem_append.mp hd with hd | hd
    · exact (hkey d hd).1
    · rcases List.mem_cons.mp hd with rfl | hd
      · decide
      · exact htail d hd
  have hlen : ((c :: cs ++ 58 :: tail).takeWhile (· ≠ 58)).length = (c :: cs).length := by
    rw [List.takeWhile_append_of_pos fun d hd => decide_eq_true (hkey d hd).2,
      List.takeWhile_cons_of_neg (by simp), List.append_nil]
  rw [strtok, hstart, stringAt_of_drop (List.drop_zero ..) hno]
  dsimp only [ok_bind]
  rw [if_neg (by simp), hlen, if_pos (by simp), Nat.zero_add, set_append_cons]
  rfl

/-- Without a colon the line is the token. -/
theorem strtok_whole (hne : s ≠ []) (hs : ∀ c ∈ s, c ≠ 0 ∧ c ≠ 58) :
    strtok (s ++ 0 :: r) 58 = .ok (some (0, s ++ 0 :: r)) := by
  obtain ⟨c, cs, rfl⟩ := List.exists_cons_of_ne_nil hne
  have hstart : ((c :: cs ++ 0 :: r).takeWhile (· = (58 : UInt8))).length = 0 := by
    simp [(hs c List.mem_cons_self).2]
  have hlen : ((c :: cs).takeWhile (· ≠ 58)) = c :: cs :=
    List.takeWhile_eq_self_iff.mpr fun d hd => decide_eq_true (hs d hd).2
  rw [strtok, hstart, stringAt_of_drop (List.drop_zero ..) fun d hd => (hs d hd).1]
  dsimp only [ok_bind]
  rw [if_neg (by simp), hlen, if_neg (lt_irrefl _)]
  rfl

/-- `DeleteSubstr`: the string closes up, what is behind its old end stays. -/
theorem deleteSubstr_eq {p x sub y : Bytes} (hno : ∀ c ∈ x ++ sub ++ y, c ≠ 0)
    (hfind : ((List.range (x ++ sub ++ y).length).find? fun k =>
      sub <+: (x ++ sub ++ y).drop k) = some x.length)
    (hsub : 0 < sub.length) (hroom : sub.length ≤ r.length) :
    deleteSubstr (p ++ (x ++ sub ++ y) ++ 0 :: r) p.length sub =
      .ok (p ++ (x ++ y) ++ 0 :: (r.take (sub.length - 1) ++ 0 :: r)) := by
  have hdrop : (p ++ (x ++ sub ++ y) ++ 0 :: r).drop p.length = x ++ sub ++ y ++ 0 :: r := by
    rw [List.append_assoc, List.drop_left]
  obtain ⟨n, hn⟩ := Nat.exists_eq_add_of_lt hsub
  rw [deleteSubstr, stringAt_of_drop hdrop hno]
  dsimp only [ok_bind]
  rw [hfind]
  dsimp only
  rw [if_neg (by simp; omega)]
  have hfront : (p ++ (x ++ sub ++ y) ++ 0 :: r).take (p.length + x.length) = p ++ x := by
    have hassoc : p ++ (x ++ sub ++ y) ++ 0 :: r = p ++ x ++ (sub ++ y ++ 0 :: r) := by simp
    rw [hassoc, ← List.length_append, List.take_left]
  have hmid : ((p ++ (x ++ sub ++ y) ++ 0 :: r).drop (p.length + x.length + sub.length)).take
      ((x ++ sub ++ y).length - x.length) = y ++ 0 :: r.take (sub.length - 1) := by
    have hassoc : p ++ (x ++ sub ++ y) ++ 0 :: r = p ++ x ++ sub ++ (y ++ 0 :: r) := by simp
    have hlen : (x ++ sub ++ y).length - x.length = y.length + (sub.length - 1 + 1) := by
      rw [List.length_append, List.length_append]
      omega
    rw [hassoc, ← List.length_append, ← List.length_append, List.drop_left, hlen,
      List.take_length_add_append, List.take_succ_cons]
  have hback : (p ++ (x ++ sub ++ y) ++ 0 :: r).drop (p.length + (x ++ sub ++ y).length) =
      0 :: r := by
    rw [← List.length_append, List.drop_left]
  rw [hfront, hmid, hback]
  simp [pure, Except.pure]

/-- Behind the blanks stands the value, and the character behind that is cut off. -/
theorem ltrim_value {key padding value : Bytes} {last : UInt8}
    (hpadding : ∀ c ∈ padding, c = 32) (hvalue : ∀ c ∈ value, c ≠ 0)
    (htrim : value.takeWhile isSpace = []) (hlast : last ≠ 0)
    (hbuf : buf = key ++ 0 :: (padding ++ value ++ [last]) ++ 0 :: r) :
    ∃ pos str r', key.length < pos ∧ ltrim buf (key.length + 1) = .ok pos ∧
      stringAt buf pos = .ok str ∧
      buf.set (pos + str.length - 1) 0 = key ++ 0 :: (padding ++ value) ++ 0 :: 0 :: r ∧
      (key ++ 0 :: (padding ++ value) ++ 0 :: 0 :: r).drop pos = value ++ 0 :: r' := by
  have hset : buf.set (key.length + 1 + padding.length + value.length) 0 =
      key ++ 0 :: (padding ++ value) ++ 0 :: 0 :: r := by
    have hlen : key.length + 1 + padding.length + value.length =
        (key ++ 0 :: (padding ++ value)).length := by simp; omega
    have hassoc : buf = key ++ 0 :: (padding ++ value) ++ last :: [] ++ 0 :: r := by simp [hbuf]
    rw [hlen, hassoc, set_append_cons]
    simp
  have hkey : key.length + 1 = (key ++ [(0 : UInt8)]).length := by simp
  have hdrop : buf.drop (key.length + 1) = padding ++ (value ++ [last]) ++ 0 :: r := by
    have hassoc : buf = key ++ [0] ++ (padding ++ (value ++ [last]) ++ 0 :: r) := by simp [hbuf]
    rw [hassoc, hkey, List.drop_left]
  have hspaces : ∀ c ∈ padding, isSpace c = true := fun c hc => by
    rw [hpadding c hc]
    decide
  have hno : ∀ c ∈ value ++ [last], c ≠ 0 := fun c hc =>
    (List.mem_append.mp hc).elim (hvalue c) fun hc => List.mem_singleton.mp hc ▸ hlast
  by_cases hblank : (value ++ [last]).takeWhile isSpace = []
  · refine ⟨key.length + 1 + padding.length, value ++ [last], 0 :: r, by omega,
      ltrim_of_drop hdrop hspaces hno hblank, ?_, ?_, ?_⟩
    · refine stringAt_of_drop (r := r) ?_ hno
      rw [← List.drop_drop, hdrop, List.append_assoc, List.drop_left]
    · rw [← hset, List.length_append, List.length_singleton]
      congr 1
    · have hassoc : key ++ 0 :: (padding ++ value) ++ 0 :: 0 :: r =
          key ++ [0] ++ padding ++ (value ++ 0 :: 0 :: r) := by simp
      rw [hassoc, hkey, ← List.length_append, List.drop_left]
  -- nothing but a blank behind the padding
  · have hnil : value = [] := by
      cases value with
      | nil => rfl
      | cons c cs =>
        refine absurd ?_ hblank
        rw [List.cons_append, List.takeWhile_cons]
        rw [List.takeWhile_cons] at htrim
        split at htrim
        · cases htrim
        · rw [if_neg ‹_›]
    subst hnil
    have hspace : isSpace last = true := by
      by_contra hnot
      exact hblank (List.takeWhile_cons_of_neg hnot)
    have hall : ∀ c ∈ padding ++ [last], isSpace c = true := fun c hc =>
      (List.mem_append.mp hc).elim (hspaces c) fun hc => List.mem_singleton.mp hc ▸ hspace
    have hdrop' : buf.drop (key.length + 1) = padding ++ [last] ++ [] ++ 0 :: r := by
      rw [hdrop, List.nil_append, List.append_nil]
    refine ⟨key.length + 1 + (padding ++ [last]).length, [], r, by omega,
      ltrim_of_drop hdrop' hall nofun rfl, ?_, ?_, ?_⟩
    · refine stringAt_of_drop (r := r) ?_ nofun
      rw [← List.drop_drop, hdrop', List.append_nil, List.drop_left, List.nil_append]
    · rw [← hset, List.length_append, List.length_singleton, List.length_nil]
      congr 1
    · have hassoc : key ++ 0 :: (padding ++ []) ++ 0 :: 0 :: r =
          key ++ [0] ++ (padding ++ [0]) ++ (0 :: r) := by simp
      have hlen : (padding ++ [last]).length = (padding ++ [(0 : UInt8)]).length := by simp
      rw [hassoc, hkey, hlen, ← List.length_append, List.drop_left, List.nil_append]

end Buffer

/-! ## Labels -/

theorem drop_append_congr {a b t : Bytes} {i : ℕ} (hlen : a.length = b.length)
    (h : a.length ≤ i) : (a ++ t).drop i = (b ++ t).drop i := by
  have hb : b.length ≤ i := hlen ▸ h
  rw [List.drop_append, List.drop_append, List.drop_eq_nil_of_le h, List.drop_eq_nil_of_le hb, hlen]

theorem strMatch_eq_some {str want next : Bytes} :
    Machine.strMatch str want = some next ↔ str = want ++ next := by
  constructor
  · intro h
    induction want generalizing str with
    | nil =>
      cases str <;> exact Option.some.inj h
    | cons b want ih =>
      cases str with
      | nil => cases h
      | cons a str =>
        rw [Machine.strMatch] at h
        split at h
        · cases h
        · rename_i heq
          rw [List.cons_append, ← ih h, not_ne_iff.mp heq]
  · rintro rfl
    exact Machine.strMatch_append want next

/-- `DeleteSubstr` as a search for the first position. -/
theorem deleteSubstr_find (sub str : Bytes) :
    Machine.deleteSubstr sub str =
      match (List.range str.length).find? fun k => sub <+: str.drop k with
      | none => str
      | some k => str.take k ++ str.drop (k + sub.length) := by
  induction str with
  | nil => rfl
  | cons a str ih =>
    rw [Machine.deleteSubstr, List.length_cons, List.range_succ_eq_map, List.find?_cons]
    by_cases hprefix : sub <+: a :: str
    · obtain ⟨next, hnext⟩ := hprefix
      rw [strMatch_eq_some.mpr hnext.symm]
      simp [← hnext]
    · have hnone : Machine.strMatch (a :: str) sub = none :=
        Option.eq_none_iff_forall_ne_some.mpr fun next hnext =>
          hprefix ⟨next, (strMatch_eq_some.mp hnext).symm⟩
      have hzero : decide (sub <+: (a :: str).drop 0) = false := decide_eq_false hprefix
      have hsucc : ((fun k => decide (sub <+: (a :: str).drop k)) ∘ Nat.succ) =
          fun k => decide (sub <+: str.drop k) := rfl
      rw [hnone, hzero, List.find?_map, hsucc, ih]
      cases (List.range str.length).find? fun k => decide (sub <+: str.drop k) with
      | none => rfl
      | some k =>
        have hadd : Nat.succ k + sub.length = k + sub.length + 1 := by omega
        dsimp only [Option.map_some]
        rw [List.take_succ_cons, hadd, List.drop_succ_cons, List.cons_append]

/-- `DeleteSubstr` in a buffer. What is behind the old end of the string stays. -/
theorem deleteSubstr_string {p name sub r : Bytes} (hname : ∀ c ∈ name, c ≠ 0)
    (hsub : 0 < sub.length) (hroom : sub.length ≤ r.length) :
    ∃ r', r.length ≤ r'.length ∧
      deleteSubstr (p ++ name ++ 0 :: r) p.length sub =
        .ok (p ++ Machine.deleteSubstr sub name ++ 0 :: r') ∧
      ∀ i ≥ (p ++ name).length, (p ++ Machine.deleteSubstr sub name ++ 0 :: r').drop i =
        (p ++ name ++ 0 :: r).drop i := by
  have hdrop : (p ++ name ++ 0 :: r).drop p.length = name ++ 0 :: r := by
    rw [List.append_assoc, List.drop_left]
  rw [deleteSubstr_find]
  cases hfind : (List.range name.length).find? fun k => sub <+: name.drop k with
  | none =>
    refine ⟨r, le_rfl, ?_, fun _ _ => rfl⟩
    rw [deleteSubstr, stringAt_of_drop hdrop hname]
    dsimp only [ok_bind]
    rw [hfind]
    rfl
  | some k =>
    have hk := List.find?_some hfind
    obtain ⟨y, hy⟩ := of_decide_eq_true hk
    have hlt : k < name.length := List.mem_range.mp (List.mem_of_find?_eq_some hfind)
    obtain ⟨x, hx, rfl⟩ : ∃ x, name = x ++ sub ++ y ∧ x.length = k :=
      ⟨name.take k, by rw [List.append_assoc, hy, List.take_append_drop],
        List.length_take_of_le hlt.le⟩
    subst hx
    have hnew : (x ++ sub ++ y).take x.length ++ (x ++ sub ++ y).drop (x.length + sub.length) =
        x ++ y := by
      rw [← List.length_append, List.drop_left, List.append_assoc, List.take_left]
    dsimp only
    rw [hnew]
    refine ⟨r.take (sub.length - 1) ++ 0 :: r, by simp; omega,
      deleteSubstr_eq hname hfind hsub hroom, fun i hi => ?_⟩
    have hassoc : p ++ (x ++ y) ++ 0 :: (r.take (sub.length - 1) ++ 0 :: r) =
        p ++ (x ++ y) ++ 0 :: r.take (sub.length - 1) ++ 0 :: r := by simp
    have hlen : (p ++ (x ++ y) ++ 0 :: r.take (sub.length - 1)).length =
        (p ++ (x ++ sub ++ y)).length := by
      simp
      omega
    rw [hassoc]
    exact drop_append_congr hlen (hlen ▸ hi)

/-- The number that `CpuInfoCopy` takes from the label of a node. -/
def nodeNumber (name : Bytes) : Int :=
  atoi (Machine.deleteSubstr (text " CPU(s)") (Machine.deleteSubstr (text "NUMA node") name))

/-- The index into `numa` that comes with a label. -/
def nodeIndex (name : Bytes) : Option Int :=
  if getCpuArrId name = some .numaNode then some (nodeNumber name) else none

/-- The index of a label is one of `numa`. -/
def NodeFits (name : Bytes) : Prop := ∀ j ∈ nodeIndex name, InNuma j

instance (name : Bytes) : Decidable (NodeFits name) :=
  inferInstanceAs (Decidable (∀ j ∈ nodeIndex name, InNuma j))

/-- What `CpuInfoCopy` assigns for a label and a value. -/
def copied (host : Host) (name value : Bytes) : List (Write UInt8) :=
  match getCpuArrId name with
  | some .arch => [strCopy CpuAttType.arch.offset value maxElementNameLen]
  | some .modelName => [strCopy CpuAttType.modelName.offset value maxNameLen]
  | some .byteOr =>
    [setInt CpuAttType.byteOr.offset (if text "Little" <:+: value then 0 else 1)]
  | some .numaNumber => [setInt CpuAttType.numaNumber.offset (atoi value)]
  | some .numaNode =>
    let numa := CpuAttType.numaNode.offset + sizeofNumaInfo * (nodeNumber name).toNat
    [setInt numa (nodeNumber name), strCopy (numa + 4) value maxCpuListLen]
  | some .cpuNumber =>
    if name.length = cpusWidth then [setInt CpuAttType.cpuNumber.offset (atoi value)] else []
  | some .onlineCpu => [strCopy CpuAttType.onlineCpu.offset value maxCpuListLen]
  | some .threadsPerCore => [setInt CpuAttType.threadsPerCore.offset (atoi value)]
  | some .coresPerSocket => [setInt CpuAttType.coresPerSocket.offset (atoi value)]
  | some .maxMhz => [setDouble CpuAttType.maxMhz.offset (host.atof value)]
  | some .minMhz => [setDouble CpuAttType.minMhz.offset (host.atof value)]
  | none => []

theorem ne_zero_of_mem_deleteSubstr {sub name : Bytes} (h : ∀ c ∈ name, c ≠ 0) :
    ∀ c ∈ Machine.deleteSubstr sub name, c ≠ 0 := by
  rw [deleteSubstr_find]
  split
  · exact h
  · intro c hc
    rcases List.mem_append.mp hc with hc | hc
    · exact h c (List.take_subset _ _ hc)
    · exact h c (List.drop_subset _ _ hc)

theorem length_nodeLabel : (text "NUMA node").length = 9 ∧ (text " CPU(s)").length = 7 := by
  decide +kernel

theorem length_deleteSubstr_le (sub name : Bytes) :
    (Machine.deleteSubstr sub name).length ≤ name.length := by
  rw [deleteSubstr_find]
  split
  · exact le_rfl
  · rw [List.length_append, List.length_take, List.length_drop]
    omega

/-- The label of a node is edited in place until its number is left. -/
theorem deleteSubstr_node {p name r : Bytes} (hname : ∀ c ∈ name, c ≠ 0) (hroom : 9 ≤ r.length) :
    ∃ buf₁ buf₂ str, deleteSubstr (p ++ name ++ 0 :: r) p.length (text "NUMA node") = .ok buf₁ ∧
      deleteSubstr buf₁ p.length (text " CPU(s)") = .ok buf₂ ∧
      stringAt buf₂ p.length = .ok str ∧ atoi str = nodeNumber name ∧
      ∀ i ≥ (p ++ name).length, buf₂.drop i = (p ++ name ++ 0 :: r).drop i := by
  obtain ⟨h9, h7⟩ := length_nodeLabel
  obtain ⟨r₁, hr₁, hfirst, hback₁⟩ := @deleteSubstr_string p name (text "NUMA node") r hname
    (by omega) (by omega)
  have hname₁ := @ne_zero_of_mem_deleteSubstr (text "NUMA node") name hname
  obtain ⟨r₂, -, hsecond, hback₂⟩ := @deleteSubstr_string p _ (text " CPU(s)") r₁ hname₁
    (by omega) (by omega)
  refine ⟨_, _, _, hfirst, hsecond,
    @stringAt_of_drop _ _ r₂ _ ?_ (ne_zero_of_mem_deleteSubstr hname₁), rfl,
    fun i hi => (hback₂ i (le_trans ?_ hi)).trans (hback₁ i hi)⟩
  · rw [List.append_assoc, List.drop_left]
  · have hle := length_deleteSubstr_le (text "NUMA node") name
    rw [List.length_append, List.length_append]
    omega

/-- What `CpuInfoCopy` does depends on the label and the value. -/
theorem cpuInfoCopy_name (host : Host) {indent name tail value r : Bytes} {pos : ℕ}
    (hname : ∀ c ∈ name, c ≠ 0) (hpos : (indent ++ name).length < pos)
    (hdrop : (indent ++ name ++ 0 :: tail).drop pos = value ++ 0 :: r)
    (hvalue : ∀ c ∈ value, c ≠ 0) (hroom : 9 ≤ tail.length) :
    ∃ buf, cpuInfoCopy host (indent ++ name ++ 0 :: tail) indent.length pos =
        (if NodeFits name then .ok (buf, copied host name value) else .error .overrun) ∧
      ∀ i ≥ (indent ++ name).length, buf.drop i = (indent ++ name ++ 0 :: tail).drop i := by
  have hatt : (indent ++ name ++ 0 :: tail).drop indent.length = name ++ 0 :: tail := by
    rw [List.append_assoc, List.drop_left]
  by_cases hnode : getCpuArrId name = some .numaNode
  · obtain ⟨buf₁, buf₂, str, hfirst, hsecond, hstr, hnumber, hback⟩ :=
      @deleteSubstr_node indent name tail hname hroom
    refine ⟨buf₂, ?_, hback⟩
    have hfits : NodeFits name ↔ InNuma (nodeNumber name) := by
      rw [NodeFits, nodeIndex, if_pos hnode]
      exact ⟨fun h => h _ rfl, fun h j hj => Option.some.inj hj ▸ h⟩
    rw [cpuInfoCopy, stringAt_of_drop hatt hname, ok_bind, stringAt_of_drop hdrop hvalue, ok_bind,
      copied, hnode]
    dsimp only
    rw [hfirst, ok_bind, hsecond, ok_bind, hstr, ok_bind, hnumber, if_congr hfits rfl rfl,
      stringAt_of_drop ((hback pos hpos.le).trans hdrop) hvalue]
    rfl
  · have hfits : NodeFits name := by
      rw [NodeFits, nodeIndex, if_neg hnode]
      rintro j ⟨⟩
    refine ⟨indent ++ name ++ 0 :: tail, ?_, fun _ _ => rfl⟩
    rw [cpuInfoCopy, stringAt_of_drop hatt hname, ok_bind, stringAt_of_drop hdrop hvalue, ok_bind,
      copied, if_pos hfits]
    rcases hid : getCpuArrId name with _ | ty
    · rfl
    · cases ty with
      | numaNode => exact absurd hid hnode
      | _ => rfl

theorem numaIndex_name {indent name tail : Bytes} (hname : ∀ c ∈ name, c ≠ 0)
    (hroom : 9 ≤ tail.length) :
    (numaIndex (indent ++ name ++ 0 :: tail) indent.length).toOption.join = nodeIndex name := by
  have hatt : (indent ++ name ++ 0 :: tail).drop indent.length = name ++ 0 :: tail := by
    rw [List.append_assoc, List.drop_left]
  rw [numaIndex, stringAt_of_drop hatt hname, ok_bind, nodeIndex]
  by_cases hnode : getCpuArrId name = some .numaNode
  · obtain ⟨buf₁, buf₂, str, hfirst, hsecond, hstr, hnumber, -⟩ :=
      @deleteSubstr_node indent name tail hname hroom
    rw [if_pos hnode, hnode]
    dsimp only
    rw [hfirst, ok_bind, hsecond, ok_bind, hstr, ok_bind, hnumber]
    rfl
  · rw [if_neg hnode]
    rcases hid : getCpuArrId name with _ | ty
    · rfl
    · cases ty with
      | numaNode => exact absurd hid hnode
      | _ => rfl

/-! ## A line with a label -/

/-- A line in the buffer: `att` is behind the indentation, `value` behind the padding. -/
theorem cutLine_labelled (buf : Bytes) {indent name padding value : Bytes}
    {last : UInt8} (hindent : ∀ c ∈ indent, c = 32) (hname : ∀ c ∈ name, c ≠ 0 ∧ c ≠ 58)
    (htrim : name.takeWhile isSpace = []) (hne : name ≠ []) (hpadding : ∀ c ∈ padding, c = 32)
    (hvalue : ∀ c ∈ value, c ≠ 0) (hvtrim : value.takeWhile isSpace = []) (hlast : last ≠ 0) :
    ∃ pos r', (indent ++ name).length < pos ∧
      (indent ++ name ++ 0 :: (padding ++ value) ++ 0 :: 0 ::
        buf.drop ((indent ++ name ++ 58 :: (padding ++ value ++ [last])).length + 1)).drop pos =
          value ++ 0 :: r' ∧
      cutLine buf (indent ++ name ++ 58 :: (padding ++ value ++ [last])) =
        .ok (indent ++ name ++ 0 :: (padding ++ value) ++ 0 :: 0 ::
          buf.drop ((indent ++ name ++ 58 :: (padding ++ value ++ [last])).length + 1),
          some (indent.length, pos)) := by
  have hkey : ∀ c ∈ indent ++ name, c ≠ 0 ∧ c ≠ 58 := by
    intro c hc
    rcases List.mem_append.mp hc with hc | hc
    · rw [hindent c hc]
      decide
    · exact hname c hc
  have hspaces : ∀ c ∈ indent, isSpace c = true := fun c hc => by
    rw [hindent c hc]
    decide
  have htail : ∀ c ∈ padding ++ value ++ [last], c ≠ 0 := by
    intro c hc
    rcases List.mem_append.mp hc with hc | hc
    · rcases List.mem_append.mp hc with hc | hc
      · rw [hpadding c hc]
        decide
      · exact hvalue c hc
    · exact List.mem_singleton.mp hc ▸ hlast
  generalize hr : buf.drop ((indent ++ name ++ 58 :: (padding ++ value ++ [last])).length + 1) = r
  obtain ⟨pos, str, r', hpos, hltrim, hstr, hset, hdrop⟩ :=
    @ltrim_value _ r (indent ++ name) padding value last hpadding hvalue hvtrim hlast rfl
  refine ⟨pos, r', hpos, hdrop, ?_⟩
  have hatt : (indent ++ name ++ 0 :: (padding ++ value ++ [last]) ++ 0 :: r).drop 0 =
      indent ++ name ++ 0 :: (padding ++ value ++ [last] ++ 0 :: r) := by simp
  rw [cutLine, putString, hr, strtok_colon (by simp [hne]) hkey htail]
  dsimp only [ok_bind]
  rw [stringAt_of_drop hatt fun c hc => (hkey c hc).1, ok_bind,
    ltrim_of_drop hatt hspaces (fun c hc => (hname c hc).1) htrim, ok_bind, hltrim, ok_bind, hstr,
    ok_bind, hset, Nat.zero_add]
  rfl

/-! ## What is left of a line -/

/-- A character of a list of CPUs: `0-3,8`. -/
def isListChar (c : UInt8) : Bool := isDigit c ∨ c = 44 ∨ c = 45

/-- No attribute is found in a list. -/
theorem getCpuArrId_list {s : Bytes} (hs : ∀ c ∈ s, isListChar c ∨ c = 10) :
    getCpuArrId s = none := by
  have hletter : ∀ t ∈ CpuAttType.all, ∃ c ∈ t.attribute, ¬ (isListChar c ∨ c = 10) := by
    decide +kernel
  refine List.find?_eq_none.mpr fun t ht hin => ?_
  obtain ⟨c, hc, hnot⟩ := hletter t ht
  exact hnot (hs c ((of_decide_eq_true hin).subset hc))

theorem listChar_ne {c : UInt8} (h : isListChar c ∨ c = 10) : c ≠ 0 ∧ c ≠ 58 := by
  constructor
  · rintro rfl
    revert h
    decide
  · rintro rfl
    revert h
    decide

theorem set_last (t : Bytes) : ∃ t', (0 :: t).set t.length 0 = 0 :: t' ∧ t'.length = t.length := by
  cases t with
  | nil => exact ⟨[], rfl, rfl⟩
  | cons c cs => exact ⟨(c :: cs).set cs.length 0, rfl, List.length_set⟩

theorem drop_length_takeWhile (p : UInt8 → Bool) (t r : Bytes) :
    (t ++ r).drop (t.takeWhile p).length = t.dropWhile p ++ r := by
  have hsplit : t ++ r = t.takeWhile p ++ (t.dropWhile p ++ r) := by
    rw [← List.append_assoc, List.takeWhile_append_dropWhile]
  rw [hsplit, List.drop_left]

/-- A string that ends in the buffer. -/
theorem stringAt_append {a : Bytes} {i : ℕ} (h : i ≤ a.length) (r : Bytes) :
    ∃ v, stringAt (a ++ 0 :: r) i = .ok v := by
  rw [stringAt, List.drop_append_of_le_length h,
    if_pos (List.mem_append_right _ List.mem_cons_self)]
  exact ⟨_, rfl⟩

/-- A line without a colon: the value is what follows in the buffer. -/
theorem cutLine_list {buf s t r : Bytes}
    (hs : ∀ c ∈ s, isListChar c ∨ c = 10) (hne : s ≠ [])
    (hbuf : buf.drop (s.length + 1) = t ++ 0 :: r) (ht : ∀ c ∈ t, c ≠ 0) :
    ∃ t' att value a v, t'.length = t.length ∧
      cutLine buf s = .ok (s ++ 0 :: t' ++ 0 :: r, some (att, value)) ∧
      stringAt (s ++ 0 :: t' ++ 0 :: r) att = .ok a ∧ getCpuArrId a = none ∧
      stringAt (s ++ 0 :: t' ++ 0 :: r) value = .ok v := by
  have hno : ∀ c ∈ s, c ≠ 0 := fun c hc => (listChar_ne (hs c hc)).1
  have hput : putString buf s = s ++ 0 :: t ++ 0 :: r := by
    rw [putString, hbuf, List.append_assoc, List.cons_append]
  have hatt : (s ++ 0 :: t ++ 0 :: r).drop 0 = s ++ 0 :: (t ++ 0 :: r) := by simp
  have hvalue : (s ++ 0 :: t ++ 0 :: r).drop (s.length + 1) = t ++ 0 :: r := by
    have hassoc : s ++ 0 :: t ++ 0 :: r = s ++ [0] ++ (t ++ 0 :: r) := by simp
    have hlen : s.length + 1 = (s ++ [(0 : UInt8)]).length := by simp
    rw [hassoc, hlen, List.drop_left]
  have hstr : stringAt (s ++ 0 :: t ++ 0 :: r) (s.length + 1 + (t.takeWhile isSpace).length) =
      .ok (t.dropWhile isSpace) := by
    refine stringAt_of_drop (r := r) ?_ fun c hc => ht c (List.dropWhile_subset _ hc)
    rw [← List.drop_drop, hvalue, drop_length_takeWhile]
  obtain ⟨t', hset, hlen⟩ := set_last t
  have hcut : (s ++ 0 :: t ++ 0 :: r).set (s.length + t.length) 0 = s ++ 0 :: t' ++ 0 :: r := by
    rw [List.append_assoc, List.set_append_right _ _ (Nat.le_add_right ..), Nat.add_sub_cancel_left,
      List.cons_append, ← List.cons_append, List.set_append_left _ _ (by simp), hset]
    simp
  have htrim : (t.takeWhile isSpace).length + (t.dropWhile isSpace).length = t.length := by
    rw [← List.length_append, List.takeWhile_append_dropWhile]
  have hpos : s.length + 1 + (t.takeWhile isSpace).length + (t.dropWhile isSpace).length - 1 =
      s.length + t.length := by omega
  have hname : (s ++ 0 :: t' ++ 0 :: r).drop (0 + (s.takeWhile isSpace).length) =
      s.dropWhile isSpace ++ 0 :: (t' ++ 0 :: r) := by
    rw [Nat.zero_add, List.append_assoc, drop_length_takeWhile, List.cons_append]
  obtain ⟨v, hv⟩ := @stringAt_append (s ++ 0 :: t') (s.length + 1 + (t.takeWhile isSpace).length)
    (by simp; omega) r
  have hnone : getCpuArrId (s.dropWhile isSpace) = none :=
    getCpuArrId_list fun c hc => hs c (List.dropWhile_subset _ hc)
  refine ⟨t', _, _, _, v, hlen, ?_,
    stringAt_of_drop hname fun c hc => hno c (List.dropWhile_subset _ hc), hnone, hv⟩
  rw [cutLine, hput, List.append_assoc, List.cons_append, strtok_whole hne fun c hc =>
    listChar_ne (hs c hc)]
  dsimp only [ok_bind]
  rw [← List.cons_append, ← List.append_assoc, stringAt_of_drop hatt hno, ok_bind, ltrim,
    stringAt_of_drop hatt hno, ok_bind, ltrim, stringAt_of_drop hvalue ht]
  dsimp only [ok_bind, pure, Except.pure]
  rw [hstr]
  dsimp only [ok_bind]
  rw [hpos, hcut]

/-! ## The loop -/

section Steps

variable {host : Host} {buf buf₁ buf₂ line : Bytes} {att value : ℕ}

theorem traceLines_error {f : Fault} (h : cutLine buf line = .error f) (lines : List Bytes) :
    traceLines host (line :: lines) buf = ([], .error f) := by
  rw [traceLines, h]

theorem traceLines_fault {f : Fault} {j : Option Int}
    (hcut : cutLine buf line = .ok (buf₁, some (att, value)))
    (hj : (numaIndex buf₁ att).toOption.join = j)
    (hcopy : cpuInfoCopy host buf₁ att value = .error f) (lines : List Bytes) :
    traceLines host (line :: lines) buf = (j.toList, .error f) := by
  rw [traceLines, hcut]
  dsimp only
  rw [hj, hcopy]

theorem traceLines_ok {j : Option Int} {ws : List (Write UInt8)}
    (hcut : cutLine buf line = .ok (buf₁, some (att, value)))
    (hj : (numaIndex buf₁ att).toOption.join = j)
    (hcopy : cpuInfoCopy host buf₁ att value = .ok (buf₂, ws)) (lines : List Bytes) :
    traceLines host (line :: lines) buf = (traceLines host lines buf₂).after j ws := by
  rw [traceLines, hcut]
  dsimp only
  rw [hj, hcopy]

/-- A line that is no attribute is read over. -/
theorem traceLines_none {a v : Bytes} (hcut : cutLine buf line = .ok (buf₁, some (att, value)))
    (ha : stringAt buf₁ att = .ok a) (hnone : getCpuArrId a = none)
    (hv : stringAt buf₁ value = .ok v) (lines : List Bytes) :
    traceLines host (line :: lines) buf = traceLines host lines buf₁ := by
  have hj : (numaIndex buf₁ att).toOption.join = none := by
    rw [numaIndex, ha, ok_bind, hnone]
    rfl
  have hcopy : cpuInfoCopy host buf₁ att value = .ok (buf₁, []) := by
    rw [cpuInfoCopy, ha, ok_bind, hv, ok_bind, hnone]
    rfl
  rw [traceLines_ok hcut hj hcopy]
  exact Prod.ext rfl (id_map _)

end Steps

/-- `fgets` leaves the last character of the buffer alone, and with a full line in it the
one in front of that is the end of the string. -/
theorem traceLines_list (host : Host) {buf s : Bytes} {b : UInt8}
    (hs : ∀ c ∈ s, isListChar c ∨ c = 10) (hne : s ≠ [])
    (hbuf : buf.drop (maxStringLen - 2) = [0, b])
    (hlen : s.length < maxStringLen - 2 ∨ s.length = maxStringLen - 2 ∧ b = 0) :
    ∃ buf', buf'.drop (maxStringLen - 2) = [0, b] ∧ ∀ more,
      traceLines host (s :: more) buf = traceLines host more buf' := by
  rcases hlen with hlen | ⟨hlen, rfl⟩
  · obtain ⟨k, hk⟩ := Nat.exists_eq_add_of_lt hlen
    have hrest : (buf.drop (s.length + 1)).drop k = [0, b] := by
      rw [List.drop_drop, ← hbuf, hk]
      congr 1
      omega
    have hmem : (0 : UInt8) ∈ buf.drop (s.length + 1) :=
      List.drop_subset k _ (hrest ▸ List.mem_cons_self)
    obtain ⟨r, hr⟩ := exists_cString hmem
    have ht : ∀ c ∈ cString (buf.drop (s.length + 1)), c ≠ 0 := fun c => ne_zero_of_mem_cString
    generalize cString (buf.drop (s.length + 1)) = t at hr ht
    obtain ⟨t', att, value, a, v, hlen', hcut, ha, hnone, hv⟩ := cutLine_list hs hne hr ht
    refine ⟨_, ?_, traceLines_none hcut ha hnone hv⟩
    -- the string ends where `fgets` ended the line before, if not earlier
    have hle : t.length ≤ k := by
      by_contra hlt
      rw [hr, List.drop_append_of_le_length (by omega)] at hrest
      obtain ⟨c, cs, hcs⟩ := List.exists_cons_of_ne_nil (l := t.drop k) fun hnil => by
        have := congrArg List.length hnil
        rw [List.length_drop, List.length_nil] at this
        omega
      rw [hcs] at hrest
      have hc : c ∈ t := List.drop_subset k t (hcs ▸ List.mem_cons_self)
      exact ht c hc (List.cons.inj hrest).1
    have hassoc : s ++ 0 :: t' ++ 0 :: r = s ++ [0] ++ (t' ++ 0 :: r) := by simp
    have hk' : maxStringLen - 2 = (s ++ [(0 : UInt8)]).length + k := by simp; omega
    rw [hassoc, hk', List.drop_length_add_append, ← hrest, hr]
    exact drop_append_congr hlen' (hlen' ▸ hle)
  · have hback : buf.drop (s.length + 1) = [] ++ 0 :: [] := by
      rw [hlen, ← List.drop_drop, hbuf]
      rfl
    obtain ⟨t', att, value, a, v, hlen', hcut, ha, hnone, hv⟩ := cutLine_list hs hne hback nofun
    refine ⟨_, ?_, traceLines_none hcut ha hnone hv⟩
    rw [List.length_eq_zero_iff.mp hlen', ← hlen, List.append_assoc, List.drop_left]
    rfl

/-- Behind a full line there is that character only. -/
theorem cutLine_overrun {buf s : Bytes} {b : UInt8}
    (hs : ∀ c ∈ s, isListChar c ∨ c = 10) (hne : s ≠ [])
    (hbuf : buf.drop (maxStringLen - 2) = [0, b]) (hlen : s.length = maxStringLen - 2)
    (hb : b ≠ 0) : cutLine buf s = .error .overrun := by
  have hput : putString buf s = s ++ 0 :: [b] := by
    rw [putString, hlen, ← List.drop_drop, hbuf]
    rfl
  have hno : ∀ c ∈ s, c ≠ 0 := fun c hc => (listChar_ne (hs c hc)).1
  have hatt : (s ++ 0 :: [b]).drop 0 = s ++ 0 :: [b] := List.drop_zero ..
  have hend : stringAt (s ++ 0 :: [b]) (s.length + 1) = .error .overrun := by
    have hdrop : (s ++ 0 :: [b]).drop (s.length + 1) = [b] := by
      rw [← List.drop_drop, List.drop_left]
      rfl
    rw [stringAt, hdrop, if_neg fun h => hb (List.mem_singleton.mp h).symm]
  rw [cutLine, hput, strtok_whole hne fun c hc => listChar_ne (hs c hc)]
  dsimp only [ok_bind]
  rw [stringAt_of_drop hatt hno, ok_bind, ltrim, stringAt_of_drop hatt hno, ok_bind, ltrim, hend]
  rfl

/-! ## Lines as they are printed -/

/-- A line of `lscpu`. -/
structure LscpuLine where
  name : Bytes
  indent : Bytes
  padding : Bytes
  value : Bytes
  name_chars : ∀ c ∈ name, c ≠ 0 ∧ c ≠ 10 ∧ c ≠ 58
  name_trimmed : name.takeWhile isSpace = []
  name_ne_nil : name ≠ []
  indent_spaces : ∀ c ∈ indent, c = 32
  padding_spaces : ∀ c ∈ padding, c = 32
  value_chars : ∀ c ∈ value, c ≠ 0 ∧ c ≠ 10
  value_trimmed : value.takeWhile isSpace = []

namespace LscpuLine

variable (line : LscpuLine)

/-- What stands in front of the value. -/
def front : Bytes := line.indent ++ line.name ++ 58 :: line.padding

/-- The line as it is printed. -/
def print : Bytes := line.front ++ line.value ++ [10]

/-- In front of the value there is room in what one `fgets` takes, and a line is longer
than that only if its value is a list of CPUs. -/
structure Fits : Prop where
  room : line.front.length + maxCpuListLen < maxStringLen - 1
  fits : line.print.length ≤ maxStringLen - 2 ∨ ∀ c ∈ line.value, isListChar c

/-- A line that is more than what two calls of `fgets` take. -/
def Long : Prop := 2 * (maxStringLen - 2) ≤ line.print.length

instance : Decidable line.Long := inferInstanceAs (Decidable (_ ≤ _))

/-- The value as far as `CpuInfoCopy` gets to see it. -/
def seen : Bytes := line.value.take (maxStringLen - 3 - line.front.length)

theorem length_print : line.print.length = line.front.length + line.value.length + 1 := by
  rw [print, List.length_append, List.length_append, List.length_singleton]

end LscpuLine

/-- The last character of `buf`, which `fgets` does not write to. -/
def Host.lastChar (host : Host) : UInt8 := host.staleBuf.getD (maxStringLen - 1) 0

theorem Host.drop_staleBuf (host : Host) :
    host.staleBuf.drop (maxStringLen - 1) = [host.lastChar] := by
  have hlt : maxStringLen - 1 < host.staleBuf.length := by
    rw [host.length_staleBuf]
    decide
  have hend : host.staleBuf.drop (maxStringLen - 1 + 1) = [] :=
    List.drop_eq_nil_of_le (by rw [host.length_staleBuf]; decide)
  rw [List.drop_eq_getElem_cons hlt, hend, lastChar, List.getD_eq_getElem _ _ hlt]

theorem takeWhile_left {p : UInt8 → Bool} {a r : Bytes} (h : (a ++ r).takeWhile p = []) :
    a.takeWhile p = [] := by
  cases a with
  | nil => rfl
  | cons c cs =>
    refine List.takeWhile_cons_of_neg fun hc => ?_
    rw [List.cons_append, List.takeWhile_cons_of_pos hc] at h
    cases h

theorem LscpuLine.seen_trimmed (line : LscpuLine) : line.seen.takeWhile isSpace = [] := by
  refine takeWhile_left (r := line.value.drop (maxStringLen - 3 - line.front.length)) ?_
  rw [LscpuLine.seen, List.take_append_drop]
  exact line.value_trimmed

/-- How a list that is too long for one `fgets` comes apart. -/
theorem exists_split {line : LscpuLine} (hfits : line.Fits)
    (hlong : maxStringLen - 2 < line.print.length) :
    ∃ last rest, line.value = line.seen ++ last :: rest ∧
      (line.front ++ line.seen ++ [last]).length = maxStringLen - 2 ∧
      maxCpuListLen - 1 ≤ line.seen.length ∧
      fgetsCalls line.print = (line.front ++ line.seen ++ [last]) :: fgetsCalls (rest ++ [10]) := by
  have hsize : maxStringLen = 1000 := rfl
  have hlist : maxCpuListLen = 248 := rfl
  have hroom := hfits.room
  have hlen := line.length_print
  have hcut : maxStringLen - 3 - line.front.length < line.value.length := by omega
  obtain ⟨last, rest, hrest⟩ := List.exists_cons_of_ne_nil
    (List.ne_nil_of_length_pos (List.length_drop (i := maxStringLen - 3 - line.front.length) ▸
      Nat.sub_pos_of_lt hcut))
  have hvalue : line.value = line.seen ++ last :: rest := by
    rw [LscpuLine.seen, ← hrest, List.take_append_drop]
  have hseen : line.seen.length = maxStringLen - 3 - line.front.length :=
    List.length_take_of_le hcut.le
  have hfirst : (line.front ++ line.seen ++ [last]).length = maxStringLen - 2 := by
    simp
    omega
  have hprint : line.print = line.front ++ line.seen ++ [last] ++ (rest ++ [10]) := by
    rw [LscpuLine.print, hvalue]
    simp
  refine ⟨last, rest, hvalue, hfirst, by omega, ?_⟩
  rw [fgetsCalls, if_pos hlong]
  conv_lhs => rw [hprint, ← hfirst, List.take_left, List.drop_left]

/-- A line that one `fgets` takes is seen as it is. -/
theorem seen_of_short {line : LscpuLine} (hshort : line.print.length ≤ maxStringLen - 2) :
    line.seen = line.value := by
  have hsize : maxStringLen = 1000 := rfl
  have hlen := line.length_print
  exact List.take_of_length_le (by omega)

/-- The pieces of such a line: one with the label, and the rest of the list. -/
theorem exists_pieces {line : LscpuLine} (hfits : line.Fits)
    (hlong : maxStringLen - 2 < line.print.length) :
    ∃ last rest, last ≠ 0 ∧ (∀ c ∈ rest ++ [10], isListChar c ∨ c = 10) ∧
      (line.front ++ line.seen ++ [last]).length = maxStringLen - 2 ∧
      line.print.length = maxStringLen - 2 + (rest ++ [10]).length ∧
      fgetsCalls line.print = (line.front ++ line.seen ++ [last]) :: fgetsCalls (rest ++ [10]) := by
  obtain ⟨last, rest, hvalue, hfirst, -, hcalls⟩ := exists_split hfits hlong
  have hchars := hfits.fits.resolve_left (not_le.mpr hlong)
  refine ⟨last, rest, ?_, fun c hc => ?_, hfirst, ?_, hcalls⟩
  · exact (line.value_chars last (hvalue ▸ List.mem_append_right _ List.mem_cons_self)).1
  · refine (List.mem_append.mp hc).imp (fun hc => hchars c ?_) List.mem_singleton.mp
    exact hvalue ▸ List.mem_append_right _ (List.mem_cons_of_mem _ hc)
  · have hlen := congrArg List.length hvalue
    have hprint := line.length_print
    simp at hlen hfirst ⊢
    omega

/-! ## What the loop makes of a line -/

/-- What one `fgets` takes of a line with a label. -/
theorem traceLines_front (host : Host) {line : LscpuLine} (hfits : line.Fits) {value : Bytes}
    {last b : UInt8} {tail : Bytes} (hvalue : ∀ c ∈ value, c ≠ 0)
    (htrim : value.takeWhile isSpace = []) (hlast : last ≠ 0)
    (hlen : (line.front ++ value ++ [last]).length ≤ maxStringLen - 2)
    {buf : Bytes} (hbuf : buf.drop (maxStringLen - 1) = b :: tail) :
    ∃ buf', buf'.drop (maxStringLen - 1) = b :: tail ∧
      ((line.front ++ value ++ [last]).length = maxStringLen - 2 →
        buf'.drop (maxStringLen - 2) = 0 :: b :: tail) ∧
      ∀ more, traceLines host ((line.front ++ value ++ [last]) :: more) buf =
        if NodeFits line.name then
          (traceLines host more buf').after (nodeIndex line.name) (copied host line.name value)
        else ((nodeIndex line.name).toList, .error .overrun) := by
  have hsize : maxStringLen = 1000 := rfl
  have hlist : maxCpuListLen = 248 := rfl
  have hroom := hfits.room
  have hname : ∀ c ∈ line.name, c ≠ 0 := fun c hc => (line.name_chars c hc).1
  have hpiece : line.front ++ value ++ [last] =
      line.indent ++ line.name ++ 58 :: (line.padding ++ value ++ [last]) := by
    simp [LscpuLine.front]
  rw [hpiece] at hlen ⊢
  obtain ⟨pos, r, hpos, hdrop, hcut⟩ := cutLine_labelled buf line.indent_spaces
    (fun c hc => ⟨hname c hc, (line.name_chars c hc).2.2⟩) line.name_trimmed line.name_ne_nil
    line.padding_spaces hvalue htrim hlast
  have hfront : line.front.length =
      (line.indent ++ line.name).length + 1 + line.padding.length := by
    rw [LscpuLine.front, List.length_append, List.length_cons]
    omega
  have hbuflen : maxStringLen ≤ buf.length := by
    have := congrArg List.length hbuf
    rw [List.length_drop, List.length_cons] at this
    omega
  generalize hL : (line.indent ++ line.name ++ 58 :: (line.padding ++ value ++ [last])).length =
    len at hlen hdrop hcut ⊢
  have hsum : len = (line.indent ++ line.name).length + 1 + line.padding.length +
      value.length + 1 := by
    rw [← hL]
    simp
    omega
  have hassoc : line.indent ++ line.name ++ 0 :: (line.padding ++ value) ++
      0 :: 0 :: buf.drop (len + 1) = line.indent ++ line.name ++
        0 :: (line.padding ++ value ++ 0 :: 0 :: buf.drop (len + 1)) := by simp
  rw [hassoc] at hdrop hcut
  have htail : 9 ≤ (line.padding ++ value ++ 0 :: 0 :: buf.drop (len + 1)).length := by
    simp
    omega
  obtain ⟨buf', hcopy, hback⟩ := cpuInfoCopy_name host hname hpos hdrop hvalue htail
  have hend : line.indent ++ line.name ++
      0 :: (line.padding ++ value ++ 0 :: 0 :: buf.drop (len + 1)) =
        line.indent ++ line.name ++ 0 :: (line.padding ++ value ++ [0]) ++
          0 :: buf.drop (len + 1) := by simp
  have hendlen : (line.indent ++ line.name ++ 0 :: (line.padding ++ value ++ [0])).length =
      len := by
    simp
    simp at hsum
    omega
  refine ⟨buf', ?_, fun hfull => ?_, fun more => ?_⟩
  · obtain ⟨k, hk⟩ := Nat.exists_eq_add_of_le (show len + 1 ≤ maxStringLen - 1 by omega)
    have hsucc : (0 :: buf.drop (len + 1)).drop (1 + k) = buf.drop (maxStringLen - 1) := by
      rw [Nat.add_comm, List.drop_succ_cons, List.drop_drop, hk]
    rw [hback _ (by omega), hend, hk, Nat.add_assoc, ← hendlen, List.drop_length_add_append,
      hendlen, hsucc, hbuf]
  · rw [hback _ (by omega), hend, ← hfull, ← hendlen, List.drop_left, hendlen, hfull, ← hbuf]
    congr 2
  · split at hcopy <;> rename_i hnode
    · rw [if_pos hnode]
      exact traceLines_ok hcut (numaIndex_name hname htail) hcopy more
    · rw [if_neg hnode]
      exact traceLines_fault hcut (numaIndex_name hname htail) hcopy more

/-- The rest of a list is read over. -/
theorem traceLines_rest (host : Host) {rest : Bytes} {b : UInt8}
    (hrest : ∀ c ∈ rest, isListChar c ∨ c = 10) (hne : rest ≠ [])
    (hlen : rest.length < maxStringLen - 2 ∨ b = 0) {buf : Bytes}
    (hbuf : buf.drop (maxStringLen - 2) = [0, b]) :
    ∃ buf', buf'.drop (maxStringLen - 2) = [0, b] ∧ ∀ more,
      traceLines host (fgetsCalls rest ++ more) buf = traceLines host more buf' := by
  have hsize : maxStringLen = 1000 := rfl
  fun_induction fgetsCalls rest generalizing buf with
  | case1 rest hlong ih =>
    have hb : b = 0 := hlen.resolve_left (by omega)
    have htake : (rest.take (maxStringLen - 2)).length = maxStringLen - 2 := by
      rw [List.length_take]
      omega
    obtain ⟨buf₁, hbuf₁, hline⟩ := traceLines_list host
      (fun c hc => hrest c (List.take_subset _ _ hc))
      (List.ne_nil_of_length_pos (by omega)) hbuf (.inr ⟨htake, hb⟩)
    obtain ⟨buf₂, hbuf₂, hmore⟩ := ih (fun c hc => hrest c (List.drop_subset _ _ hc))
      (List.ne_nil_of_length_pos (by rw [List.length_drop]; omega)) (.inr hb) hbuf₁
    exact ⟨buf₂, hbuf₂, fun more => (hline _).trans (hmore more)⟩
  | case2 rest hshort =>
    have hfits : rest.length < maxStringLen - 2 ∨ rest.length = maxStringLen - 2 ∧ b = 0 :=
      (Nat.lt_or_eq_of_le (not_lt.mp hshort)).imp_right fun heq =>
        ⟨heq, hlen.resolve_left (heq ▸ lt_irrefl _)⟩
    exact traceLines_list host hrest hne hbuf hfits

/-- A full line and another one: there is nothing behind it to be read. -/
theorem traceLines_overrun (host : Host) {rest : Bytes} {b : UInt8}
    (hrest : ∀ c ∈ rest, isListChar c ∨ c = 10) (hlen : maxStringLen - 2 ≤ rest.length)
    (hb : b ≠ 0) {buf : Bytes} (hbuf : buf.drop (maxStringLen - 2) = [0, b]) (more : List Bytes) :
    traceLines host (fgetsCalls rest ++ more) buf = ([], .error .overrun) := by
  have hsize : maxStringLen = 1000 := rfl
  rw [fgetsCalls]
  split
  · refine traceLines_error (cutLine_overrun (fun c hc => hrest c (List.take_subset _ _ hc))
      (List.ne_nil_of_length_pos ?_) hbuf ?_ hb) _
    · rw [List.length_take]
      omega
    · rw [List.length_take]
      omega
  · exact traceLines_error (cutLine_overrun hrest (List.ne_nil_of_length_pos (by omega)) hbuf
      (by omega) hb) _

/-- A line that the loop gets over: its node is one of `numa`, and there is something behind
the buffer's text where the line comes in three pieces. -/
def LscpuLine.Passes (line : LscpuLine) (b : UInt8) : Prop :=
  NodeFits line.name ∧ ¬ (line.Long ∧ b ≠ 0)

instance (line : LscpuLine) (b : UInt8) : Decidable (line.Passes b) :=
  inferInstanceAs (Decidable (_ ∧ _))

/-- A line, with all that `fgets` hands out of it. -/
theorem traceLines_line (host : Host) {line : LscpuLine} (hfits : line.Fits) {b : UInt8}
    {buf : Bytes} (hbuf : buf.drop (maxStringLen - 1) = [b]) :
    ∃ buf', buf'.drop (maxStringLen - 1) = [b] ∧ ∀ more,
      traceLines host (fgetsCalls line.print ++ more) buf =
        if line.Passes b then
          (traceLines host more buf').after (nodeIndex line.name) (copied host line.name line.seen)
        else ((nodeIndex line.name).toList, .error .overrun) := by
  have hsize : maxStringLen = 1000 := rfl
  have hseen : ∀ c ∈ line.seen, c ≠ 0 := fun c hc =>
    (line.value_chars c (List.take_subset _ _ hc)).1
  have hseentrim : line.seen.takeWhile isSpace = [] := line.seen_trimmed
  rcases Nat.lt_or_ge (maxStringLen - 2) line.print.length with hlong | hshort
  · obtain ⟨last, rest, hlast, hrest, hfirst, hlength, hcalls⟩ := exists_pieces hfits hlong
    obtain ⟨buf₁, -, hbuf₁, hline⟩ :=
      traceLines_front host hfits hseen hseentrim hlast hfirst.le hbuf
    by_cases hover : line.Long ∧ b ≠ 0
    · have hpasses : ¬ line.Passes b := fun h => h.2 hover
      refine ⟨buf, hbuf, fun more => ?_⟩
      have hlt := hover.1
      rw [LscpuLine.Long] at hlt
      rw [hcalls, List.cons_append, hline, if_neg hpasses,
        traceLines_overrun host hrest (by omega) hover.2 (hbuf₁ hfirst)]
      split
      · exact Prod.ext (List.append_nil _) rfl
      · rfl
    · have hrestlen : (rest ++ [10]).length < maxStringLen - 2 ∨ b = 0 := by
        rw [LscpuLine.Long] at hover
        by_cases hb : b = 0
        · exact .inr hb
        · have hlt : ¬ 2 * (maxStringLen - 2) ≤ line.print.length := fun h => hover ⟨h, hb⟩
          exact .inl (by omega)
      obtain ⟨buf₂, hbuf₂, hmore⟩ := traceLines_rest host hrest (by simp) hrestlen (hbuf₁ hfirst)
      refine ⟨buf₂, ?_, fun more => ?_⟩
      · have hsucc : maxStringLen - 1 = maxStringLen - 2 + 1 := rfl
        rw [hsucc, ← List.drop_drop, hbuf₂]
        rfl
      · rw [hcalls, List.cons_append, hline, hmore, if_congr (and_iff_left hover).symm rfl rfl]
        rfl
  · have hover : ¬ (line.Long ∧ b ≠ 0) := fun h => by
      have hlt := h.1
      rw [LscpuLine.Long] at hlt
      omega
    have hprint : line.print = line.front ++ line.seen ++ [10] := by
      rw [LscpuLine.print, seen_of_short hshort]
    obtain ⟨buf₁, hbuf₁, -, hline⟩ := traceLines_front host hfits hseen hseentrim (by decide)
      (hprint ▸ hshort) hbuf
    refine ⟨buf₁, hbuf₁, fun more => ?_⟩
    rw [fgetsCalls, if_neg (not_lt.mpr hshort), List.singleton_append, hprint, hline,
      if_congr (and_iff_left hover).symm rfl rfl]
    rfl

/-- The run over lines, without a buffer. -/
def runLines (host : Host) (b : UInt8) : List LscpuLine → NumaTrace
  | [] => ([], .ok [])
  | line :: lines =>
    if line.Passes b then
      (runLines host b lines).after (nodeIndex line.name) (copied host line.name line.seen)
    else ((nodeIndex line.name).toList, .error .overrun)

/-- The loop of `CpuInfoRead` does that. -/
theorem traceLines_eq (host : Host) {lines : List LscpuLine} (hfits : ∀ line ∈ lines, line.Fits)
    {b : UInt8} {buf : Bytes} (hbuf : buf.drop (maxStringLen - 1) = [b]) :
    traceLines host (lines.flatMap fun line => fgetsCalls line.print) buf =
      runLines host b lines := by
  induction lines generalizing buf with
  | nil => rfl
  | cons line lines ih =>
    obtain ⟨hline, hlines⟩ := List.forall_mem_cons.mp hfits
    obtain ⟨buf', hbuf', hmore⟩ := traceLines_line host hline hbuf
    rw [List.flatMap_cons, hmore, ih hlines hbuf', runLines]

/-- What `CpuInfoRead` does with what `lscpu` prints. -/
theorem cpuInfoRead_lines {m : Machine} (host : Host) {lines : List LscpuLine}
    (hfits : ∀ line ∈ lines, line.Fits)
    (hm : m.popen lscpu = some (lines.flatMap fun line => fgetsCalls line.print)) :
    cpuInfoRead m host = (RtnCode.success.code, ·) <$> (runLines host host.lastChar lines).2 := by
  rw [cpuInfoRead, hm, ← traceLines_eq host hfits host.drop_staleBuf, traceLines_snd]
  rfl

/-! ## Beyond the buffer -/

/-- What is on the stack behind `buf`, up to where a string ends there. -/
structure Behind where
  bytes : Bytes
  ends : 0 ∈ bytes

/-- A piece of a list, with memory behind the buffer: it is read over, wherever the value that
it does not have ends. -/
theorem traceLines_list_behind (host : Host) {buf s : Bytes} (hs : ∀ c ∈ s, isListChar c ∨ c = 10)
    (hne : s ≠ []) (hlen : s.length ≤ maxStringLen - 2) (hbuf : 0 ∈ buf.drop (maxStringLen - 1)) :
    ∃ buf', 0 ∈ buf'.drop (maxStringLen - 1) ∧ ∀ more,
      traceLines host (s :: more) buf = traceLines host more buf' := by
  have hsize : maxStringLen = 1000 := rfl
  obtain ⟨k, hk⟩ := Nat.exists_eq_add_of_le (show s.length + 1 ≤ maxStringLen - 1 by omega)
  have hrest : (buf.drop (s.length + 1)).drop k = buf.drop (maxStringLen - 1) := by
    rw [List.drop_drop, hk]
  obtain ⟨r, hr⟩ := exists_cString (List.drop_subset k _ (hrest ▸ hbuf))
  have ht : ∀ c ∈ cString (buf.drop (s.length + 1)), c ≠ 0 := fun c => ne_zero_of_mem_cString
  generalize cString (buf.drop (s.length + 1)) = t at hr ht
  obtain ⟨t', att, value, a, v, hlen', hcut, ha, hnone, hv⟩ := cutLine_list hs hne hr ht
  refine ⟨_, ?_, traceLines_none hcut ha hnone hv⟩
  have hback : (s ++ 0 :: t' ++ 0 :: r).drop (maxStringLen - 1) = (t' ++ 0 :: r).drop k := by
    have hassoc : s ++ 0 :: t' ++ 0 :: r = s ++ [0] ++ (t' ++ 0 :: r) := by simp
    have hfront : s.length + 1 = (s ++ [(0 : UInt8)]).length := by simp
    rw [hassoc, hk, hfront, List.drop_length_add_append]
  rw [hback]
  rcases Nat.le_total k t'.length with hle | hle
  · rw [List.drop_append_of_le_length hle]
    exact List.mem_append_right _ List.mem_cons_self
  · -- behind the string nothing is changed
    rw [drop_append_congr hlen' hle, ← hr, hrest]
    exact hbuf

theorem traceLines_rest_behind (host : Host) {rest : Bytes}
    (hrest : ∀ c ∈ rest, isListChar c ∨ c = 10) (hne : rest ≠ []) {buf : Bytes}
    (hbuf : 0 ∈ buf.drop (maxStringLen - 1)) :
    ∃ buf', 0 ∈ buf'.drop (maxStringLen - 1) ∧ ∀ more,
      traceLines host (fgetsCalls rest ++ more) buf = traceLines host more buf' := by
  have hsize : maxStringLen = 1000 := rfl
  fun_induction fgetsCalls rest generalizing buf with
  | case1 rest hlong ih =>
    obtain ⟨buf₁, hbuf₁, hline⟩ := traceLines_list_behind host
      (fun c hc => hrest c (List.take_subset _ _ hc))
      (List.ne_nil_of_length_pos (by rw [List.length_take]; omega)) (List.length_take_le ..) hbuf
    obtain ⟨buf₂, hbuf₂, hmore⟩ := ih (fun c hc => hrest c (List.drop_subset _ _ hc))
      (List.ne_nil_of_length_pos (by rw [List.length_drop]; omega)) hbuf₁
    exact ⟨buf₂, hbuf₂, fun more => (hline _).trans (hmore more)⟩
  | case2 rest hshort => exact traceLines_list_behind host hrest hne (not_lt.mp hshort) hbuf

/-- With memory behind the buffer every line is come over whose node is one of `numa`. -/
theorem traceLines_line_behind (host : Host) {line : LscpuLine} (hfits : line.Fits) {buf : Bytes}
    (hbuf : 0 ∈ buf.drop (maxStringLen - 1)) :
    ∃ buf', 0 ∈ buf'.drop (maxStringLen - 1) ∧ ∀ more,
      traceLines host (fgetsCalls line.print ++ more) buf =
        if NodeFits line.name then
          (traceLines host more buf').after (nodeIndex line.name) (copied host line.name line.seen)
        else ((nodeIndex line.name).toList, .error .overrun) := by
  obtain ⟨b, tail, htail⟩ := List.exists_cons_of_ne_nil (List.ne_nil_of_mem hbuf)
  have hseen : ∀ c ∈ line.seen, c ≠ 0 := fun c hc =>
    (line.value_chars c (List.take_subset _ _ hc)).1
  have hseentrim : line.seen.takeWhile isSpace = [] := line.seen_trimmed
  rcases Nat.lt_or_ge (maxStringLen - 2) line.print.length with hlong | hshort
  · obtain ⟨last, rest, hlast, hrest, hfirst, -, hcalls⟩ := exists_pieces hfits hlong
    obtain ⟨buf₁, hbuf₁, -, hline⟩ :=
      traceLines_front host hfits hseen hseentrim hlast hfirst.le htail
    obtain ⟨buf₂, hbuf₂, hmore⟩ :=
      traceLines_rest_behind host hrest (by simp) (hbuf₁ ▸ htail ▸ hbuf)
    refine ⟨buf₂, hbuf₂, fun more => ?_⟩
    rw [hcalls, List.cons_append, hline, hmore]
  · have hprint : line.print = line.front ++ line.seen ++ [10] := by
      rw [LscpuLine.print, seen_of_short hshort]
    obtain ⟨buf₁, hbuf₁, -, hline⟩ := traceLines_front host hfits hseen hseentrim (by decide)
      (hprint ▸ hshort) htail
    refine ⟨buf₁, hbuf₁ ▸ htail ▸ hbuf, fun more => ?_⟩
    rw [fgetsCalls, if_neg (not_lt.mpr hshort), List.singleton_append, hprint, hline]

/-- With memory behind the buffer the loop comes to every line, whatever is in that memory. -/
theorem traceLines_behind (host : Host) {lines : List LscpuLine}
    (hfits : ∀ line ∈ lines, line.Fits) {buf : Bytes} (hbuf : 0 ∈ buf.drop (maxStringLen - 1)) :
    traceLines host (lines.flatMap fun line => fgetsCalls line.print) buf =
      runLines host 0 lines := by
  induction lines generalizing buf with
  | nil => rfl
  | cons line lines ih =>
    obtain ⟨hline, hlines⟩ := List.forall_mem_cons.mp hfits
    obtain ⟨buf', hbuf', hmore⟩ := traceLines_line_behind host hline hbuf
    have hpasses : line.Passes 0 ↔ NodeFits line.name := and_iff_left fun h => h.2 rfl
    rw [List.flatMap_cons, hmore, ih hlines hbuf', runLines, if_congr hpasses rfl rfl]

end PowerApi
