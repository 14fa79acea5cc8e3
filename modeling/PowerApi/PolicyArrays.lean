import PowerApi.Frequencies

/-!
# Arrays of policies (`cpuservice.c`)

`MergeDuplicatePolicys` marks the ids of an array in `validId` and writes the marked ones
back to the front of the array that they come from; `FreqSortByPolicy` exchanges
neighbours. Here both work on the array itself, loop by loop. What the first leaves in front
is the list of `mergeDuplicatePolicys` (`mergeDuplicatePolicysLoops_eq`), and the second is
`freqSortByPolicy` where it sorts all of the array.
-/

namespace PowerApi

namespace Machine

/-! ## `MergeDuplicatePolicys` -/

/-- The first loop: which ids are marked. -/
def markIds (cpuNum : ℕ) : List CurFreq → List Int → Except Fault (List Int)
  | [], validId => .ok validId
  | t :: target, validId =>
    if t.policyId < cpuNum then
      if t.policyId < 0 then .error .overrun
      else markIds cpuNum target (validId.set t.policyId.toNat 1)
    else markIds cpuNum target validId

/-- The second loop over the ids `is`: the array, and `count`. -/
def writeIds (validId : List Int) : List ℕ → List CurFreq × ℕ → Except Fault (List CurFreq × ℕ)
  | [], s => .ok s
  | i :: is, (target, count) =>
    if validId[i]? = some 1 then
      match target[count]? with
      | none => .error .overrun
      | some t => writeIds validId is (target.set count { t with policyId := i }, count + 1)
    else writeIds validId is (target, count)

/-- `MergeDuplicatePolicys`: the array, and `*len`. -/
def mergeDuplicatePolicysLoops (m : Machine) (target : List CurFreq) :
    Except Fault (List CurFreq × ℕ) :=
  if m.scratchOk = false then .ok (target, target.length)
  else do
    let validId ← markIds m.coreNum target (List.replicate m.coreNum 0)
    writeIds validId (List.range m.coreNum) (target, 0)

section Merging

variable {m : Machine} {cpuNum : ℕ} {target : List CurFreq} {validId : List Int}

/-- A negative id is written in front of the array of marks. -/
theorem markIds_negative (h : ∃ t ∈ target, t.policyId < 0) :
    markIds cpuNum target validId = .error .overrun := by
  induction target generalizing validId with
  | nil => simp at h
  | cons t target ih =>
    rw [markIds]
    by_cases ht : t.policyId < 0
    · rw [if_pos (by omega), if_pos ht]
    · have hrest : ∃ t ∈ target, t.policyId < 0 := by simpa [ht] using h
      rw [if_neg ht, ih hrest, ih hrest, ite_self]

/-- Otherwise the marks are those of the ids, beside those that were there. -/
theorem markIds_ok (h : ∀ t ∈ target, 0 ≤ t.policyId) (hlen : validId.length = cpuNum) :
    ∃ marks, markIds cpuNum target validId = .ok marks ∧ ∀ i < cpuNum,
      (marks[i]? = some 1 ↔ validId[i]? = some 1 ∨ ∃ t ∈ target, t.policyId = i) := by
  induction target generalizing validId with
  | nil => exact ⟨validId, rfl, by simp⟩
  | cons t target ih =>
    obtain ⟨ht, htarget⟩ := List.forall_mem_cons.mp h
    rw [markIds]
    by_cases hlt : t.policyId < cpuNum
    · obtain ⟨marks, hmarks, hmem⟩ := @ih (validId.set t.policyId.toNat 1) htarget (by simpa)
      rw [if_pos hlt, if_neg (not_lt.mpr ht)]
      refine ⟨marks, hmarks, fun i hi => (hmem i hi).trans ?_⟩
      rw [List.exists_mem_cons_iff, ← or_assoc]
      refine or_congr_left ?_
      by_cases heq : t.policyId = i
      · rw [heq, Int.toNat_natCast, List.getElem?_set_self (by omega)]
        simp
      · rw [List.getElem?_set_ne (by omega), or_iff_left heq]
    · obtain ⟨marks, hmarks, hmem⟩ := ih htarget hlen
      rw [if_neg hlt]
      refine ⟨marks, hmarks, fun i hi => (hmem i hi).trans ?_⟩
      rw [List.exists_mem_cons_iff, or_iff_right (a := t.policyId = i) (by omega)]

/-- The marked ids are written behind what is written already. -/
theorem writeIds_eq {is : List ℕ} {done rest : List CurFreq}
    (hroom : (is.filter fun i => validId[i]? = some 1).length ≤ rest.length) :
    writeIds validId is (done ++ rest, done.length) =
      let ids := is.filter fun i => validId[i]? = some 1
      .ok (done ++ List.zipWith (fun (i : ℕ) t => { t with policyId := (i : Int) }) ids rest ++
        rest.drop ids.length, done.length + ids.length) := by
  induction is generalizing done rest with
  | nil => simp [writeIds]
  | cons i is ih =>
    rw [writeIds]
    by_cases hi : validId[i]? = some 1
    · rw [List.filter_cons_of_pos (by simpa using hi)] at hroom ⊢
      obtain ⟨t, rest, rfl⟩ := List.exists_cons_of_length_pos (Nat.zero_lt_of_lt hroom)
      have hset : (done ++ t :: rest).set done.length { t with policyId := i } =
          (done ++ [{ t with policyId := (i : Int) }]) ++ rest := by simp
      have hlen : done.length + 1 = (done ++ [{ t with policyId := (i : Int) }]).length := by simp
      rw [if_pos hi, List.getElem?_append_right le_rfl, Nat.sub_self, List.getElem?_cons_zero]
      dsimp only
      rw [hset, hlen, ih (Nat.le_of_succ_le_succ hroom)]
      simp [Nat.add_assoc, Nat.add_comm 1]
    · rw [List.filter_cons_of_neg (by simpa using hi)] at hroom ⊢
      rw [if_neg hi]
      exact ih hroom

/-- The ids that are marked, in an array that was cleared before. -/
theorem markIds_marked (h : ∀ t ∈ target, 0 ≤ t.policyId) :
    ∃ marks, markIds m.coreNum target (List.replicate m.coreNum 0) = .ok marks ∧
      (List.range m.coreNum).filter (fun i => marks[i]? = some 1) = Server.marked m target := by
  obtain ⟨marks, hmarks, hmem⟩ := markIds_ok h (List.length_replicate (n := m.coreNum) (a := 0))
  refine ⟨marks, hmarks, List.filter_congr fun i hi => ?_⟩
  have hclear : (List.replicate m.coreNum (0 : Int))[i]? ≠ some 1 := by
    simp [List.getElem?_replicate]
  rw [Bool.eq_iff_iff, decide_eq_true_iff, hmem i (List.mem_range.mp hi), or_iff_right hclear]
  simp

/-- The array and its length afterwards. -/
theorem mergeDuplicatePolicysLoops_ok (hscratch : m.scratchOk = true)
    (h : ∀ t ∈ target, 0 ≤ t.policyId) :
    m.mergeDuplicatePolicysLoops target =
      let ids := Server.marked m target
      .ok (List.zipWith (fun (i : ℕ) t => { t with policyId := (i : Int) }) ids target ++
        target.drop ids.length, ids.length) := by
  obtain ⟨marks, hmarks, hids⟩ := @markIds_marked m target h
  have hroom := Server.length_marked_le m target
  rw [← hids] at hroom ⊢
  have hwrite := @writeIds_eq marks (List.range m.coreNum) [] target hroom
  simp only [List.nil_append, List.length_nil, Nat.zero_add] at hwrite
  rw [mergeDuplicatePolicysLoops, if_neg (by simp [hscratch]), hmarks, ok_bind, hwrite]

/-- The entries that `*len` counts are those of `mergeDuplicatePolicys`. -/
theorem mergeDuplicatePolicysLoops_eq (m : Machine) (target : List CurFreq) :
    m.mergeDuplicatePolicys target =
      (fun s => s.1.take s.2) <$> m.mergeDuplicatePolicysLoops target := by
  cases hscratch : m.scratchOk with
  | false =>
    rw [mergeDuplicatePolicys, mergeDuplicatePolicysLoops, if_pos hscratch, if_pos hscratch]
    exact congrArg _ (List.take_length (l := target)).symm
  | true =>
    have hon : ¬ m.scratchOk = false := by simp [hscratch]
    by_cases hneg : ∃ t ∈ target, t.policyId < 0
    · rw [mergeDuplicatePolicys, mergeDuplicatePolicysLoops, if_neg hon, if_neg hon,
        markIds_negative hneg, if_pos (by simpa using hneg)]
      rfl
    · have hpos : ∀ t ∈ target, 0 ≤ t.policyId := fun t ht =>
        not_lt.mp fun hlt => hneg ⟨t, ht, hlt⟩
      have hlen : (List.zipWith (fun (i : ℕ) (t : CurFreq) => { t with policyId := (i : Int) })
          (Server.marked m target) target).length = (Server.marked m target).length := by
        rw [List.length_zipWith, Nat.min_eq_left (Server.length_marked_le m target)]
      rw [mergeDuplicatePolicysLoops_ok hscratch hpos, mergeDuplicatePolicys, if_neg hon,
        if_neg (by simpa using hpos)]
      exact congrArg Except.ok (List.take_left' hlen).symm

/-- What is left in front has the marked ids. -/
theorem mergeDuplicatePolicysLoops_front (hscratch : m.scratchOk = true)
    (h : ∀ t ∈ target, 0 ≤ t.policyId) :
    ∃ merged, m.mergeDuplicatePolicysLoops target =
        .ok (merged, (Server.marked m target).length) ∧ merged.length = target.length ∧
      (merged.take (Server.marked m target).length).map CurFreq.policyId =
        (Server.marked m target).map Int.ofNat := by
  have hloops := mergeDuplicatePolicysLoops_ok hscratch h
  obtain ⟨front, hfront, hids⟩ := Server.mergeDuplicatePolicys_eq hscratch h
  rw [mergeDuplicatePolicysLoops_eq, hloops] at hfront
  obtain rfl := Except.ok.inj hfront
  refine ⟨_, hloops, ?_, hids⟩
  have hroom := Server.length_marked_le m target
  rw [List.length_append, List.length_zipWith, List.length_drop]
  omega

end Merging

/-! ## `FreqSortByPolicy` -/

/-- `FreqSortByPolicy` on the first `len` entries of an array. -/
def freqSortFirst (rstData : List CurFreq) (len : Int) : List CurFreq :=
  (List.range len.toNat).foldl (fun rst i => sortPass CurFreq.policyId (len.toNat - i - 1) rst)
    rstData

/-- An array whose length is `len` is sorted as a whole. -/
theorem freqSortFirst_length (rstData : List CurFreq) :
    freqSortFirst rstData rstData.length = freqSortByPolicy CurFreq.policyId rstData := rfl

section Sorting

variable {α : Type} {key : α → Int}

/-- A round takes the greatest entry of the front to its end, and does not see what is behind. -/
theorem sortPass_front {n : ℕ} {front : List α} (hlen : front.length = n + 1) (back : List α) :
    ∃ next last, sortPass key n (front ++ back) = next ++ last :: back ∧
      (next ++ [last]).Perm front ∧ ∀ a ∈ front, key a ≤ key last := by
  induction n generalizing front with
  | zero =>
    obtain ⟨a, rfl⟩ := List.length_eq_one_iff.mp hlen
    exact ⟨[], a, rfl, .refl _, by simp⟩
  | succ n ih =>
    match front, hlen with
    | a :: b :: l, hlen =>
      rw [List.cons_append, List.cons_append, sortPass]
      by_cases hgt : key a > key b
      · obtain ⟨next, last, heq, hperm, hle⟩ := @ih (a :: l) (Nat.succ.inj hlen)
        rw [List.cons_append] at heq
        rw [if_pos hgt, heq]
        refine ⟨b :: next, last, rfl, (hperm.cons b).trans (.swap a b l), ?_⟩
        have ha := hle a List.mem_cons_self
        rintro x (_ | ⟨_, _ | ⟨_, hx⟩⟩)
        · exact ha
        · omega
        · exact hle x (List.mem_cons_of_mem a hx)
      · obtain ⟨next, last, heq, hperm, hle⟩ := @ih (b :: l) (Nat.succ.inj hlen)
        rw [List.cons_append] at heq
        rw [if_neg hgt, heq]
        refine ⟨a :: next, last, rfl, hperm.cons a, ?_⟩
        have hb := hle b List.mem_cons_self
        rintro x (_ | ⟨_, hx⟩)
        · omega
        · exact hle x hx

/-- After some rounds: what is settled is in order, and nothing in front of it is greater. -/
def Settled (key : α → Int) (l back rst : List α) (left : ℕ) : Prop :=
  ∃ front settled, rst = front ++ settled ++ back ∧ front.length = left ∧
    (front ++ settled).Perm l ∧ settled.Pairwise (fun a b => key a ≤ key b) ∧
      ∀ a ∈ front, ∀ b ∈ settled, key a ≤ key b

theorem Settled.round {l back rst : List α} {n : ℕ} (h : Settled key l back rst (n + 1)) :
    Settled key l back (sortPass key n rst) n := by
  obtain ⟨front, settled, rfl, hlen, hperm, hsorted, hle⟩ := h
  obtain ⟨next, last, heq, hnext, hlast⟩ := @sortPass_front _ key n front hlen (settled ++ back)
  have hmem : ∀ a ∈ next ++ [last], a ∈ front := fun a ha => hnext.mem_iff.mp ha
  refine ⟨next, last :: settled, ?_, ?_, ?_, ?_, ?_⟩
  · rw [List.append_assoc, heq]
    simp
  · have := hnext.length_eq
    rw [List.length_append, List.length_singleton] at this
    omega
  · refine (List.Perm.of_eq (by simp)).trans ((hnext.append_right settled).trans hperm)
  · exact List.pairwise_cons.mpr ⟨hle last (hmem last (by simp)), hsorted⟩
  · intro a ha b hb
    obtain rfl | hb := List.mem_cons.mp hb
    · exact hlast a (hmem a (by simp [ha]))
    · exact hle a (hmem a (by simp [ha])) b hb

/-- All rounds leave the first entries in order. -/
theorem settled_rounds (l back : List α) {k : ℕ} (hk : k ≤ l.length) :
    Settled key l back ((List.range k).foldl
      (fun rst i => sortPass key (l.length - i - 1) rst) (l ++ back)) (l.length - k) := by
  induction k with
  | zero => exact ⟨l, [], by simp, rfl, by simp, .nil, by simp⟩
  | succ k ih =>
    have hround := ih (Nat.le_of_succ_le hk)
    rw [List.range_succ, List.foldl_append, List.foldl_cons, List.foldl_nil]
    obtain ⟨n, hn⟩ : ∃ n, l.length - k = n + 1 := ⟨l.length - k - 1, by omega⟩
    rw [hn] at hround ⊢
    rw [Nat.add_sub_cancel, show l.length - (k + 1) = n by omega]
    exact hround.round

end Sorting

/-- The first entries are in order afterwards, and the others where they were. -/
theorem freqSortFirst_sorted {rstData : List CurFreq} {len : Int} (hlen : len ≤ rstData.length) :
    ∃ sorted, freqSortFirst rstData len = sorted ++ rstData.drop len.toNat ∧
      sorted.Perm (rstData.take len.toNat) ∧
        sorted.Pairwise fun s t => s.policyId ≤ t.policyId := by
  have hsettled := @settled_rounds _ CurFreq.policyId (rstData.take len.toNat)
    (rstData.drop len.toNat) _ le_rfl
  rw [List.take_append_drop, List.length_take, Nat.min_eq_left (by omega), Nat.sub_self] at hsettled
  obtain ⟨front, sorted, heq, hnil, hperm, hsorted, -⟩ := hsettled
  obtain rfl := List.length_eq_zero_iff.mp hnil
  exact ⟨sorted, heq, hperm, hsorted⟩

/-- **Merging leaves the sorted set of the ids**, once each, in front of the array; sorting leaves
the entries in the order of their ids. -/
theorem policies_merged_and_sorted {m : Machine} (hscratch : m.scratchOk = true)
    {target : List CurFreq} (hids : ∀ t ∈ target, 0 ≤ t.policyId ∧ t.policyId < m.coreNum) :
    (∃ merged count, m.mergeDuplicatePolicysLoops target = .ok (merged, count) ∧
      count = (target.map CurFreq.policyId).toFinset.card ∧ count ≤ target.length ∧
      merged.length = target.length ∧
      ((merged.take count).map CurFreq.policyId).Pairwise (· < ·) ∧
      ∀ id, id ∈ (merged.take count).map CurFreq.policyId ↔ id ∈ target.map CurFreq.policyId) ∧
    ∀ (rstData : List CurFreq) (len : Int), len ≤ rstData.length →
      ∃ sorted, freqSortFirst rstData len = sorted ++ rstData.drop len.toNat ∧
        sorted.Perm (rstData.take len.toNat) ∧
          sorted.Pairwise fun s t => s.policyId ≤ t.policyId := by
  refine ⟨?_, fun _ _ => freqSortFirst_sorted⟩
  obtain ⟨merged, hmerged, hlen, hfront⟩ :=
    mergeDuplicatePolicysLoops_front hscratch fun t ht => (hids t ht).1
  have hmem : ∀ id, id ∈ (Server.marked m target).map Int.ofNat ↔
      id ∈ target.map CurFreq.policyId := by
    intro id
    rw [List.mem_map, List.mem_map]
    constructor
    · rintro ⟨i, hi, rfl⟩
      exact (Server.mem_marked.mp hi).2
    · rintro ⟨t, ht, rfl⟩
      obtain ⟨hpos, hlt⟩ := hids t ht
      exact ⟨t.policyId.toNat, Server.mem_marked.mpr ⟨by omega, t, ht, by omega⟩,
        Int.toNat_of_nonneg hpos⟩
  have hsorted : ((Server.marked m target).map Int.ofNat).Pairwise (· < ·) :=
    (List.pairwise_lt_range.filter _).map _ fun _ _ => Int.ofNat_lt.mpr
  refine ⟨merged, _, hmerged, ?_, Server.length_marked_le m target, hlen, ?_, ?_⟩
  · have hset : (target.map CurFreq.policyId).toFinset =
        ((Server.marked m target).map Int.ofNat).toFinset :=
      Finset.ext fun id => by rw [List.mem_toFinset, List.mem_toFinset, hmem]
    rw [hset, List.toFinset_card_of_nodup (hsorted.imp ne_of_lt), List.length_map]
  · rwa [hfront]
  · rwa [hfront]

/-- A machine with four processors. -/
def fourCores : Machine :=
  { Server.bareMachine with coreNum := 4, cpuUsageRead := .ok (Server.zeroReading (16 + 16 * 4)) }

/-- An array in which an id comes twice. -/
def twiceThree : List CurFreq := [⟨3, 5⟩, ⟨0, 7⟩, ⟨3, 9⟩]

theorem policies_merged_and_sorted_twice :
    ∃ merged count, fourCores.mergeDuplicatePolicysLoops twiceThree = .ok (merged, count) ∧
      ((merged.take count).map CurFreq.policyId).Pairwise (· < ·) := by
  obtain ⟨⟨merged, count, hmerged, -, -, -, hsorted, -⟩, -⟩ :=
    @policies_merged_and_sorted fourCores rfl twiceThree (by decide)
  exact ⟨merged, count, hmerged, hsorted⟩

end Machine

end PowerApi
