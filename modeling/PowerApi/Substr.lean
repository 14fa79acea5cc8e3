import PowerApi.CpuLines
import PowerApi.InPlace

/-!
# `StrMatch` and `DeleteSubstr` (`utils.c`)

Access by access. The loop that moves the rest of the string forward looks at the bytes that
it is about to write over, not at those that it writes: it goes on until it comes to the old
end, but it stays inside, and the end it has copied on the way is where it should be
(`substr_deleted`).
-/

namespace PowerApi

namespace InPlace

open Traced

/-- `StrMatch`: the position behind the match. -/
def strMatch : ℤ → Bytes → Traced UInt8 → Option ℤ × Traced UInt8
  | a, [], t => (some a, t)
  | a, b :: want, t =>
    if t.mem a ≠ b then (none, t.read a) else strMatch (a + 1) want (t.read a)

/-- The loop of `DeleteSubstr` that looks for `substr`: `a` and `next` behind it. -/
def findLoop (substr : Bytes) : ℕ → ℤ → Traced UInt8 → Option (ℤ × Option ℤ × Traced UInt8)
  | 0, _, _ => none
  | fuel + 1, a, t =>
    if t.mem a ≠ 0 then
      match strMatch a substr (t.read a) with
      | (some next, t) => some (a, some next, t)
      | (none, t) => findLoop substr fuel (a + 1) t
    else some (a, none, t.read a)

/-- The loop of `DeleteSubstr` that moves the rest. What it looks at is the byte that it is
about to write over. -/
def shiftLoop : ℕ → ℤ → ℤ → Traced UInt8 → Option (Traced UInt8)
  | 0, _, _, _ => none
  | fuel + 1, a, next, t =>
    if t.mem a ≠ 0 then
      let c := t.mem next
      shiftLoop fuel (a + 1) (next + 1) (((t.read a).read next).write a c)
    else some (t.read a)

/-- `DeleteSubstr`. -/
def deleteSubstr (fuel : ℕ) (t : Traced UInt8) (str : ℤ) (substr : Bytes) :
    Option (ℤ × Traced UInt8) := do
  let (a, next, t) ← findLoop substr fuel str t
  if t.mem a = 0 then return (0, t.read a)
  else
    let next ← next -- the loop has only stopped before the end with a match
    let t ← shiftLoop fuel a next (t.read a)
    return (1, t)

/-- `sub` is in `s` at `k`, and not before. -/
def FirstAt (sub s : Bytes) (k : ℕ) : Prop := sub <+: s.drop k ∧ ∀ j < k, ¬ sub <+: s.drop j

section Substr

variable {t : Traced UInt8} {i : ℤ} {s substr : Bytes} {fuel : ℕ}

/-- `StrMatch` stops at the end of the string at the latest. -/
theorem strMatch_eq (h : StringAt t.mem i s) (hzero : ∀ c ∈ substr, c ≠ 0) :
    ∃ t', strMatch i substr t = (if substr <+: s then some (i + substr.length) else none, t') ∧
      t'.mem = t.mem ∧
      ∀ rd wr, t.Inside rd wr → (∀ k ≤ s.length, i + (k : ℤ) ∈ rd) → t'.Inside rd wr := by
  induction substr generalizing i s t with
  | nil =>
    rw [strMatch, if_pos (List.nil_prefix), List.length_nil, Nat.cast_zero, Int.add_zero]
    exact ⟨t, rfl, rfl, fun _ _ hin _ => hin⟩
  | cons b want ih =>
    obtain ⟨hb, hwant⟩ := List.forall_mem_cons.mp hzero
    rw [strMatch]
    cases s with
    | nil =>
      have hend : t.mem i ≠ b := (stringAt_nil.mp h).trans_ne hb.symm
      rw [if_pos hend, if_neg (by simp)]
      exact ⟨_, rfl, rfl, fun _ _ hin hpos => hin.read (by simpa using hpos 0 le_rfl)⟩
    | cons c s =>
      obtain ⟨-, hc, hs⟩ := stringAt_cons.mp h
      rw [hc]
      by_cases hbc : c = b
      · subst hbc
        obtain ⟨t', heq, hmem, hin⟩ := @ih (t.read i) (i + 1) s hs hwant
        rw [if_neg (not_not.mpr rfl), heq]
        refine ⟨t', ?_, hmem, fun rd wr hrd hpos => ?_⟩
        · have hlen : i + 1 + (want.length : ℤ) = i + ((c :: want).length : ℕ) := by
            rw [List.length_cons]
            omega
          simp only [List.cons_prefix_cons, true_and, hlen]
        · refine hin rd wr (hrd.read (by simpa using hpos 0 (Nat.zero_le _))) fun k hk => ?_
          have hmem := hpos (k + 1) (Nat.succ_le_succ hk)
          rwa [Nat.cast_succ, Int.add_comm k 1, ← Int.add_assoc] at hmem
      · rw [if_pos hbc, if_neg fun hfront => hbc (List.cons_prefix_cons.mp hfront).1.symm]
        exact ⟨_, rfl, rfl, fun _ _ hin hpos => hin.read (by simpa using hpos 0 (Nat.zero_le _))⟩

theorem firstAt_succ {c : UInt8} {k : ℕ} (hc : ¬ substr <+: c :: s) (h : FirstAt substr s k) :
    FirstAt substr (c :: s) (k + 1) := by
  refine ⟨h.1, fun j hj => ?_⟩
  cases j with
  | zero => exact hc
  | succ j => exact h.2 j (Nat.lt_of_succ_lt_succ hj)

theorem FirstAt.infix {k : ℕ} (h : FirstAt substr s k) : substr <:+: s :=
  h.1.isInfix.trans (List.drop_suffix k s).isInfix

theorem FirstAt.le {k : ℕ} (h : FirstAt substr s k) (hsub : substr ≠ []) :
    k + substr.length ≤ s.length := by
  have hle := h.1.length_le
  have hpos := List.length_pos_of_ne_nil hsub
  rw [List.length_drop] at hle
  omega

/-- The first loop stops at the first occurrence, or at the end. -/
theorem findLoop_eq (h : StringAt t.mem i s) (hsub : substr ≠ []) (hzero : ∀ c ∈ substr, c ≠ 0)
    (hfuel : s.length < fuel) :
    ∃ t', t'.mem = t.mem ∧
      (∀ rd wr, t.Inside rd wr → (∀ k ≤ s.length, i + (k : ℤ) ∈ rd) → t'.Inside rd wr) ∧
      ((∃ k : ℕ, FirstAt substr s k ∧
          findLoop substr fuel i t = some (i + k, some (i + k + substr.length), t')) ∨
        (¬ substr <:+: s ∧ findLoop substr fuel i t = some (i + s.length, none, t'))) := by
  induction s generalizing i t fuel with
  | nil =>
    obtain ⟨fuel, rfl⟩ := Nat.exists_eq_succ_of_ne_zero (Nat.ne_of_gt hfuel)
    refine ⟨t.read i, rfl, fun rd wr hin hpos => hin.read (by simpa using hpos 0 le_rfl),
      .inr ⟨fun hinfix => hsub (List.infix_nil.mp hinfix), ?_⟩⟩
    rw [findLoop, if_neg (not_not.mpr (stringAt_nil.mp h)), List.length_nil, Nat.cast_zero,
      Int.add_zero]
  | cons c s ih =>
    obtain ⟨fuel, rfl⟩ := Nat.exists_eq_succ_of_ne_zero (Nat.ne_of_gt (Nat.zero_lt_of_lt hfuel))
    obtain ⟨hc, hi, hs⟩ := stringAt_cons.mp h
    obtain ⟨t₁, hmatch, hmem₁, hin₁⟩ := strMatch_eq (t := t.read i) h hzero
    have hin : ∀ rd wr, t.Inside rd wr → (∀ k ≤ (c :: s).length, i + (k : ℤ) ∈ rd) →
        t₁.Inside rd wr := fun rd wr hrd hpos =>
      hin₁ rd wr (hrd.read (by simpa using hpos 0 (Nat.zero_le _))) hpos
    rw [findLoop, if_pos (by rwa [hi]), hmatch]
    by_cases hfront : substr <+: c :: s
    · rw [if_pos hfront]
      exact ⟨t₁, hmem₁, hin, .inl ⟨0, ⟨hfront, nofun⟩, by simp⟩⟩
    · rw [if_neg hfront]
      dsimp only
      have hs₁ : StringAt t₁.mem (i + 1) s := by rwa [hmem₁]
      obtain ⟨t', hmem', hin', hfind⟩ := @ih t₁ (i + 1) fuel hs₁ (Nat.lt_of_succ_lt_succ hfuel)
      refine ⟨t', hmem'.trans hmem₁, fun rd wr hrd hpos => hin' rd wr (hin rd wr hrd hpos)
        fun k hk => ?_, hfind.imp ?_ ?_⟩
      · have hmem := hpos (k + 1) (Nat.succ_le_succ hk)
        rwa [Nat.cast_succ, Int.add_comm k 1, ← Int.add_assoc] at hmem
      · rintro ⟨k, hk, hfound⟩
        refine ⟨k + 1, firstAt_succ hfront hk, ?_⟩
        rw [hfound, Nat.cast_succ, Int.add_comm k 1, ← Int.add_assoc]
      · rintro ⟨hnot, hfound⟩
        refine ⟨fun hinfix => (List.infix_cons_iff.mp hinfix).elim hfront hnot, ?_⟩
        rw [hfound, List.length_cons, Nat.cast_succ, Int.add_comm s.length 1, ← Int.add_assoc]

/-- The second loop copies as many bytes as there were before the end. -/
theorem shiftLoop_eq {mem : ℤ → UInt8} {dst src : ℤ} {k j : ℕ} (h : Copied mem t.mem dst src k)
    (hle : dst ≤ src) (hrun : ∀ m < k + j, mem (dst + m) ≠ 0) (hend : mem (dst + (k + j : ℕ)) = 0)
    (hfuel : j < fuel) :
    ∃ t', shiftLoop fuel (dst + k) (src + k) t = some t' ∧
      Copied mem t'.mem dst src (k + j) ∧
      ∀ rd wr, t.Inside rd wr → (∀ m ≤ k + j, dst + (m : ℤ) ∈ rd) →
        (∀ m < k + j, src + (m : ℤ) ∈ rd ∧ dst + (m : ℤ) ∈ wr) → t'.Inside rd wr := by
  induction j generalizing k t fuel with
  | zero =>
    obtain ⟨fuel, rfl⟩ := Nat.exists_eq_succ_of_ne_zero (Nat.ne_of_gt hfuel)
    rw [Nat.add_zero] at hend
    rw [shiftLoop, h.behind le_rfl, if_neg (not_not.mpr hend)]
    exact ⟨_, rfl, h, fun rd wr hin hrd _ => hin.read (hrd k le_rfl)⟩
  | succ j ih =>
    obtain ⟨fuel, rfl⟩ := Nat.exists_eq_succ_of_ne_zero (Nat.ne_of_gt (Nat.zero_lt_of_lt hfuel))
    have hnext : k + (j + 1) = k + 1 + j := by omega
    have hpos : ∀ p : ℤ, p + k + 1 = p + (k + 1 : ℕ) := fun p => by omega
    rw [hnext] at hrun hend ⊢
    rw [shiftLoop, h.behind le_rfl, if_pos (hrun k (by omega)), hpos, hpos]
    obtain ⟨t', heq, hcopied, hin⟩ := @ih (((t.read (dst + k)).read (src + k)).write (dst + k)
      (t.mem (src + k))) fuel (k + 1) (h.step hle) hrun hend (Nat.lt_of_succ_lt_succ hfuel)
    refine ⟨t', heq, hcopied, fun rd wr hbd hrd hall => hin rd wr ?_ hrd hall⟩
    obtain ⟨hsrc, hdst⟩ := hall k (by omega)
    exact ((hbd.read (hrd k (by omega))).read hsrc).write hdst _

/-- The string when its rest has been moved over an occurrence: the rest and its end are in
front of where the second loop stops. -/
theorem stringAt_of_copied {mem mem' : ℤ → UInt8} {k m : ℕ} (h : StringAt mem 0 s)
    (hcopied : Copied mem mem' k (k + m) (s.length - k)) (hm : 0 < m) (hk : k + m ≤ s.length) :
    StringAt mem' 0 (s.take k ++ s.drop (k + m)) := by
  have hrest := (h.drop hk).cells
  have hcells := h.cells
  rw [← List.take_append_drop k s, List.append_assoc, cells_append] at hcells
  have htake : (s.take k).length = k := List.length_take_of_le (by omega)
  refine ⟨?_, fun c hc => h.ne_zero c ?_⟩
  · rw [List.append_assoc, cells_append, htake]
    constructor
    · refine hcells.1.congr fun j _ hj => ?_
      rw [htake] at hj
      exact (hcopied j).trans (if_neg (by omega))
    · rw [Nat.cast_add] at hrest
      rw [Int.zero_add] at hrest ⊢
      refine hcopied.cells hrest ?_
      rw [List.length_append, List.length_drop, List.length_singleton]
      omega
  · exact (List.mem_append.mp hc).elim List.mem_of_mem_take List.mem_of_mem_drop

/-- What `DeleteSubstr` does, with the first occurrence and without one. -/
theorem deleteSubstr_run {mem : ℤ → UInt8} (h : StringAt mem 0 s) (hsub : substr ≠ [])
    (hzero : ∀ c ∈ substr, c ≠ 0) (hfuel : s.length < fuel) :
    ∃ ret t, deleteSubstr fuel (start mem) 0 substr = some (ret, t) ∧
      t.Inside {i | 0 ≤ i ∧ i ≤ s.length + substr.length - 1} {i | 0 ≤ i ∧ i ≤ s.length} ∧
      ((∃ k, FirstAt substr s k ∧ ret = 1 ∧
          StringAt t.mem 0 (s.take k ++ s.drop (k + substr.length))) ∨
        (¬ substr <:+: s ∧ ret = 0 ∧ t.mem = mem)) := by
  have hpos := List.length_pos_of_ne_nil hsub
  obtain ⟨t₁, hmem₁, hin₁, hfind⟩ := findLoop_eq (t := start mem) h hsub hzero hfuel
  have hbd : t₁.Inside {i | 0 ≤ i ∧ i ≤ (s.length : ℤ) + substr.length - 1}
      {i | 0 ≤ i ∧ i ≤ (s.length : ℤ)} :=
    hin₁ _ _ (inside_start ..) fun k hk => ⟨by omega, by omega⟩
  rw [mem_start] at hmem₁
  rw [deleteSubstr]
  obtain ⟨k, hfirst, hfound⟩ | ⟨hnot, hfound⟩ := hfind
  · have hle := hfirst.le hsub
    have hne : mem (0 + k) ≠ 0 := h.ne_end (by omega)
    have hend : mem (k + (0 + (s.length - k) : ℕ)) = 0 := by
      have hlast := h.end_eq
      rwa [show (0 + s.length : ℤ) = k + (0 + (s.length - k) : ℕ) by omega] at hlast
    have hcopied₀ : Copied mem (t₁.read k).mem k (k + substr.length) 0 := by
      rw [mem_read, hmem₁]
      exact copied_zero mem k (k + substr.length)
    obtain ⟨t', hshift, hcopied, hin⟩ := shiftLoop_eq hcopied₀ (by omega)
      (fun m hm => by simpa using h.ne_end (show k + m < s.length by omega)) hend
      (show s.length - k < fuel by omega)
    rw [Nat.zero_add] at hcopied
    rw [Nat.cast_zero, Int.add_zero, Int.add_zero] at hshift
    refine ⟨1, t', ?_, ?_, .inl ⟨k, hfirst, rfl, stringAt_of_copied h hcopied hpos hle⟩⟩
    · rw [Int.zero_add] at hfound hne
      simp only [Option.bind_eq_bind, hfound, Option.bind_some, hmem₁, if_neg hne, hshift]
      rfl
    · exact hin _ _ (hbd.read ⟨by omega, by omega⟩) (fun m hm => ⟨by omega, by omega⟩)
        fun m hm => ⟨⟨by omega, by omega⟩, ⟨by omega, by omega⟩⟩
  · have hend : mem s.length = 0 := by simpa using h.end_eq
    refine ⟨0, t₁.read s.length, ?_, hbd.read ⟨by omega, by omega⟩, .inr ⟨hnot, rfl, hmem₁⟩⟩
    rw [Int.zero_add] at hfound
    simp only [Option.bind_eq_bind, hfound, Option.bind_some, hmem₁, if_pos hend]
    rfl

/-- **`DeleteSubstr` takes out the first occurrence**, if there is one, whatever is behind the
string. It writes only where the string is, and reads no further behind it than an
occurrence is long. -/
theorem substr_deleted {mem : ℤ → UInt8} (h : StringAt mem 0 s) (hsub : substr ≠ [])
    (hzero : ∀ c ∈ substr, c ≠ 0) (hfuel : s.length < fuel) :
    ∃ ret t, deleteSubstr fuel (start mem) 0 substr = some (ret, t) ∧
      (substr <:+: s → ret = 1 ∧ ∃ k, FirstAt substr s k ∧
        StringAt t.mem 0 (s.take k ++ s.drop (k + substr.length))) ∧
      (¬ substr <:+: s → ret = 0 ∧ t.mem = mem) ∧
      t.Inside {i | 0 ≤ i ∧ i ≤ s.length + substr.length - 1} {i | 0 ≤ i ∧ i ≤ s.length} := by
  obtain ⟨ret, t, hrun, hin, ⟨k, hfirst, hret, hstr⟩ | ⟨hnot, hret, hmem⟩⟩ :=
    deleteSubstr_run h hsub hzero hfuel
  · exact ⟨ret, t, hrun, fun _ => ⟨hret, k, hfirst, hstr⟩,
      fun hnot => absurd hfirst.infix hnot, hin⟩
  · exact ⟨ret, t, hrun, fun hinfix => absurd hinfix hnot, fun _ => ⟨hret, hmem⟩, hin⟩

/-- The string that is left is the one of the list that `lscpu`'s lines are read with. -/
theorem deleteSubstr_refines {mem : ℤ → UInt8} (h : StringAt mem 0 s) (hsub : substr ≠ [])
    (hzero : ∀ c ∈ substr, c ≠ 0) (hfuel : s.length < fuel) :
    ∃ ret t, deleteSubstr fuel (start mem) 0 substr = some (ret, t) ∧
      StringAt t.mem 0 (Machine.deleteSubstr substr s) := by
  obtain ⟨ret, t, hrun, -, ⟨k, hfirst, -, hstr⟩ | ⟨hnot, -, hmem⟩⟩ :=
    deleteSubstr_run h hsub hzero hfuel
  · refine ⟨ret, t, hrun, ?_⟩
    have hpos := List.length_pos_of_ne_nil hsub
    have hle := hfirst.le hsub
    have hfind : ((List.range s.length).find? fun k => substr <+: s.drop k) = some k := by
      refine List.find?_range_eq_some.mpr ⟨decide_eq_true hfirst.1, ?_, fun j hj => ?_⟩
      · exact List.mem_range.mpr (by omega)
      · rw [decide_eq_false (hfirst.2 j hj)]
        rfl
    rw [deleteSubstr_find, hfind]
    exact hstr
  · refine ⟨ret, t, hrun, ?_⟩
    have hfind : ((List.range s.length).find? fun k => substr <+: s.drop k) = none :=
      List.find?_eq_none.mpr fun k _ hk =>
        hnot ((of_decide_eq_true hk).isInfix.trans (List.drop_suffix k s).isInfix)
    rw [deleteSubstr_find, hfind, hmem]
    exact h

end Substr

/-- `aab` without `ab`, and a byte behind it. -/
theorem substr_deleted_aab :
    ∃ ret t, deleteSubstr 4 (start fun i => [97, 97, 98, 0, 55][i.toNat]?.getD 0) 0 [97, 98] =
        some (ret, t) ∧
      ([97, 98] <:+: ([97, 97, 98] : Bytes) → ret = 1 ∧ ∃ k, FirstAt [97, 98] [97, 97, 98] k ∧
        StringAt t.mem 0 (([97, 97, 98] : Bytes).take k ++ ([97, 97, 98] : Bytes).drop (k + 2))) ∧
      (¬ [97, 98] <:+: ([97, 97, 98] : Bytes) → ret = 0 ∧
        t.mem = fun i => [97, 97, 98, 0, 55][i.toNat]?.getD 0) ∧
      t.Inside {i | 0 ≤ i ∧ i ≤ 4} {i | 0 ≤ i ∧ i ≤ 3} :=
  substr_deleted ⟨by simp [Cells], by simp⟩ (by decide) (by simp) (by decide)

end InPlace

end PowerApi
