import PowerApi.StatLines

/-!
# CPU usage (`cpuservice.c`)

`CPUUsageRead` reads `/proc/stat` twice and goes through the two texts line by line: the
line of the sum first, and then as many lines as there are configured cores. It works out
the part of the time between the two that was not idle, for each line; the arithmetic is
done over the rationals here, with no value for a quotient by zero.

`/proc/stat` has lines for the cores that are online only. For a core that is not, a line
comes up that is no core's, and `CPUUsageRead` works out the last core's usage once more.
`usage_wellFormed_iff` says when its result is what a caller goes by.
-/

namespace PowerApi

/-! ## The loop, for any way to work out the usage -/

/-- The loop of `CPUUsageRead`, as `cpuUsageLoop`, with `CalculateUsage` as a parameter. -/
def usageLoop {ω : Type} (store : ParasRow × ParasRow → ℕ → Except Fault (List ω)) :
    ℕ → ℕ → List Bytes → List Bytes → Bytes × Bytes → ParasRow × ParasRow →
      Except Fault (Int × List ω)
  | 0, _, _, _, _, _ => return (RtnCode.success.code, [])
  | _ + 1, _, [], _, _, _ => return (RtnCode.errCommon.code, [])
  | _ + 1, _, _ :: _, [], _, _ => return (RtnCode.errCommon.code, [])
  | n + 1, i, line1 :: lines1, line2 :: lines2, (buf1, buf2), (paras1, paras2) => do
    let buf1 := putString buf1 line1
    let buf2 := putString buf2 line2
    let (core1, paras1) ← usageToLong buf1 paras1 i
    let (core2, paras2) ← usageToLong buf2 paras2 i
    if core1 ≠ core2 then return (RtnCode.errCommon.code, [])
    else
      let ws ← store (paras1, paras2) i
      let (code, ws') ← usageLoop store n (i + 1) lines1 lines2 (buf1, buf2) (paras1, paras2)
      return (code, ws ++ ws')

/-- The reader's loop is this one. -/
theorem cpuUsageLoop_eq (coreNum n i : ℕ) (lines1 lines2 : List Bytes) (bufs : Bytes × Bytes)
    (paras : ParasRow × ParasRow) :
    cpuUsageLoop coreNum n i lines1 lines2 bufs paras =
      usageLoop (calculateUsage coreNum) n i lines1 lines2 bufs paras := by
  induction n generalizing i lines1 lines2 bufs paras with
  | zero => rfl
  | succ n ih =>
    cases lines1 with
    | nil => rfl
    | cons line1 lines1 =>
      cases lines2 with
      | nil => rfl
      | cons line2 lines2 =>
        rw [cpuUsageLoop, usageLoop]
        simp only [ih]

/-- What `CalculateUsage` stores; a usage whose denominator is 0 is `none`. -/
inductive UsageStore where
  | avgUsage (usage : Option ℚ)
  /-- `coreUsage[idx]` -/
  | coreUsage (idx : ℕ) (coreNo : Int) (usage : Option ℚ)
  deriving DecidableEq

def UsageStore.usage : UsageStore → Option ℚ
  | avgUsage usage => usage
  | coreUsage _ _ usage => usage

/-- The share of the time that was not idle. -/
def usageShare (paras : ParasRow × ParasRow) : Option ℚ :=
  let idle (row : ParasRow) : UInt64 := row.columns.getD (cpuIdleColumn - 1) 0
  let parasSum1 := paras.1.columns.sum
  let parasSum2 := paras.2.columns.sum
  if parasSum2 - parasSum1 = 0 then none
  else
    some (1 - ((idle paras.2 - idle paras.1).toNat : ℚ) / ((parasSum2 - parasSum1).toNat : ℚ))

/-- `CalculateUsage` over the rationals. -/
def calculateShare (coreNum : ℕ) (paras : ParasRow × ParasRow) (i : ℕ) :
    Except Fault (List UsageStore) :=
  if i = 0 then .ok [.avgUsage (usageShare paras)]
  else if paras.1.core.toNat < coreNum then
    .ok [.coreUsage paras.1.core.toNat (wrapInt paras.1.core.toNat) (usageShare paras)]
  else .error .overrun

/-- `CPUUsageRead` once both commands have started: its code and what it stores. -/
def cpuUsageShares (coreNum : ℕ) (lines1 lines2 : List Bytes) (staleParas : ParasRow × ParasRow) :
    Except Fault (Int × List UsageStore) :=
  let buf := List.replicate maxStringLen 0
  usageLoop (calculateShare coreNum) (coreNum + 1) 0 lines1 lines2 (buf, buf) staleParas

/-! ## `/proc/stat` -/

/-- The ten counters of a line: user, nice, system, idle and so on. -/
structure StatRow where
  counters : List ℕ
  length_counters : counters.length = 10
  counters_lt : ∀ n ∈ counters, n < 2 ^ 64

/-- Numbers printed with a space in front of each. -/
def spaced (ns : List ℕ) : Bytes := ns.flatMap fun n : ℕ => 32 :: decimal n

/-- A line of `/proc/stat`. -/
def StatRow.line (row : StatRow) (label : Bytes) : Bytes := label ++ spaced row.counters ++ [10]

/-- What two successive readings of `/proc/stat` are like. -/
structure StatPair (coreNum : ℕ) where
  total : StatRow × StatRow
  /-- the cores that are online, with their ids -/
  cores : List (ℕ × StatRow × StatRow)
  /-- what follows behind the cores, cut into lines as `fgets` does -/
  others : List Bytes × List Bytes
  coreNum_lt : coreNum < 2 ^ 31
  cores_lt : ∀ core ∈ cores, core.1 < coreNum
  cores_nodup : (cores.map Prod.fst).Nodup
  /-- this program runs on one -/
  cores_ne : cores ≠ []
  total_le : List.Forall₂ (· ≤ ·) total.1.counters total.2.counters
  cores_le : ∀ core ∈ cores, List.Forall₂ (· ≤ ·) core.2.1.counters core.2.2.counters
  others_spec : ∀ line, line ∈ others.1 ∨ line ∈ others.2 → NotCpu line ∧ ∀ c ∈ line, c ≠ 0

namespace StatPair

variable {coreNum : ℕ} (s : StatPair coreNum)

/-- The label of a core's line. -/
def coreLabel (id : ℕ) : Bytes := text "cpu" ++ decimal id

/-- The lines of the first reading. -/
def lines1 : List Bytes :=
  s.total.1.line (text "cpu ") :: s.cores.map (fun core => core.2.1.line (coreLabel core.1)) ++
    s.others.1

/-- The lines of the second. -/
def lines2 : List Bytes :=
  s.total.2.line (text "cpu ") :: s.cores.map (fun core => core.2.2.line (coreLabel core.1)) ++
    s.others.2

end StatPair

/-! ## A line as `UsageToLong` reads it -/

theorem spaced_cons (n : ℕ) (ns : List ℕ) : spaced (n :: ns) = 32 :: decimal n ++ spaced ns :=
  List.flatMap_cons

theorem digits_ne_space {n : ℕ} {c : UInt8} (h : c ∈ decimal n) : c ≠ 32 ∧ c ≠ 0 := by
  have hdigit := (decimal_digits n).1 c h
  constructor
  · rintro rfl
    exact absurd hdigit (by decide)
  · exact ne_zero_of_isDigit hdigit

theorem decimal_ne_nil (n : ℕ) : decimal n ≠ [] := by
  rw [decimal_natCast, Ne, List.map_eq_nil_iff]
  exact Nat.toDigits_ne_nil

/-- A number does not begin with a 0, unless it is that. -/
theorem decimal_zero_cons {n : ℕ} {rest : Bytes} (h : decimal n = 48 :: rest) : rest = [] := by
  obtain ⟨hdigits, hvalue⟩ := decimal_digits n
  by_contra hne
  have hpos : 0 < rest.length := List.length_pos_iff.mpr hne
  have hrest : ∀ c ∈ rest, isDigit c = true := fun c hc => hdigits c (h ▸ List.mem_cons_of_mem _ hc)
  have hsame : digitsValue (decimal n) = digitsValue rest := by rw [h]; rfl
  have hlt : n < 10 ^ rest.length := hvalue ▸ hsame ▸ digitsValue_lt hrest
  have hlen := length_decimal_le hpos hlt
  rw [h, List.length_cons] at hlen
  omega

theorem digitOf_of_isDigit {c : UInt8} (h : isDigit c = true) : digitOf c = c.toNat - 48 :=
  if_pos h

/-- `strtoul` with any base reads a number as it was printed. -/
theorem strtoul_decimal {n : ℕ} (hn : n < 2 ^ 64) : strtoul (decimal n) 0 = UInt64.ofNat n := by
  obtain ⟨hdigits, hvalue⟩ := decimal_digits n
  obtain ⟨d, ds, hd⟩ := List.exists_cons_of_ne_nil (decimal_ne_nil n)
  by_cases hzero : d = 48
  · -- `0`, which is taken for an octal number
    rw [hzero] at hd
    rw [decimal_zero_cons hd] at hd
    have hn0 : 0 = n := by rw [← hvalue, hd]; rfl
    rw [hd, ← hn0]
    decide
  have hradix : radix 0 (decimal n) = (10, decimal n) := by
    rw [hd, radix, if_neg (not_not.mpr rfl)]
    · exact fun _ _ _ heq => hzero (List.cons.inj heq).1
    · exact fun _ heq => hzero (List.cons.inj heq).1
  have htake : (decimal n).takeWhile (fun c => decide (digitOf c < 10)) = decimal n := by
    rw [List.takeWhile_eq_self_iff]
    intro c hc
    have hdigit := hdigits c hc
    have := isDigit_iff.mp hdigit
    rw [digitOf_of_isDigit hdigit, decide_eq_true_iff]
    omega
  have hfold : (decimal n).foldl (fun n c => n * 10 + digitOf c) 0 = n := by
    refine Eq.trans (List.foldl_ext _ _ 0 fun k c hc => ?_) hvalue
    rw [digitOf_of_isDigit (hdigits c hc)]
  rw [strtoul, dropWhile_digits hdigits, sign_digits hdigits]
  dsimp only
  rw [hradix]
  dsimp only
  rw [htake, hfold, if_neg (not_le.mpr hn), if_neg Bool.false_ne_true]

/-- What begins with a number does not begin with a space. -/
theorem dropWhile_decimal (n : ℕ) (rest : Bytes) :
    (decimal n ++ rest).dropWhile (· = 32) = decimal n ++ rest := by
  obtain ⟨d, ds, hd⟩ := List.exists_cons_of_ne_nil (decimal_ne_nil n)
  have hd32 : d ≠ 32 := (@digits_ne_space n d (hd ▸ List.mem_cons_self)).1
  rw [hd]
  exact List.dropWhile_cons_of_neg (by simpa using hd32)

/-- A token in front of a number. -/
theorem usageToken_number {col : Bytes} (hcol : ∀ c ∈ col, c ≠ 32) (hnul : ∀ c ∈ col, c ≠ 0)
    (n : ℕ) (rest : Bytes) :
    usageToken (col ++ 32 :: (decimal n ++ rest)) = .ok (col, decimal n ++ rest) := by
  have hdrop := dropWhile_decimal n rest
  rw [usageToken_space hcol hnul, hdrop]
  rw [hdrop, Ne, List.append_eq_nil_iff]
  exact fun h => decimal_ne_nil n h.1

/-- The columns of a line, and what is behind them. -/
theorem usageColumns_spaced {k n : ℕ} {ns : List ℕ} (hk : k ≤ ns.length) (past : Bytes)
    (hlt : ∀ m ∈ n :: ns, m < 2 ^ 64) :
    usageColumns k (decimal n ++ (spaced ns ++ past)) =
      .ok (((n :: ns).take k).map UInt64.ofNat) := by
  induction k generalizing n ns with
  | zero => rfl
  | succ k ih =>
    cases ns with
    | nil => cases hk
    | cons m ns =>
      have htoken : usageToken (decimal n ++ (spaced (m :: ns) ++ past)) =
          .ok (decimal n, decimal m ++ (spaced ns ++ past)) := by
        rw [spaced_cons, List.append_assoc]
        exact usageToken_number (fun c hc => (digits_ne_space hc).1)
          (fun c hc => (digits_ne_space hc).2) m _
      rw [usageColumns, htoken, ok_bind]
      dsimp only
      rw [ih (Nat.le_of_succ_le_succ hk) fun j hj => hlt j (List.mem_cons_of_mem _ hj),
        strtoul_decimal (hlt n List.mem_cons_self), ok_bind]
      rfl

/-! ## The lines of a `StatPair` -/

/-- The columns that count: user to softirq. -/
def StatRow.columns (row : StatRow) : List UInt64 :=
  (row.counters.take (cpuUsageColumn - 1)).map UInt64.ofNat

/-- The first of ten counters, and the others. -/
theorem StatRow.exists_counters (row : StatRow) :
    ∃ n ns, row.counters = n :: ns ∧ cpuUsageColumn ≤ ns.length ∧ (∀ m ∈ n :: ns, m < 2 ^ 64) := by
  obtain ⟨n, ns, hcons⟩ := List.exists_cons_of_length_eq_add_one row.length_counters
  have hlen := row.length_counters
  rw [hcons, List.length_cons] at hlen
  exact ⟨n, ns, hcons, by rw [Nat.succ.inj hlen]; decide, hcons ▸ row.counters_lt⟩

/-- The numbers of a line, with whatever is behind them. -/
theorem usageColumns_row (row : StatRow) (past : Bytes) :
    ∃ (n : ℕ) (rest : Bytes) (columns : List UInt64),
      spaced row.counters ++ past = 32 :: (decimal n ++ rest) ∧
        usageColumns cpuUsageColumn (decimal n ++ rest) = .ok columns ∧
          columns.take (cpuUsageColumn - 1) = row.columns := by
  obtain ⟨n, ns, hcons, hlen, hlt⟩ := row.exists_counters
  refine ⟨n, spaced ns ++ past, _, ?_, usageColumns_spaced hlen past hlt, ?_⟩
  · rw [hcons, spaced_cons, List.cons_append, List.cons_append, List.append_assoc]
  · rw [StatRow.columns, hcons, ← List.map_take, List.take_take]
    rfl

/-- The first line. -/
theorem usageToLong_total (row : StatRow) (buf : Bytes) (paras : ParasRow) :
    usageToLong (putString buf (row.line (text "cpu "))) paras 0 =
      .ok (-1, ⟨paras.core, row.columns⟩) := by
  obtain ⟨n, rest, columns, hnums, hcols, htake⟩ :=
    usageColumns_row row ([10] ++ 0 :: buf.drop ((row.line (text "cpu ")).length + 1))
  have hlabel : text "cpu " = text "cpu" ++ [32] := by decide +kernel
  have hbuf : putString buf (row.line (text "cpu ")) =
      text "cpu" ++ 32 :: 32 :: (decimal n ++ rest) := by
    rw [← hnums, putString, StatRow.line]
    nth_rewrite 1 [hlabel]
    simp only [List.append_assoc, List.cons_append, List.nil_append]
  have hspaces : (32 :: (decimal n ++ rest)).dropWhile (· = 32) = decimal n ++ rest := by
    rw [List.dropWhile_cons_of_pos (by simp), dropWhile_decimal]
  have htoken : usageToken (text "cpu" ++ 32 :: 32 :: (decimal n ++ rest)) =
      .ok (text "cpu", decimal n ++ rest) := by
    rw [usageToken_space (by decide +kernel) (by decide +kernel), hspaces]
    rw [hspaces, Ne, List.append_eq_nil_iff]
    exact fun h => decimal_ne_nil n h.1
  rw [hbuf, usageToLong, htoken, ok_bind]
  dsimp only
  rw [if_neg fun h => Nat.lt_irrefl 0 h.1, hcols, ok_bind, htake]
  rfl

/-- The line of a core. -/
theorem usageToLong_core (row : StatRow) {id i : ℕ} (hid : id < 2 ^ 31) (hi : 0 < i) (buf : Bytes)
    (paras : ParasRow) :
    usageToLong (putString buf (row.line (StatPair.coreLabel id))) paras i =
      .ok (id, ⟨UInt64.ofNat id, row.columns⟩) := by
  obtain ⟨n, rest, columns, hnums, hcols, htake⟩ := usageColumns_row row
    ([10] ++ 0 :: buf.drop ((row.line (StatPair.coreLabel id)).length + 1))
  have hbuf : putString buf (row.line (StatPair.coreLabel id)) =
      StatPair.coreLabel id ++ 32 :: (decimal n ++ rest) := by
    rw [← hnums, putString, StatRow.line]
    simp only [List.append_assoc]
  have hlabel : ∀ c ∈ StatPair.coreLabel id, c ≠ 32 ∧ c ≠ 0 := by
    intro c hc
    obtain hc | hc := List.mem_append.mp hc
    · have hcpu : ∀ c ∈ text "cpu", c ≠ 32 ∧ c ≠ 0 := by decide +kernel
      exact hcpu c hc
    · exact digits_ne_space hc
  have hcpu : text "cpu" <:+: StatPair.coreLabel id := (List.prefix_append _ _).isInfix
  have hcore : strtoul (Machine.deleteSubstr (text "cpu") (StatPair.coreLabel id)) 0 =
      UInt64.ofNat id := by
    rw [StatPair.coreLabel, Machine.deleteSubstr_append (by decide +kernel),
      strtoul_decimal (hid.trans (by decide))]
  have hnat : (UInt64.ofNat id).toNat = id := UInt64.toNat_ofNat_of_lt' (hid.trans (by decide))
  rw [hbuf, usageToLong, usageToken_number (fun c hc => (hlabel c hc).1)
    (fun c hc => (hlabel c hc).2), ok_bind]
  dsimp only
  rw [if_neg fun h => h.2 hcpu, hcols, ok_bind, htake, if_pos hi, hcore, if_neg hi.ne', hnat,
    wrapInt_of_int (by omega) (by omega)]
  rfl

/-- A line that is no core's. -/
theorem usageToLong_other {line : Bytes} (hline : NotCpu line ∧ ∀ c ∈ line, c ≠ 0) {i : ℕ}
    (hi : 0 < i) (buf : Bytes) (paras : ParasRow) :
    usageToLong (putString buf line) paras i = .ok (-2, paras) :=
  usageToLong_notCpu hline.2 hline.1 hi _ paras

/-! ## The share of a line -/

/-- How much the seven counters have grown together, as an `unsigned long` has it. -/
def growth (rows : StatRow × StatRow) : ℕ :=
  ((rows.2.counters.take (cpuUsageColumn - 1)).sum -
    (rows.1.counters.take (cpuUsageColumn - 1)).sum) % 2 ^ 64

/-- How much the one for the idle time has grown. -/
def idleGrowth (rows : StatRow × StatRow) : ℕ :=
  rows.2.counters.getD (cpuIdleColumn - 1) 0 - rows.1.counters.getD (cpuIdleColumn - 1) 0

/-- The counters have moved, and not past what an `unsigned long` can tell. -/
def Moved (rows : StatRow × StatRow) : Prop := 0 < growth rows ∧ idleGrowth rows ≤ growth rows

theorem toNat_sum (ns : List ℕ) : (ns.map UInt64.ofNat).sum.toNat = ns.sum % 2 ^ 64 := by
  induction ns with
  | nil => rfl
  | cons n ns ih =>
    rw [List.map_cons, List.sum_cons, List.sum_cons, UInt64.toNat_add, ih, UInt64.toNat_ofNat',
      ← Nat.add_mod]

theorem toNat_sub_of_mod {a b : UInt64} {m n : ℕ} (ha : a.toNat = m % 2 ^ 64)
    (hb : b.toNat = n % 2 ^ 64) (hle : n ≤ m) : (a - b).toNat = (m - n) % 2 ^ 64 := by
  rw [UInt64.toNat_sub, ha, hb]
  omega

/-- Counters that grow one by one grow in sum. -/
theorem sum_take_le {l l' : List ℕ} (h : List.Forall₂ (· ≤ ·) l l') (k : ℕ) :
    (l.take k).sum ≤ (l'.take k).sum := by
  induction h generalizing k with
  | nil => exact le_rfl
  | cons hle _ ih =>
    cases k with
    | zero => exact le_rfl
    | succ k =>
      rw [List.take_succ_cons, List.take_succ_cons, List.sum_cons, List.sum_cons]
      exact Nat.add_le_add hle (ih k)

theorem getD_le {l l' : List ℕ} (h : List.Forall₂ (· ≤ ·) l l') (k : ℕ) :
    l.getD k 0 ≤ l'.getD k 0 := by
  induction h generalizing k with
  | nil => exact le_rfl
  | cons hle _ ih =>
    cases k with
    | zero => exact hle
    | succ k => exact ih k

theorem StatRow.toNat_idle (row : StatRow) :
    (row.columns.getD (cpuIdleColumn - 1) 0).toNat =
      row.counters.getD (cpuIdleColumn - 1) 0 % 2 ^ 64 := by
  obtain ⟨counters, hlen, hlt⟩ := row
  match counters, hlen with
  | [a, b, c, d, e, f, g, h, i, j], _ => exact UInt64.toNat_ofNat'

theorem StatRow.idle_lt (row : StatRow) : row.counters.getD (cpuIdleColumn - 1) 0 < 2 ^ 64 := by
  obtain ⟨counters, hlen, hlt⟩ := row
  match counters, hlen with
  | [a, b, c, d, e, f, g, h, i, j], _ => exact hlt d (by simp)

/-- The share of a line, by how its counters have grown. -/
theorem usageShare_eq {rows : StatRow × StatRow}
    (hle : List.Forall₂ (· ≤ ·) rows.1.counters rows.2.counters) (c1 c2 : UInt64) :
    usageShare (⟨c1, rows.1.columns⟩, ⟨c2, rows.2.columns⟩) =
      if growth rows = 0 then none else some (1 - (idleGrowth rows : ℚ) / (growth rows : ℚ)) := by
  have hsum : (rows.2.columns.sum - rows.1.columns.sum).toNat = growth rows :=
    toNat_sub_of_mod (toNat_sum _) (toNat_sum _) (sum_take_le hle _)
  have hidle : (rows.2.columns.getD (cpuIdleColumn - 1) 0 -
      rows.1.columns.getD (cpuIdleColumn - 1) 0).toNat = idleGrowth rows := by
    rw [toNat_sub_of_mod rows.2.toNat_idle rows.1.toNat_idle (getD_le hle _), idleGrowth]
    have := rows.2.idle_lt
    exact Nat.mod_eq_of_lt (by omega)
  have hzero : rows.2.columns.sum - rows.1.columns.sum = 0 ↔ growth rows = 0 := by
    rw [← hsum, ← UInt64.toNat_zero, UInt64.toNat_inj]
  rw [usageShare]
  dsimp only
  rw [hsum, hidle]
  exact if_congr hzero rfl rfl

/-- It is a number from 0 to 1 exactly if the counters have moved. -/
theorem share_iff_moved {rows : StatRow × StatRow}
    (hle : List.Forall₂ (· ≤ ·) rows.1.counters rows.2.counters) (c1 c2 : UInt64) :
    (∃ u : ℚ, usageShare (⟨c1, rows.1.columns⟩, ⟨c2, rows.2.columns⟩) = some u ∧ 0 ≤ u ∧ u ≤ 1) ↔
      Moved rows := by
  rw [usageShare_eq hle, Moved]
  by_cases hzero : growth rows = 0
  · rw [if_pos hzero]
    exact iff_of_false (by rintro ⟨u, hu, -⟩; cases hu) fun h => h.1.ne' hzero
  · have hpos : 0 < growth rows := Nat.pos_of_ne_zero hzero
    have hposq : (0 : ℚ) < growth rows := Nat.cast_pos.mpr hpos
    rw [if_neg hzero, and_iff_right hpos]
    constructor
    · rintro ⟨u, hu, hlow, -⟩
      rw [← Option.some.inj hu, sub_nonneg, div_le_one hposq, Nat.cast_le] at hlow
      exact hlow
    · intro hidle
      refine ⟨_, rfl, ?_, ?_⟩
      · rw [sub_nonneg, div_le_one hposq, Nat.cast_le]
        exact hidle
      · rw [sub_le_self_iff]
        positivity

/-! ## The run of the loop -/

/-- What is stored for a line behind the first. -/
def coreStore (paras : ParasRow × ParasRow) : UsageStore :=
  .coreUsage paras.1.core.toNat (wrapInt paras.1.core.toNat) (usageShare paras)

/-- `paras` with the two lines of a core in it. -/
def coreRows (core : ℕ × StatRow × StatRow) : ParasRow × ParasRow :=
  (⟨UInt64.ofNat core.1, core.2.1.columns⟩, ⟨UInt64.ofNat core.1, core.2.2.columns⟩)

section Run

variable {coreNum n i : ℕ} {lines1 lines2 : List Bytes} {bufs : Bytes × Bytes}
  {paras : ParasRow × ParasRow}

/-- One turn, with two lines that count as one core's. -/
theorem usageLoop_cons {ω : Type} {store : ParasRow × ParasRow → ℕ → Except Fault (List ω)}
    {line1 line2 : Bytes} {core : Int} {rows : ParasRow × ParasRow} {ws ws' : List ω} {code : Int}
    (h1 : usageToLong (putString bufs.1 line1) paras.1 i = .ok (core, rows.1))
    (h2 : usageToLong (putString bufs.2 line2) paras.2 i = .ok (core, rows.2))
    (hstore : store rows i = .ok ws)
    (hrest : usageLoop store n (i + 1) lines1 lines2
      (putString bufs.1 line1, putString bufs.2 line2)
      rows = .ok (code, ws')) :
    usageLoop store (n + 1) i (line1 :: lines1) (line2 :: lines2) bufs paras =
      .ok (code, ws ++ ws') := by
  obtain ⟨buf1, buf2⟩ := bufs
  obtain ⟨paras1, paras2⟩ := paras
  dsimp only at h1 h2 hrest
  rw [usageLoop]
  dsimp only
  rw [h1, ok_bind]
  dsimp only
  rw [h2, ok_bind]
  dsimp only
  rw [if_neg (not_not.mpr rfl), hstore, ok_bind, hrest]
  rfl

theorem calculateShare_core (hi : 0 < i) (hcore : paras.1.core.toNat < coreNum) :
    calculateShare coreNum paras i = .ok [coreStore paras] := by
  rw [calculateShare, if_neg hi.ne', if_pos hcore]
  rfl

/-- Lines of no core: the usage that was worked out last is stored again and again. -/
theorem usageLoop_others (hi : 0 < i) (hcore : paras.1.core.toNat < coreNum)
    (hother : ∀ line, line ∈ lines1 ∨ line ∈ lines2 → NotCpu line ∧ ∀ c ∈ line, c ≠ 0) :
    ∃ code ws, usageLoop (calculateShare coreNum) n i lines1 lines2 bufs paras = .ok (code, ws) ∧
      (code = RtnCode.success.code ↔ n ≤ lines1.length ∧ n ≤ lines2.length) ∧
      ∀ w ∈ ws, w = coreStore paras := by
  induction n generalizing i lines1 lines2 bufs with
  | zero =>
    refine ⟨_, [], ?_, iff_of_true rfl ⟨Nat.zero_le _, Nat.zero_le _⟩, nofun⟩
    rw [usageLoop]
    rfl
  | succ n ih =>
    cases lines1 with
    | nil =>
      refine ⟨RtnCode.errCommon.code, [], ?_, iff_of_false (by decide) fun h => ?_, nofun⟩
      · rw [usageLoop]
        rfl
      · exact Nat.not_succ_le_zero n h.1
    | cons line1 lines1 =>
      cases lines2 with
      | nil =>
        refine ⟨RtnCode.errCommon.code, [], ?_, iff_of_false (by decide) fun h => ?_, nofun⟩
        · rw [usageLoop]
          rfl
        · exact Nat.not_succ_le_zero n h.2
      | cons line2 lines2 =>
        have hrest : ∀ line, line ∈ lines1 ∨ line ∈ lines2 → NotCpu line ∧ ∀ c ∈ line, c ≠ 0 :=
          fun line h => hother line (h.imp (List.mem_cons_of_mem _) (List.mem_cons_of_mem _))
        obtain ⟨code, ws, heq, hcode, hws⟩ :=
          @ih (i + 1) lines1 lines2 (putString bufs.1 line1, putString bufs.2 line2)
            (Nat.succ_pos i) hrest
        refine ⟨code, _, usageLoop_cons
          (usageToLong_other (hother line1 (.inl List.mem_cons_self)) hi _ _)
          (usageToLong_other (hother line2 (.inr List.mem_cons_self)) hi _ _)
          (calculateShare_core hi hcore) heq, ?_, ?_⟩
        · rw [hcode, List.length_cons, List.length_cons, Nat.succ_le_succ_iff, Nat.succ_le_succ_iff]
        · rw [List.forall_mem_append, List.forall_mem_singleton]
          exact ⟨rfl, hws⟩

theorem toNat_coreRows {core : ℕ × StatRow × StatRow} (hcore : core.1 < 2 ^ 31) :
    (coreRows core).1.core.toNat = core.1 :=
  UInt64.toNat_ofNat_of_lt' (hcore.trans (by decide))

/-- The lines of cores, and lines of no core behind them. -/
theorem usageLoop_cores {cores : List (ℕ × StatRow × StatRow)} (hi : 0 < i)
    (hint : coreNum < 2 ^ 31) (hlt : ∀ core ∈ cores, core.1 < coreNum)
    (hcore : cores = [] → paras.1.core.toNat < coreNum)
    (hother : ∀ line, line ∈ lines1 ∨ line ∈ lines2 → NotCpu line ∧ ∀ c ∈ line, c ≠ 0) :
    ∃ code ws, usageLoop (calculateShare coreNum) (cores.length + n) i
        (cores.map (fun core => core.2.1.line (StatPair.coreLabel core.1)) ++ lines1)
        (cores.map (fun core => core.2.2.line (StatPair.coreLabel core.1)) ++ lines2) bufs paras =
      .ok (code, cores.map (fun core => coreStore (coreRows core)) ++ ws) ∧
      (code = RtnCode.success.code ↔ n ≤ lines1.length ∧ n ≤ lines2.length) ∧
      ∀ w ∈ ws, w = coreStore ((cores.map coreRows).getLastD paras) := by
  induction cores generalizing i bufs paras with
  | nil =>
    rw [List.length_nil, Nat.zero_add]
    exact usageLoop_others hi (hcore rfl) hother
  | cons core cores ih =>
    have hid : core.1 < coreNum := hlt core List.mem_cons_self
    have hnat := toNat_coreRows (hid.trans hint)
    obtain ⟨code, ws, heq, hcode, hws⟩ := @ih (i + 1)
      (putString bufs.1 (core.2.1.line (StatPair.coreLabel core.1)),
        putString bufs.2 (core.2.2.line (StatPair.coreLabel core.1))) (coreRows core)
      (Nat.succ_pos i) (fun c hc => hlt c (List.mem_cons_of_mem _ hc)) (fun _ => hnat ▸ hid)
    have hlength : (core :: cores).length + n = cores.length + n + 1 := by
      rw [List.length_cons]
      omega
    refine ⟨code, ws, ?_, hcode, ?_⟩
    · rw [hlength, List.map_cons, List.map_cons, List.map_cons, List.cons_append, List.cons_append,
        List.cons_append]
      exact usageLoop_cons (usageToLong_core core.2.1 (hid.trans hint) hi _ _)
        (usageToLong_core core.2.2 (hid.trans hint) hi _ _)
        (calculateShare_core hi (hnat ▸ hid)) heq
    · rw [List.map_cons, List.getLastD_cons]
      exact hws

end Run

namespace StatPair

variable {coreNum : ℕ} (s : StatPair coreNum)

/-- `paras` with the two first lines in it, and what was there before. -/
def totalRows (staleParas : ParasRow × ParasRow) : ParasRow × ParasRow :=
  (⟨staleParas.1.core, s.total.1.columns⟩, ⟨staleParas.2.core, s.total.2.columns⟩)

/-- What is stored for the cores that are online. -/
def stores : List UsageStore := s.cores.map fun core => coreStore (coreRows core)

/-- As many lines behind the cores as there are cores that are not online. -/
def Enough : Prop :=
  coreNum - s.cores.length ≤ s.others.1.length ∧ coreNum - s.cores.length ≤ s.others.2.length

/-- There are no more cores online than configured. -/
theorem length_cores_le : s.cores.length ≤ coreNum := by
  have hsub : s.cores.map Prod.fst ⊆ List.range coreNum := by
    intro id hid
    obtain ⟨core, hcore, rfl⟩ := List.mem_map.mp hid
    exact List.mem_range.mpr (s.cores_lt core hcore)
  have hle := (s.cores_nodup.subperm hsub).length_le
  rwa [List.length_map, List.length_range] at hle

/-- What `CPUUsageRead` stores: the sum's usage, each core's that is online, and for each
that is not, the last one's again. -/
theorem shares_run (staleParas : ParasRow × ParasRow) :
    ∃ code ws, cpuUsageShares coreNum s.lines1 s.lines2 staleParas =
        .ok (code, .avgUsage (usageShare (s.totalRows staleParas)) :: (s.stores ++ ws)) ∧
      (code = RtnCode.success.code ↔ s.Enough) ∧ ∀ w ∈ ws, w ∈ s.stores := by
  have hle := s.length_cores_le
  have hturns : coreNum = s.cores.length + (coreNum - s.cores.length) := by omega
  obtain ⟨code, ws, heq, hcode, hws⟩ := @usageLoop_cores coreNum (coreNum - s.cores.length) 1
    s.others.1 s.others.2 (putString (List.replicate maxStringLen 0) (s.total.1.line (text "cpu ")),
      putString (List.replicate maxStringLen 0) (s.total.2.line (text "cpu ")))
    (s.totalRows staleParas) s.cores Nat.one_pos s.coreNum_lt s.cores_lt
    (fun hnil => absurd hnil s.cores_ne) s.others_spec
  rw [← hturns] at heq
  refine ⟨code, ws, ?_, hcode, fun w hw => ?_⟩
  · rw [cpuUsageShares, lines1, lines2]
    exact @usageLoop_cons coreNum 0 _ _
      (List.replicate maxStringLen 0, List.replicate maxStringLen 0) staleParas _ _ _ _ _ _ _ _ _
      (usageToLong_total _ _ _) (usageToLong_total _ _ _) (if_pos rfl) heq
  · have hne : s.cores.map coreRows ≠ [] := fun h => s.cores_ne (List.map_eq_nil_iff.mp h)
    rw [hws w hw, List.getLastD_eq_getLast?, List.getLast?_eq_some_getLast hne, Option.getD_some]
    obtain ⟨core, hcore, heq⟩ := List.mem_map.mp (List.getLast_mem hne)
    rw [← heq]
    exact List.mem_map.mpr ⟨core, hcore, rfl⟩

end StatPair

/-! ## When the result is well formed -/

/-- What a caller goes by: each element of `coreUsage` is there, and is that of one core;
the sum and each core have a usage from 0 to 1. -/
structure UsageWellFormed (coreNum : ℕ) (ws : List UsageStore) : Prop where
  written : ∀ idx < coreNum, ∃ coreNo usage, .coreUsage idx coreNo usage ∈ ws
  distinct : ∀ idx idx' coreNo usage usage', .coreUsage idx coreNo usage ∈ ws →
    .coreUsage idx' coreNo usage' ∈ ws → idx = idx'
  avg : ∃ usage, .avgUsage usage ∈ ws
  shares : ∀ w ∈ ws, ∃ u : ℚ, w.usage = some u ∧ 0 ≤ u ∧ u ≤ 1

namespace StatPair

variable {coreNum : ℕ} (s : StatPair coreNum)

/-- After `SUCCESS` the result is well formed. -/
def Measured (staleParas : ParasRow × ParasRow) : Prop :=
  ∀ ws, cpuUsageShares coreNum s.lines1 s.lines2 staleParas = .ok (RtnCode.success.code, ws) →
    UsageWellFormed coreNum ws

/-- The counters of every line have moved. -/
def AllMoved : Prop := Moved s.total ∧ ∀ core ∈ s.cores, Moved core.2

variable {s}

/-- Of the cores, those are stored that are online. -/
theorem mem_stores {w : UsageStore} : w ∈ s.stores ↔
    ∃ core ∈ s.cores, w = .coreUsage core.1 core.1 (usageShare (coreRows core)) := by
  rw [stores, List.mem_map]
  refine exists_congr fun core => and_congr_right fun hcore => ?_
  have hlt := (s.cores_lt core hcore).trans s.coreNum_lt
  rw [coreStore, toNat_coreRows hlt, wrapInt_of_int (by omega) (by omega)]
  exact eq_comm

/-- What is stored in all, beside the sum's usage. -/
theorem mem_result {ws : List UsageStore} (staleParas : ParasRow × ParasRow)
    (hws : ∀ w ∈ ws, w ∈ s.stores) {w : UsageStore} :
    w ∈ .avgUsage (usageShare (s.totalRows staleParas)) :: (s.stores ++ ws) ↔
      w = .avgUsage (usageShare (s.totalRows staleParas)) ∨ w ∈ s.stores := by
  rw [List.mem_cons, List.mem_append]
  exact or_congr_right ⟨fun h => h.elim id (hws w), .inl⟩

/-- All configured cores are online if each has an element. -/
theorem all_online_iff :
    (∀ idx < coreNum, idx ∈ s.cores.map Prod.fst) ↔ s.cores.length = coreNum := by
  have hids : (s.cores.map Prod.fst).length = s.cores.length := List.length_map ..
  constructor
  · intro hall
    have hsub : List.range coreNum ⊆ s.cores.map Prod.fst := fun idx hidx =>
      hall idx (List.mem_range.mp hidx)
    have hle := (List.nodup_range.subperm hsub).length_le
    rw [List.length_range, hids] at hle
    exact le_antisymm s.length_cores_le hle
  · intro hlen idx hidx
    have hsub : s.cores.map Prod.fst ⊆ List.range coreNum := by
      intro id hid
      obtain ⟨core, hcore, rfl⟩ := List.mem_map.mp hid
      exact List.mem_range.mpr (s.cores_lt core hcore)
    have hperm := (s.cores_nodup.subperm hsub).perm_of_length_le
      (by rw [List.length_range, hids, hlen])
    exact hperm.mem_iff.mpr (List.mem_range.mpr hidx)

/-- The usages that are stored are numbers from 0 to 1 if the counters have moved. -/
theorem shares_iff (staleParas : ParasRow × ParasRow) :
    (∀ w, w = .avgUsage (usageShare (s.totalRows staleParas)) ∨ w ∈ s.stores →
      ∃ u : ℚ, w.usage = some u ∧ 0 ≤ u ∧ u ≤ 1) ↔ s.AllMoved := by
  constructor
  · intro h
    refine ⟨(share_iff_moved s.total_le _ _).mp (h _ (.inl rfl)), fun core hcore => ?_⟩
    exact (share_iff_moved (s.cores_le core hcore) _ _).mp
      (h _ (.inr (mem_stores.mpr ⟨core, hcore, rfl⟩)))
  · rintro ⟨htotal, hcores⟩ w (rfl | hw)
    · exact (share_iff_moved s.total_le _ _).mpr htotal
    · obtain ⟨core, hcore, rfl⟩ := mem_stores.mp hw
      exact (share_iff_moved (s.cores_le core hcore) _ _).mpr (hcores core hcore)

theorem usageWellFormed_iff {ws : List UsageStore} (staleParas : ParasRow × ParasRow)
    (hws : ∀ w ∈ ws, w ∈ s.stores) :
    UsageWellFormed coreNum (.avgUsage (usageShare (s.totalRows staleParas)) :: (s.stores ++ ws)) ↔
      s.cores.length = coreNum ∧ s.AllMoved := by
  have hmem := fun w => @mem_result coreNum s ws staleParas hws w
  generalize
    UsageStore.avgUsage (usageShare (s.totalRows staleParas)) :: (s.stores ++ ws) = l at hmem ⊢
  have hcore : ∀ {idx coreNo usage}, .coreUsage idx coreNo usage ∈ l ↔
      ∃ core ∈ s.cores, UsageStore.coreUsage idx coreNo usage =
        .coreUsage core.1 core.1 (usageShare (coreRows core)) := fun {idx coreNo usage} => by
    rw [hmem, or_iff_right nofun, mem_stores]
  rw [← shares_iff staleParas, ← all_online_iff]
  constructor
  · intro h
    refine ⟨fun idx hidx => ?_, fun w hw => h.shares w ((hmem w).mpr hw)⟩
    obtain ⟨coreNo, usage, hstore⟩ := h.written idx hidx
    obtain ⟨core, hin, heq⟩ := hcore.mp hstore
    cases heq
    exact List.mem_map.mpr ⟨core, hin, rfl⟩
  · rintro ⟨hall, hshares⟩
    refine ⟨fun idx hidx => ?_, ?_, ⟨_, (hmem _).mpr (.inl rfl)⟩,
      fun w hw => hshares w ((hmem w).mp hw)⟩
    · obtain ⟨core, hin, rfl⟩ := List.mem_map.mp (hall idx hidx)
      exact ⟨_, _, hcore.mpr ⟨core, hin, rfl⟩⟩
    · intro idx idx' coreNo usage usage' h h'
      obtain ⟨core, -, heq⟩ := hcore.mp h
      obtain ⟨core', -, heq'⟩ := hcore.mp h'
      cases heq
      injection heq' with hidx hno
      rw [hidx]
      exact Int.ofNat_inj.mp hno

/-- A call that succeeds is well formed only if the machine is as `GetCpuUsage` takes it to be. -/
theorem enough_of_measured {staleParas : ParasRow × ParasRow} (h : s.Measured staleParas)
    (henough : s.Enough) : s.cores.length = coreNum ∧ s.AllMoved := by
  obtain ⟨code, ws, heq, hcode, hws⟩ := s.shares_run staleParas
  refine (usageWellFormed_iff staleParas hws).mp (h _ ?_)
  rw [heq, hcode.mpr henough]

end StatPair

/-- **CPU usage is well formed** exactly if each configured core is online and the counters
of each line have moved, or the lines do not suffice and the call fails. -/
theorem usage_wellFormed_iff {coreNum : ℕ} (s : StatPair coreNum)
    (staleParas : ParasRow × ParasRow) :
    s.Measured staleParas ↔ ¬ s.Enough ∨ (s.cores.length = coreNum ∧ s.AllMoved) := by
  refine ⟨fun h => or_iff_not_imp_left.mpr fun henough =>
    StatPair.enough_of_measured h (not_not.mp henough), fun h ws' heq' => ?_⟩
  obtain ⟨code, ws, heq, hcode, hws⟩ := s.shares_run staleParas
  obtain ⟨rfl, rfl⟩ := Prod.mk.inj (Except.ok.inj (heq.symm.trans heq'))
  exact (StatPair.usageWellFormed_iff staleParas hws).mpr
    (h.resolve_left (not_not.mpr (hcode.mp rfl)))

/-- A line with nothing but user time in it. -/
def userTime (n : Fin 3) : StatRow where
  counters := n :: List.replicate 9 0
  length_counters := rfl
  counters_lt := by
    intro m hm
    obtain rfl | hm := List.mem_cons.mp hm
    · omega
    · rw [List.eq_of_mem_replicate hm]
      decide

/-- Of two cores the second is not online. -/
def oneOffline : StatPair 2 where
  total := (userTime 1, userTime 2)
  cores := [(0, userTime 1, userTime 2)]
  others := ([text "intr 1 2\n"], [text "intr 1 2\n"])
  coreNum_lt := by decide
  cores_lt := by decide
  cores_nodup := List.nodup_singleton 0
  cores_ne := nofun
  total_le := by decide
  cores_le := by decide
  others_spec := by
    rintro line hline
    rw [List.mem_singleton, or_self] at hline
    rw [hline]
    exact ⟨⟨by decide +kernel, by decide +kernel⟩, by decide +kernel⟩

/-- Its element of `coreUsage` is left as it was, and `CPUUsageRead` succeeds. -/
theorem oneOffline_not_measured : ¬ oneOffline.Measured (⟨0, []⟩, ⟨0, []⟩) := by
  intro h
  exact absurd (StatPair.enough_of_measured h ⟨by decide, by decide⟩).1 (by decide)

end PowerApi
