import PowerApi.Settings
import PowerApi.ReadBuffer

/-!
# The frequency range that is set and read back (`FreqRangeSet`, `FreqRangeRead`)

`FreqRangeSet` multiplies the bounds by 1000, as `int`s, and writes them to the files of
all policies; `FreqRangeRead` reads those of `policy0` into one buffer, and divides.
The bounds come back if they fit an `int` in kHz and nothing of the first text is left
behind the second: `RangeFits`. That no digits which are left behind can make up a number
that is right again is `stale_ne`.
-/

namespace PowerApi

open Bytes MemoryBlock KeyStore

/-- The host when the attribute files hold what was last written to them, and a newline. -/
def Host.holding (host : Host) (files : Files) : Host :=
  { host with file := fun path => (files path).map (· ++ [10]) }

/-- What a client finds in the data of `FreqRangeRead`, and its code. -/
def rangeBack (host : Host) (rstData : ℕ → UInt8) : Int × Int × Int :=
  ((freqRangeRead host).1,
    Machine.freqRangeOf (contents sizeofFreqRange (fill (freqRangeRead host).2 rstData)))

/-- A file of `policy0`. -/
def policy0File (file : String) : Bytes := Machine.policyFile (text "policy0") (text file)

/-! ## Numbers in kHz -/

/-- A result that is too large by a multiple of 2^32. -/
theorem wrapInt_turns (n : Int) : ∃ q : Int, n = wrapInt n + 2 ^ 32 * q :=
  ⟨n.bdiv (2 ^ 32), (Int.bmod_add_bdiv n (2 ^ 32)).symm⟩

/-- The frequencies that are still `int`s in kHz. -/
def FitsInt (freq : Int) : Prop := -2147483 ≤ freq ∧ freq ≤ 2147483

/-- Division in C goes towards zero. -/
theorem tdiv_cases (n : Int) : (0 ≤ n ∧ n.tdiv thousand = n / 1000) ∨
    (n < 0 ∧ n.tdiv thousand = -(-n / 1000)) := by
  rcases lt_or_ge n 0 with hneg | hpos
  · refine .inr ⟨hneg, ?_⟩
    rw [← neg_neg n, Int.neg_tdiv, Int.tdiv_eq_ediv_of_nonneg (by omega), neg_neg]
    rfl
  · exact .inl ⟨hpos, Int.tdiv_eq_ediv_of_nonneg hpos⟩

theorem fitsInt_tdiv {n : Int} (hlo : -2 ^ 31 ≤ n) (hhi : n < 2 ^ 31) :
    FitsInt (n.tdiv thousand) := by
  rcases tdiv_cases n with ⟨hn, hdiv⟩ | ⟨hn, hdiv⟩ <;> rw [hdiv] <;> constructor <;> omega

theorem fitsInt_atoi (str : Bytes) : FitsInt ((atoi str).tdiv thousand) :=
  fitsInt_tdiv (wrapInt_bounds _).1 (wrapInt_bounds _).2

theorem wrapInt_thousand {freq : Int} (h : FitsInt freq) :
    wrapInt (freq * thousand) = freq * thousand := by
  unfold FitsInt at h
  unfold thousand
  exact wrapInt_of_int (by omega) (by omega)

/-- A frequency goes to its file and back. -/
theorem freq_back_iff (freq : Int) :
    (atoi (decimal (wrapInt (freq * thousand)))).tdiv thousand = freq ↔ FitsInt freq := by
  obtain ⟨hlo, hhi⟩ := wrapInt_bounds (freq * thousand)
  rw [atoi_decimal_int hlo hhi]
  constructor
  · intro h
    rw [← h]
    exact fitsInt_tdiv hlo hhi
  · intro hfits
    rw [wrapInt_thousand hfits]
    exact Int.mul_tdiv_cancel freq (by decide)

/-- The digits at the end of a number. -/
theorem digitsValue_drop {digits : Bytes} (h : ∀ c ∈ digits, isDigit c = true) (j : ℕ) :
    digitsValue (digits.drop j) = digitsValue digits % 10 ^ (digits.length - j) := by
  have hlt := @digitsValue_lt (digits.drop j) fun c hc => h c (List.mem_of_mem_drop hc)
  have happ := digitsValue_append (digits.take j) (digits.drop j)
  rw [List.take_append_drop] at happ
  rw [List.length_drop] at hlt happ
  rw [happ, Nat.mul_add_mod_of_lt hlt]


theorem digits_stale {digits : Bytes} (hdigits : ∀ c ∈ digits, isDigit c = true) (n j : ℕ) :
    ∀ c ∈ decimal n ++ digits.drop j, isDigit c = true := by
  intro c hc
  rcases List.mem_append.mp hc with hmem | hmem
  · exact (decimal_digits n).1 c hmem
  · exact hdigits c (List.mem_of_mem_drop hmem)

/-- With digits of a longer number behind it no positive frequency comes back. -/
theorem stale_ne {freq n : ℕ} {digits : Bytes} (hfreq : 0 < freq)
    (hdigits : ∀ c ∈ digits, isDigit c = true) (hvalue : digitsValue digits = n * 1000)
    {j : ℕ} (hj : (decimal (freq * 1000 : ℕ)).length ≤ j) (hlt : j < digits.length)
    (hlen : digits.length ≤ 10) :
    (wrapInt (digitsValue (decimal (freq * 1000 : ℕ) ++ digits.drop j))).tdiv thousand ≠ freq ∧
      digitsValue (decimal (freq * 1000 : ℕ) ++ digits.drop j) / 1000 ≠ freq := by
  obtain ⟨hd, hv⟩ := decimal_digits (freq * 1000)
  have hbound := (digitsValue_lt (digits_stale hdigits (freq * 1000) j)).trans_le
    (Nat.pow_le_pow_right (by decide)
      (show _ ≤ 10 by rw [List.length_append, List.length_drop]; omega))
  rw [digitsValue_append, hv, digitsValue_drop hdigits, hvalue, List.length_drop] at hbound ⊢
  -- a thousand has four digits, so that there are at most six behind it
  have hfour : 4 ≤ (decimal (freq * 1000 : ℕ)).length := by
    by_contra hshort
    have hpow := Nat.pow_le_pow_right (show 0 < 10 by decide)
      (show (decimal (freq * 1000 : ℕ)).length ≤ 3 by omega)
    have := (digitsValue_lt hd).trans_le hpow
    omega
  have hk : digits.length - j ≤ 6 := by omega
  have hpos : 1 ≤ digits.length - j := by omega
  generalize digits.length - j = k at hk hpos hbound ⊢
  constructor
  · obtain ⟨q, hq⟩ := wrapInt_turns ((freq * 1000 * 10 ^ k + n * 1000 % 10 ^ k : ℕ) : Int)
    obtain ⟨hlo, hhi⟩ := wrapInt_bounds ((freq * 1000 * 10 ^ k + n * 1000 % 10 ^ k : ℕ) : Int)
    generalize wrapInt ((freq * 1000 * 10 ^ k + n * 1000 % 10 ^ k : ℕ) : Int) = r at *
    rcases tdiv_cases r with ⟨hsign, hdiv⟩ | ⟨hsign, hdiv⟩
    · rw [hdiv]
      have hq0 : 0 ≤ q := by omega
      have hq2 : q ≤ 2 := by omega
      interval_cases q <;> interval_cases k <;> omega
    · have hneg : 0 ≤ -r / 1000 := Int.ediv_nonneg (by omega) (by decide)
      rw [hdiv]
      clear hbound hq
      omega
  · have hten : 10 ≤ 10 ^ k := Nat.le_self_pow (by omega) 10
    have hmul : freq * 1000 * 10 ≤ freq * 1000 * 10 ^ k := Nat.mul_le_mul_left _ hten
    generalize freq * 1000 * 10 ^ k = x at *
    generalize n * 1000 % 10 ^ k = y at *
    omega

theorem stale_pos {freq n : ℕ} {digits : Bytes} (hfreq : 0 < freq)
    (hdigits : ∀ c ∈ digits, isDigit c = true) (hvalue : digitsValue digits = n * 1000)
    {j : ℕ} (hj : (decimal (freq * 1000 : ℕ)).length ≤ j) (hlt : j < digits.length)
    (hlen : digits.length ≤ 10) :
    (atoi (decimal (freq * 1000 : ℕ) ++ digits.drop j)).tdiv thousand ≠ freq := by
  have hall := digits_stale hdigits (freq * 1000) j
  have hbound := (digitsValue_lt hall).trans_le (Nat.pow_le_pow_right (by decide)
    (show _ ≤ 10 by rw [List.length_append, List.length_drop]; omega))
  rw [atoi, strtol_digits hall, min_eq_right (by omega)]
  exact (stale_ne hfreq hdigits hvalue hj hlt hlen).1

theorem stale_neg {freq n : ℕ} {digits : Bytes} (hfreq : 0 < freq)
    (hdigits : ∀ c ∈ digits, isDigit c = true) (hvalue : digitsValue digits = n * 1000)
    {j : ℕ} (hj : (decimal (freq * 1000 : ℕ)).length + 1 ≤ j) (hlt : j < digits.length)
    (hlen : digits.length ≤ 10) :
    (atoi (45 :: (decimal (freq * 1000 : ℕ) ++ digits.drop j))).tdiv thousand ≠ -(freq : Int) := by
  have hall := digits_stale hdigits (freq * 1000) j
  -- the sign takes the place of a digit
  have hbound := (digitsValue_lt hall).trans_le (Nat.pow_le_pow_right (by decide)
    (show _ ≤ 9 by rw [List.length_append, List.length_drop]; omega))
  have hne := (stale_ne hfreq hdigits hvalue (by omega) hlt hlen).2
  rw [atoi, strtol_minus hall, max_eq_right (by omega), wrapInt_of_int (by omega) (by omega),
    Int.neg_tdiv, Int.tdiv_eq_ediv_of_nonneg (by omega)]
  unfold thousand
  omega

/-- Behind a zero the digits that are left stand for themselves. -/
theorem stale_zero {digits : Bytes} (hdigits : ∀ c ∈ digits, isDigit c = true) {j : ℕ}
    (hj : 1 ≤ j) (hlen : digits.length ≤ 10) :
    (atoi ([48] ++ digits.drop j)).tdiv thousand = 0 ↔ digitsValue (digits.drop j) < 1000 := by
  have htail : ∀ c ∈ digits.drop j, isDigit c = true := fun c hc =>
    hdigits c (List.mem_of_mem_drop hc)
  have hall : ∀ c ∈ [48] ++ digits.drop j, isDigit c = true :=
    List.forall_mem_cons.mpr ⟨by decide, htail⟩
  have hvalue : digitsValue ([48] ++ digits.drop j) = digitsValue (digits.drop j) := by
    rw [digitsValue_append]
    exact (congrArg (· + _) (Nat.zero_mul _)).trans (Nat.zero_add _)
  have hbound := (digitsValue_lt htail).trans_le (Nat.pow_le_pow_right (by decide)
    (show _ ≤ 9 by rw [List.length_drop]; omega))
  rw [atoi_digits hall (by omega), hvalue, Int.tdiv_eq_ediv_of_nonneg (by omega)]
  unfold thousand
  omega

/-- The text of the lower bound leaves nothing behind that of the upper one, or only zeros
that stand for less than 1 MHz. -/
def TextsFit (minFreq maxFreq : Int) : Prop :=
  (decimal (minFreq * thousand)).length ≤ (decimal (maxFreq * thousand)).length + 1 ∨
    maxFreq = 0 ∧ digitsValue ((decimal (minFreq * thousand)).drop 2) < 1000

/-- Behind its first character a number has digits only. -/
theorem decimal_drop {minFreq : Int} {l : ℕ} (h : l + 1 < (decimal (minFreq * thousand)).length) :
    ∃ j, l ≤ j ∧ j < (decimal (minFreq.natAbs * 1000 : ℕ)).length ∧
      (decimal (minFreq * thousand)).drop (l + 1) =
        (decimal (minFreq.natAbs * 1000 : ℕ)).drop j := by
  have habs : (minFreq * thousand).natAbs = minFreq.natAbs * 1000 := Int.natAbs_mul ..
  obtain ⟨-, hdec⟩ | ⟨-, hdec⟩ := decimal_cases (minFreq * thousand)
  · rw [hdec, habs] at h ⊢
    exact ⟨l + 1, Nat.le_succ l, h, rfl⟩
  · rw [hdec, habs] at h ⊢
    rw [List.length_cons] at h
    exact ⟨l, le_rfl, by omega, rfl⟩

theorem maxFreq_back_iff {minFreq maxFreq : Int} (hmin : FitsInt minFreq) :
    (atoi (leftOver (decimal (minFreq * thousand))
      (decimal (wrapInt (maxFreq * thousand))))).tdiv thousand = maxFreq ↔
      FitsInt maxFreq ∧ TextsFit minFreq maxFreq := by
  by_cases hmax : FitsInt maxFreq
  · have hwrap := wrapInt_thousand hmax
    rw [and_iff_right hmax, hwrap]
    rcases le_or_gt (decimal (minFreq * thousand)).length
      ((decimal (maxFreq * thousand)).length + 1) with hle | hgt
    · rw [leftOver_eq_self hle, ← hwrap]
      exact iff_of_true ((freq_back_iff maxFreq).mpr hmax) (.inl hle)
    rw [TextsFit, or_iff_right (Nat.not_le.mpr hgt)]
    obtain ⟨hdigits, hvalue⟩ := decimal_digits (minFreq.natAbs * 1000)
    have hlen : (decimal (minFreq.natAbs * 1000 : ℕ)).length ≤ 10 :=
      length_decimal_le (by decide) (by unfold FitsInt at hmin; omega)
    obtain ⟨j, hj, hlt, hdrop⟩ := decimal_drop hgt
    have habs : (maxFreq * thousand).natAbs = maxFreq.natAbs * 1000 := Int.natAbs_mul ..
    rw [leftOver, hdrop]
    rcases lt_trichotomy maxFreq 0 with hneg | rfl | hpos
    · obtain ⟨hsign, -⟩ | ⟨-, hdec⟩ := decimal_cases (maxFreq * thousand)
      · unfold thousand at hsign
        omega
      rw [hdec, habs, List.length_cons] at hj
      rw [hdec, habs, List.cons_append]
      refine iff_of_false (fun h => ?_) fun h => hneg.ne h.1
      refine stale_neg (Int.natAbs_pos.mpr hneg.ne) hdigits hvalue hj hlt hlen (h.trans ?_)
      omega
    · have hzero : decimal ((0 : Int) * thousand) = [48] := by decide +kernel
      rw [hzero] at hdrop hj ⊢
      have htail : (decimal (minFreq * thousand)).drop 2 =
        (decimal (minFreq.natAbs * 1000 : ℕ)).drop j := hdrop
      rw [and_iff_right rfl, htail]
      exact stale_zero hdigits hj hlen
    · obtain ⟨-, hdec⟩ | ⟨hsign, -⟩ := decimal_cases (maxFreq * thousand)
      · rw [hdec, habs] at hj ⊢
        refine iff_of_false (fun h => ?_) fun h => hpos.ne' h.1
        refine stale_pos (Int.natAbs_pos.mpr hpos.ne') hdigits hvalue hj hlt hlen (h.trans ?_)
        omega
      · unfold thousand at hsign
        omega
  · refine iff_of_false (fun h => hmax ?_) fun h => hmax h.1
    rw [← h]
    exact fitsInt_atoi _
/-- The bounds that come back. -/
structure RangeFits (minFreq maxFreq : Int) : Prop where
  minFits : FitsInt minFreq
  maxFits : FitsInt maxFreq
  texts : TextsFit minFreq maxFreq

/-! ## What is written -/

namespace Machine

variable {m : Machine} {up : ℕ → Bool} {files files' : Files}

/-- What one of the loops writes. -/
def rangeWrites (file : Bytes) (freq : Int) (policys : List Bytes) : List (Bytes × Bytes) :=
  policys.map fun policy => (policyFile policy file, decimal (wrapInt (freq * thousand)))

theorem lastPut_rangeWrites {file policy : Bytes} (freq : Int) {policys : List Bytes}
    (h : policy ∈ policys) :
    lastPut (policyFile policy file) (rangeWrites file freq policys) =
      some (decimal (wrapInt (freq * thousand))) := by
  refine lastPut_eq_some (List.mem_map.mpr ⟨policy, h, rfl⟩) fun w hw _ => ?_
  obtain ⟨policy', -, rfl⟩ := List.mem_map.mp hw
  rfl

/-- The other loop writes other files. -/
theorem lastPut_rangeWrites_ne {file file' : Bytes} (hne : file ≠ file')
    (hlen : file.length = file'.length) (policy : Bytes) (freq : Int) (policys : List Bytes) :
    lastPut (policyFile policy file) (rangeWrites file' freq policys) = none := by
  refine lastPut_eq_none fun w hw heq => ?_
  obtain ⟨policy', -, rfl⟩ := List.mem_map.mp hw
  exact hne (List.append_inj_right' heq hlen.symm).symm

theorem lastPut_min {policys : List Bytes} (h : text "policy0" ∈ policys) (minFreq maxFreq : Int) :
    lastPut (policy0File "/scaling_min_freq") (rangeWrites (text "/scaling_min_freq") minFreq policys ++
        rangeWrites (text "/scaling_max_freq") maxFreq policys) =
      some (decimal (wrapInt (minFreq * thousand))) := by
  have hne : text "/scaling_min_freq" ≠ text "/scaling_max_freq" := by decide +kernel
  have hlen : (text "/scaling_min_freq").length = (text "/scaling_max_freq").length := by
    decide +kernel
  rw [lastPut_append, policy0File, lastPut_rangeWrites_ne hne hlen, lastPut_rangeWrites _ h]
  rfl

theorem lastPut_max {policys : List Bytes} (h : text "policy0" ∈ policys) (minFreq maxFreq : Int) :
    lastPut (policy0File "/scaling_max_freq") (rangeWrites (text "/scaling_min_freq") minFreq policys ++
        rangeWrites (text "/scaling_max_freq") maxFreq policys) =
      some (decimal (wrapInt (maxFreq * thousand))) := by
  rw [lastPut_append, policy0File, lastPut_rangeWrites _ h]
  rfl

/-- A range that is set successfully is written to every policy. -/
theorem freqRangeSet_ok {rstData : Bytes} {addr : UInt64}
    (h : m.freqRangeSetFiles up (.heap addr rstData) files = .ok (0, files')) :
    ∃ policys, m.getPolicys = .ok (some policys) ∧
      files' = putAll (rangeWrites (text "/scaling_min_freq")
          (freqRangeOf (rstData ++ m.past)).1 policys ++
        rangeWrites (text "/scaling_max_freq") (freqRangeOf (rstData ++ m.past)).2 policys)
          files := by
  obtain ⟨_ | policys, hlist, h⟩ := bind_eq_ok.mp h
  · cases h
  refine ⟨policys, hlist, ?_⟩
  dsimp only [DataPtr.deref] at h
  rw [ok_bind] at h
  have hwrites : ∀ up file freq, (whereUp up (m.rangeAttempts file freq policys)).map Attempt.write =
      rangeWrites file freq policys := by
    intro up file freq
    rw [map_write_whereUp, rangeAttempts, List.map_map]
    rfl
  rcases hmin : tryAll (whereUp up (m.rangeAttempts (text "/scaling_min_freq")
    (freqRangeOf (rstData ++ m.past)).1 policys)) files with ⟨_ | _, files₁⟩ <;> rw [hmin] at h
  · cases h
  rcases hmax : tryAll (whereUp (fun i => up (i + policys.length))
    (m.rangeAttempts (text "/scaling_max_freq") (freqRangeOf (rstData ++ m.past)).2 policys))
      files₁ with ⟨_ | _, files₂⟩ <;> dsimp only at h <;> rw [if_neg (by simp), hmax] at h
  · cases h
  have hfiles : files' = files₂ := (congrArg Prod.snd (Except.ok.inj h)).symm
  rw [hfiles, putAll_append, putAll_of_tryAll hmax, putAll_of_tryAll hmin, hwrites, hwrites]

end Machine

/-! ## What is read back -/

/-- The files of `policy0` hold one line each. -/
theorem freqRangeRead_lines {host : Host} {t₁ t₂ : Bytes}
    (hmin : host.file (policy0File "/scaling_min_freq") = some (t₁ ++ [10]))
    (hmax : host.file (policy0File "/scaling_max_freq") = some (t₂ ++ [10]))
    (h₁ : Plain t₁) (h₂ : Plain t₂) (hlen₁ : t₁.length ≤ 11) (hlen₂ : t₂.length ≤ 11) :
    freqRangeRead host = (0, [setInt 0 ((atoi t₁).tdiv thousand),
      setInt 4 ((atoi (leftOver t₁ t₂)).tdiv thousand)]) := by
  have hminPath : scalingFreq (text "min") = policy0File "/scaling_min_freq" := by decide +kernel
  have hmaxPath : scalingFreq (text "max") = policy0File "/scaling_max_freq" := by decide +kernel
  have hfirst := readFile_padded hmin plain_nil h₁ (show [].length < maxElementNameLen by decide)
    (show _ < maxElementNameLen by rw [maxElementNameLen]; omega)
  have hsecond := readFile_padded hmax h₁ h₂
    (show _ < maxElementNameLen by rw [maxElementNameLen]; omega)
    (show _ < maxElementNameLen by rw [maxElementNameLen]; omega)
  rw [leftOver_eq_self (Nat.zero_le _)] at hfirst
  rw [freqRangeRead, ← padded_nil, hminPath, hmaxPath]
  dsimp only
  rw [hfirst]
  dsimp only
  rw [hsecond]
  dsimp only
  rw [cString_padded h₁, cString_padded (h₁.leftOver h₂)]

/-- A range in its block. -/
theorem freqRangeOf_fill {minFreq maxFreq : Int} (hmin : FitsInt minFreq) (hmax : FitsInt maxFreq)
    (rstData : ℕ → UInt8) :
    Machine.freqRangeOf (contents sizeofFreqRange
      (fill [setInt 0 minFreq, setInt 4 maxFreq] rstData)) = (minFreq, maxFreq) := by
  unfold FitsInt at hmin hmax
  have hfirst := @int_fill sizeofFreqRange 0 [] [setInt 4 maxFreq] minFreq (by omega) (by omega)
    rstData (by decide) fun i hi => leaves_setInt (.inl (by omega)) maxFreq
  have hsecond := @int_fill sizeofFreqRange 4 [setInt 0 minFreq] [] maxFreq (by omega) (by omega)
    rstData (by decide) fun i hi => leaves_nil
  rw [List.nil_append] at hfirst
  rw [List.singleton_append] at hsecond
  rw [Machine.freqRangeOf, hfirst, hsecond]

/-- The text that was last written to a file, and a newline. -/
theorem holding_file {host : Host} {files : Files} {ws : List (Bytes × Bytes)} {path line : Bytes}
    (hfile : files path ≠ none) (hlast : lastPut path ws = some line) :
    (host.holding (putAll ws files)).file path = some (line ++ [10]) := by
  obtain ⟨held, hheld⟩ := Option.ne_none_iff_exists'.mp hfile
  have hput : putAll ws files path = some line := by
    rw [putAll_apply, hheld, hlast]
    rfl
  exact congrArg (Option.map (· ++ [10])) hput

/-- **The range that was set is read back** exactly if it fits. -/
theorem range_round_trip (m : Machine) (up : ℕ → Bool) (host : Host) (rstData : ℕ → UInt8)
    {addr : UInt64} {data : Bytes} {files files' : Files}
    (hset : m.freqRangeSetFiles up (.heap addr data) files = .ok (0, files'))
    {lines : List Bytes} (hl : m.listing = some lines)
    (hlisted : text "policy0" ∈ lines.map Machine.policyName)
    (hmin : files (policy0File "/scaling_min_freq") ≠ none)
    (hmax : files (policy0File "/scaling_max_freq") ≠ none) :
    rangeBack (host.holding files') rstData = (0, Machine.freqRangeOf (data ++ m.past)) ↔
      RangeFits (Machine.freqRangeOf (data ++ m.past)).1
        (Machine.freqRangeOf (data ++ m.past)).2 := by
  obtain ⟨policys, hlist, rfl⟩ := Machine.freqRangeSet_ok hset
  have hmem : text "policy0" ∈ policys := by
    obtain ⟨herr, -⟩ | ⟨hok, -⟩ := @Machine.getPolicys_cases m
    · rw [herr] at hlist
      cases hlist
    · rw [hok, hl] at hlist
      exact Option.some.inj (Except.ok.inj hlist) ▸ hlisted
  generalize Machine.freqRangeOf (data ++ m.past) = range
  obtain ⟨minFreq, maxFreq⟩ := range
  dsimp only
  have hread := freqRangeRead_lines
    (@holding_file host files _ _ _ hmin (Machine.lastPut_min hmem minFreq maxFreq))
    (@holding_file host files _ _ _ hmax (Machine.lastPut_max hmem minFreq maxFreq))
    (fun c hc => ne_of_mem_decimal hc) (fun c hc => ne_of_mem_decimal hc)
    (length_decimal_int (wrapInt_bounds _).1 (wrapInt_bounds _).2)
    (length_decimal_int (wrapInt_bounds _).1 (wrapInt_bounds _).2)
  rw [rangeBack, hread]
  dsimp only
  rw [freqRangeOf_fill (fitsInt_atoi _) (fitsInt_atoi _), Prod.mk.injEq, and_iff_right rfl,
    Prod.mk.injEq, freq_back_iff]
  constructor
  · rintro ⟨hfits, hback⟩
    rw [wrapInt_thousand hfits] at hback
    obtain ⟨hfits', htexts⟩ := (maxFreq_back_iff hfits).mp hback
    exact ⟨hfits, hfits', htexts⟩
  · intro hfits
    rw [wrapInt_thousand hfits.minFits]
    exact ⟨hfits.minFits, (maxFreq_back_iff hfits.minFits).mpr ⟨hfits.maxFits, hfits.texts⟩⟩

/-- A machine with one policy, whose files can be written. -/
def onePolicyMachine : Machine :=
  { Server.bareMachine with
    popen := fun _ => some [text "policy0\n"]
    writeFile := fun _ _ => true }

/-- A host with nothing to read but its attribute files. -/
def rangeHost : Host where
  statAgain := none
  file := fun _ => none
  atof := fun _ => 0
  staleBuf := List.replicate maxStringLen 0
  staleParas := (⟨0, []⟩, ⟨0, []⟩)
  perf := ⟨fun _ => none, fun _ _ => 0⟩
  length_staleBuf := length_zeros

/-- A `PWR_CPU_FreqRange`. -/
def rangeData (minFreq maxFreq : UInt32) : Bytes :=
  leBytes 4 minFreq.toNat ++ leBytes 4 maxFreq.toNat

/-- The attribute files of `onePolicyMachine` after a call of `FreqRangeSet`. -/
def filesAfter (minFreq maxFreq : UInt32) : Files :=
  putAll (begun (Machine.Setting.tries onePolicyMachine (fun _ => true)
    (.freqRangeSet (.heap 1 (rangeData minFreq maxFreq))))) fun _ => some []

theorem filesAfter_set (minFreq maxFreq : UInt32) :
    onePolicyMachine.freqRangeSetFiles (fun _ => true) (.heap 1 (rangeData minFreq maxFreq))
      (fun _ => some []) = .ok (0, filesAfter minFreq maxFreq) := by
  have hpolicys : onePolicyMachine.getPolicys = .ok (some [text "policy0"]) := by decide +kernel
  refine Machine.run_of_starts (s := .freqRangeSet (.heap 1 (rangeData minFreq maxFreq))) ?_ ?_
  · rw [Machine.Setting.attempts, hpolicys]
    simp [DataPtr.deref, Machine.rangeAttempts]
  · rw [Machine.Setting.tries, whereUp_true, Machine.Setting.attempts, hpolicys]
    simp [DataPtr.deref, Machine.rangeAttempts, Machine.rangeAttempt, onePolicyMachine]

theorem range_round_trip_small :
    rangeBack (rangeHost.holding (filesAfter 5 9)) (fun _ => 0) =
        (0, Machine.freqRangeOf (rangeData 5 9 ++ [])) ↔
      RangeFits (Machine.freqRangeOf (rangeData 5 9 ++ [])).1
        (Machine.freqRangeOf (rangeData 5 9 ++ [])).2 :=
  range_round_trip onePolicyMachine (fun _ => true) rangeHost (fun _ => 0)
    (filesAfter_set 5 9) rfl (by decide +kernel) (Option.some_ne_none _) (Option.some_ne_none _)

/-- An upper bound of 5 MHz comes back as 500 MHz after a lower bound of 1000 MHz. -/
theorem range_not_back :
    onePolicyMachine.freqRangeSetFiles (fun _ => true) (.heap 1 (rangeData 1000 5))
        (fun _ => some []) = .ok (0, filesAfter 1000 5) ∧
      rangeBack (rangeHost.holding (filesAfter 1000 5)) (fun _ => 0) ≠
        (0, Machine.freqRangeOf (rangeData 1000 5 ++ [])) := by
  have hback : rangeBack (rangeHost.holding (filesAfter 1000 5)) (fun _ => 0) = (0, 1000, 500) := by
    decide +kernel
  refine ⟨filesAfter_set 1000 5, ?_⟩
  rw [hback]
  decide +kernel

end PowerApi
