import PowerApi.Config

/-!
# The buffers of the configuration's lines (`config.c`)

Both loops copy what stands in front of the first `=` of a line to `key` and what stands
behind it to `value`, with a `strncpy` each. That of the key is bounded by the length of the
key, that of the value by the size of its buffer, and a `strncpy` that is cut short writes no
end. `Config` has one fault for both; here are the bytes that are written
(`returns_iff_inBounds` compares the two), and `copies_in_bounds_iff` says of every file for
which lines they stay inside.
-/

namespace PowerApi

/-- What `strncpy` writes: the string cut to `n` bytes, or filled up with zero bytes. -/
def strncpy (src : Bytes) (n : ℕ) : Bytes := src.take n ++ List.replicate (n - src.length) 0

/-- What the body of the loop writes to `key` and to `value`. -/
structure LineCopies where
  key : Bytes
  value : Bytes
  deriving DecidableEq, Repr

/-- The copies for a line; there are none if it is skipped. -/
def copies (str : Bytes) : Option LineCopies :=
  if Invalid str ∨ 61 ∉ str then none
  else
    let index := str.idxOf 61
    some ⟨strncpy str index, strncpy (str.drop (index + 1)) maxLineLength⟩

/-- Neither copy leaves its buffer, and there is room for an end behind the key and an end in
the value. -/
structure LineCopies.InBounds (c : LineCopies) : Prop where
  key : c.key.length ≤ maxKeyLen - 1
  value : c.value.length ≤ maxLineLength
  terminated : 0 ∈ c.value

/-- All copies that come of what `fgets` reads are in bounds. -/
def AllInBounds (lines : List Bytes) : Prop :=
  ∀ line ∈ lines, ∀ c, copies (cString line) = some c → c.InBounds

/-! ## The copies of a line -/

section Line

variable {str : Bytes}

theorem length_strncpy (src : Bytes) (n : ℕ) : (strncpy src n).length = n := by
  rw [strncpy, List.length_append, List.length_take, List.length_replicate]
  omega

/-- A copy has an end if it is not cut short. -/
theorem zero_mem_strncpy {src : Bytes} (h : 0 ∉ src) {n : ℕ} :
    0 ∈ strncpy src n ↔ src.length < n := by
  rw [strncpy, List.mem_append, or_iff_right fun hmem => h (List.mem_of_mem_take hmem),
    List.mem_replicate, and_iff_left rfl]
  omega

theorem copies_eq_none : copies str = none ↔ Invalid str ∨ 61 ∉ str := by
  rw [copies]
  split <;> simp [*]

/-- The first `=` is at most 31 characters from the front, and at most 255 characters are
behind it. -/
theorem inBounds_iff {c : LineCopies} (h : copies str = some c) (h0 : 0 ∉ str) :
    c.InBounds ↔ str.idxOf 61 < maxKeyLen ∧ str.length ≤ str.idxOf 61 + maxLineLength := by
  rw [copies] at h
  split at h <;> rename_i hskip
  · cases h
  obtain rfl := Option.some.inj h
  have h0' : 0 ∉ str.drop (str.idxOf 61 + 1) := fun hmem => h0 (List.mem_of_mem_drop hmem)
  have hterm := @zero_mem_strncpy _ h0' maxLineLength
  rw [List.length_drop] at hterm
  constructor
  · rintro ⟨hkey, -, hzero⟩
    rw [length_strncpy] at hkey
    have hlen := hterm.mp hzero
    simp only [maxKeyLen, maxLineLength] at *
    omega
  · rintro ⟨hkey, hlen⟩
    refine ⟨?_, (length_strncpy _ _).le, hterm.mpr ?_⟩
    · rw [length_strncpy]
      simp only [maxKeyLen] at *
      omega
    · simp only [maxLineLength] at *
      omega

/-- The buffers have room for the line, or it is skipped. -/
def FitsBuffers (str : Bytes) : Prop :=
  Invalid str ∨ 61 ∉ str ∨
    str.idxOf 61 < maxKeyLen ∧ str.length ≤ str.idxOf 61 + maxLineLength

instance : DecidablePred FitsBuffers := fun _ => inferInstanceAs (Decidable (_ ∨ _ ∨ _))

theorem fitsBuffers_iff (h0 : 0 ∉ str) :
    (∀ c, copies str = some c → c.InBounds) ↔ FitsBuffers str := by
  rw [FitsBuffers, ← or_assoc, ← copies_eq_none]
  cases hc : copies str with
  | none => exact iff_of_true nofun (.inl rfl)
  | some c =>
    rw [or_iff_right nofun, ← inBounds_iff hc h0]
    exact ⟨fun h => h c rfl, fun h _ hc' => Option.some.inj hc' ▸ h⟩

/-- The body of the loop goes on exactly where both copies are in bounds. -/
theorem returns_pair_iff (h0 : 0 ∉ str) :
    Returns (pair str) ↔ ∀ c, copies str = some c → c.InBounds := by
  rw [fitsBuffers_iff h0, FitsBuffers]
  by_cases h61 : 61 ∈ str
  · obtain ⟨key, value, rfl, hkey⟩ := List.eq_append_cons_of_mem h61
    have hindex : (key ++ 61 :: value).idxOf 61 = key.length := by
      rw [List.idxOf_append_of_notMem hkey, List.idxOf_cons_self, Nat.add_zero]
    rw [pair_eq hkey, hindex, List.length_append, List.length_cons, or_iff_right (not_not.mpr h61)]
    by_cases hskip : Invalid (key ++ 61 :: value)
    · rw [if_pos hskip]
      exact iff_of_true (returns_ok _) (.inl hskip)
    rw [if_neg hskip, or_iff_right hskip]
    by_cases hover : maxKeyLen ≤ key.length ∨ maxLineLength ≤ value.length
    · rw [if_pos hover]
      refine iff_of_false (not_returns_error _) ?_
      omega
    · rw [if_neg hover]
      refine iff_of_true ?_ (by omega)
      split <;> exact returns_ok _
  · rw [pair_of_not_mem h61]
    exact iff_of_true (returns_ok _) (.inr (.inl h61))

end Line

/-! ## The lines of a file -/

/-- What the `k`-th call of `fgets` on a line leaves in a buffer for `n` characters. -/
def piece (n k : ℕ) (line : Bytes) : Bytes := cString ((line.drop (k * n)).take n)

theorem mem_reads_line {n : ℕ} (hn : 0 < n) {line : Bytes} (hline : IsLine line) {str : Bytes} :
    str ∈ reads n line ↔ ∃ k, k * n < line.length ∧ str = (line.drop (k * n)).take n := by
  induction hlen : line.length using Nat.strong_induction_on generalizing line with
  | _ len ih =>
    have hpos : 0 < line.length := List.length_pos_of_ne_nil hline.1
    have hdrop : str ∈ reads n (line.drop n) ↔ ∃ k, k * n < (line.drop n).length ∧
        str = ((line.drop n).drop (k * n)).take n := by
      by_cases hnil : line.drop n = []
      · rw [hnil]
        exact iff_of_false nofun fun ⟨k, hk, _⟩ => absurd hk (Nat.not_lt_zero _)
      · refine ih _ ?_ (isLine_drop hline hnil) rfl
        rw [List.length_drop]
        omega
    rw [reads_line hline hn, List.mem_cons, hdrop, List.length_drop, ← hlen]
    constructor
    · rintro (rfl | ⟨k, hk, rfl⟩)
      · exact ⟨0, by rwa [Nat.zero_mul], by rw [Nat.zero_mul, List.drop_zero]⟩
      · refine ⟨k + 1, by rw [Nat.add_one_mul]; omega, ?_⟩
        rw [List.drop_drop, Nat.add_one_mul, Nat.add_comm n]
    · rintro ⟨k, hk, rfl⟩
      cases k with
      | zero => exact .inl (by rw [Nat.zero_mul, List.drop_zero])
      | succ k =>
        rw [Nat.add_one_mul] at hk ⊢
        exact .inr ⟨k, by omega, by rw [List.drop_drop, Nat.add_comm n]⟩

theorem zero_not_mem_cString (mem : Bytes) : 0 ∉ cString mem := fun h =>
  ne_zero_of_mem_cString h rfl

/-- The loops go on to the end of the file exactly where all copies are in bounds. -/
theorem returns_pairs_iff (lines : List Bytes) : Returns (pairs lines) ↔ AllInBounds lines := by
  induction lines with
  | nil => exact iff_of_true ⟨[], rfl⟩ nofun
  | cons line lines ih =>
    rw [AllInBounds, List.forall_mem_cons, ← returns_pair_iff (zero_not_mem_cString line)]
    rw [AllInBounds] at ih
    rw [← ih]
    constructor
    · rintro ⟨ps, hps⟩
      obtain ⟨p, q, hp, hq, -⟩ := pairs_cons.mp hps
      exact ⟨⟨p, hp⟩, ⟨q, hq⟩⟩
    · rintro ⟨⟨p, hp⟩, ⟨q, hq⟩⟩
      exact ⟨_, pairs_cons.mpr ⟨p, q, hp, hq, rfl⟩⟩

/-- What is read of a file is what is read of its lines. -/
theorem allInBounds_reads {n : ℕ} (hn : 0 < n) (file : Bytes) :
    AllInBounds (reads n file) ↔ ∀ line ∈ fileLines file, ∀ k, FitsBuffers (piece n k line) := by
  have hreads : reads n file = (fileLines file).flatMap (reads n) :=
    reads_eq_flatMap List.not_mem_nil file
  have hfits : ∀ str, (∀ c, copies (cString str) = some c → c.InBounds) ↔
      FitsBuffers (cString str) := fun str => fitsBuffers_iff (zero_not_mem_cString str)
  simp only [AllInBounds, hreads, List.mem_flatMap, hfits]
  constructor
  · intro h line hline k
    by_cases hk : k * n < line.length
    · refine h _ ⟨line, hline, ?_⟩
      exact (mem_reads_line hn (isLine_of_mem List.not_mem_nil hline)).mpr ⟨k, hk, rfl⟩
    · -- behind the end of the line nothing is read
      rw [piece, List.drop_eq_nil_of_le (not_lt.mp hk), List.take_nil]
      exact .inl (.inl (Nat.zero_le 1))
  · rintro h str ⟨line, hline, hstr⟩
    obtain ⟨k, -, rfl⟩ := (mem_reads_line hn (isLine_of_mem List.not_mem_nil hline)).mp hstr
    exact h line hline k

/-- The key's buffer has room for the key, or the line is skipped. -/
def FitsKey (str : Bytes) : Prop := Invalid str ∨ 61 ∉ str ∨ str.idxOf 61 < maxKeyLen

instance : DecidablePred FitsKey := fun _ => inferInstanceAs (Decidable (_ ∨ _ ∨ _))

theorem length_piece_le (n k : ℕ) (line : Bytes) : (piece n k line).length ≤ n := by
  have hle := (List.takeWhile_prefix (· ≠ 0) (l := (line.drop (k * n)).take n)).length_le
  rw [List.length_take] at hle
  exact hle.trans (Nat.min_le_left _ _)

/-- A line buffer of 256 bytes holds no value that is too long. -/
theorem fitsBuffers_short {str : Bytes} (h : str.length ≤ maxLineLength) :
    FitsBuffers str ↔ FitsKey str := by
  rw [FitsBuffers, FitsKey]
  refine or_congr_right (or_congr_right (and_iff_left ?_))
  omega

/-- **No line overruns its buffers** if and only if, piece by piece as `fgets` reads it, it is
skipped or its first `=` is among its first 32 characters; in `LoadConfigFile` there must be at
most 255 characters behind it, which in `CheckAndUpdateConfig` the line buffer sees to. -/
theorem copies_in_bounds_iff (file : Bytes) :
    (AllInBounds (reads (maxLineNum - 2) file) ↔
        ∀ line ∈ fileLines file, ∀ k, FitsBuffers (piece (maxLineNum - 2) k line)) ∧
      (AllInBounds (reads (maxLineLength - 2) file) ↔
        ∀ line ∈ fileLines file, ∀ k, FitsKey (piece (maxLineLength - 2) k line)) := by
  refine ⟨allInBounds_reads (by decide) file, ?_⟩
  rw [allInBounds_reads (by decide)]
  refine forall₂_congr fun line _ => forall_congr' fun k => fitsBuffers_short ?_
  exact (length_piece_le _ k line).trans (Nat.sub_le _ _)

/-- The two loops of `Config` go on exactly where no line overruns its buffers. -/
theorem returns_iff_inBounds (file : Bytes) :
    (Returns (loadConfigFile file) ↔ AllInBounds (reads (maxLineNum - 2) file)) ∧
      (Returns (checkAndUpdateConfig file) ↔ AllInBounds (reads (maxLineLength - 2) file)) :=
  ⟨returns_pairs_iff _, returns_pairs_iff _⟩

/-- A key of 32 characters. -/
def longKey : Bytes := List.replicate 32 107 ++ text "=1\n"

theorem longKey_not_inBounds :
    ¬ ∀ file : Bytes, AllInBounds (reads (maxLineNum - 2) file) ∧
      AllInBounds (reads (maxLineLength - 2) file) := by
  intro h
  have hreads : reads (maxLineNum - 2) longKey = [longKey] := by decide +kernel
  have hall := (h longKey).1
  rw [hreads] at hall
  have hfits := (fitsBuffers_iff (zero_not_mem_cString longKey)).mp
    (hall longKey List.mem_cons_self)
  exact absurd hfits (by decide +kernel)

end PowerApi
