import PowerApi.CpuReaders

/-!
# A line of `/proc/stat` (`cpuservice.c`)

`UsageToLong` cuts a line into columns with one cursor that two scans move on: over a
column, up to a space, and over the spaces behind it. Neither scan looks for the end of
the line, and the loop takes nine columns where a row of `paras` has eight.

`scanUsage` is the function with its accesses checked: reading behind the end of the line,
writing behind `temp` and writing behind `paras` are all `Fault.overrun`.
`scanUsage_inside_iff` says for which lines there is no such access: those whose first
column is that of no CPU. The function returns there before it comes to the rest.
-/

namespace PowerApi

/-! ## `UsageToLong`, access by access -/

/-- `while (buf[j] != ' ')`: the column, and the rest of the line from the space on. `k` is
where in `temp` the next character goes. -/
def copyColumn : Bytes → ℕ → Except Fault (Bytes × Bytes)
  -- the end of the line is read already
  | [], _ => throw .overrun
  | c :: buf, k =>
    if c = 32 then return ([], c :: buf)
    else if k < maxStringLen then do
      let (temp, rest) ← copyColumn buf (k + 1)
      return (c :: temp, rest)
    else throw .overrun

/-- `while (buf[j] == ' ')`. -/
def skipSpaces : Bytes → Except Fault Bytes
  | [] => throw .overrun
  | c :: buf => if c = 32 then skipSpaces buf else return c :: buf

/-- `paras[i] = value`. -/
def storeColumn (paras : List UInt64) (i : ℕ) (value : UInt64) : Except Fault (List UInt64) :=
  if i < cpuUsageColumn then return paras.set i value else throw .overrun

/-- The loop of `UsageToLong` with the number of turns that are left. -/
def scanColumns (line : ℕ) : ℕ → ℕ → Bytes → List UInt64 → Except Fault (Int × List UInt64)
  | 0, _, _, paras => return (if line = 0 then -1 else wrapInt (paras.getD 0 0).toNat, paras)
  | n + 1, i, buf, paras => do
    let (temp, buf) ← copyColumn buf 0
    let buf ← skipSpaces buf
    if i = 0 ∧ line > 0 then
      if text "cpu" <:+: cString temp then
        let id := strtoul (Machine.deleteSubstr (text "cpu") (cString temp)) 0
        scanColumns line n (i + 1) buf (← storeColumn paras i id)
      else return (-2, paras)
    else if i ≠ 0 then
      scanColumns line n (i + 1) buf (← storeColumn paras i (strtoul (cString temp) 0))
    else scanColumns line n (i + 1) buf paras

/-- `UsageToLong` on a buffer that begins with a string: the string and its end may be
read, `temp` has 1000 characters and `paras` eight numbers. -/
def scanUsage (buf : Bytes) (paras : List UInt64) (line : ℕ) : Except Fault (Int × List UInt64) :=
  scanColumns line (cpuUsageColumn + 1) 0 (cString buf ++ [0]) paras

/-! ## Where the scans get to -/

/-- A column that a space ends. -/
theorem copyColumn_space {col rest : Bytes} {k : ℕ} (hcol : ∀ c ∈ col, c ≠ 32)
    (hk : k + col.length ≤ maxStringLen) :
    copyColumn (col ++ 32 :: rest) k = .ok (col, 32 :: rest) := by
  induction col generalizing k with
  | nil => rfl
  | cons c col ih =>
    rw [List.length_cons] at hk
    rw [List.cons_append, copyColumn, if_neg (hcol c List.mem_cons_self), if_pos (by omega),
      ih (fun d hd => hcol d (List.mem_cons_of_mem _ hd)) (by omega)]
    rfl

/-- Without a space the scan leaves the line. -/
theorem copyColumn_end {buf : Bytes} {k : ℕ} (hbuf : 32 ∉ buf) :
    copyColumn buf k = .error .overrun := by
  induction buf generalizing k with
  | nil => rfl
  | cons c buf ih =>
    obtain ⟨hc, hbuf⟩ := not_or.mp fun h => hbuf (List.mem_cons.mpr h)
    rw [copyColumn, if_neg (Ne.symm hc), ih hbuf]
    split <;> rfl

/-- The end of the line is no space. -/
theorem skipSpaces_end (str : Bytes) : ∃ rest, skipSpaces (str ++ [0]) = .ok rest := by
  induction str with
  | nil => exact ⟨[0], rfl⟩
  | cons c str ih =>
    rw [List.cons_append, skipSpaces]
    split
    · exact ih
    · exact ⟨_, rfl⟩

theorem storeColumn_ok {paras paras' : List UInt64} {i : ℕ} {value : UInt64}
    (h : storeColumn paras i value = .ok paras') : i < cpuUsageColumn := by
  by_contra hi
  rw [storeColumn, if_neg hi] at h
  cases h

/-- Behind the first column the loop does not end well: it comes to the ninth. -/
theorem scanColumns_error {line n i : ℕ} {buf : Bytes} {paras : List UInt64} (hi : 0 < i)
    (hin : i ≤ cpuUsageColumn) (hn : i + n = cpuUsageColumn + 1) (r : Int × List UInt64) :
    scanColumns line n i buf paras ≠ .ok r := by
  intro h
  induction n generalizing i buf paras with
  | zero => omega
  | succ n ih =>
    obtain ⟨⟨temp, buf'⟩, -, h⟩ := bind_eq_ok.mp h
    obtain ⟨buf₂, -, h⟩ := bind_eq_ok.mp h
    rw [if_neg (fun h0 => hi.ne' h0.1), if_pos hi.ne'] at h
    obtain ⟨paras', hstore, h⟩ := bind_eq_ok.mp h
    have hlt := storeColumn_ok hstore
    exact ih (Nat.succ_pos i) hlt (by omega) h

/-- The line is that of no CPU, as `UsageToLong` sees it: its first column ends with a space
and has no `cpu` in it. -/
def NotCpu (str : Bytes) : Prop :=
  32 ∈ str ∧ ¬ text "cpu" <:+: str.takeWhile (· ≠ 32)

/-- A string with a space in it is its first column and what is behind that. -/
theorem exists_column {str : Bytes} (h : 32 ∈ str) :
    ∃ col rest, str = col ++ 32 :: rest ∧ (∀ c ∈ col, c ≠ 32) ∧ str.takeWhile (· ≠ 32) = col := by
  obtain ⟨col, rest, rfl, hcol⟩ := List.eq_append_cons_of_mem h
  have hne : ∀ c ∈ col, c ≠ 32 := fun c hc h0 => hcol (h0 ▸ hc)
  refine ⟨col, rest, rfl, hne, ?_⟩
  rw [List.takeWhile_append_of_pos (by simpa using hne), List.takeWhile_cons_of_neg (by simp),
    List.append_nil]

/-- What is done with the first column of a line. -/
theorem scanUsage_column {buf col rest : Bytes} (hbuf : cString buf = col ++ 32 :: rest)
    (hcol : ∀ c ∈ col, c ≠ 32) (hlen : (cString buf).length < maxStringLen - 1)
    (paras : List UInt64) (line : ℕ) :
    ∃ buf', scanUsage buf paras line =
      if 0 < line then
        if text "cpu" <:+: col then
          scanColumns line cpuUsageColumn 1 buf'
            (paras.set 0 (strtoul (Machine.deleteSubstr (text "cpu") col) 0))
        else .ok (-2, paras)
      else scanColumns line cpuUsageColumn 1 buf' paras := by
  have hnul : ∀ c ∈ col, c ≠ 0 := fun c hc =>
    ne_zero_of_mem_cString (hbuf ▸ List.mem_append_left _ hc)
  rw [hbuf, List.length_append] at hlen
  have hcopy : copyColumn (col ++ 32 :: (rest ++ [0])) 0 = .ok (col, 32 :: (rest ++ [0])) :=
    copyColumn_space hcol (by omega)
  obtain ⟨buf', hskip⟩ := skipSpaces_end (32 :: rest)
  refine ⟨buf', ?_⟩
  rw [scanUsage, hbuf, List.append_assoc, List.cons_append, scanColumns, hcopy, ok_bind]
  dsimp only
  rw [← List.cons_append, hskip, ok_bind, cString_of_ne hnul]
  by_cases hline : 0 < line
  · rw [if_pos ⟨rfl, hline⟩, if_pos hline]
    rfl
  · rw [if_neg fun h => hline h.2, if_neg (not_not.mpr rfl), if_neg hline]

/-- **A line is scanned inside its bounds** exactly if it is not the first one and not that
of a CPU. -/
theorem scanUsage_inside_iff {buf : Bytes} (hlen : (cString buf).length < maxStringLen - 1)
    (paras : List UInt64) (line : ℕ) :
    (∃ r, scanUsage buf paras line = .ok r) ↔ 0 < line ∧ NotCpu (cString buf) := by
  by_cases hspace : 32 ∈ cString buf
  · obtain ⟨col, rest, hbuf, hcol, htake⟩ := exists_column hspace
    obtain ⟨buf', heq⟩ := scanUsage_column hbuf hcol hlen paras line
    rw [NotCpu, htake, and_iff_right hspace, heq]
    by_cases hline : 0 < line
    · rw [if_pos hline, and_iff_right hline]
      by_cases hcpu : text "cpu" <:+: col
      · rw [if_pos hcpu]
        refine iff_of_false ?_ (not_not.mpr hcpu)
        rintro ⟨r, hr⟩
        exact scanColumns_error Nat.one_pos (by decide) rfl r hr
      · rw [if_neg hcpu]
        exact iff_of_true ⟨_, rfl⟩ hcpu
    · rw [if_neg hline]
      refine iff_of_false ?_ fun h => hline h.1
      rintro ⟨r, hr⟩
      exact scanColumns_error Nat.one_pos (by decide) rfl r hr
  · refine iff_of_false ?_ fun h => hspace h.2.1
    rintro ⟨r, hr⟩
    have hend : 32 ∉ cString buf ++ [0] := by
      intro h
      obtain h | h := List.mem_append.mp h
      · exact hspace h
      · exact absurd (List.mem_singleton.mp h) (by decide)
    rw [scanUsage, scanColumns, copyColumn_end hend] at hr
    cases hr

/-- The reader's token: a column that a space ends, and what begins behind the spaces. -/
theorem usageToken_space {col rest : Bytes} (hcol : ∀ c ∈ col, c ≠ 32) (hnul : ∀ c ∈ col, c ≠ 0)
    (hrest : rest.dropWhile (· = 32) ≠ []) :
    usageToken (col ++ 32 :: rest) = .ok (col, rest.dropWhile (· = 32)) := by
  have hdrop : (col ++ 32 :: rest).dropWhile (· ≠ 32) = 32 :: rest := by
    rw [List.dropWhile_append_of_pos (by simpa using hcol), List.dropWhile_cons_of_neg (by simp)]
  have htake : (col ++ 32 :: rest).takeWhile (· ≠ 32) = col := by
    rw [List.takeWhile_append_of_pos (by simpa using hcol), List.takeWhile_cons_of_neg (by simp),
      List.append_nil]
  rw [usageToken, hdrop, List.dropWhile_cons_of_pos (by simp), if_neg hrest, htake,
    cString_of_ne hnul]

/-- The reader skips such a line, whatever is behind it in its buffer. -/
theorem usageToLong_notCpu {str : Bytes} (hnul : ∀ c ∈ str, c ≠ 0) (h : NotCpu str) {line : ℕ}
    (hline : 0 < line) (past : Bytes) (paras : ParasRow) :
    usageToLong (str ++ 0 :: past) paras line = .ok (-2, paras) := by
  obtain ⟨col, rest, rfl, hcol, htake⟩ := exists_column h.1
  have hcpu : ¬ text "cpu" <:+: col := htake ▸ h.2
  have hcnul : ∀ c ∈ col, c ≠ 0 := fun c hc => hnul c (List.mem_append_left _ hc)
  have hrest : (rest ++ 0 :: past).dropWhile (· = 32) ≠ [] := by
    rw [Ne, List.dropWhile_eq_nil_iff]
    intro hall
    exact absurd (hall 0 (List.mem_append_right _ List.mem_cons_self)) (by decide)
  rw [usageToLong, List.append_assoc, List.cons_append, usageToken_space hcol hcnul hrest, ok_bind]
  exact if_pos ⟨hline, hcpu⟩

/-- The line of interrupts. -/
def intrLine : Bytes := text "intr 1 2\n\x00"

theorem scanUsage_inside_iff_intr :
    (∃ r, scanUsage intrLine [] 3 = .ok r) ↔ 0 < 3 ∧ NotCpu (cString intrLine) :=
  scanUsage_inside_iff (by decide +kernel) [] 3

/-- The line of a CPU, with its ten columns. -/
def cpuLine : Bytes := text "cpu0 1 2 3 4 5 6 7 8 9 10\n\x00"

/-- Its ninth column is stored behind `paras`. -/
theorem cpuLine_not_inside :
    ¬ ∃ r, scanUsage cpuLine (List.replicate cpuUsageColumn 0) 1 = .ok r := by
  rintro ⟨r, hr⟩
  have herr : scanUsage cpuLine (List.replicate cpuUsageColumn 0) 1 = .error .overrun := by
    decide +kernel
  rw [herr] at hr
  cases hr

end PowerApi
