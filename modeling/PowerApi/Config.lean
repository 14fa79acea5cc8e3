import PowerApi.CpuService

/-!
# Reading the configuration (`config.c`)

`LoadConfigFile` and `CheckAndUpdateConfig` read the same file line by line with two
copies of one loop. The line buffers differ: 3000 bytes in the one, 256 in the other.
What does not fit the buffer is what the next `fgets` gets, and is taken for a line of its
own. `pairs` is the loop over what `fgets` reads; a key or a value that does not fit its
array, with the end of the string, is an overrun.

Lines that `Fit` are read the same way by both; `reload_as_load` says so of every file,
and of a line of text that no other is.
-/

namespace PowerApi

/-- `MAX_LINE_LENGTH`. -/
def maxLineLength : ℕ := 256

/-- `MAX_LINE_NUM`. -/
def maxLineNum : ℕ := 3000

/-- `MAX_KEY_LEN`. -/
def maxKeyLen : ℕ := 32

/-! ## `LRtrim` -/

/-- `LRtrim`. -/
def lrtrim (str : Bytes) : Bytes := (str.dropWhile isSpace).rdropWhile isSpace

/-- White space. -/
def Blank (str : Bytes) : Prop := ∀ c ∈ str, isSpace c = true

instance (str : Bytes) : Decidable (Blank str) := inferInstanceAs (Decidable (∀ c ∈ str, _))

theorem lrtrim_eq_nil {str : Bytes} : lrtrim str = [] ↔ Blank str := by
  rw [lrtrim, List.rdropWhile_eq_nil_iff]
  refine ⟨fun h c hc => ?_, fun h c hc => h c ((List.dropWhile_suffix _).mem hc)⟩
  rw [← List.takeWhile_append_dropWhile (p := isSpace) (l := str)] at hc
  obtain hc | hc := List.mem_append.mp hc
  · exact List.mem_takeWhile_imp hc
  · exact h c hc

/-- Behind the last character there is white space only. -/
theorem rdropWhile_append {x w : Bytes} :
    (x ++ w).rdropWhile isSpace =
      if Blank w then x.rdropWhile isSpace else x ++ w.rdropWhile isSpace := by
  split <;> rename_i hw
  · rw [List.rdropWhile, List.reverse_append, List.dropWhile_append_of_pos, List.rdropWhile]
    exact fun c hc => hw c (List.mem_reverse.mp hc)
  · rw [List.rdropWhile, List.reverse_append, List.dropWhile_append, if_neg, List.reverse_append,
      List.reverse_reverse, List.rdropWhile]
    intro hnil
    have hdrop : w.rdropWhile isSpace = [] := by
      rw [List.rdropWhile, List.isEmpty_iff.mp hnil]
      rfl
    exact hw (List.rdropWhile_eq_nil_iff.mp hdrop)

/-- White space in front ends before the end of a string that is not blank. -/
theorem dropWhile_append_of_not_blank {str : Bytes} (hstr : ¬ Blank str) (w : Bytes) :
    (str ++ w).dropWhile isSpace = str.dropWhile isSpace ++ w := by
  rw [List.dropWhile_append, if_neg]
  intro hnil
  refine hstr (lrtrim_eq_nil.mp ?_)
  rw [lrtrim, List.isEmpty_iff.mp hnil]
  rfl

theorem lrtrim_append_blank {str w : Bytes} (hw : Blank w) : lrtrim (str ++ w) = lrtrim str := by
  by_cases hstr : Blank str
  · rw [lrtrim_eq_nil.mpr hstr, lrtrim_eq_nil]
    exact fun c hc => (List.mem_append.mp hc).elim (hstr c) (hw c)
  · rw [lrtrim, dropWhile_append_of_not_blank hstr, rdropWhile_append, if_pos hw, lrtrim]

/-- Only white space can be appended without a change. -/
theorem blank_of_lrtrim_append {str w : Bytes} (hstr : ¬ Blank str)
    (h : lrtrim (str ++ w) = lrtrim str) : Blank w := by
  by_contra hw
  rw [lrtrim, dropWhile_append_of_not_blank hstr, rdropWhile_append, if_neg hw, lrtrim] at h
  have hlen := congrArg List.length h
  have hle := (List.rdropWhile_prefix isSpace (l := str.dropWhile isSpace)).length_le
  have hpos : w.rdropWhile isSpace ≠ [] := fun hnil => hw (List.rdropWhile_eq_nil_iff.mp hnil)
  have := List.length_pos_of_ne_nil hpos
  rw [List.length_append] at hlen
  omega

/-! ## The loop -/

/-- What `fgets`, given room for `n` bytes, reads call by call. In the middle of a call
`acc` has been read and `room` is left. -/
def fgetsLoop (n : ℕ) : ℕ → Bytes → Bytes → List Bytes
  | _, acc, [] => if acc = [] then [] else [acc]
  | room, acc, c :: file =>
    if c = 10 ∨ room ≤ 1 then (acc ++ [c]) :: fgetsLoop n n [] file
    else fgetsLoop n (room - 1) (acc ++ [c]) file

/-- The strings that the loop gets from a file. -/
def reads (n : ℕ) (file : Bytes) : List Bytes := fgetsLoop n n [] file

/-- An empty line, a comment, a section. -/
def Invalid (str : Bytes) : Prop :=
  str.length ≤ 1 ∨ str.head? = some 35 ∨ str.head? = some 91

instance (str : Bytes) : Decidable (Invalid str) := inferInstanceAs (Decidable (_ ∨ _ ∨ _))

/-- The body of the loop: what is in the buffer is skipped, or gives a key and a value. -/
def pair (str : Bytes) : Except Fault (Option (Bytes × Bytes)) :=
  -- Skip invalid lines such as empty lines、comment lines
  if Invalid str then .ok none
  else if 61 ∉ str then .ok none
  else
    let key := str.takeWhile (· ≠ 61)
    let value := (str.dropWhile (· ≠ 61)).drop 1
    if maxKeyLen ≤ key.length ∨ maxLineLength ≤ value.length then .error .overrun
    -- Key or value is invalid
    else if lrtrim key = [] ∨ lrtrim value = [] then .ok none
    else .ok (some (lrtrim key, lrtrim value))

/-- The loop over what `fgets` has read. -/
def pairs : List Bytes → Except Fault (List (Bytes × Bytes))
  | [] => return []
  | line :: lines => do
    let p ← pair (cString line)
    return p.toList ++ (← pairs lines)

/-- `LoadConfigFile`: the keys and values that it extracts. -/
def loadConfigFile (file : Bytes) : Except Fault (List (Bytes × Bytes)) :=
  pairs (reads (maxLineNum - 2) file)

/-- `CheckAndUpdateConfig`: the keys and values that it passes to `UpdateConfig`. -/
def checkAndUpdateConfig (file : Bytes) : Except Fault (List (Bytes × Bytes)) :=
  pairs (reads (maxLineLength - 2) file)

/-- Both read the file the same way. -/
def SameParse (file : Bytes) : Prop :=
  ∃ ps, loadConfigFile file = .ok ps ∧ checkAndUpdateConfig file = .ok ps

/-! ## Lines -/

/-- The lines of a file, each with its end, behind what has been read of the first. -/
def linesFrom : Bytes → Bytes → List Bytes
  | acc, [] => if acc = [] then [] else [acc]
  | acc, c :: file =>
    if c = 10 then (acc ++ [c]) :: linesFrom [] file else linesFrom (acc ++ [c]) file

/-- The lines of a file. -/
def fileLines (file : Bytes) : List Bytes := linesFrom [] file

/-- Nothing comes of a string that `fgets` has read. -/
def Skipped (line : Bytes) : Prop := pair (cString line) = .ok none

instance : DecidablePred Skipped := fun _ => inferInstanceAs (Decidable (_ = _))

/-- A line that both loops read the same way. What `CheckAndUpdateConfig` reads at first
is all but white space of what `LoadConfigFile` does, or both are skipped; what later calls
of `fgets` get of the line is skipped. -/
structure Fits (line : Bytes) : Prop where
  first : Skipped (line.take (maxLineNum - 2)) ∧ Skipped (line.take (maxLineLength - 2)) ∨
    Returns (pair (cString (line.take (maxLineNum - 2)))) ∧
      Blank ((cString (line.take (maxLineNum - 2))).drop (maxLineLength - 2))
  loadRest : ∀ str ∈ reads (maxLineNum - 2) (line.drop (maxLineNum - 2)), Skipped str
  checkRest : ∀ str ∈ reads (maxLineLength - 2) (line.drop (maxLineLength - 2)), Skipped str

section Lines

variable {n : ℕ} {x acc rest : Bytes}

/-- A call of `fgets` ends at the end of a line. -/
theorem fgetsLoop_newline (hx : 10 ∉ x) (room : ℕ) :
    fgetsLoop n room acc (x ++ 10 :: rest) = fgetsLoop n room acc (x ++ [10]) ++ reads n rest := by
  induction x generalizing room acc with
  | nil =>
    rw [List.nil_append, List.nil_append, fgetsLoop, if_pos (.inl rfl), fgetsLoop, if_pos (.inl rfl)]
    rfl
  | cons c x ih =>
    have hx' : 10 ∉ x := fun h => hx (List.mem_cons_of_mem c h)
    rw [List.cons_append, List.cons_append, fgetsLoop, fgetsLoop]
    split
    · rw [ih hx', List.cons_append]
    · exact ih hx' (room - 1)

/-- Reading a file is reading its lines. -/
theorem reads_eq_flatMap (hacc : 10 ∉ acc) (file : Bytes) :
    reads n (acc ++ file) = (linesFrom acc file).flatMap (reads n) := by
  induction file generalizing acc with
  | nil =>
    rw [linesFrom, List.append_nil]
    split <;> rename_i hnil
    · rw [hnil]
      rfl
    · exact (List.append_nil _).symm
  | cons c file ih =>
    rw [linesFrom]
    split <;> rename_i hc
    · rw [hc, List.flatMap_cons, ← ih (List.not_mem_nil), List.nil_append, reads,
        fgetsLoop_newline hacc]
      rfl
    · rw [← ih, List.append_assoc]
      · rfl
      · intro h
        obtain h | h := List.mem_append.mp h
        · exact hacc h
        · exact hc (List.mem_singleton.mp h).symm

/-- The first call of `fgets` on a line gets its front, and the next calls the rest. -/
theorem fgetsLoop_line (hx : 10 ∉ x) {tail : Bytes} (htail : tail = [] ∨ tail = [10]) {room : ℕ}
    (hroom : 0 < room) (hne : acc ++ x ++ tail ≠ []) :
    fgetsLoop n room acc (x ++ tail) =
      (acc ++ (x ++ tail).take room) :: reads n ((x ++ tail).drop room) := by
  induction x generalizing room acc with
  | nil =>
    obtain rfl | rfl := htail
    · simpa [fgetsLoop, reads] using hne
    · have hdrop : List.drop room ([10] : Bytes) = [] := List.drop_eq_nil_of_le hroom
      have htake : List.take room ([10] : Bytes) = [10] := List.take_of_length_le hroom
      rw [List.nil_append, hdrop, htake, fgetsLoop, if_pos (.inl rfl)]
      rfl
  | cons c x ih =>
    have hc : c ≠ 10 := fun h => hx (h ▸ List.mem_cons_self)
    rw [List.cons_append, fgetsLoop]
    split <;> rename_i hstop
    · -- the buffer is full
      obtain rfl : room = 1 := by
        have := hstop.resolve_left hc
        omega
      rfl
    · have hmore : 1 < room := not_le.mp fun h => hstop (.inr h)
      rw [ih (fun h => hx (List.mem_cons_of_mem c h)) (by omega) (by simp)]
      obtain ⟨k, rfl⟩ := Nat.exists_eq_add_of_le' hroom
      rw [Nat.add_sub_cancel, List.take_succ_cons, List.drop_succ_cons, List.append_assoc]
      rfl

/-- A line has its end at most at its end. -/
def IsLine (line : Bytes) : Prop :=
  line ≠ [] ∧ ∃ x tail, line = x ++ tail ∧ 10 ∉ x ∧ (tail = [] ∨ tail = [10])

theorem isLine_of_mem {line : Bytes} (hacc : 10 ∉ acc) {file : Bytes}
    (h : line ∈ linesFrom acc file) : IsLine line := by
  induction file generalizing acc with
  | nil =>
    rw [linesFrom] at h
    split at h <;> rename_i hnil
    · cases h
    · obtain rfl := List.mem_singleton.mp h
      exact ⟨hnil, line, [], (List.append_nil line).symm, hacc, .inl rfl⟩
  | cons c file ih =>
    rw [linesFrom] at h
    split at h <;> rename_i hc
    · obtain rfl | h := List.mem_cons.mp h
      · exact ⟨by simp, acc, [10], by rw [hc], hacc, .inr rfl⟩
      · exact ih List.not_mem_nil h
    · refine ih (fun hmem => ?_) h
      obtain hmem | hmem := List.mem_append.mp hmem
      · exact hacc hmem
      · exact hc (List.mem_singleton.mp hmem).symm

theorem reads_line {line : Bytes} (h : IsLine line) (hn : 0 < n) :
    reads n line = line.take n :: reads n (line.drop n) := by
  obtain ⟨hne, x, tail, rfl, hx, htail⟩ := h
  exact fgetsLoop_line hx htail hn hne

/-- A line by itself is its own only line. -/
theorem fileLines_line {line : Bytes} (h : IsLine line) : fileLines line = [line] := by
  obtain ⟨hne, x, tail, rfl, hx, htail⟩ := h
  have hgen : ∀ acc : Bytes, acc ++ x ++ tail ≠ [] → linesFrom acc (x ++ tail) = [acc ++ x ++ tail] := by
    clear hne
    induction x with
    | nil =>
      intro acc hne
      obtain rfl | rfl := htail
      · simpa [linesFrom] using hne
      · simp [linesFrom]
    | cons c x ih =>
      intro acc _
      have hc : c ≠ 10 := fun h => hx (h ▸ List.mem_cons_self)
      rw [List.cons_append, linesFrom, if_neg hc,
        ih (fun h => hx (List.mem_cons_of_mem c h)) (acc ++ [c]) (by simp)]
      simp
  exact hgen [] hne

end Lines

/-! ## What is read from a line -/

theorem pairs_append {a b : List Bytes} {ps : List (Bytes × Bytes)} :
    pairs (a ++ b) = .ok ps ↔ ∃ p q, pairs a = .ok p ∧ pairs b = .ok q ∧ ps = p ++ q := by
  induction a generalizing ps with
  | nil =>
    refine ⟨fun h => ⟨[], ps, rfl, h, rfl⟩, ?_⟩
    rintro ⟨p, q, hp, hq, rfl⟩
    obtain rfl := Except.ok.inj hp
    exact hq
  | cons line a ih =>
    rw [List.cons_append, pairs, pairs, bind_eq_ok]
    constructor
    · rintro ⟨r, hr, h⟩
      obtain ⟨rs, hrs, h⟩ := bind_eq_ok.mp h
      obtain ⟨p, q, hp, hq, rfl⟩ := ih.mp hrs
      obtain rfl := Except.ok.inj h
      exact ⟨r.toList ++ p, q, by rw [hr, ok_bind, hp]; rfl, hq, (List.append_assoc ..).symm⟩
    · rintro ⟨p, q, hp, hq, rfl⟩
      obtain ⟨r, hr, h⟩ := bind_eq_ok.mp hp
      obtain ⟨rs, hrs, h⟩ := bind_eq_ok.mp h
      obtain rfl := Except.ok.inj h
      refine ⟨r, hr, ?_⟩
      rw [ih.mpr ⟨rs, q, hrs, hq, rfl⟩, List.append_assoc]
      rfl

theorem pairs_cons {line : Bytes} {lines : List Bytes} {ps : List (Bytes × Bytes)} :
    pairs (line :: lines) = .ok ps ↔
      ∃ p q, pair (cString line) = .ok p ∧ pairs lines = .ok q ∧ ps = p.toList ++ q := by
  rw [pairs, bind_eq_ok]
  refine exists_congr fun p => ?_
  constructor
  · rintro ⟨hp, h⟩
    obtain ⟨q, hq, h⟩ := bind_eq_ok.mp h
    exact ⟨q, hp, hq, (Except.ok.inj h).symm⟩
  · rintro ⟨q, hp, hq, rfl⟩
    exact ⟨hp, by rw [hq]; rfl⟩

/-- Nothing comes of lines if and only if all are skipped. -/
theorem pairs_eq_nil {lines : List Bytes} : pairs lines = .ok [] ↔ ∀ str ∈ lines, Skipped str := by
  induction lines with
  | nil => exact iff_of_true rfl nofun
  | cons line lines ih =>
    rw [pairs_cons, List.forall_mem_cons, ← ih]
    constructor
    · rintro ⟨p, q, hp, hq, h⟩
      obtain ⟨hp', rfl⟩ := List.append_eq_nil_iff.mp h.symm
      obtain rfl := Option.toList_eq_nil_iff.mp hp'
      exact ⟨hp, hq⟩
    · rintro ⟨hp, hq⟩
      exact ⟨none, [], hp, hq, rfl⟩

/-- What a line gives that is skipped behind the first call. -/
theorem pairs_reads {line : Bytes} (hline : IsLine line) {n : ℕ} (hn : 0 < n)
    (hrest : ∀ str ∈ reads n (line.drop n), Skipped str) {p : Option (Bytes × Bytes)}
    (hp : pair (cString (line.take n)) = .ok p) : pairs (reads n line) = .ok p.toList := by
  rw [reads_line hline hn, pairs_cons]
  exact ⟨p, [], hp, pairs_eq_nil.mpr hrest, (List.append_nil _).symm⟩

/-- What the body of the loop does with a key and a value. -/
theorem pair_eq {key : Bytes} (hkey : 61 ∉ key) (value : Bytes) :
    pair (key ++ 61 :: value) =
      if Invalid (key ++ 61 :: value) then .ok none
      else if maxKeyLen ≤ key.length ∨ maxLineLength ≤ value.length then .error .overrun
      else if lrtrim key = [] ∨ lrtrim value = [] then .ok none
      else .ok (some (lrtrim key, lrtrim value)) := by
  have hne : ∀ c ∈ key, decide (c ≠ 61) = true := fun c hc =>
    decide_eq_true fun h => hkey (h ▸ hc)
  have hmem : 61 ∈ key ++ 61 :: value := List.mem_append_right key List.mem_cons_self
  rw [pair, if_neg (not_not.mpr hmem)]
  rw [List.takeWhile_append_of_pos hne, List.dropWhile_append_of_pos hne,
    List.takeWhile_cons_of_neg (by simp), List.dropWhile_cons_of_neg (by simp), List.append_nil]
  rfl

theorem pair_of_not_mem {str : Bytes} (h : 61 ∉ str) : pair str = .ok none := by
  rw [pair, if_pos h]
  split <;> rfl

/-- White space behind a value changes nothing. -/
theorem pair_append_blank {str w : Bytes} (hw : Blank w) (hlen : 1 < str.length)
    (h : Returns (pair (str ++ w))) : pair (str ++ w) = pair str := by
  have hinvalid : Invalid (str ++ w) ↔ Invalid str := by
    obtain ⟨c, str, rfl⟩ := List.exists_cons_of_length_pos (Nat.zero_lt_of_lt hlen)
    refine or_congr (iff_of_false ?_ (not_le.mpr hlen)) Iff.rfl
    rw [List.length_append]
    omega
  by_cases h61 : 61 ∈ str
  · obtain ⟨key, value, rfl, hkey⟩ := List.eq_append_cons_of_mem h61
    rw [List.append_assoc, List.cons_append] at h hinvalid ⊢
    rw [pair_eq hkey] at h ⊢
    rw [pair_eq hkey, lrtrim_append_blank hw]
    by_cases hskip : Invalid (key ++ 61 :: value)
    · rw [if_pos (hinvalid.mpr hskip), if_pos hskip]
    rw [if_neg fun hand => hskip (hinvalid.mp hand)] at h ⊢
    rw [if_neg hskip]
    -- with the white space the value has room
    by_cases hroom : maxKeyLen ≤ key.length ∨ maxLineLength ≤ (value ++ w).length
    · rw [if_pos hroom] at h
      exact absurd h (not_returns_error _)
    · have hroom' : ¬ (maxKeyLen ≤ key.length ∨ maxLineLength ≤ value.length) := by
        rw [List.length_append] at hroom
        omega
      rw [if_neg hroom, if_neg hroom']
  · rw [pair_of_not_mem h61, pair_of_not_mem]
    intro hmem
    obtain hmem | hmem := List.mem_append.mp hmem
    · exact h61 hmem
    · exact absurd (hw 61 hmem) (by decide)

/-- A line that fits gives the same to both. -/
theorem Fits.same {line : Bytes} (h : Fits line) (hline : IsLine line) :
    ∃ ps, pairs (reads (maxLineNum - 2) line) = .ok ps ∧
      pairs (reads (maxLineLength - 2) line) = .ok ps := by
  have hload : 0 < maxLineNum - 2 := by decide
  have hcheck : 0 < maxLineLength - 2 := by decide
  -- what `CheckAndUpdateConfig` reads at first is the front of what `LoadConfigFile` does
  have hfront : cString (line.take (maxLineLength - 2)) =
      (cString (line.take (maxLineNum - 2))).take (maxLineLength - 2) := by
    have hmin : min (maxLineLength - 2) (maxLineNum - 2) = maxLineLength - 2 := by decide
    rw [cString, cString, List.take_takeWhile, List.take_take, hmin]
  obtain ⟨hskip, hskip'⟩ | ⟨hret, hblank⟩ := h.first
  · exact ⟨[], pairs_reads hline hload h.loadRest hskip, pairs_reads hline hcheck h.checkRest hskip'⟩
  · obtain ⟨p, hp⟩ := id hret
    refine ⟨p.toList, pairs_reads hline hload h.loadRest hp,
      pairs_reads hline hcheck h.checkRest ?_⟩
    rw [hfront, ← hp]
    generalize cString (line.take (maxLineNum - 2)) = str at hret hblank
    by_cases hlen : str.length ≤ maxLineLength - 2
    · rw [List.take_of_length_le hlen]
    · have hsplit := List.take_append_drop (maxLineLength - 2) str
      conv_rhs => rw [← hsplit]
      rw [← hsplit] at hret
      refine (pair_append_blank hblank ?_ hret).symm
      rw [List.length_take]
      simp only [maxLineLength] at hlen ⊢
      omega

/-- Lines that fit make a file that both read the same way. -/
theorem sameParse_of_fits {file : Bytes} (h : ∀ line ∈ fileLines file, Fits line) :
    SameParse file := by
  have hlines : ∀ lines : List Bytes, (∀ line ∈ lines, IsLine line) → (∀ line ∈ lines, Fits line) →
      ∃ ps, pairs (lines.flatMap (reads (maxLineNum - 2))) = .ok ps ∧
        pairs (lines.flatMap (reads (maxLineLength - 2))) = .ok ps := by
    intro lines hall hfits
    induction lines with
    | nil => exact ⟨[], rfl, rfl⟩
    | cons line lines ih =>
      obtain ⟨hline, hall⟩ := List.forall_mem_cons.mp hall
      obtain ⟨hfit, hfits⟩ := List.forall_mem_cons.mp hfits
      obtain ⟨p, hload, hcheck⟩ := hfit.same hline
      obtain ⟨ps, hload', hcheck'⟩ := ih hall hfits
      exact ⟨p ++ ps, pairs_append.mpr ⟨p, ps, hload, hload', rfl⟩,
        pairs_append.mpr ⟨p, ps, hcheck, hcheck', rfl⟩⟩
  have hreads : ∀ n, reads n file = (fileLines file).flatMap (reads n) := fun n =>
    reads_eq_flatMap List.not_mem_nil file
  unfold SameParse loadConfigFile checkAndUpdateConfig
  rw [hreads, hreads]
  exact hlines _ (fun line hmem => isLine_of_mem List.not_mem_nil hmem) h

/-! ## A line of text -/

theorem count_lrtrim (str : Bytes) : (lrtrim str).count 61 = str.count 61 := by
  have hblank : ∀ w : Bytes, Blank w → w.count 61 = 0 := fun w hw =>
    List.count_eq_zero.mpr fun h => absurd (hw 61 h) (by decide)
  have hfront : (str.dropWhile isSpace).count 61 = str.count 61 := by
    conv_rhs => rw [← List.takeWhile_append_dropWhile (p := isSpace) (l := str), List.count_append]
    rw [hblank _ fun c hc => List.mem_takeWhile_imp hc, Nat.zero_add]
  have hback := @List.rdropWhile_append_rtakeWhile _ isSpace (str.dropWhile isSpace)
  rw [lrtrim, ← hfront]
  conv_rhs => rw [← hback, List.count_append]
  rw [hblank ((str.dropWhile isSpace).rtakeWhile isSpace), Nat.add_zero]
  exact fun c hc => List.mem_rtakeWhile_imp hc

/-- The value behind a key is not all of it. -/
theorem value_ne_of_rest (key value : Bytes) : lrtrim value ≠ lrtrim (key ++ 61 :: value) := by
  intro h
  have hcount := congrArg (List.count 61) h
  rw [count_lrtrim, count_lrtrim, List.count_append, List.count_cons_self] at hcount
  omega

theorem lrtrim_blank_append {str w : Bytes} (hstr : Blank str) :
    lrtrim (str ++ w) = lrtrim w := by
  rw [lrtrim, List.dropWhile_append_of_pos hstr, lrtrim]

/-- Where a key and a value come from. -/
theorem pair_eq_some {str k v : Bytes} (h : pair str = .ok (some (k, v))) :
    ∃ key value, str = key ++ 61 :: value ∧ 61 ∉ key ∧ ¬ Invalid str ∧ key.length < maxKeyLen ∧
      value.length < maxLineLength ∧ ¬ Blank key ∧ ¬ Blank value ∧ k = lrtrim key ∧
        v = lrtrim value := by
  by_cases h61 : 61 ∈ str
  · obtain ⟨key, value, rfl, hkey⟩ := List.eq_append_cons_of_mem h61
    rw [pair_eq hkey] at h
    split at h
    · cases h
    split at h
    · cases h
    rename_i hvalid hroom
    rw [not_or, not_le, not_le] at hroom
    split at h <;> rename_i hblank
    · cases h
    · rw [lrtrim_eq_nil, lrtrim_eq_nil, not_or] at hblank
      cases h
      exact ⟨key, value, rfl, hkey, hvalid, hroom.1, hroom.2, hblank.1, hblank.2, rfl, rfl⟩
  · rw [pair_of_not_mem h61] at h
    cases h

theorem isLine_drop {line : Bytes} (h : IsLine line) {n : ℕ} (hne : line.drop n ≠ []) :
    IsLine (line.drop n) := by
  obtain ⟨-, x, tail, rfl, hx, htail⟩ := h
  refine ⟨hne, x.drop n, tail.drop (n - x.length), List.drop_append, fun hmem =>
    hx (List.mem_of_mem_drop hmem), ?_⟩
  obtain rfl | rfl := htail
  · exact .inl List.drop_nil
  · cases n - x.length with
    | zero => exact .inr rfl
    | succ k => exact .inl List.drop_nil

/-- Without a zero byte all of a buffer is its string. -/
theorem cString_of_not_mem {mem : Bytes} (h : 0 ∉ mem) : cString mem = mem :=
  cString_of_ne fun _ hc h0 => h (h0 ▸ hc)

/-- A long line whose first buffer gives the same as all of it ends in white space. -/
theorem blank_of_same {line : Bytes} (hline : IsLine line) (h0 : 0 ∉ line)
    (hlong : maxLineLength - 2 < line.length) {k v : Bytes} (hload : pair line = .ok (some (k, v)))
    {b : Option (Bytes × Bytes)} {q : List (Bytes × Bytes)}
    (hfirst : pair (line.take (maxLineLength - 2)) = .ok b)
    (hrest : pairs (reads (maxLineLength - 2) (line.drop (maxLineLength - 2))) = .ok q)
    (hsame : [(k, v)] = b.toList ++ q) : q = [] ∧ Blank (line.drop (maxLineLength - 2)) := by
  obtain ⟨key, value, rfl, hkey, hvalid, hklen, hvlen, hkblank, hvblank, rfl, rfl⟩ :=
    pair_eq_some hload
  -- the key is in the first buffer, with the front of the value
  obtain ⟨m, hm⟩ : ∃ m, maxLineLength - 2 = key.length + (m + 1) :=
    ⟨maxLineLength - 2 - key.length - 1, by simp only [maxLineLength, maxKeyLen] at *; omega⟩
  have htake : (key ++ 61 :: value).take (maxLineLength - 2) = key ++ 61 :: value.take m := by
    rw [hm, List.take_length_add_append, List.take_succ_cons]
  have hdrop : (key ++ 61 :: value).drop (maxLineLength - 2) = value.drop m := by
    rw [hm, List.drop_length_add_append, List.drop_succ_cons]
  have hvalue := List.take_append_drop m value
  rw [htake] at hfirst
  rw [hdrop] at hrest ⊢
  have hvalid' : ¬ Invalid (key ++ 61 :: value.take m) := by
    rw [← htake]
    refine not_or.mpr ⟨?_, fun hhead => hvalid (.inr ?_)⟩
    · rw [List.length_take]
      simp only [maxLineLength] at hlong ⊢
      omega
    · obtain ⟨c, str, hstr⟩ := List.exists_cons_of_ne_nil hline.1
      rw [hstr] at hhead ⊢
      exact hhead
  have hroom : ¬ (maxKeyLen ≤ key.length ∨ maxLineLength ≤ (value.take m).length) := by
    rw [List.length_take]
    omega
  rw [pair_eq hkey, if_neg hvalid', if_neg hroom] at hfirst
  have hne : value.drop m ≠ [] := by
    rw [← hdrop]
    exact List.ne_nil_of_length_pos (by rw [List.length_drop]; omega)
  by_cases hu : Blank (value.take m)
  · -- the value would have to be found in the rest
    rw [if_pos (.inr (lrtrim_eq_nil.mpr hu))] at hfirst
    obtain rfl := Except.ok.inj hfirst
    obtain rfl : q = _ := hsame.symm
    have hw : IsLine (value.drop m) := by
      rw [← hdrop] at hne ⊢
      exact isLine_drop hline hne
    have hshort : (value.drop m).length ≤ maxLineLength - 2 := by
      rw [List.length_drop]
      simp only [maxLineLength, maxKeyLen] at hm hklen hvlen ⊢
      omega
    rw [reads_line hw (by decide), List.drop_eq_nil_of_le hshort, List.take_of_length_le hshort,
      pairs_cons] at hrest
    obtain ⟨p, ps, hp, hps, hsame⟩ := hrest
    obtain rfl := Except.ok.inj hps
    rw [List.append_nil] at hsame
    obtain rfl : p = some _ := Option.toList_eq_singleton_iff.mp hsame.symm
    have h0w : 0 ∉ value.drop m := fun hmem =>
      h0 (List.mem_append_right key (List.mem_cons_of_mem _ (List.mem_of_mem_drop hmem)))
    rw [cString_of_not_mem h0w] at hp
    obtain ⟨key', value', hsplit, -, -, -, -, -, -, -, hv⟩ := pair_eq_some hp
    rw [← hvalue, lrtrim_blank_append hu, hsplit] at hv
    exact absurd hv.symm (value_ne_of_rest key' value')
  · rw [if_neg (not_or.mpr ⟨fun h => hkblank (lrtrim_eq_nil.mp h),
      fun h => hu (lrtrim_eq_nil.mp h)⟩)] at hfirst
    obtain rfl := Except.ok.inj hfirst
    obtain ⟨hpair, hq⟩ := List.cons.inj hsame
    refine ⟨hq.symm, blank_of_lrtrim_append hu ?_⟩
    rw [hvalue]
    exact congrArg Prod.snd hpair

/-- A line of text is read the same way only if it fits. -/
theorem fits_of_sameParse {line : Bytes} (hline : IsLine line) (h0 : 0 ∉ line)
    (hlen : line.length ≤ maxLineNum - 2) (h : SameParse line) : Fits line := by
  have hdrop : line.drop (maxLineNum - 2) = [] := List.drop_eq_nil_of_le hlen
  have htake : line.take (maxLineNum - 2) = line := List.take_of_length_le hlen
  have h0' : 0 ∉ line.take (maxLineLength - 2) := fun hmem => h0 (List.mem_of_mem_take hmem)
  obtain ⟨ps, hload, hcheck⟩ := h
  rw [loadConfigFile, reads_line hline (by decide), pairs_cons, htake, hdrop] at hload
  rw [checkAndUpdateConfig, reads_line hline (by decide), pairs_cons] at hcheck
  obtain ⟨a, r, ha, hr, rfl⟩ := hload
  obtain ⟨b, q, hb, hq, hsame⟩ := hcheck
  obtain rfl := Except.ok.inj hr
  rw [List.append_nil] at hsame
  have hloadRest : ∀ str ∈ reads (maxLineNum - 2) (line.drop (maxLineNum - 2)), Skipped str := by
    rw [hdrop]
    exact nofun
  cases a with
  | none =>
    obtain ⟨hbnil, rfl⟩ := List.append_eq_nil_iff.mp hsame.symm
    obtain rfl := Option.toList_eq_nil_iff.mp hbnil
    exact ⟨.inl ⟨by rwa [htake], hb⟩, hloadRest, pairs_eq_nil.mp hq⟩
  | some kv =>
    refine ⟨.inr ⟨⟨some kv, by rwa [htake]⟩, ?_⟩, hloadRest, ?_⟩
    all_goals
      rw [cString_of_not_mem h0] at ha
      rw [cString_of_not_mem h0'] at hb
    · rw [htake, cString_of_not_mem h0]
      by_cases hlong : maxLineLength - 2 < line.length
      · exact (blank_of_same hline h0 hlong ha hb hq hsame).2
      · rw [List.drop_eq_nil_of_le (not_lt.mp hlong)]
        exact nofun
    · by_cases hlong : maxLineLength - 2 < line.length
      · rw [(blank_of_same hline h0 hlong ha hb hq hsame).1] at hq
        exact pairs_eq_nil.mp hq
      · rw [List.drop_eq_nil_of_le (not_lt.mp hlong)]
        exact nofun

/-- **The configuration is reloaded as it was loaded** if all lines of the file fit; where the
file is a line of text, which one buffer of `LoadConfigFile` has room for, exactly if it fits. -/
theorem reload_as_load (file : Bytes) :
    ((∀ line ∈ fileLines file, Fits line) → SameParse file) ∧
      (IsLine file → 0 ∉ file → file.length ≤ maxLineNum - 2 → (SameParse file ↔ Fits file)) := by
  refine ⟨sameParse_of_fits, fun hline h0 hlen => ?_⟩
  refine ⟨fits_of_sameParse hline h0 hlen, fun hfits => sameParse_of_fits fun l hl => ?_⟩
  rw [fileLines_line hline] at hl
  obtain rfl := List.mem_singleton.mp hl
  exact hfits

/-- A file of one line. -/
def shortFile : Bytes := text "port=80\n"

theorem reload_as_load_short :
    SameParse shortFile ∧ (SameParse shortFile ↔ Fits shortFile) := by
  have hline : IsLine shortFile :=
    ⟨by decide +kernel, text "port=80", [10], by decide +kernel, by decide +kernel, .inr rfl⟩
  have hfits : Fits shortFile :=
    ⟨.inr ⟨⟨some (text "port", text "80"), by decide +kernel⟩, by decide +kernel⟩,
      by decide +kernel, by decide +kernel⟩
  refine ⟨(reload_as_load shortFile).1 fun line hmem => ?_, (reload_as_load shortFile).2 hline
    (by decide +kernel) (by decide +kernel)⟩
  rw [fileLines_line hline] at hmem
  obtain rfl := List.mem_singleton.mp hmem
  exact hfits

/-- A comment that is too long for the line buffer of `CheckAndUpdateConfig` by a setting. -/
def longComment : Bytes := 35 :: List.replicate 253 45 ++ text "port=80\n"

theorem longComment_not_same : ¬ SameParse longComment := by
  rintro ⟨ps, hload, hcheck⟩
  have hload' : loadConfigFile longComment = .ok [] := by decide +kernel
  have hcheck' : checkAndUpdateConfig longComment = .ok [(text "port", text "80")] := by
    decide +kernel
  rw [hload'] at hload
  rw [hcheck', ← Except.ok.inj hload] at hcheck
  cases hcheck

end PowerApi
