import PowerApi.Config
import PowerApi.InPlace

/-!
# `Ltrim`, `Rtrim` and `LRtrim` (`utils.c`)

The three functions on the memory that the string is in, access by access. Cursors that are an
`int` wrap around.

`LRtrim` moves its second cursor to the front without looking where that is: a blank string
has nothing to stop it. `trims_iff` says exactly which strings it trims without leaving them,
`trimmable_iff` that for strings of an ordinary length it is those with a character that is
not white space.
-/

namespace PowerApi

namespace InPlace

open Traced

/-- `Ltrim`. -/
def ltrim (fuel : ℕ) (t : Traced UInt8) (s : ℤ) : Option (ℤ × Traced UInt8) := do
  let (len, t) ← strlen fuel t s
  let p := s + len
  scan (fun t => 0 < p - t) isSpace (· + 1) fuel s t

/-- The loop of `Rtrim`. -/
def rtrimLoop (s : ℤ) : ℕ → ℤ → Traced UInt8 → Option (Traced UInt8)
  | 0, _, _ => none
  | fuel + 1, p, t =>
    if 0 < p - s then
      let p := p - 1
      if isSpace (t.mem p) then rtrimLoop s fuel p ((t.read p).write p 0) else some (t.read p)
    else some t

/-- `Rtrim`. -/
def rtrim (fuel : ℕ) (t : Traced UInt8) (s : ℤ) : Option (Traced UInt8) := do
  let (len, t) ← strlen fuel t s
  rtrimLoop s fuel (s + len) t

/-- The last loop of `LRtrim`, and the end behind what it copies. -/
def trimLoop (head tail : ℤ) : ℕ → ℤ → Traced UInt8 → Option (Traced UInt8)
  | 0, _, _ => none
  | fuel + 1, i, t =>
    if i ≤ wrapInt (tail - head) then
      let c := t.mem (wrapInt (head + i))
      trimLoop head tail fuel (wrapInt (i + 1)) ((t.read (wrapInt (head + i))).write i c)
    else some (t.write i 0)

/-- `LRtrim`. -/
def lrtrim (fuel : ℕ) (t : Traced UInt8) : Option (Traced UInt8) := do
  let (length, t) ← strlen fuel t 0
  let tail := wrapInt (length - 1)
  let (head, t) ← scan (fun _ => true) isSpace (fun head => wrapInt (head + 1)) fuel 0 t
  let (tail, t) ← scan (fun _ => true) isSpace (fun tail => wrapInt (tail - 1)) fuel tail t
  trimLoop head tail fuel 0 t

/-- What `LRtrim` is for. It comes to an end, and has only been where the string is. It leaves
the string without the white space around it, which is what `Rtrim` leaves of what `Ltrim`
returns. -/
def Trims (mem : ℤ → UInt8) (s : Bytes) : Prop :=
  ∃ fuel t', lrtrim fuel (start mem) = some t' ∧ StringAt t'.mem 0 (PowerApi.lrtrim s) ∧
    (∃ p t₁ t₂, ltrim fuel (start mem) 0 = some (p, t₁) ∧ rtrim fuel t₁ p = some t₂ ∧
      StringAt t₂.mem p (PowerApi.lrtrim s)) ∧
    t'.Inside {i | 0 ≤ i ∧ i ≤ s.length} {i | 0 ≤ i ∧ i ≤ s.length}

/-- There is a character that is not white space. The rest is about strings that an `int`
does not count: the second cursor begins in the string, only white space is behind it, and
what is to be moved is no longer than what the last loop can count. -/
def Trimmable (s : Bytes) : Prop :=
  ¬ Blank s ∧ 0 ≤ wrapInt (s.length - 1) ∧
    Blank (s.drop (wrapInt (s.length - 1) + 1).toNat) ∧
    (Blank (s.take 1) ∨ Blank (s.drop (2 ^ 31 - 1)))

section Trim

variable {t : Traced UInt8} {i : ℤ} {s : Bytes} {fuel : ℕ}

/-- `Rtrim` puts a zero byte on every blank from the back. -/
theorem rtrimLoop_eq {core post : Bytes} (h : StringAt t.mem i (core ++ post)) (hpost : Blank post)
    (hcore : ∀ c ∈ core.getLast?, isSpace c = false) (hfuel : post.length < fuel) :
    ∃ t', rtrimLoop i fuel (i + (core ++ post).length) t = some t' ∧ StringAt t'.mem i core ∧
      ∀ bd, t.Inside bd bd → (∀ k ≤ (core ++ post).length, i + (k : ℤ) ∈ bd) →
        t'.Inside bd bd := by
  obtain ⟨fuel, rfl⟩ := Nat.exists_eq_succ_of_ne_zero (Nat.ne_of_gt (Nat.zero_lt_of_lt hfuel))
  have hlt : ∀ {str : Bytes}, str ≠ [] → 0 < i + (str.length : ℤ) - i := fun hne => by
    have := List.length_pos_of_ne_nil hne
    omega
  induction post using List.reverseRecOn generalizing t fuel with
  | nil =>
    rw [List.append_nil] at h ⊢
    rw [rtrimLoop]
    cases core using List.reverseRecOn with
    | nil => exact ⟨t, if_neg (by simp), h, fun _ hin _ => hin⟩
    | append_singleton core c =>
      have hpos : i + ((core ++ [c]).length : ℤ) - 1 = i + core.length := by
        rw [List.length_append, List.length_singleton]
        omega
      have hc : t.mem (i + core.length) = c := by
        have hcell := @StringAt.getElem _ _ _ h core.length (by simp)
        simpa using hcell
      have hspace : isSpace c = false := hcore c (by simp)
      rw [if_pos (hlt (by simp)), hpos]
      dsimp only
      rw [hc, hspace]
      refine ⟨_, rfl, h, fun bd hin hbd => hin.read (hbd core.length (by simp))⟩
  | append_singleton post c ih =>
    have hpos : i + ((core ++ (post ++ [c])).length : ℤ) - 1 = i + (core ++ post).length := by
      simp only [List.length_append, List.length_singleton]
      omega
    rw [← List.append_assoc] at h
    have hc : t.mem (i + (core ++ post).length) = c := by
      have hcell := @StringAt.getElem _ _ _ h (core ++ post).length (by simp)
      simpa using hcell
    obtain ⟨hpost', hspace⟩ := List.forall_mem_append.mp hpost
    rw [List.length_append, List.length_singleton] at hfuel
    obtain ⟨fuel, rfl⟩ := Nat.exists_eq_succ_of_ne_zero (show fuel ≠ 0 by omega)
    obtain ⟨t', heq, hstr, hin⟩ := @ih ((t.read (i + (core ++ post).length)).write
      (i + (core ++ post).length) 0) h.cut hpost' fuel (by omega)
    rw [rtrimLoop, if_pos (hlt (by simp)), hpos]
    dsimp only
    rw [hc, if_pos (hspace c List.mem_cons_self)]
    refine ⟨t', heq, hstr, fun bd hbd hall => ?_⟩
    have hlen : (core ++ post).length ≤ (core ++ (post ++ [c])).length := by simp
    have hmem := hall _ hlen
    exact hin bd ((hbd.read hmem).write hmem 0) fun k hk => hall k (hk.trans hlen)

/-- A blank in its cell. -/
theorem isSpace_of_cells {mem : ℤ → UInt8} {x : Bytes} (h : Cells mem i x) (hx : Blank x) {k : ℕ}
    (hk : k < x.length) : isSpace (mem (i + k)) = true := by
  rw [cells_iff.mp h k hk]
  exact hx _ (List.getElem_mem hk)

/-- `Ltrim` goes to the first character that is not blank, or to the end. -/
theorem ltrim_eq (h : StringAt t.mem i s) (hfuel : s.length < fuel) :
    ∃ t', ltrim fuel t i = some (i + (s.takeWhile isSpace).length, t') ∧ t'.mem = t.mem ∧
      ∀ bd, t.Inside bd bd → (∀ k ≤ s.length, i + (k : ℤ) ∈ bd) → t'.Inside bd bd := by
  obtain ⟨t₁, hlen, hmem₁, hin₁⟩ := strlen_eq h hfuel
  rw [← hmem₁] at h ⊢
  have hsplit := List.takeWhile_append_dropWhile (p := isSpace) (l := s)
  generalize hx : s.takeWhile isSpace = x at hsplit ⊢
  generalize hy : s.dropWhile isSpace = y at hsplit
  have hblank : Blank x := fun c hc => List.mem_takeWhile_imp (hx ▸ hc)
  subst hsplit
  have hcells := h.cells
  rw [List.append_assoc, cells_append] at hcells
  rw [List.length_append] at hfuel
  -- the walk ends at the end of the string or at a character
  have hstop : decide (0 < i + ((x ++ y).length : ℤ) - (i + x.length)) = false ∨
      isSpace (t₁.mem (i + x.length)) = false := by
    cases y with
    | nil => exact .inl (by simp)
    | cons c y =>
      have hc := List.head?_dropWhile_not isSpace (x ++ c :: y)
      rw [hy] at hc
      exact .inr (by rw [hcells.2.1]; simpa using hc)
  obtain ⟨t', heq, hmem, hin⟩ := @scan_eq _ t₁ (fun t => 0 < i + ((x ++ y).length : ℤ) - t) isSpace
    (· + 1) fuel (fun k : ℕ => i + k) x.length (fun k _ => by push_cast; omega)
    (fun k hk => ⟨by simp; omega, isSpace_of_cells hcells.1 hblank hk⟩) hstop (by omega)
  rw [Nat.cast_zero, Int.add_zero] at heq
  refine ⟨t', ?_, hmem, fun bd hbd hall => hin bd bd (hin₁ bd bd hbd hall) fun k hk => ?_⟩
  · rw [ltrim, hlen]
    exact heq
  · exact hall k (hk.trans (by simp))

/-- The white space in front, the text, and the white space behind. -/
theorem trimmed_split (s : Bytes) :
    s.takeWhile isSpace ++ (PowerApi.lrtrim s ++ (s.dropWhile isSpace).rtakeWhile isSpace) = s := by
  rw [PowerApi.lrtrim, List.rdropWhile_append_rtakeWhile, List.takeWhile_append_dropWhile]

/-- The text does not begin with white space. -/
theorem lrtrim_head {c : UInt8} (hc : c ∈ (PowerApi.lrtrim s).head?) : isSpace c = false := by
  have hhead := List.head?_dropWhile_not isSpace s
  obtain ⟨post, hpost⟩ := List.rdropWhile_prefix isSpace (l := s.dropWhile isSpace)
  have hmem : (s.dropWhile isSpace).head? = some c := by
    rw [PowerApi.lrtrim] at hc
    rw [← hpost, List.head?_append, Option.mem_def.mp hc, Option.some_or]
  rw [hmem] at hhead
  simpa using hhead

/-- The text does not end with white space. -/
theorem lrtrim_getLast {c : UInt8} (hc : c ∈ (PowerApi.lrtrim s).getLast?) : isSpace c = false := by
  rw [PowerApi.lrtrim] at hc
  obtain ⟨hne, rfl⟩ := List.mem_getLast?_eq_getLast hc
  exact Bool.eq_false_iff.mpr (List.rdropWhile_last_not isSpace _ hne)

/-- **`Rtrim` behind `Ltrim`** leaves the string without the white space around it. -/
theorem rtrim_ltrim (h : StringAt t.mem i s) (hfuel : s.length < fuel) :
    ∃ p t₁ t', ltrim fuel t i = some (p, t₁) ∧ rtrim fuel t₁ p = some t' ∧
      StringAt t'.mem p (PowerApi.lrtrim s) ∧
      ∀ bd, t.Inside bd bd → (∀ k ≤ s.length, i + (k : ℤ) ∈ bd) → t'.Inside bd bd := by
  obtain ⟨t₁, hltrim, hmem₁, hin₁⟩ := ltrim_eq h hfuel
  have hpost : Blank ((s.dropWhile isSpace).rtakeWhile isSpace) := fun c => List.mem_rtakeWhile_imp
  have hsplit := trimmed_split s
  have hcore := @lrtrim_getLast s
  generalize s.takeWhile isSpace = x at hsplit hltrim
  generalize (s.dropWhile isSpace).rtakeWhile isSpace = post at hsplit hpost
  generalize PowerApi.lrtrim s = core at hsplit hcore ⊢
  subst hsplit
  rw [List.length_append] at hfuel
  rw [← hmem₁] at h
  have hrest := h.drop (k := x.length) (by simp)
  rw [List.drop_left] at hrest
  obtain ⟨t₂, hlen, hmem₂, hin₂⟩ := strlen_eq hrest (show _ < fuel by omega)
  rw [← hmem₂] at hrest
  rw [List.length_append] at hfuel
  obtain ⟨t', hrtrim, hstr, hin⟩ := rtrimLoop_eq hrest hpost (fun c => hcore)
    (show _ < fuel by omega)
  refine ⟨i + x.length, t₁, t', hltrim, ?_, hstr, fun bd hbd hall => ?_⟩
  · rw [rtrim, hlen]
    exact hrtrim
  · have hall' : ∀ k ≤ (core ++ post).length, i + x.length + (k : ℤ) ∈ bd := fun k hk => by
      have hmem := hall (x.length + k) (by rw [List.length_append]; omega)
      rwa [Nat.cast_add, ← Int.add_assoc] at hmem
    exact hin bd (hin₂ bd bd (hin₁ bd hbd hall) hall') hall'

/-- The text is moved to the front, and ended there. -/
theorem trimLoop_eq {mem₀ : ℤ → UInt8} {head m j k : ℕ} (h : Copied mem₀ t.mem 0 head k)
    (hk : k + j = m) (hpos : 0 < m) (hm : m < 2 ^ 31) (hhead : head + m ≤ 2 ^ 31)
    (hfuel : j < fuel) :
    ∃ t' mem, trimLoop head (head + m - 1) fuel k t = some t' ∧ Copied mem₀ mem 0 head m ∧
      t'.mem = Function.update mem m 0 ∧
      ∀ bd, t.Inside bd bd → (∀ i < head + m, (i : ℤ) ∈ bd) → (∀ i ≤ m, (i : ℤ) ∈ bd) →
        t'.Inside bd bd := by
  have hlast : wrapInt ((head : ℤ) + m - 1 - head) = m - 1 := by
    rw [wrapInt_of_int (by omega) (by omega)]
    omega
  induction j generalizing k t fuel with
  | zero =>
    obtain ⟨fuel, rfl⟩ := Nat.exists_eq_succ_of_ne_zero (Nat.ne_of_gt hfuel)
    obtain rfl : k = m := hk
    rw [trimLoop, hlast, if_neg (by omega)]
    exact ⟨_, t.mem, rfl, h, rfl, fun bd hbd _ hle => hbd.write (hle k le_rfl) 0⟩
  | succ j ih =>
    obtain ⟨fuel, rfl⟩ := Nat.exists_eq_succ_of_ne_zero (Nat.ne_of_gt (Nat.zero_lt_of_lt hfuel))
    have hsrc : wrapInt ((head : ℤ) + k) = head + k := wrapInt_of_int (by omega) (by omega)
    have hnext : wrapInt ((k : ℤ) + 1) = ((k + 1 : ℕ) : ℤ) := by
      rw [wrapInt_of_int (by omega) (by omega)]
      omega
    rw [trimLoop, hlast, if_pos (by omega), hsrc, hnext]
    have hstep := h.step (Int.natCast_nonneg head)
    rw [Int.zero_add] at hstep
    obtain ⟨t', mem, heq, hmem, hend, hin⟩ := @ih ((t.read (head + k)).write k (t.mem (head + k)))
      fuel (k + 1) hstep (by omega) (Nat.lt_of_succ_lt_succ hfuel)
    refine ⟨t', mem, heq, hmem, hend, fun bd hbd hlt hle => hin bd ?_ hlt hle⟩
    exact (hbd.read (by exact_mod_cast hlt (head + k) (by omega))).write (hle k (by omega)) _

/-- The first cursor stops behind the blanks in front of the text. -/
theorem headScan_eq {pre : Bytes} (hcells : Cells t.mem 0 pre) (hpre : Blank pre)
    (hstop : isSpace (t.mem pre.length) = false) (hlt : pre.length < 2 ^ 31)
    (hfuel : pre.length < fuel) :
    ∃ t', scan (fun _ => true) isSpace (fun head => wrapInt (head + 1)) fuel 0 t =
        some ((pre.length : ℤ), t') ∧ t'.mem = t.mem ∧
      ∀ bd, t.Inside bd bd → (∀ k ≤ pre.length, (k : ℤ) ∈ bd) → t'.Inside bd bd := by
  obtain ⟨t', heq, hmem, hin⟩ := @scan_eq _ t (fun _ => true) isSpace
    (fun head => wrapInt (head + 1)) fuel (fun k : ℕ => (k : ℤ)) pre.length
    (fun k hk => by rw [wrapInt_of_int (by omega) (by omega)]; exact (Nat.cast_succ k).symm)
    (fun k hk => ⟨rfl, by simpa using isSpace_of_cells hcells hpre hk⟩) (.inr hstop) hfuel
  rw [Nat.cast_zero] at heq
  exact ⟨t', heq, hmem, fun bd => hin bd bd⟩

/-- The second one stops before the blanks behind it. -/
theorem tailScan_eq {post : Bytes} {n : ℕ} (hcells : Cells t.mem n post) (hpost : Blank post)
    (hstop : isSpace (t.mem (n - 1)) = false) (hpos : 0 < n) (hle : n + post.length ≤ 2 ^ 31)
    (hfuel : post.length < fuel) :
    ∃ t', scan (fun _ => true) isSpace (fun tail => wrapInt (tail - 1)) fuel
        (n + post.length - 1) t = some ((n : ℤ) - 1, t') ∧ t'.mem = t.mem ∧
      ∀ bd, t.Inside bd bd → (∀ k < n + post.length, (k : ℤ) ∈ bd) → t'.Inside bd bd := by
  have hback : ∀ k < post.length, isSpace (t.mem (n + post.length - 1 - k)) = true := fun k hk => by
    have hcell : (n + post.length - 1 - k : ℤ) = n + (post.length - 1 - k : ℕ) := by omega
    rw [hcell]
    exact isSpace_of_cells hcells hpost (by omega)
  have hmeet : (n + post.length - 1 - post.length : ℤ) = n - 1 := by omega
  obtain ⟨t', heq, hmem, hin⟩ := @scan_eq _ t (fun _ => true) isSpace
    (fun tail => wrapInt (tail - 1)) fuel (fun k : ℕ => (n + post.length - 1 - k : ℤ)) post.length
    (fun k hk => by rw [wrapInt_of_int (by omega) (by omega)]; push_cast; omega)
    (fun k hk => ⟨rfl, hback k hk⟩) (.inr (by rwa [hmeet])) hfuel
  rw [Nat.cast_zero, Int.sub_zero, hmeet] at heq
  refine ⟨t', heq, hmem, fun bd hbd hall => hin bd bd hbd fun k hk => ?_⟩
  have hcell : (n + post.length - 1 - k : ℤ) = (n + post.length - 1 - k : ℕ) := by omega
  rw [hcell]
  exact hall _ (by omega)

/-- The two cursors meet the text from its ends, and it is moved to the front. -/
theorem lrtrim_run {w : Bytes} (h : StringAt t.mem 0 (s ++ w)) (hs : ¬ Blank s)
    (htail : wrapInt ((s ++ w).length - 1) = s.length - 1)
    (hshort : (PowerApi.lrtrim s).length < 2 ^ 31) (hfuel : (s ++ w).length < fuel) :
    ∃ t', lrtrim fuel t = some t' ∧ StringAt t'.mem 0 (PowerApi.lrtrim s) ∧
      ∀ bd, t.Inside bd bd → (∀ k ≤ (s ++ w).length, (k : ℤ) ∈ bd) → t'.Inside bd bd := by
  have hpre : Blank (s.takeWhile isSpace) := fun c => List.mem_takeWhile_imp
  have hpost : Blank ((s.dropWhile isSpace).rtakeWhile isSpace) := fun c => List.mem_rtakeWhile_imp
  have hne : PowerApi.lrtrim s ≠ [] := fun hnil => hs (lrtrim_eq_nil.mp hnil)
  have hsplit := trimmed_split s
  have hhead := @lrtrim_head s
  have hlast := @lrtrim_getLast s
  generalize s.takeWhile isSpace = pre at hsplit hpre
  generalize (s.dropWhile isSpace).rtakeWhile isSpace = post at hsplit hpost
  generalize PowerApi.lrtrim s = core at hsplit hne hhead hlast hshort ⊢
  rw [← List.append_assoc] at hsplit
  subst hsplit
  have hsum : (pre ++ core ++ post).length = pre.length + core.length + post.length := by
    simp only [List.length_append]
  have hbounds := wrapInt_bounds ((pre ++ core ++ post ++ w).length - 1)
  have hpos := List.length_pos_of_ne_nil hne
  rw [htail, hsum] at hbounds
  obtain ⟨t₁, hlen, hmem₁, hin₁⟩ := strlen_eq h hfuel
  rw [List.length_append, hsum] at hfuel
  rw [← hmem₁] at h
  have hcells := h.cells
  simp only [List.append_assoc, cells_append, Int.zero_add] at hcells
  obtain ⟨hcpre, hccore, hcpost, -⟩ := hcells
  have hfirst : isSpace (t₁.mem pre.length) = false := by
    have hcell := cells_iff.mp hccore 0 hpos
    rw [Nat.cast_zero, Int.add_zero] at hcell
    rw [hcell]
    exact hhead (by rw [List.head?_eq_getElem?]; exact List.getElem?_eq_getElem hpos)
  have hend : isSpace (t₁.mem ((pre.length + core.length : ℕ) - 1)) = false := by
    have hlt : core.length - 1 < core.length := Nat.sub_one_lt_of_lt hpos
    have hcell : ((pre.length + core.length : ℕ) - 1 : ℤ) =
        pre.length + (core.length - 1 : ℕ) := by omega
    rw [hcell, cells_iff.mp hccore _ hlt]
    exact hlast (by rw [List.getLast?_eq_getElem?]; exact List.getElem?_eq_getElem hlt)
  obtain ⟨t₂, hscan₂, hmem₂, hin₂⟩ := headScan_eq hcpre hpre hfirst (by omega)
    (show _ < fuel by omega)
  rw [← Nat.cast_add, ← hmem₂] at hcpost
  rw [← hmem₂] at hend
  obtain ⟨t₃, hscan₃, hmem₃, hin₃⟩ := tailScan_eq hcpost hpost hend (by omega) (by omega)
    (show _ < fuel by omega)
  obtain ⟨t', mem, hloop, hcopied, hmem', hin'⟩ := trimLoop_eq (copied_zero t₃.mem 0 pre.length)
    (Nat.zero_add core.length) hpos hshort (by omega) (show _ < fuel by omega)
  refine ⟨t', ?_, ?_, fun bd hbd hall => ?_⟩
  · rw [lrtrim, hlen]
    rw [hsum, Nat.cast_add, Nat.cast_add] at htail
    rw [Nat.cast_add] at hscan₃
    rw [Nat.cast_zero] at hloop
    simp only [Option.bind_eq_bind, Option.bind_some, hscan₂, htail, hscan₃, hloop]
  · rw [hmem']
    have hcore : Cells t₃.mem pre.length core := by rwa [hmem₃, hmem₂]
    have hstr := stringAt_update (hcopied.cells hcore le_rfl) fun c hc => h.ne_zero c (by simp [hc])
    rwa [Int.zero_add] at hstr
  · have hbd₁ := hin₁ bd bd hbd fun k hk => by simpa using hall k hk
    simp only [List.length_append] at hall
    exact hin' bd (hin₃ bd (hin₂ bd hbd₁ fun k hk => hall k (by omega)) fun k hk =>
      hall k (by omega)) (fun k hk => hall k (by omega)) fun k hk => hall k (by omega)

/-- What has been read stays read. -/
theorem trimLoop_mono {head tail : ℤ} {t' : Traced UInt8}
    (h : trimLoop head tail fuel i t = some t') : ∀ j ∈ t.reads, j ∈ t'.reads := by
  induction fuel generalizing i t with
  | zero => cases h
  | succ fuel ih =>
    rw [trimLoop] at h
    split at h
    · exact fun j hj => ih h j (List.mem_cons_of_mem _ hj)
    · cases h
      exact fun j hj => hj

/-- No `int` is behind the last one. -/
theorem trimLoop_endless (hi : i < 2 ^ 31) : trimLoop 0 (2 ^ 31 - 1) fuel i t = none := by
  induction fuel generalizing i t with
  | zero => rfl
  | succ fuel ih =>
    have hlast : wrapInt (2 ^ 31 - 1 - 0) = 2 ^ 31 - 1 := wrapInt_of_int (by omega) (by omega)
    rw [trimLoop, hlast, if_pos (by omega)]
    exact ih (wrapInt_bounds (i + 1)).2

/-- The steps of `LRtrim`, when it comes to an end. -/
theorem lrtrim_steps {t' : Traced UInt8} (h : StringAt t.mem 0 s) (hrun : lrtrim fuel t = some t') :
    ∃ t₁ head t₂ tail t₃, t₁.mem = t.mem ∧
      scan (fun _ => true) isSpace (fun head => wrapInt (head + 1)) fuel 0 t₁ = some (head, t₂) ∧
      scan (fun _ => true) isSpace (fun tail => wrapInt (tail - 1)) fuel (wrapInt (s.length - 1))
        t₂ = some (tail, t₃) ∧ trimLoop head tail fuel 0 t₃ = some t' := by
  rw [lrtrim, strlen] at hrun
  simp only [Option.bind_eq_bind, Option.bind_eq_some_iff, Option.map_eq_some_iff] at hrun
  obtain ⟨⟨len, t₀⟩, ⟨⟨p, t₁⟩, hlen, hp⟩, ⟨head, t₂⟩, hhead, ⟨tail, t₃⟩, htail, hloop⟩ := hrun
  cases hp
  have hpos := @scan_stop _ t (fun _ => true) (· ≠ 0) (· + 1) fuel _
    (fun k : ℕ => (k : ℤ)) s.length hlen (fun k _ => rfl)
    (fun k hk => ⟨rfl, by simpa using h.ne_end hk⟩) (.inr (by simpa using h.end_eq))
  dsimp only at hpos
  rw [Int.sub_zero, hpos] at htail
  exact ⟨t₁, head, t₂, tail, t₃, scan_mem hlen, hhead, htail, hloop⟩

/-- More time changes nothing. -/
theorem trimLoop_fuel {head tail : ℤ} {fuel' : ℕ} {t' : Traced UInt8}
    (h : trimLoop head tail fuel i t = some t') (hle : fuel ≤ fuel') :
    trimLoop head tail fuel' i t = some t' := by
  induction fuel generalizing i t fuel' with
  | zero => cases h
  | succ fuel ih =>
    obtain ⟨fuel', rfl⟩ := Nat.exists_eq_succ_of_ne_zero (show fuel' ≠ 0 by omega)
    rw [trimLoop] at h ⊢
    split at h
    · rename_i hi
      rw [if_pos hi]
      exact ih h (Nat.le_of_succ_le_succ hle)
    · rename_i hi
      rwa [if_neg hi]

theorem lrtrim_fuel {fuel' : ℕ} {t' : Traced UInt8} (h : lrtrim fuel t = some t')
    (hle : fuel ≤ fuel') : lrtrim fuel' t = some t' := by
  rw [lrtrim, strlen] at h ⊢
  simp only [Option.bind_eq_bind, Option.bind_eq_some_iff, Option.map_eq_some_iff] at h ⊢
  obtain ⟨r₁, ⟨r₀, hlen, hr⟩, r₂, hhead, r₃, htail, hloop⟩ := h
  exact ⟨r₁, ⟨r₀, scan_fuel hlen hle, hr⟩, r₂, scan_fuel hhead hle, r₃, scan_fuel htail hle,
    trimLoop_fuel hloop hle⟩

/-- The second cursor goes on while there is white space. -/
theorem lrtrim_reads {t' : Traced UInt8} {tail : ℤ} {n : ℕ} (h : StringAt t.mem 0 s)
    (hrun : lrtrim fuel t = some t') (htail : wrapInt (s.length - 1) = tail)
    (hblank : ∀ k < n, (k : ℤ) ≤ tail ∧ isSpace (t.mem (tail - k)) = true) :
    tail - n ∈ t'.reads := by
  obtain ⟨t₁, head, t₂, tail', t₃, hmem₁, hscan₁, hscan₂, hloop⟩ := lrtrim_steps h hrun
  have hbounds := wrapInt_bounds (s.length - 1)
  rw [htail] at hbounds hscan₂
  refine trimLoop_mono hloop _ (@scan_reads _ t₂ isSpace (fun tail => wrapInt (tail - 1)) fuel
    (tail', t₃) (fun k : ℕ => tail - k) n (by simpa using hscan₂) (fun k hk => ?_) fun k hk => ?_)
  · have hle := (hblank k hk).1
    rw [wrapInt_of_int (by omega) (by omega)]
    push_cast
    omega
  · have hmem₂ : t₂.mem = t.mem := (scan_mem hscan₁).trans hmem₁
    rw [hmem₂]
    exact (hblank k hk).2

/-- A text that fills all positions of an `int` is moved without an end. -/
theorem lrtrim_endless (h : StringAt t.mem 0 s)
    (htail : wrapInt (s.length - 1) = 2 ^ 31 - 1) (hhead : isSpace (t.mem 0) = false)
    (hlast : isSpace (t.mem (2 ^ 31 - 1)) = false) : lrtrim fuel t = none := by
  by_contra hrun
  obtain ⟨t', hrun⟩ := Option.ne_none_iff_exists'.mp hrun
  obtain ⟨t₁, head, t₂, tail, t₃, hmem₁, hscan₁, hscan₂, hloop⟩ := lrtrim_steps h hrun
  have hmem₂ : t₂.mem = t.mem := (scan_mem hscan₁).trans hmem₁
  have hhead' := @scan_stop _ t₁ (fun _ => true) isSpace (fun head => wrapInt (head + 1))
    fuel _ (fun _ => 0) 0 hscan₁ nofun nofun (.inr (by rw [hmem₁]; exact hhead))
  rw [htail] at hscan₂
  have htail' := @scan_stop _ t₂ (fun _ => true) isSpace (fun tail => wrapInt (tail - 1))
    fuel _ (fun _ => 2 ^ 31 - 1) 0 hscan₂ nofun nofun
    (.inr (by rw [hmem₂]; exact hlast))
  dsimp only at hhead' htail'
  rw [hhead', htail', trimLoop_endless (by omega)] at hloop
  cases hloop

theorem lrtrim_length_le (s : Bytes) : (PowerApi.lrtrim s).length ≤ s.length :=
  (List.rdropWhile_prefix ..).length_le.trans (List.dropWhile_suffix _).length_le

/-- A text without white space at its ends fills all of its cells. -/
theorem lrtrim_short (hlen : s.length ≤ 2 ^ 31)
    (hs : Blank (s.take 1) ∨ Blank (s.drop (2 ^ 31 - 1))) :
    (PowerApi.lrtrim s).length < 2 ^ 31 := by
  by_cases hshort : s.length < 2 ^ 31
  · exact Nat.lt_of_le_of_lt (lrtrim_length_le s) hshort
  · obtain hfirst | hlast := hs
    · have hdrop := lrtrim_length_le (s.drop 1)
      rw [← lrtrim_blank_append hfirst, List.take_append_drop, List.length_drop] at hdrop
      omega
    · have htake := lrtrim_length_le (s.take (2 ^ 31 - 1))
      rw [← lrtrim_append_blank hlast, List.take_append_drop, List.length_take] at htake
      omega

/-- The second cursor does not begin behind the last character. -/
theorem wrapInt_pred_le (n : ℕ) : wrapInt (n - 1) ≤ n - 1 := by
  obtain hlt | hge := lt_or_ge (n - 1 : ℤ) (2 ^ 31)
  · exact (wrapInt_of_int (by omega) hlt).le
  · exact (wrapInt_bounds (n - 1)).2.le.trans hge

/-- White space alone does not stop the second cursor. -/
theorem lrtrim_leaves {t' : Traced UInt8} {k : ℕ} (h : StringAt t.mem 0 s)
    (hrun : lrtrim fuel t = some t') (htail : wrapInt (s.length - 1) = k - 1) (hk : k ≤ s.length)
    (hblank : Blank (s.take k)) : (-1 : ℤ) ∈ t'.reads := by
  have hread := lrtrim_reads h hrun htail (n := k) fun j hj => by
    refine ⟨by omega, ?_⟩
    have hpos : (k - 1 - j : ℤ) = 0 + (k - 1 - j : ℕ) := by omega
    have hlt : k - 1 - j < s.length := by omega
    rw [hpos, h.getElem hlt]
    exact hblank _ (List.mem_take_iff_getElem.mpr ⟨k - 1 - j, by omega, rfl⟩)
  have hpos : (k - 1 - k : ℤ) = -1 := by omega
  rwa [hpos] at hread

/-- The text of a `Trimmable` string is moved to the front. -/
theorem trims_of_trimmable (h : StringAt t.mem 0 s) (hs : Trimmable s) (hfuel : s.length < fuel) :
    ∃ t', lrtrim fuel t = some t' ∧ StringAt t'.mem 0 (PowerApi.lrtrim s) ∧
      ∀ bd, t.Inside bd bd → (∀ k ≤ s.length, (k : ℤ) ∈ bd) → t'.Inside bd bd := by
  obtain ⟨hne, hpos, hrest, hends⟩ := hs
  have hle := wrapInt_pred_le s.length
  have hbounds := wrapInt_bounds (s.length - 1)
  obtain ⟨k, hk⟩ := Int.eq_ofNat_of_zero_le hpos
  rw [hk] at hrest hle hbounds
  have hsucc : ((k : ℤ) + 1).toNat = k + 1 := by omega
  rw [hsucc] at hrest
  have hlen : (s.take (k + 1)).length = k + 1 := List.length_take_of_le (by omega)
  have hshort : (PowerApi.lrtrim s).length < 2 ^ 31 := by
    rw [← List.take_append_drop (k + 1) s, lrtrim_append_blank hrest]
    refine lrtrim_short (by omega) (hends.imp (fun hfirst c hc => hfirst c ?_)
      fun hlast c hc => hlast c ?_)
    · rw [List.take_take, Nat.min_eq_left (Nat.succ_le_succ (Nat.zero_le k))] at hc
      exact hc
    · rw [List.drop_take] at hc
      exact List.mem_of_mem_take hc
  have htake : ¬ Blank (s.take (k + 1)) := fun hblank => hne (by
    rw [← List.take_append_drop (k + 1) s]
    exact List.forall_mem_append.mpr ⟨hblank, hrest⟩)
  have hrun := @lrtrim_run t (s.take (k + 1)) fuel (s.drop (k + 1))
  rw [List.take_append_drop, hlen, ← lrtrim_append_blank hrest, List.take_append_drop] at hrun
  exact hrun h htake (by rw [hk]; omega) hshort hfuel

/-- A character that is not white space. -/
theorem exists_of_not_blank {m n : ℕ} (hs : ¬ Blank ((s.take n).drop m)) (hn : n ≤ m + 1) :
    m < n ∧ ∃ hm : m < s.length, isSpace s[m] = false := by
  rw [Blank, not_forall₂] at hs
  obtain ⟨c, hc, hspace⟩ := hs
  obtain ⟨j, hj, rfl⟩ := List.mem_drop_iff_getElem.mp hc
  rw [List.length_take] at hj
  obtain rfl : j = 0 := by omega
  refine ⟨by omega, by omega, ?_⟩
  rw [List.getElem_take] at hspace
  exact Bool.eq_false_iff.mpr hspace

/-- A run that has only been where the string is began with a `Trimmable` string. -/
theorem trimmable_of_run {t' : Traced UInt8} (h : StringAt t.mem 0 s)
    (hrun : lrtrim fuel t = some t') (hstr : StringAt t'.mem 0 (PowerApi.lrtrim s))
    (hreads : ∀ i ∈ t'.reads, 0 ≤ i) : Trimmable s := by
  have hpos : 0 ≤ wrapInt (s.length - 1) := by
    have hread := lrtrim_reads h hrun rfl (n := 0) nofun
    simpa using hreads _ hread
  have hle := wrapInt_pred_le s.length
  have hbounds := wrapInt_bounds (s.length - 1)
  obtain ⟨k, hk⟩ := Int.eq_ofNat_of_zero_le hpos
  rw [hk] at hle hbounds
  have hlen : (s.take (k + 1)).length = k + 1 := List.length_take_of_le (by omega)
  have htake : ¬ Blank (s.take (k + 1)) := fun hblank => by
    have htail : wrapInt (s.length - 1) = (k + 1 : ℕ) - 1 := by
      rw [hk]
      omega
    have hfront := lrtrim_leaves h hrun htail (by omega) hblank
    exact absurd (hreads _ hfront) (by omega)
  have hends : Blank (s.take 1) ∨ Blank ((s.take (k + 1)).drop (2 ^ 31 - 1)) := by
    by_contra hboth
    obtain ⟨hfirst, hlast⟩ := not_or.mp hboth
    obtain ⟨-, hzero, hhead⟩ := exists_of_not_blank (m := 0) hfirst le_rfl
    obtain ⟨hfull, hmax, hend⟩ := exists_of_not_blank hlast (by omega)
    rw [← h.getElem hzero] at hhead
    rw [← h.getElem hmax] at hend
    have htail : wrapInt (s.length - 1) = 2 ^ 31 - 1 := by
      rw [hk]
      omega
    rw [lrtrim_endless h htail (by simpa using hhead) (by simpa using hend)] at hrun
    cases hrun
  have hshort := lrtrim_short (s := s.take (k + 1)) (by omega) (hends.imp_left fun hfirst c hc =>
    hfirst c (by rwa [List.take_take, Nat.min_eq_left (Nat.succ_le_succ (Nat.zero_le k))] at hc))
  -- what it leaves is the text of the part that the second cursor has gone through
  have hrest : Blank (s.drop (k + 1)) := by
    have hcut := @lrtrim_run t (s.take (k + 1)) (max fuel (s.length + 1)) (s.drop (k + 1))
    rw [List.take_append_drop, hlen] at hcut
    obtain ⟨t₂, hrun₂, hstr₂, -⟩ := hcut h htake (by rw [hk]; omega) hshort (by omega)
    rw [lrtrim_fuel hrun (le_max_left ..)] at hrun₂
    cases hrun₂
    refine blank_of_lrtrim_append htake ?_
    rw [List.take_append_drop]
    exact hstr.unique hstr₂
  have hsucc : ((k : ℤ) + 1).toNat = k + 1 := by omega
  refine ⟨fun hblank => htake fun c hc => hblank c (List.mem_of_mem_take hc), hpos, ?_, ?_⟩
  · rwa [hk, hsucc]
  · refine hends.imp_right fun hlast => ?_
    rw [← List.take_append_drop (k + 1) s, List.drop_append]
    exact List.forall_mem_append.mpr ⟨hlast, fun c hc => hrest c (List.mem_of_mem_drop hc)⟩

/-- **`LRtrim` trims, and stays in the string, just when it is `Trimmable`.** -/
theorem trims_iff {mem : ℤ → UInt8} (h : StringAt mem 0 s) : Trims mem s ↔ Trimmable s := by
  constructor
  · rintro ⟨fuel, t', hrun, hstr, -, hin⟩
    exact trimmable_of_run h hrun hstr fun i hi => (hin.reads i hi).1
  · intro hs
    have hin : (start mem).Inside {i | 0 ≤ i ∧ i ≤ (s.length : ℤ)} {i | 0 ≤ i ∧ i ≤ s.length} :=
      inside_start ..
    obtain ⟨t', hrun, hstr, hin'⟩ := trims_of_trimmable (t := start mem) h hs (Nat.lt_succ_self _)
    obtain ⟨p, t₁, t₂, hltrim, hrtrim, hstr₂, -⟩ := rtrim_ltrim (t := start mem) h
      (Nat.lt_succ_self _)
    exact ⟨_, t', hrun, hstr, ⟨p, t₁, t₂, hltrim, hrtrim, hstr₂⟩,
      hin' _ hin fun k hk => ⟨by omega, by omega⟩⟩

/-- For a string that an `int` counts, white space alone is the only trouble. -/
theorem trimmable_iff (hs : s.length < 2 ^ 31) : Trimmable s ↔ ¬ Blank s := by
  refine ⟨And.left, fun hne => ?_⟩
  have hempty : Blank [] := fun _ hc => absurd hc List.not_mem_nil
  have hpos : 0 < s.length := List.length_pos_of_ne_nil fun hnil => hne (hnil ▸ hempty)
  have htail : wrapInt (s.length - 1) = s.length - 1 := wrapInt_of_int (by omega) (by omega)
  have hall : (s.length - 1 + 1 : ℤ).toNat = s.length := by omega
  refine ⟨hne, by omega, ?_, .inr ?_⟩
  · rw [htail, hall, List.drop_length]
    exact hempty
  · rw [List.drop_of_length_le (by omega)]
    exact hempty

end Trim

/-- A blank, and a letter. -/
theorem trims_letter :
    Trims (fun i => if i = 0 then 32 else if i = 1 then 97 else 0) [32, 97] :=
  (trims_iff ⟨by simp [Cells], by simp⟩).mpr
    ((trimmable_iff (by decide)).mpr (by simp [Blank, isSpace]))

/-- The key of `=value` is empty, and the byte before it is read. -/
theorem not_trims_empty : ¬ ∀ (mem : ℤ → UInt8) (s : Bytes), StringAt mem 0 s → Trims mem s := by
  intro hall
  have hempty : StringAt (fun _ => 0) 0 [] := stringAt_nil.mpr rfl
  obtain ⟨fuel, t', hrun, -, -, hin⟩ := hall (fun _ => 0) [] hempty
  have hfront := lrtrim_leaves (t := start fun _ => 0) hempty hrun (k := 0) rfl le_rfl nofun
  exact absurd (hin.reads _ hfront).1 (by decide)

end InPlace

end PowerApi
