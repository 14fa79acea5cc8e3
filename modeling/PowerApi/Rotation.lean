import PowerApi.ConfigItems
import PowerApi.Greatest

/-!
# The archives of the log (`log.c`)

After a rotation `SpaceChkAndDel` deletes all but the last `maxCmpCnt` files of the backup
directory, in the order of their names. The pattern that a file's name has to match is `^`,
which every name does; the one that `config.c` prints from the prefix is not compiled. So
the limit is one on files of any name, and a file that is no archive may be deleted or may
cost an archive its place (`inCheck_iff`). If `scandir` fails, the count is -1, which the
loop takes for a number of files.

Where there is nothing but archives, the directory holds the greatest of all that were ever
made, over any number of rotations (`names_of_rotations`).
-/

namespace PowerApi

open Greatest

namespace AlphaSort

/-- The order of `alphasort`, byte by byte. -/
scoped instance instLinearOrderUInt8 : LinearOrder UInt8 where
  le_refl := UInt8.le_refl
  le_trans _ _ _ := UInt8.le_trans
  le_antisymm _ _ := UInt8.le_antisymm
  le_total := UInt8.le_total
  lt_iff_le_not_ge a b := by
    rw [UInt8.not_le]
    exact ⟨fun h => ⟨UInt8.le_of_lt h, h⟩, And.right⟩
  toDecidableLE := inferInstance
  toDecidableEq := inferInstance
  toDecidableLT := inferInstance

end AlphaSort

open AlphaSort

/-! ## The directory -/

/-- A string matches the pattern that consists of `^` and plain characters. -/
def regexecFront (plain str : Bytes) : Bool := plain.isPrefixOf str

/-- `g_logCmpFlRgx`: what stands behind the `^`. -/
def logCmpFlRgx : Bytes := []

/-- The backup directory. -/
structure BackupDir where
  names : Finset Bytes
  /-- `d_type` is `DT_REG` -/
  isReg : Bytes → Bool
  /-- `scandir` can read the directory -/
  scans : Bool
  /-- The number of files that `scandir` returns is an `int`. -/
  card_lt : (names.filter (isReg ·)).card < 2 ^ 31

namespace BackupDir

/-- `LogCmpFileFilter`. -/
def logCmpFileFilter (dir : BackupDir) (name : Bytes) : Bool :=
  dir.isReg name && regexecFront logCmpFlRgx name

/-- The regular files. -/
def files (dir : BackupDir) : Finset Bytes := dir.names.filter (dir.isReg ·)

/-- `scandir` with `LogCmpFileFilter` and `alphasort`: the number of files, and the list if one
is made. -/
def scandir (dir : BackupDir) : Int × Option (List Bytes) :=
  if dir.scans then
    let listed := dir.names.filter (dir.logCmpFileFilter ·)
    ((listed.card : Int), some listed.sort)
  else (-1, none)

/-- Every regular file is listed. -/
theorem scandir_eq (dir : BackupDir) :
    dir.scandir =
      if dir.scans then ((dir.files.card : Int), some dir.files.sort) else (-1, none) := by
  have hfilter : dir.logCmpFileFilter = dir.isReg := by
    ext name
    rw [logCmpFileFilter, regexecFront, logCmpFlRgx, List.isPrefixOf_nil_left, Bool.and_true]
  simp only [scandir, hfilter, files]

end BackupDir

/-! ## `SpaceChkAndDel` -/

/-- An element of the list. -/
def fileAt (fileList : Option (List Bytes)) (i : Int) : Except Fault Bytes :=
  match fileList with
  | none => .error .nullDeref
  | some list =>
    if h : 0 ≤ i ∧ i.toNat < list.length then .ok (list.get ⟨i.toNat, h.2⟩) else .error .overrun

/-- The path is printed into `fullPath`, and the file deleted. -/
def delFile (logBkp fileName : Bytes) (names : Finset Bytes) : Except Fault (Finset Bytes) :=
  let fullPath := logBkp ++ text "/" ++ fileName
  if maxFileName ≤ fullPath.length then .error .overrun else .ok (names.erase fileName)

/-- The body of the loop. -/
def delRound (logBkp : Bytes) (fileList : Option (List Bytes)) (cnt fileCnt : Int)
    (names : Finset Bytes) : Except Fault (Finset Bytes) := do
  let names ←
    if fileCnt < cnt then do
      let fileName ← fileAt fileList fileCnt
      delFile logBkp fileName names
    else pure names
  let _ ← fileAt fileList fileCnt  -- free(fileList[fileCnt])
  return names

/-- The loop, from a number of files on. -/
def delRounds (logBkp : Bytes) (fileList : Option (List Bytes)) (cnt : Int) :
    (fileCnt : ℕ) → Finset Bytes → Except Fault (Finset Bytes)
  | 0, names => return names
  | n + 1, names => do
    let names ← delRound logBkp fileList cnt n names
    delRounds logBkp fileList cnt n names

/-- The loop. Below 0 it would not come to an end, but there is no element to go on with. -/
def delLoop (logBkp : Bytes) (fileList : Option (List Bytes)) (cnt fileCnt : Int)
    (names : Finset Bytes) : Except Fault (Finset Bytes) :=
  match fileCnt with
  | .ofNat n => delRounds logBkp fileList cnt n names
  | .negSucc n => delRound logBkp fileList cnt (.negSucc (n + 1)) names

/-- How many files are too many. The `int` is compared with a `uint64_t`. -/
def delCnt (fileCnt : Int) (maxCmpCnt : UInt64) : Int :=
  if maxCmpCnt < UInt64.ofInt fileCnt then wrapInt (UInt64.ofInt fileCnt - maxCmpCnt).toNat else 0

/-- `SpaceChkAndDel`: the names that are left. -/
def spaceChkAndDel (cfg : LogCfg) (dir : BackupDir) : Except Fault (Finset Bytes) :=
  let (fileCnt, fileList) := dir.scandir
  let cnt := delCnt fileCnt cfg.maxCmpCnt
  delLoop cfg.logBkp fileList cnt fileCnt dir.names

/-- The path of a file fits `fullPath`. -/
def PathFits (logBkp name : Bytes) : Prop := logBkp.length + name.length + 2 ≤ maxFileName

instance (logBkp name : Bytes) : Decidable (PathFits logBkp name) :=
  inferInstanceAs (Decidable (_ ≤ _))

section Loop

variable {logBkp : Bytes} {list : List Bytes}

theorem delFile_eq (name : Bytes) (names : Finset Bytes) :
    delFile logBkp name names =
      if PathFits logBkp name then .ok (names.erase name) else .error .overrun := by
  have hlen : (logBkp ++ text "/" ++ name).length = logBkp.length + name.length + 1 := by
    have hslash : (text "/").length = 1 := by decide +kernel
    rw [List.length_append, List.length_append, hslash]
    omega
  by_cases h : PathFits logBkp name
  · rw [if_pos h]
    refine if_neg (hlen ▸ ?_)
    rw [PathFits] at h
    omega
  · rw [if_neg h]
    refine if_pos (hlen ▸ ?_)
    rw [PathFits] at h
    omega

theorem fileAt_eq {n : ℕ} (hn : n < list.length) : fileAt (some list) n = .ok list[n] :=
  dif_pos ⟨Int.natCast_nonneg n, hn⟩

theorem delRound_eq {cnt n : ℕ} (hn : n < list.length) (names : Finset Bytes) :
    delRound logBkp (some list) cnt n names =
      if n < cnt then
        if PathFits logBkp list[n] then .ok (names.erase list[n]) else .error .overrun
      else .ok names := by
  rw [delRound, fileAt_eq hn]
  by_cases hlt : n < cnt
  · rw [if_pos (by omega), if_pos hlt, ok_bind, delFile_eq]
    split
    · rfl
    · rfl
  · rw [if_neg (by omega), if_neg hlt]
    rfl

/-- The loop deletes the first `cnt` files. -/
theorem delRounds_eq {cnt n : ℕ} (hn : n ≤ list.length) (names : Finset Bytes) :
    delRounds logBkp (some list) cnt n names =
      if ∀ name ∈ list.take (min n cnt), PathFits logBkp name then
        .ok (names \ (list.take (min n cnt)).toFinset)
      else .error .overrun := by
  induction n generalizing names with
  | zero => simp [delRounds]; rfl
  | succ n ih =>
    have hlt : n < list.length := hn
    rw [delRounds, delRound_eq hlt]
    by_cases hcnt : n < cnt
    · have hsucc : min (n + 1) cnt = n + 1 := by omega
      have hmin : min n cnt = n := by omega
      have hall : (∀ name ∈ list.take n ++ [list[n]], PathFits logBkp name) ↔
          PathFits logBkp list[n] ∧ ∀ name ∈ list.take n, PathFits logBkp name := by
        simp only [List.forall_mem_append, List.forall_mem_singleton, and_comm]
      rw [if_pos hcnt, hsucc, List.take_succ_eq_append_getElem hlt]
      by_cases hfits : PathFits logBkp list[n]
      · rw [if_pos hfits, ok_bind, ih hlt.le, hmin]
        refine if_congr ((and_iff_right hfits).symm.trans hall.symm) (congrArg _ ?_) rfl
        rw [List.toFinset_append, Finset.erase_sdiff_comm]
        ext name
        simp
        tauto
      · rw [if_neg hfits, error_bind, if_neg fun h => hfits (hall.mp h).1]
    · have hmin : min (n + 1) cnt = min n cnt := by omega
      rw [if_neg hcnt, ok_bind, ih hlt.le, hmin]

/-- If there is no list, the loop reads one. -/
theorem delLoop_none (cnt : Int) (names : Finset Bytes) :
    delLoop logBkp none cnt (-1) names = .error .nullDeref := by
  have hround : delLoop logBkp none cnt (-1) names = delRound logBkp none cnt (-2) names := rfl
  rw [hround, delRound]
  split <;> rfl

theorem delCnt_eq {n : ℕ} (hn : n < 2 ^ 31) (maxCmpCnt : UInt64) :
    delCnt n maxCmpCnt = (n - maxCmpCnt.toNat : ℕ) := by
  have hof := toNat_uint64OfInt n
  rw [delCnt]
  split <;> rename_i hlt
  · have hle := UInt64.le_of_lt hlt
    rw [UInt64.lt_iff_toNat_lt] at hlt
    rw [UInt64.toNat_sub_of_le _ _ hle, wrapInt_eq]
    omega
  · rw [UInt64.lt_iff_toNat_lt] at hlt
    omega

end Loop

/-- The first files in order, as many as are too many. -/
def deleted (maxCmpCnt : UInt64) (dir : BackupDir) : Finset Bytes :=
  (dir.files.sort.take (dir.files.card - maxCmpCnt.toNat)).toFinset

theorem sdiff_deleted (maxCmpCnt : UInt64) (dir : BackupDir) :
    dir.files \ deleted maxCmpCnt dir = greatest maxCmpCnt.toNat dir.files :=
  sdiff_take_sort _ _

theorem deleted_subset (maxCmpCnt : UInt64) (dir : BackupDir) :
    deleted maxCmpCnt dir ⊆ dir.files := by
  intro name hname
  exact (Finset.mem_sort (· ≤ ·)).mp (List.mem_of_mem_take (List.mem_toFinset.mp hname))

theorem card_deleted (maxCmpCnt : UInt64) (dir : BackupDir) :
    (deleted maxCmpCnt dir).card = dir.files.card - maxCmpCnt.toNat := by
  have hleft := Finset.card_sdiff_add_card_eq_card (deleted_subset maxCmpCnt dir)
  rw [sdiff_deleted, card_greatest] at hleft
  omega

/-- `SpaceChkAndDel` deletes them, if `scandir` lists the files and the paths fit. -/
theorem spaceChkAndDel_eq (cfg : LogCfg) (dir : BackupDir) :
    spaceChkAndDel cfg dir =
      if dir.scans then
        if ∀ name ∈ deleted cfg.maxCmpCnt dir, PathFits cfg.logBkp name then
          .ok (dir.names \ deleted cfg.maxCmpCnt dir)
        else .error .overrun
      else .error .nullDeref := by
  rw [spaceChkAndDel, dir.scandir_eq]
  by_cases hscans : dir.scans = true
  · rw [if_pos hscans, if_pos hscans]
    dsimp only
    have hcard : dir.files.card < 2 ^ 31 := dir.card_lt
    rw [delCnt_eq hcard]
    have hlen := dir.files.length_sort (· ≤ ·)
    refine (delRounds_eq hlen.ge dir.names).trans ?_
    rw [Nat.min_eq_right (Nat.sub_le _ _)]
    simp only [deleted, List.mem_toFinset]
  · rw [if_neg hscans, if_neg hscans]
    exact delLoop_none _ _

theorem spaceChkAndDel_ok {cfg : LogCfg} {dir : BackupDir} {left : Finset Bytes} :
    spaceChkAndDel cfg dir = .ok left ↔
      dir.scans = true ∧ (∀ name ∈ deleted cfg.maxCmpCnt dir, PathFits cfg.logBkp name) ∧
        left = dir.names \ deleted cfg.maxCmpCnt dir := by
  rw [spaceChkAndDel_eq]
  by_cases hscans : dir.scans = true
  · rw [if_pos hscans]
    by_cases hfits : ∀ name ∈ deleted cfg.maxCmpCnt dir, PathFits cfg.logBkp name
    · rw [if_pos hfits, Except.ok.injEq, eq_comm]
      exact ⟨fun h => ⟨hscans, hfits, h⟩, fun h => h.2.2⟩
    · rw [if_neg hfits]
      exact iff_of_false nofun fun h => hfits h.2.1
  · rw [if_neg hscans]
    exact iff_of_false nofun fun h => hscans h.1

/-! ## The archives -/

/-- The name is the prefix, a dash, 14 digits and `.tar.gz`. -/
def IsArchive (logPfx name : Bytes) : Prop :=
  let stamp := (name.drop (logPfx.length + 1)).take 14
  name = logPfx ++ text "-" ++ stamp ++ text ".tar.gz" ∧ stamp.length = 14 ∧
    ∀ c ∈ stamp, isDigit c = true

instance (logPfx name : Bytes) : Decidable (IsArchive logPfx name) :=
  inferInstanceAs (Decidable (_ ∧ _ ∧ _))

/-- The archives among some names in the directory. -/
def archives (logPfx : Bytes) (dir : BackupDir) (names : Finset Bytes) : Finset Bytes :=
  names.filter fun name => dir.isReg name = true ∧ IsArchive logPfx name

/-- The archives are kept in check: `SpaceChkAndDel` comes to its end, nothing but archives is
deleted, and the `maxCmpCnt` greatest of them are left. -/
def InCheck (cfg : LogCfg) (dir : BackupDir) : Prop :=
  ∃ left, spaceChkAndDel cfg dir = .ok left ∧
    (∀ name ∈ dir.names, name ∉ left → IsArchive cfg.logPfx name) ∧
    archives cfg.logPfx dir left = greatest cfg.maxCmpCnt.toNat (archives cfg.logPfx dir dir.names)

section InCheck

variable {cfg : LogCfg} {dir : BackupDir}

theorem length_archive {logPfx name : Bytes} (h : IsArchive logPfx name) :
    name.length = logPfx.length + 22 := by
  obtain ⟨hname, hlen, -⟩ := h
  have hdash : (text "-").length = 1 := by decide +kernel
  have hgz : (text ".tar.gz").length = 7 := by decide +kernel
  rw [hname, List.length_append, List.length_append, List.length_append, hlen, hdash, hgz]

theorem archives_subset_files : archives cfg.logPfx dir dir.names ⊆ dir.files := by
  intro name hname
  obtain ⟨hmem, hreg, -⟩ := Finset.mem_filter.mp hname
  exact Finset.mem_filter.mpr ⟨hmem, hreg⟩

theorem archives_eq_files (h : ∀ name ∈ dir.files, IsArchive cfg.logPfx name) :
    archives cfg.logPfx dir dir.names = dir.files := by
  refine archives_subset_files.antisymm fun name hname => ?_
  obtain ⟨hmem, hreg⟩ := Finset.mem_filter.mp hname
  exact Finset.mem_filter.mpr ⟨hmem, hreg, h name hname⟩

theorem archives_sdiff (names del : Finset Bytes) :
    archives cfg.logPfx dir (names \ del) = archives cfg.logPfx dir names \ del := by
  ext name
  simp only [archives, Finset.mem_filter, Finset.mem_sdiff]
  tauto

/-- As long as there are not too many files, nothing is deleted. -/
theorem inCheck_of_few (hscans : dir.scans = true) (h : dir.files.card ≤ cfg.maxCmpCnt.toNat) :
    InCheck cfg dir := by
  have hnone : deleted cfg.maxCmpCnt dir = ∅ := by
    rw [← Finset.card_eq_zero, card_deleted, Nat.sub_eq_zero_of_le h]
  refine ⟨dir.names, spaceChkAndDel_ok.mpr ⟨hscans, ?_, ?_⟩,
    fun name hname hnot => absurd hname hnot, ?_⟩
  · simp [hnone]
  · rw [hnone, Finset.sdiff_empty]
  · exact (greatest_eq_self ((Finset.card_le_card archives_subset_files).trans h)).symm

/-- Where there is nothing but archives, the right ones are deleted. -/
theorem inCheck_of_archives (hscans : dir.scans = true)
    (hall : ∀ name ∈ dir.files, IsArchive cfg.logPfx name)
    (hfits : cfg.logBkp.length + cfg.logPfx.length + 24 ≤ maxFileName) : InCheck cfg dir := by
  refine ⟨_, spaceChkAndDel_ok.mpr ⟨hscans, fun name hname => ?_, rfl⟩, ?_, ?_⟩
  · rw [PathFits, length_archive (hall name (deleted_subset _ dir hname))]
    omega
  · intro name hname hnot
    have hdel := not_not.mp fun h => hnot (Finset.mem_sdiff.mpr ⟨hname, h⟩)
    exact hall name (deleted_subset _ dir hdel)
  · rw [archives_sdiff, archives_eq_files hall, sdiff_deleted]

/-- If there are too many files and the archives are kept in check, there is nothing else: each
file that is deleted is an archive less, and only the archives too many may be. -/
theorem archives_of_inCheck (h : InCheck cfg dir) (hmany : cfg.maxCmpCnt.toNat < dir.files.card) :
    (∀ name ∈ dir.files, IsArchive cfg.logPfx name) ∧
      cfg.logBkp.length + cfg.logPfx.length + 24 ≤ maxFileName := by
  obtain ⟨left, hleft, hdel, hgreatest⟩ := h
  obtain ⟨-, hfits, rfl⟩ := spaceChkAndDel_ok.mp hleft
  have hsub : deleted cfg.maxCmpCnt dir ⊆ archives cfg.logPfx dir dir.names := by
    intro name hname
    obtain ⟨hmem, hreg⟩ := Finset.mem_filter.mp (deleted_subset _ dir hname)
    have hnot : name ∉ dir.names \ deleted cfg.maxCmpCnt dir := fun h =>
      (Finset.mem_sdiff.mp h).2 hname
    exact Finset.mem_filter.mpr ⟨hmem, hreg, hdel name hmem hnot⟩
  have hcard := Finset.card_sdiff_add_card_eq_card hsub
  rw [← archives_sdiff, hgreatest, card_greatest, card_deleted] at hcard
  have heq : archives cfg.logPfx dir dir.names = dir.files :=
    Finset.eq_of_subset_of_card_le archives_subset_files (by omega)
  have hall : ∀ name ∈ dir.files, IsArchive cfg.logPfx name := fun name hname =>
    (Finset.mem_filter.mp (heq ▸ hname : name ∈ archives cfg.logPfx dir dir.names)).2.2
  obtain ⟨name, hname⟩ : (deleted cfg.maxCmpCnt dir).Nonempty := by
    rw [← Finset.card_pos, card_deleted]
    omega
  have hpath := hfits name hname
  rw [PathFits, length_archive (hall name (deleted_subset _ dir hname))] at hpath
  exact ⟨hall, by omega⟩

end InCheck

/-- **The archives are kept in check** if and only if `scandir` lists the files, and there are at
most `maxCmpCnt` of them or nothing but archives whose paths fit `fullPath`. -/
theorem inCheck_iff (cfg : LogCfg) (dir : BackupDir) :
    InCheck cfg dir ↔
      dir.scans = true ∧
        (dir.files.card ≤ cfg.maxCmpCnt.toNat ∨
          (∀ name ∈ dir.files, IsArchive cfg.logPfx name) ∧
            cfg.logBkp.length + cfg.logPfx.length + 24 ≤ maxFileName) := by
  constructor
  · intro h
    obtain ⟨left, hleft, -⟩ := id h
    exact ⟨(spaceChkAndDel_ok.mp hleft).1,
      or_iff_not_imp_left.mpr fun hmany => archives_of_inCheck h (not_le.mp hmany)⟩
  · rintro ⟨hscans, hfew | ⟨hall, hfits⟩⟩
    · exact inCheck_of_few hscans hfew
    · exact inCheck_of_archives hscans hall hfits

/-- Four files that are no archives, one more than is allowed at first. -/
def notes : BackupDir where
  names := {text "a", text "b", text "c", text "d"}
  isReg := fun _ => true
  scans := true
  card_lt := by decide +kernel

theorem notes_not_inCheck : ¬ ∀ (cfg : LogCfg) (dir : BackupDir), InCheck cfg dir := by
  intro h
  obtain ⟨hall, -⟩ := archives_of_inCheck (h .init notes) (by decide +kernel)
  exact absurd (hall (text "a") (by decide +kernel)) (by decide +kernel)

/-! ## Rotations -/

/-- A new file comes into the directory, and `SpaceChkAndDel` goes over it. -/
def Rotates (cfg : LogCfg) (names : Finset Bytes) (name : Bytes) (left : Finset Bytes) : Prop :=
  ∃ dir : BackupDir, dir.names = insert name names ∧ (∀ name, dir.isReg name = true) ∧
    spaceChkAndDel cfg dir = .ok left

/-- The names after some rotations, the first one first. -/
def RotatesAll (cfg : LogCfg) (names : Finset Bytes) : List Bytes → Finset Bytes → Prop
  | [], left => left = names
  | name :: made, left => ∃ next, Rotates cfg names name next ∧ RotatesAll cfg next made left

/-- One rotation leaves the greatest names. -/
theorem names_of_rotates {cfg : LogCfg} {names left : Finset Bytes} {name : Bytes}
    (h : Rotates cfg names name left) :
    left = greatest cfg.maxCmpCnt.toNat (insert name names) := by
  obtain ⟨dir, hnames, hreg, hleft⟩ := h
  obtain ⟨-, -, rfl⟩ := spaceChkAndDel_ok.mp hleft
  have hfiles : dir.files = insert name names := by
    rw [← hnames]
    exact Finset.filter_true_of_mem fun name _ => hreg name
  rw [← hfiles, ← sdiff_deleted, hnames, hfiles]

/-- **The newest archives.** After any rotations the directory holds the greatest names of all that
were there at first or were made since. -/
theorem names_of_rotations {cfg : LogCfg} {names left : Finset Bytes} {made : List Bytes}
    (hnames : names.card ≤ cfg.maxCmpCnt.toNat) (h : RotatesAll cfg names made left) :
    left = greatest cfg.maxCmpCnt.toNat (made.toFinset ∪ names) := by
  induction made generalizing names with
  | nil =>
    obtain rfl := h
    rw [List.toFinset_nil, Finset.empty_union, greatest_eq_self hnames]
  | cons name made ih =>
    obtain ⟨next, hstep, hrest⟩ := h
    obtain rfl := names_of_rotates hstep
    have hnext : (greatest cfg.maxCmpCnt.toNat (insert name names)).card ≤ cfg.maxCmpCnt.toNat := by
      rw [card_greatest]
      exact min_le_left _ _
    rw [ih hnext hrest, greatest_union, List.toFinset_cons, Finset.union_insert,
      Finset.insert_union]

end PowerApi
