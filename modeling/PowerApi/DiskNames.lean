import PowerApi.Config
import PowerApi.Fields
import PowerApi.MemoryBlock

/-!
# The list of disks (`utils.c`, `diskservice.c`)

`GetDiskinfo` counts the lines of `/proc/diskstats` with `GetFileLines`, and has
`ReadDiskName` store the third field of each. The count is written as `*p++`, which moves
the pointer, and the loop that goes through the lines stands inside the one that counts the
entries. So nothing is counted (`getFileLines_count`), and whatever count is passed on, all
names go to the first entry (`readDiskName_first`).
-/

namespace PowerApi

open MemoryBlock Fields

/-! ## `GetNthField` -/

/-- The length of the longest front that consists of separators. -/
def strspn (str sep : Bytes) : ℕ := (str.takeWhile (sep.contains ·)).length

/-- The length of the longest front without separators. -/
def strcspn (str sep : Bytes) : ℕ := (str.takeWhile fun c => ! sep.contains c).length

/-- The loop of `GetNthField`, with what is left of the string from `ps` on: where the field
begins and how long it is. -/
def nthFieldLoop (sep : Bytes) : (nth tmpLen : ℕ) → (ps : Bytes) → Option (Bytes × ℕ)
  | 0, tmpLen, ps => if ps = [] then none else some (ps, tmpLen)
  | nth + 1, tmpLen, ps =>
    if ps = [] then none
    else
      -- Find the true starting position
      let ps := ps.drop tmpLen
      let ps := ps.drop (strspn ps sep)
      if ps = [] then none
      else nthFieldLoop sep nth (strcspn ps sep) ps

/-- `GetNthField`: what it leaves in the field's buffer. -/
def getNthField (src sep : Bytes) (nth bufLen : ℕ) : Option Bytes :=
  if nth < 1 then none
  else
    match nthFieldLoop sep nth 0 src with
    | none => none
    | some (ps, tmpLen) => if bufLen < tmpLen then none else some (ps.take tmpLen)

section NthField

variable {sep ps : Bytes}

theorem drop_strspn (str sep : Bytes) :
    str.drop (strspn str sep) = str.dropWhile (sep.contains ·) := by
  rw [strspn, List.dropWhile_eq_drop_findIdx_not, List.takeWhile_eq_take_findIdx_not]
  simp [List.findIdx_le_length]

theorem drop_strcspn (str sep : Bytes) :
    str.drop (strcspn str sep) = str.dropWhile fun c => ! sep.contains c := by
  rw [strcspn, List.dropWhile_eq_drop_findIdx_not, List.takeWhile_eq_take_findIdx_not]
  simp [List.findIdx_le_length]

theorem take_strcspn (str sep : Bytes) :
    str.take (strcspn str sep) = str.takeWhile fun c => ! sep.contains c := by
  rw [strcspn, List.takeWhile_eq_take_findIdx_not]
  simp [List.findIdx_le_length]

/-- The first field of what `strspn` goes to, and the others. -/
theorem fields_strspn {str : Bytes} (h : str.drop (strspn str sep) ≠ []) :
    let start := str.drop (strspn str sep)
    fields (sep.contains ·) str =
      start.take (strcspn start sep) ::
        fields (sep.contains ·) (start.drop (strcspn start sep)) := by
  intro start
  have hstart : start = str.dropWhile (sep.contains ·) := drop_strspn str sep
  rw [take_strcspn, drop_strcspn, ← fields_dropWhile, ← hstart]
  obtain ⟨c, rest, hcons⟩ := List.exists_cons_of_ne_nil h
  have hc := List.head?_dropWhile_not (sep.contains ·) str
  rw [← hstart, show start = c :: rest from hcons] at hc
  rw [show start = c :: rest from hcons]
  exact fields_eq_cons hc

/-- Behind the last field the loop gives up. -/
theorem fields_strspn_nil {str : Bytes} (h : str.drop (strspn str sep) = []) :
    fields (sep.contains ·) str = [] := by
  rw [← fields_dropWhile, ← drop_strspn, h, fields_nil]

/-- The loop finds the field, counted from the one that it is at. -/
theorem nthFieldLoop_eq (hps : ps ≠ []) (nth tmpLen : ℕ) :
    (nthFieldLoop sep nth tmpLen ps).map (fun r => r.1.take r.2) =
      (ps.take tmpLen :: fields (sep.contains ·) (ps.drop tmpLen))[nth]? := by
  induction nth generalizing ps tmpLen with
  | zero =>
    rw [nthFieldLoop, if_neg hps]
    rfl
  | succ nth ih =>
    rw [nthFieldLoop, if_neg hps, List.getElem?_cons_succ]
    by_cases hstart : (ps.drop tmpLen).drop (strspn (ps.drop tmpLen) sep) = []
    · rw [fields_strspn_nil hstart]
      exact congrArg _ (if_pos hstart)
    · rw [fields_strspn hstart]
      exact (congrArg _ (if_neg hstart)).trans (ih hstart _)

theorem strcspn_le (str sep : Bytes) : strcspn str sep ≤ str.length :=
  (List.takeWhile_prefix _).length_le

/-- The field does not end behind the string. -/
theorem nthFieldLoop_le {nth tmpLen : ℕ} {r : Bytes × ℕ} (htmp : tmpLen ≤ ps.length)
    (h : nthFieldLoop sep nth tmpLen ps = some r) : r.2 ≤ r.1.length := by
  induction nth generalizing ps tmpLen with
  | zero =>
    rw [nthFieldLoop] at h
    split at h
    · cases h
    · obtain rfl := Option.some.inj h
      exact htmp
  | succ nth ih =>
    rw [nthFieldLoop] at h
    split at h
    · cases h
    · dsimp only at h
      split at h
      · cases h
      · exact ih (strcspn_le _ sep) h

/-- `GetNthField` gets the field, if the buffer has room for it. -/
theorem getNthField_eq (src : Bytes) (nth bufLen : ℕ) :
    getNthField src sep (nth + 1) bufLen =
      ((fields (sep.contains ·) src)[nth]?).filter (·.length ≤ bufLen) := by
  by_cases hsrc : src = []
  · rw [hsrc]
    rfl
  have hloop := @nthFieldLoop_eq sep src hsrc (nth + 1) 0
  rw [List.drop_zero, List.getElem?_cons_succ] at hloop
  rw [← hloop, getNthField, if_neg (by omega)]
  cases hr : nthFieldLoop sep (nth + 1) 0 src with
  | none => rfl
  | some r =>
    have hle := nthFieldLoop_le (Nat.zero_le _) hr
    rw [Option.map_some, Option.filter_some, List.length_take, Nat.min_eq_left hle]
    by_cases hroom : r.2 ≤ bufLen
    · simp [hroom]
    · simp [not_le.mp hroom, hroom]

end NthField

/-! ## `GetFileLines` -/

/-- What comes of a file's name: there is none, `access` or `fopen` fails, or the file can be
read; `fclose` may fail. -/
inductive Opening
  | null
  | noAccess
  | noOpen
  | opened (content : Bytes) (closes : Bool)

/-- The loop of `GetFileLines`: how far the pointer has moved, and the number where it pointed
at first. `*p++` reads a number, drops it, and moves the pointer. -/
def countLoop : List Bytes → ℕ × Int → ℕ × Int
  | [], s => s
  | _ :: lines, (p, num) => countLoop lines (p + 1, num)

/-- `GetFileLines`: the code, and the number. -/
def getFileLines (file : Opening) (num : Int) : RtnCode × Int :=
  match file with
  | .null => (.errInvalideParam, num)
  | .noAccess => (.errCommon, num)
  | .noOpen => (.errNullPointer, num)
  | .opened content closes =>
    let (_, num) := countLoop (fileLines content) (0, 0)
    (if closes then .success else .errCommon, num)

theorem countLoop_eq (lines : List Bytes) (p : ℕ) (num : Int) :
    countLoop lines (p, num) = (p + lines.length, num) := by
  induction lines generalizing p with
  | nil => rfl
  | cons line lines ih =>
    rw [countLoop, ih, List.length_cons]
    congr 1
    omega

/-- Whatever the file, 0 lines are counted. -/
theorem getFileLines_count (content : Bytes) (closes : Bool) (num : Int) :
    (getFileLines (.opened content closes) num).2 = 0 := by
  simp only [getFileLines, countLoop_eq]

/-! ## `ReadDiskName` -/

/-- The position of the name in a line of `/proc/diskstats`. -/
def diskNamePos : ℕ := 3

/-- What the inner loop of `ReadDiskName` assigns for a line. `strncpy` is told the length of
the name, so that no zero byte is written behind it. -/
def diskIdWrite (i : ℕ) (line : Bytes) : Write UInt8 :=
  match getNthField (cString line) (text " \n") diskNamePos (maxElementNameLen - 1) with
  | some statVal => ⟨i * maxElementNameLen, statVal⟩
  | none => ⟨i * maxElementNameLen, [0]⟩

/-- The inner loop: what it assigns, and the lines that it leaves. -/
def diskIdLoop (i : ℕ) : List Bytes → List (Write UInt8) × List Bytes
  | [] => ([], [])
  | line :: lines =>
    let (ws, rest) := diskIdLoop i lines
    (diskIdWrite i line :: ws, rest)

/-- The outer loop, with the number of rounds that are left. -/
def diskListLoop : (rounds i : ℕ) → List Bytes → List (Write UInt8)
  | 0, _, _ => []
  | rounds + 1, i, lines =>
    let (ws, rest) := diskIdLoop i lines
    ws ++ diskListLoop rounds (i + 1) rest

/-- `ReadDiskName`: the code, and what it assigns in the list. -/
def readDiskName (file : Opening) (diskNum : Int) : RtnCode × List (Write UInt8) :=
  match file with
  | .null => (.errInvalideParam, [])
  | .noAccess => (.errCommon, [])
  | .noOpen => (.errNullPointer, [])
  | .opened content closes =>
    (if closes then .success else .errCommon, diskListLoop diskNum.toNat 0 (fileLines content))

/-- `GetDiskinfo`: the code and the data of its answer. The list is allocated as `mem`; at
first `diskNum` is any number. -/
def diskinfo (statFile : Opening) (diskNum : Int) (mem : ℕ → UInt8) : RtnCode × Bytes :=
  let diskNum := (getFileLines statFile diskNum).2
  let (rspCode, ws) := readDiskName statFile diskNum
  (rspCode, contents (maxElementNameLen * diskNum.toNat) (fill ws mem))

theorem diskIdLoop_eq (i : ℕ) (lines : List Bytes) :
    diskIdLoop i lines = (lines.map (diskIdWrite i), []) := by
  induction lines with
  | nil => rfl
  | cons line lines ih => rw [diskIdLoop, ih, List.map_cons]

/-- The later rounds find nothing to read. -/
theorem diskListLoop_nil (rounds i : ℕ) : diskListLoop rounds i [] = [] := by
  induction rounds generalizing i with
  | zero => rfl
  | succ rounds ih => exact ih (i + 1)

/-- All names go to the entry of the first round. -/
theorem diskListLoop_eq (rounds i : ℕ) (lines : List Bytes) :
    diskListLoop (rounds + 1) i lines = lines.map (diskIdWrite i) := by
  rw [diskListLoop, diskIdLoop_eq]
  dsimp only
  rw [diskListLoop_nil, List.append_nil]

/-- What is stored fits its entry, and has no zero byte in it unless it is an empty name. -/
theorem diskIdWrite_fits (i : ℕ) (line : Bytes) :
    (diskIdWrite i line).off = i * maxElementNameLen ∧
      (diskIdWrite i line).data.length < maxElementNameLen ∧
      ((diskIdWrite i line).data = [0] ∨ 0 ∉ (diskIdWrite i line).data) := by
  rw [diskIdWrite]
  have hfield := @getNthField_eq (text " \n") (cString line) 2 (maxElementNameLen - 1)
  cases hget : getNthField (cString line) (text " \n") diskNamePos (maxElementNameLen - 1) with
  | none => exact ⟨rfl, Nat.lt_of_sub_pos (Nat.zero_lt_succ _), .inl rfl⟩
  | some statVal =>
    obtain ⟨hmem, hlen⟩ := Option.filter_eq_some_iff.mp (hfield.symm.trans hget)
    have hsub := (mem_fields (List.mem_of_getElem? hmem)).2
    exact ⟨rfl, Nat.lt_of_le_sub_one (by decide) (of_decide_eq_true hlen),
      .inr fun h0 => ne_zero_of_mem_cString (hsub 0 h0).1 rfl⟩

/-- Whatever is counted, what is assigned is assigned to the first entry. -/
theorem mem_readDiskName {file : Opening} {diskNum : Int} {w : Write UInt8}
    (hw : w ∈ (readDiskName file diskNum).2) : ∃ line, w = diskIdWrite 0 line := by
  cases file with
  | opened content closes =>
    simp only [readDiskName] at hw
    cases hrounds : diskNum.toNat with
    | zero =>
      rw [hrounds] at hw
      cases hw
    | succ rounds =>
      rw [hrounds, diskListLoop_eq] at hw
      obtain ⟨line, -, rfl⟩ := List.mem_map.mp hw
      exact ⟨line, rfl⟩
  | _ => cases hw

/-- All other entries keep what they hold. -/
theorem readDiskName_first (file : Opening) (diskNum : Int) (mem : ℕ → UInt8) {j : ℕ}
    (hj : maxElementNameLen ≤ j) : fill (readDiskName file diskNum).2 mem j = mem j := by
  refine fill_of_not_covered (fun w hw hcovers => ?_) mem
  obtain ⟨line, rfl⟩ := mem_readDiskName hw
  obtain ⟨hoff, hlen, -⟩ := diskIdWrite_fits 0 line
  have hlt := hcovers.2
  omega

/-- In memory without zero bytes the first entry gets no end of a name either. -/
theorem readDiskName_ne_zero (file : Opening) (diskNum : Int) {j : ℕ} (hj : 0 < j) :
    fill (readDiskName file diskNum).2 (fun _ => 1) j ≠ 0 := by
  apply fill_induction (P := (· ≠ 0))
  · decide
  · intro w hw mem hmem
    obtain ⟨line, rfl⟩ := mem_readDiskName hw
    obtain ⟨hoff, -, hdata⟩ := diskIdWrite_fits 0 line
    rw [Write.apply, hoff, Nat.zero_mul, if_neg (Nat.not_lt_zero j), Nat.sub_zero]
    obtain hdata | hdata := hdata
    · rwa [hdata, List.getD_eq_default _ _ hj]
    · intro h0
      by_cases hlen : j < (diskIdWrite 0 line).data.length
      · rw [List.getD_eq_getElem _ _ hlen] at h0
        exact hdata (h0 ▸ List.getElem_mem hlen)
      · rw [List.getD_eq_default _ _ (not_lt.mp hlen)] at h0
        exact hmem h0

/-- `GetDiskinfo` answers with no disks. -/
theorem diskinfo_nil (content : Bytes) (closes : Bool) (diskNum : Int) (mem : ℕ → UInt8) :
    diskinfo (.opened content closes) diskNum mem =
      (if closes then .success else .errCommon, []) := by
  rw [diskinfo, getFileLines_count]
  rfl

/-! ## The names and the list -/

/-- The third field of a line. -/
def diskName (line : Bytes) : Option Bytes :=
  (fields ((text " \n").contains ·) (cString line))[2]?

/-- Each entry holds the name that its line has, and the end of it. -/
def Named (lines : List Bytes) (mem : ℕ → UInt8) : Prop :=
  ∀ i line, lines[i]? = some line → ∃ name, diskName line = some name ∧
    region (i * maxElementNameLen) (name.length + 1) mem = name ++ [0]

/-- A file that is not empty has lines. -/
theorem linesFrom_ne_nil {acc content : Bytes} (h : acc ++ content ≠ []) :
    linesFrom acc content ≠ [] := by
  induction content generalizing acc with
  | nil =>
    rw [linesFrom, if_neg (by simpa using h)]
    exact List.cons_ne_nil _ _
  | cons c content ih =>
    rw [linesFrom]
    split
    · exact List.cons_ne_nil _ _
    · exact ih (by simp)

theorem fileLines_eq_nil {content : Bytes} : fileLines content = [] ↔ content = [] := by
  constructor
  · intro h
    by_contra hne
    exact @linesFrom_ne_nil [] content hne h
  · rintro rfl
    rfl

/-- No name ends in memory without zero bytes. -/
theorem not_named (file : Opening) (diskNum : Int) {lines : List Bytes} (hlines : lines ≠ []) :
    ¬ Named lines (fill (readDiskName file diskNum).2 fun _ => 1) := by
  intro h
  obtain ⟨line, rest, rfl⟩ := List.exists_cons_of_ne_nil hlines
  obtain ⟨name, hname, hregion⟩ := h 0 line rfl
  have hpos : 0 < name.length := List.length_pos_iff.mpr (mem_fields (List.mem_of_getElem? hname)).1
  have hlast := congrArg (·[name.length]?) hregion
  simp [region] at hlast
  exact readDiskName_ne_zero file diskNum hpos hlast

/-- **The list is the column of names** if and only if the file is empty: no line is counted,
and `ReadDiskName` with the right count does not name the disks in all memory either. -/
theorem disk_list_iff (content : Bytes) (closes : Bool) (num : Int) :
    ((getFileLines (.opened content closes) num).2 = (fileLines content).length ↔ content = []) ∧
      ((∀ mem, Named (fileLines content)
          (fill (readDiskName (.opened content closes) (fileLines content).length).2 mem)) ↔
        content = []) := by
  constructor
  · rw [getFileLines_count, ← fileLines_eq_nil, ← List.length_eq_zero_iff]
    omega
  · constructor
    · intro h
      by_contra hne
      exact not_named _ _ (mt fileLines_eq_nil.mp hne) (h _)
    · rintro rfl mem i line hline
      cases hline

/-- A file with one disk. -/
def sdaLine : Bytes := text "8 0 sda 1\n"

theorem sdaLine_not_listed :
    ¬ ∀ (content : Bytes) (closes : Bool) (num : Int),
      (∀ line ∈ fileLines content, ∃ name, diskName line = some name ∧
        name.length < maxElementNameLen) →
      (getFileLines (.opened content closes) num).2 = (fileLines content).length ∧
        ∀ mem, Named (fileLines content)
          (fill (readDiskName (.opened content closes) (fileLines content).length).2 mem) := by
  intro h
  have hlines : fileLines sdaLine = [sdaLine] := by decide +kernel
  obtain ⟨hcount, -⟩ := h sdaLine true 0 (by
    rw [hlines]
    intro line hline
    obtain rfl := List.mem_singleton.mp hline
    exact ⟨text "sda", by decide +kernel, by decide +kernel⟩)
  rw [getFileLines_count, hlines] at hcount
  exact absurd hcount (by decide)

end PowerApi
