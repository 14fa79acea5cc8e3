import PowerApi.Rotation
import PowerApi.UnknownKeys

/-!
# The log file (`log.c`)

`OpenLogFile` has `NormalizeAndVerifyFilepath` resolve the name of the log file, which copies
what `realpath` returns before it looks at it. So the file has to be there already
(`initLogger_success_iff`), and when `RotateFile` has moved it away, opening the next one
stops the daemon (`rotateFile_moved`). Until then `Logger` writes what is asked for, and
`logging_iff` says so of every run.
-/

namespace PowerApi

/-! ## The file system -/

/-- What the system says about the names of files. -/
structure FileSys where
  /-- `realpath` -/
  realpath : Bytes → Option Bytes
  /-- `access(.., F_OK)` -/
  found : Bytes → Bool
  /-- `access(.., W_OK)` -/
  writable : Bytes → Bool
  /-- `fopen(.., "a")` -/
  opens : Bytes → Bool
  /-- `stat`: the size -/
  stat : Bytes → Option ℕ

/-- `MAX_FULL_NAME`. -/
def maxFullName : ℕ := maxFileName + maxPathName

/-- `MAX_STD_TIME`. -/
def maxStdTime : ℕ := 32

/-- `MAX_LOG_LINE`. -/
def maxLogLine : ℕ := maxLineNum + maxStdTime

/-- `sprintf` into a buffer of some size. -/
def sprintf (size : ℕ) (str : Bytes) : Except Fault Bytes :=
  if size ≤ str.length then .error .overrun else .ok str

/-- `NormalizeAndVerifyFilepath`, with a buffer of zeros of some size: the code, and the path that
is left in the buffer. `strlen` and `strncpy` get what `realpath` returns. -/
def normalizeAndVerifyFilepath (fs : FileSys) (size : ℕ) (filename : Bytes) :
    Except Fault (RtnCode × Bytes) :=
  match fs.realpath filename with
  | none => .error .nullDeref
  | some path =>
    if size ≤ path.length then .error .overrun
    else .ok (if fs.found path then .success else .errPathVerify, path)

/-- The loop of `MkDirs`, with what is in front of the character it is at. `mkdir` gives the file
system with the directory in it, or fails. -/
def mkDirsLoop (mkdir : Bytes → FileSys → Option FileSys) :
    (front rest : Bytes) → FileSys → Option FileSys
  | _, [], fs => some fs
  | front, c :: rest, fs =>
    if c = 47 ∧ fs.found front = false then
      match mkdir front fs with
      | none => none
      | some fs => mkDirsLoop mkdir (front ++ [c]) rest fs
    else mkDirsLoop mkdir (front ++ [c]) rest fs

/-- `MkDirs`: the file system if it is successful. -/
def mkDirs (mkdir : Bytes → FileSys → Option FileSys) (sDirName : Bytes) (fs : FileSys) :
    Except Fault (Option FileSys) := do
  let dirName ← sprintf maxPathName sDirName
  match dirName.getLast? with
  | none => .error .overrun
  | some last =>
    let dirName ← if last = 47 then pure dirName else sprintf maxPathName (dirName ++ [47])
    return mkDirsLoop mkdir (dirName.take 1) (dirName.drop 1) fs

/-! ## The logger -/

/-- `g_pFile`, as far as it is NULL or not, and `g_curSize`; and the lines that were written. -/
structure LogState where
  pFile : Bool
  curSize : UInt32
  lines : List Bytes
  deriving DecidableEq, Repr

/-- `logPath` and `logPfx`. -/
def LogCfg.fullName (cfg : LogCfg) : Bytes := cfg.logPath ++ text "/" ++ cfg.logPfx

/-- `OpenLogFile`: whether it returns the file, and the state. -/
def openLogFile (cfg : LogCfg) (fs : FileSys) (log : LogState) :
    Except Fault (Bool × LogState) := do
  let fullName ← sprintf maxFullName cfg.fullName
  let (ret, realpathRes) ← normalizeAndVerifyFilepath fs maxFullName fullName
  if ret ≠ .success then return (false, log)
  if fs.writable realpathRes = false then return (false, log)
  let log := { log with pFile := fs.opens realpathRes }
  match fs.stat fullName with
  | none => return (false, log)
  | some size => return (log.pFile, { log with curSize := UInt32.ofNat size })

/-- A directory is made if it is not there. -/
def ensureDir (mkdir : Bytes → FileSys → Option FileSys) (dir : Bytes) (fs : FileSys) :
    Except Fault (Option FileSys) :=
  if fs.found dir then return some fs else mkDirs mkdir dir fs

/-- `InitLogger`. -/
def initLogger (cfg : LogCfg) (mkdir : Bytes → FileSys → Option FileSys) (fs : FileSys)
    (log : LogState) : Except Fault (RtnCode × LogState) := do
  match ← ensureDir mkdir cfg.logPath fs with
  | none => return (.errSysException, log)
  | some fs =>
    match ← ensureDir mkdir cfg.logBkp fs with
    | none => return (.errSysException, log)
    | some fs =>
      let (opened, log) ← openLogFile cfg fs log
      return (if opened then .success else .errCommon, log)

/-- What a rotation meets. -/
structure Rotation where
  /-- The time as `GetCurFmtTmStr` prints it -/
  curTime : Bytes
  /-- `system`: the file system afterwards if the command ends with 0 -/
  system : Bytes → Option FileSys
  dir : BackupDir

/-- The command of `RotateFile`. -/
def LogCfg.cmdLine (cfg : LogCfg) (bakName : Bytes) : Bytes :=
  text " cd " ++ cfg.logPath ++ text " && mv " ++ cfg.logPfx ++ text " " ++ bakName ++
    text " && tar zcvf " ++ bakName ++ text ".tar.gz " ++ bakName ++ text " && rm " ++ bakName ++
    text " && mv " ++ bakName ++ text ".tar.gz " ++ cfg.logBkp

/-- `RotateFile`. -/
def rotateFile (cfg : LogCfg) (rot : Rotation) (log : LogState) :
    Except Fault (RtnCode × LogState) := do
  let log := { log with pFile := false }
  let bakName ← sprintf maxFileName (cfg.logPfx ++ text "-" ++ rot.curTime)
  -- Compressed file
  let cmdLine ← sprintf maxLineNum (cfg.cmdLine bakName)
  match rot.system cmdLine with
  | none => return (.errSysException, log)
  | some fs =>
    let _ ← spaceChkAndDel cfg rot.dir
    -- Create new log file
    let (opened, log) ← openLogFile cfg fs log
    return (if opened then .success else .errSysException, log)

/-- A call of `Logger`, and what it meets. -/
structure LogCall where
  level : UInt32
  moduleName : Bytes
  /-- The message as `vsnprintf` formats it -/
  message : Bytes
  /-- The time as `GetCurFullTime` prints it -/
  curTime : Bytes
  /-- `fputs` and `fflush` write the line -/
  fputs : Bool
  fflush : Bool
  rotation : Rotation

/-- `GetLevelName`. -/
def getLevelName (level : UInt32) : Bytes :=
  match level with
  | 0 => text "DEBUG"
  | 1 => text "INFO"
  | 2 => text "WARNING"
  | 3 => text "ERROR"
  | _ => text "INFO"

/-- The line that is printed. `vsnprintf` has room for all but the last two bytes of `message`. -/
def LogCall.logLine (call : LogCall) : Bytes :=
  call.curTime ++ text " " ++ getLevelName call.level ++ text " " ++ call.moduleName ++ text ": " ++
    call.message.take (maxLineNum - 2) ++ text "\n"

/-- `Logger`. -/
def logger (cfg : LogCfg) (call : LogCall) (log : LogState) : Except Fault LogState := do
  if call.level < cfg.logLevel ∨ log.pFile = false then return log
  let logLine ← sprintf maxLogLine call.logLine
  if call.fputs = false then return log
  if call.fflush = false then return log
  let log := { log with
    curSize := log.curSize + UInt32.ofNat logLine.length
    lines := log.lines ++ [logLine] }
  if cfg.maxFileSize.toNat < log.curSize.toNat then
    let (_, log) ← rotateFile cfg call.rotation log
    return log
  else return log

/-- Some calls of `Logger`, the first one first. -/
def loggerRun (cfg : LogCfg) : List LogCall → LogState → Except Fault LogState
  | [], log => return log
  | call :: calls, log => do
    let log ← logger cfg call log
    loggerRun cfg calls log

/-! ## Opening the file -/

/-- What `config.c` stores. -/
structure LogCfg.Bounded (cfg : LogCfg) : Prop where
  logPath : cfg.logPath.length < maxPathName
  logBkp : cfg.logBkp.length < maxPathName
  logPfx : cfg.logPfx.length < maxPathName

theorem LogCfg.bounded_init : LogCfg.init.Bounded :=
  ⟨by decide +kernel, by decide +kernel, by decide +kernel⟩

theorem LogCfg.Bounded.updateLogCfg {cfg : LogCfg} (h : cfg.Bounded) (type : CnfItemType)
    (value : Bytes) : (updateLogCfg cfg type value).2.Bounded := by
  have htake : (value.take (maxPathName - 1)).length < maxPathName := by
    rw [List.length_take, maxPathName]
    omega
  cases type with
  | lgp => exact ⟨htake, h.logBkp, h.logPfx⟩
  | bkp => exact ⟨h.logPath, htake, h.logPfx⟩
  | pfx => exact ⟨h.logPath, h.logBkp, htake⟩
  | svp => exact h
  | skf => exact h
  | _ =>
    simp only [PowerApi.updateLogCfg]
    split
    · exact h
    · exact ⟨h.logPath, h.logBkp, h.logPfx⟩

theorem LogCfg.Bounded.loadItem {fileExists : Bytes → Bool} {cfg : Cfg} (h : cfg.log.Bounded)
    (type : Option CnfItemType) (value : Bytes) :
    (loadItem fileExists cfg type value).2.log.Bounded := by
  rcases type with _ | _ | _ | _ | _ | _ | _ | _ | _
  case some.svp | some.skf => exact h
  case none => exact h
  all_goals exact h.updateLogCfg _ value

/-- Whatever the configuration file says, `LoadConfigFile` keeps the paths within their buffers. -/
theorem LogCfg.Bounded.loadLines {fileExists : Bytes → Bool} {cfg cfg' : Cfg} {code : RtnCode}
    {lines : List (Bytes × Option CnfItemType)} (h : cfg.log.Bounded)
    (hload : loadLines fileExists lines cfg = .ok (code, cfg')) : cfg'.log.Bounded := by
  induction lines generalizing cfg with
  | nil =>
    cases hload
    exact h
  | cons line lines ih =>
    obtain ⟨line, garbage⟩ := line
    rw [PowerApi.loadLines] at hload
    obtain ⟨p, -, hload⟩ := bind_eq_ok.mp hload
    cases p with
    | none => exact ih h hload
    | some p => exact ih (h.loadItem _ _) hload

theorem sprintf_ok {size : ℕ} {str : Bytes} (h : str.length < size) : sprintf size str = .ok str :=
  if_neg (not_le.mpr h)

/-- The log file is there, and can be written. -/
def Ready (cfg : LogCfg) (fs : FileSys) (size : ℕ) : Prop :=
  ∃ path, fs.realpath cfg.fullName = some path ∧ path.length < maxFullName ∧
    fs.found path = true ∧ fs.writable path = true ∧ fs.opens path = true ∧
    fs.stat cfg.fullName = some size

/-- The state with the file newly opened. -/
def LogState.reopened (log : LogState) (size : ℕ) : LogState :=
  { log with pFile := true, curSize := UInt32.ofNat size }

section Open

variable {cfg : LogCfg} {fs : FileSys} {log log' : LogState}

theorem LogCfg.Bounded.fullName_fits (h : cfg.Bounded) : cfg.fullName.length < maxFullName := by
  have hslash : (text "/").length = 1 := by decide +kernel
  have hpath := h.logPath
  have hpfx := h.logPfx
  rw [LogCfg.fullName, List.length_append, List.length_append, hslash]
  rw [maxPathName] at hpath hpfx
  rw [maxFullName, maxFileName, maxPathName]
  omega

/-- `OpenLogFile` asks for the file, and for nothing that is not there. -/
theorem openLogFile_eq (hcfg : cfg.Bounded) (log : LogState) :
    openLogFile cfg fs log =
      match fs.realpath cfg.fullName with
      | none => .error .nullDeref
      | some path =>
        if maxFullName ≤ path.length then .error .overrun
        else if fs.found path = false ∨ fs.writable path = false then .ok (false, log)
        else
          match fs.stat cfg.fullName with
          | none => .ok (false, { log with pFile := fs.opens path })
          | some size =>
            .ok (fs.opens path,
              { log with pFile := fs.opens path, curSize := UInt32.ofNat size }) := by
  rw [openLogFile, sprintf_ok hcfg.fullName_fits, ok_bind, normalizeAndVerifyFilepath]
  cases hreal : fs.realpath cfg.fullName with
  | none => rfl
  | some path =>
    dsimp only
    split
    · rfl
    · rw [ok_bind]
      cases hfound : fs.found path with
      | false => rfl
      | true =>
        cases hwritable : fs.writable path with
        | false => simp; rfl
        | true =>
          simp
          cases fs.stat cfg.fullName <;> rfl

/-- `OpenLogFile` returns the file if and only if it is ready. -/
theorem openLogFile_opened_iff (hcfg : cfg.Bounded) :
    openLogFile cfg fs log = .ok (true, log') ↔
      ∃ size, Ready cfg fs size ∧ log' = log.reopened size := by
  rw [openLogFile_eq hcfg]
  constructor
  · intro h
    cases hreal : fs.realpath cfg.fullName with
    | none =>
      rw [hreal] at h
      cases h
    | some path =>
      simp only [hreal] at h
      split at h
      · cases h
      · rename_i hlen
        split at h
        · cases h
        · rename_i hthere
          cases hstat : fs.stat cfg.fullName with
          | none =>
            rw [hstat] at h
            cases h
          | some size =>
            simp only [hstat, Except.ok.injEq, Prod.mk.injEq] at h
            obtain ⟨hopens, rfl⟩ := h
            rw [not_or, Bool.not_eq_false, Bool.not_eq_false] at hthere
            refine ⟨size, ⟨path, hreal, not_le.mp hlen, hthere.1, hthere.2, hopens, hstat⟩, ?_⟩
            rw [hopens]
            rfl
  · rintro ⟨size, ⟨path, hreal, hlen, hfound, hwritable, hopens, hstat⟩, rfl⟩
    simp [hreal, not_le.mpr hlen, hfound, hwritable, hopens, hstat, LogState.reopened]

/-- `InitLogger` is successful if and only if the file is ready, where the directories are. -/
theorem initLogger_success_iff (hcfg : cfg.Bounded) (hpath : fs.found cfg.logPath = true)
    (hbkp : fs.found cfg.logBkp = true) (mkdir : Bytes → FileSys → Option FileSys) :
    initLogger cfg mkdir fs log = .ok (.success, log') ↔
      ∃ size, Ready cfg fs size ∧ log' = log.reopened size := by
  rw [← openLogFile_opened_iff hcfg, initLogger, ensureDir, if_pos hpath]
  change (ensureDir mkdir cfg.logBkp fs >>= _) = _ ↔ _
  rw [ensureDir, if_pos hbkp]
  change (openLogFile cfg fs log >>= _) = _ ↔ _
  rw [bind_eq_ok]
  constructor
  · rintro ⟨⟨opened, log₁⟩, hopen, h⟩
    cases opened with
    | false => cases h
    | true =>
      cases h
      exact hopen
  · exact fun hopen => ⟨_, hopen, rfl⟩

end Open

/-! ## Rotation -/

/-- The command moves the log file away, as its text says: afterwards its name is none. -/
def Rotation.Moves (rot : Rotation) (cfg : LogCfg) : Prop :=
  ∀ cmdLine, ∃ fs, rot.system cmdLine = some fs ∧ fs.realpath cfg.fullName = none

section Rotate

variable {cfg : LogCfg} {rot : Rotation} {log log' : LogState}

/-- When the log file has been moved away, `RotateFile` does not come to its end. -/
theorem rotateFile_moved (hcfg : cfg.Bounded) (hmoves : rot.Moves cfg) (log : LogState) :
    ∃ fault, rotateFile cfg rot log = .error fault := by
  rw [rotateFile]
  cases hbak : sprintf maxFileName (cfg.logPfx ++ text "-" ++ rot.curTime) with
  | error fault => exact ⟨fault, rfl⟩
  | ok bakName =>
    rw [ok_bind]
    cases hcmd : sprintf maxLineNum (cfg.cmdLine bakName) with
    | error fault => exact ⟨fault, rfl⟩
    | ok cmdLine =>
      rw [ok_bind]
      obtain ⟨fs, hsystem, hreal⟩ := hmoves cmdLine
      rw [hsystem]
      dsimp only
      cases hdel : spaceChkAndDel cfg rot.dir with
      | error fault => exact ⟨fault, rfl⟩
      | ok names =>
        rw [ok_bind, openLogFile_eq hcfg, hreal]
        exact ⟨.nullDeref, rfl⟩

/-- If the command fails, the log is closed. -/
theorem rotateFile_failed {code : RtnCode} (hsystem : ∀ cmdLine, rot.system cmdLine = none)
    (h : rotateFile cfg rot log = .ok (code, log')) :
    code = .errSysException ∧ log' = { log with pFile := false } := by
  rw [rotateFile] at h
  obtain ⟨bakName, -, h⟩ := bind_eq_ok.mp h
  obtain ⟨cmdLine, -, h⟩ := bind_eq_ok.mp h
  rw [hsystem] at h
  cases h
  exact ⟨rfl, rfl⟩

end Rotate

/-! ## Messages -/

/-- All messages of sufficient level are written, to a log that stays open. -/
def Written (cfg : LogCfg) : List LogCall → LogState → Prop
  | [], log => log.pFile = true
  | call :: calls, log => ∃ log', logger cfg call log = .ok log' ∧
      (cfg.logLevel ≤ call.level → log'.lines = log.lines ++ [call.logLine]) ∧
      Written cfg calls log'

/-- The line can be written to a file of some size, and the file does not become too large. -/
def StaysSmall (cfg : LogCfg) (call : LogCall) (size : UInt32) : Prop :=
  call.logLine.length < maxLogLine ∧ call.fputs = true ∧ call.fflush = true ∧
    (size + UInt32.ofNat call.logLine.length).toNat ≤ cfg.maxFileSize.toNat

instance (cfg : LogCfg) (call : LogCall) (size : UInt32) : Decidable (StaysSmall cfg call size) :=
  inferInstanceAs (Decidable (_ ∧ _ ∧ _ ∧ _))

/-- No line of sufficient level makes a file of some size too large. -/
def NoRotation (cfg : LogCfg) : List LogCall → UInt32 → Prop
  | [], _ => True
  | call :: calls, size =>
    if call.level < cfg.logLevel then NoRotation cfg calls size
    else StaysSmall cfg call size ∧
      NoRotation cfg calls (size + UInt32.ofNat call.logLine.length)

section Messages

variable {cfg : LogCfg} {call : LogCall} {calls : List LogCall} {log log' : LogState}

/-- The state with one more line. -/
def LogState.append (log : LogState) (line : Bytes) : LogState :=
  { log with curSize := log.curSize + UInt32.ofNat line.length, lines := log.lines ++ [line] }

/-- A closed log stays as it is. -/
theorem logger_closed (h : log.pFile = false) (call : LogCall) : logger cfg call log = .ok log := by
  rw [logger, if_pos (.inr h)]
  rfl

theorem loggerRun_closed (h : log.pFile = false) (calls : List LogCall) :
    loggerRun cfg calls log = .ok log := by
  induction calls with
  | nil => rfl
  | cons call calls ih => rw [loggerRun, logger_closed h, ok_bind, ih]

theorem logger_low (h : call.level < cfg.logLevel) (log : LogState) :
    logger cfg call log = .ok log := by
  rw [logger, if_pos (.inl h)]
  rfl

theorem logger_open (hopen : log.pFile = true) (hlevel : cfg.logLevel ≤ call.level) :
    logger cfg call log =
      if maxLogLine ≤ call.logLine.length then .error .overrun
      else if call.fputs = false ∨ call.fflush = false then .ok log
      else if cfg.maxFileSize.toNat < (log.append call.logLine).curSize.toNat then
        (rotateFile cfg call.rotation (log.append call.logLine)).map Prod.snd
      else .ok (log.append call.logLine) := by
  have hgo : ¬ (call.level < cfg.logLevel ∨ log.pFile = false) := by
    rw [not_or, hopen]
    exact ⟨UInt32.not_lt.mpr hlevel, nofun⟩
  rw [logger, if_neg hgo, sprintf]
  split
  · rfl
  · change (if call.fputs = false then _ else _) = _
    cases call.fputs with
    | false => rfl
    | true =>
      cases call.fflush with
      | false => rfl
      | true =>
        simp only [Bool.true_eq_false, or_self, if_false]
        refine if_congr Iff.rfl ?_ rfl
        change (rotateFile cfg call.rotation (log.append call.logLine) >>= _) = _
        cases rotateFile cfg call.rotation (log.append call.logLine) <;> rfl

/-- A line that leaves the file small enough is written. -/
theorem logger_small (hopen : log.pFile = true) (hlevel : cfg.logLevel ≤ call.level)
    (h : StaysSmall cfg call log.curSize) :
    logger cfg call log = .ok (log.append call.logLine) := by
  obtain ⟨hlen, hfputs, hfflush, hsize⟩ := h
  rw [logger_open hopen hlevel, if_neg (not_le.mpr hlen), if_neg (by simp [hfputs, hfflush])]
  exact if_neg (not_lt.mpr hsize)

/-- Otherwise the line is not written, or the file is rotated. -/
theorem logger_not_small (hcfg : cfg.Bounded) (hmoves : call.rotation.Moves cfg)
    (hopen : log.pFile = true) (hlevel : cfg.logLevel ≤ call.level)
    (h : ¬ StaysSmall cfg call log.curSize) (hok : logger cfg call log = .ok log') :
    log' = log := by
  rw [logger_open hopen hlevel] at hok
  split at hok <;> rename_i hlen
  · cases hok
  · split at hok <;> rename_i hwrite
    · exact (Except.ok.inj hok).symm
    · split at hok <;> rename_i hsize
      · obtain ⟨fault, hrotate⟩ := rotateFile_moved hcfg hmoves (log.append call.logLine)
        rw [hrotate] at hok
        cases hok
      · rw [not_or, Bool.not_eq_false, Bool.not_eq_false] at hwrite
        exact absurd ⟨not_le.mp hlen, hwrite.1, hwrite.2, not_lt.mp hsize⟩ h

/-- Every message is written if and only if no line makes the file too large. -/
theorem written_iff (hcfg : cfg.Bounded) (hopen : log.pFile = true)
    (hmoves : ∀ call ∈ calls, call.rotation.Moves cfg) :
    Written cfg calls log ↔ NoRotation cfg calls log.curSize := by
  induction calls generalizing log with
  | nil => exact iff_of_true hopen trivial
  | cons call calls ih =>
    have hrest := fun call' hcall' => hmoves call' (List.mem_cons_of_mem call hcall')
    rw [Written, NoRotation]
    split <;> rename_i hlevel
    · rw [logger_low hlevel, ← ih hopen hrest]
      constructor
      · rintro ⟨log', hok, -, h⟩
        obtain rfl := Except.ok.inj hok
        exact h
      · exact fun h => ⟨log, rfl, fun hle => absurd hlevel (UInt32.not_lt.mpr hle), h⟩
    · rw [UInt32.not_lt] at hlevel
      constructor
      · rintro ⟨log', hok, hline, h⟩
        by_cases hsmall : StaysSmall cfg call log.curSize
        · rw [logger_small hopen hlevel hsmall] at hok
          obtain rfl := Except.ok.inj hok
          exact ⟨hsmall, (@ih (log.append call.logLine) hopen hrest).mp h⟩
        · -- the log is as long as it was
          have hmoves' := hmoves call List.mem_cons_self
          have hsame := logger_not_small hcfg hmoves' hopen hlevel hsmall hok
          have hlen := congrArg List.length (hline hlevel)
          rw [hsame] at hlen
          simp at hlen
      · rintro ⟨hsmall, h⟩
        exact ⟨_, logger_small hopen hlevel hsmall, fun _ => rfl,
          (@ih (log.append call.logLine) hopen hrest).mpr h⟩

/-- What is written is what was asked for. -/
theorem lines_of_written (h : Written cfg calls log) :
    ∃ log', loggerRun cfg calls log = .ok log' ∧ log'.pFile = true ∧
      log'.lines = log.lines ++ (calls.filter (cfg.logLevel ≤ ·.level)).map LogCall.logLine := by
  induction calls generalizing log with
  | nil => exact ⟨log, rfl, h, (List.append_nil _).symm⟩
  | cons call calls ih =>
    obtain ⟨next, hok, hline, h⟩ := h
    obtain ⟨log', hrun, hopen, hlines⟩ := ih h
    refine ⟨log', by rw [loggerRun, hok, ok_bind, hrun], hopen, ?_⟩
    by_cases hlevel : cfg.logLevel ≤ call.level
    · rw [hlines, hline hlevel, List.filter_cons_of_pos (by simpa using hlevel), List.map_cons,
        List.append_assoc]
      rfl
    · rw [logger_low (UInt32.not_le.mp hlevel)] at hok
      rw [hlines, ← Except.ok.inj hok, List.filter_cons_of_neg (by simpa using hlevel)]

/-- After a rotation whose command fails, nothing is written any more, and nobody is told. -/
theorem silent_after_failure (hopen : log.pFile = true) (hlevel : cfg.logLevel ≤ call.level)
    (hfputs : call.fputs = true) (hfflush : call.fflush = true)
    (hlarge : cfg.maxFileSize.toNat < (log.append call.logLine).curSize.toNat)
    (hfails : ∀ cmdLine, call.rotation.system cmdLine = none)
    (hok : logger cfg call log = .ok log') (calls : List LogCall) :
    loggerRun cfg calls log' = .ok { log.append call.logLine with pFile := false } := by
  rw [logger_open hopen hlevel] at hok
  split at hok
  · cases hok
  · rw [if_neg (by simp [hfputs, hfflush])] at hok
    cases hrotate : rotateFile cfg call.rotation (log.append call.logLine) with
    | error fault =>
      rw [hrotate] at hok
      cases hok
    | ok r =>
      rw [hrotate] at hok
      obtain ⟨-, hclosed⟩ := rotateFile_failed hfails hrotate
      obtain rfl : r.2 = log' := Except.ok.inj hok
      rw [hclosed]
      exact loggerRun_closed rfl calls

end Messages

/-- **Logging** works from `InitLogger` on, through any calls, if and only if the log file is ready
at first and no line makes it too large: `RotateFile` never opens a new one, and
`NormalizeAndVerifyFilepath` has no answer for a name that cannot be resolved. -/
theorem logging_iff {cfg : LogCfg} (hcfg : cfg.Bounded) {fs : FileSys}
    (hpath : fs.found cfg.logPath = true) (hbkp : fs.found cfg.logBkp = true)
    {calls : List LogCall} (hmoves : ∀ call ∈ calls, call.rotation.Moves cfg)
    (mkdir : Bytes → FileSys → Option FileSys) (log : LogState) :
    ((∃ log', initLogger cfg mkdir fs log = .ok (.success, log') ∧ Written cfg calls log') ↔
        ∃ size, Ready cfg fs size ∧ NoRotation cfg calls (UInt32.ofNat size)) ∧
      (∀ call ∈ calls, ∀ log₁ log₂, rotateFile cfg call.rotation log₁ ≠ .ok (.success, log₂)) ∧
      ∀ (fs : FileSys) (size : ℕ) (filename : Bytes), fs.realpath filename = none →
        ∀ r, normalizeAndVerifyFilepath fs size filename ≠ .ok r := by
  refine ⟨?_, ?_, ?_⟩
  · constructor
    · rintro ⟨log', hinit, hwritten⟩
      obtain ⟨size, hready, rfl⟩ := (initLogger_success_iff hcfg hpath hbkp mkdir).mp hinit
      exact ⟨size, hready, (written_iff hcfg rfl hmoves).mp hwritten⟩
    · rintro ⟨size, hready, hsmall⟩
      exact ⟨_, (initLogger_success_iff hcfg hpath hbkp mkdir).mpr ⟨size, hready, rfl⟩,
        (written_iff hcfg rfl hmoves).mpr hsmall⟩
  · intro call hcall log₁ log₂ h
    obtain ⟨fault, hrotate⟩ := rotateFile_moved hcfg (hmoves call hcall) log₁
    cases hrotate.symm.trans h
  · intro fs size filename hreal r h
    rw [normalizeAndVerifyFilepath, hreal] at h
    cases h

/-- A file system in which every name is there, and the log file has a few bytes. -/
def FileSys.full : FileSys where
  realpath := some
  found := fun _ => true
  writable := fun _ => true
  opens := fun _ => true
  stat := fun _ => some 100

/-- One in which no name can be resolved, as that of a file that is not there. -/
def FileSys.unresolved : FileSys := { FileSys.full with realpath := fun _ => none }

/-- A message at the start of the daemon. -/
def startCall : LogCall where
  level := 1
  moduleName := text "MAIN"
  message := text "powerapi service started"
  curTime := text "2022-06-23 12:00:00.000"
  fputs := true
  fflush := true
  rotation := ⟨text "20220623120000", fun _ => some .unresolved, notes⟩

theorem logging_iff_startCall :
    ∃ log', initLogger .init (fun _ => some) .full ⟨false, 0, []⟩ = .ok (.success, log') ∧
      Written .init [startCall] log' := by
  have hmoves : ∀ call ∈ [startCall], call.rotation.Moves .init := by
    intro call hcall cmdLine
    obtain rfl := List.mem_singleton.mp hcall
    exact ⟨.unresolved, rfl, rfl⟩
  refine (@logging_iff .init LogCfg.bounded_init .full rfl rfl [startCall] hmoves (fun _ => some)
    ⟨false, 0, []⟩).1.mpr ⟨100, ⟨LogCfg.init.fullName, rfl, ?_, rfl, rfl, rfl, rfl⟩, ?_⟩
  · exact LogCfg.bounded_init.fullName_fits
  · rw [NoRotation, if_neg (by decide +kernel)]
    exact ⟨by decide +kernel, trivial⟩

/-- A log file that is not there is not made. -/
theorem unresolved_not_opened :
    ¬ ∀ (cfg : LogCfg) (fs : FileSys) (mkdir : Bytes → FileSys → Option FileSys) (log : LogState),
      cfg.Bounded → fs.found cfg.logPath = true → fs.found cfg.logBkp = true →
        ∃ log', initLogger cfg mkdir fs log = .ok (.success, log') ∧ log'.pFile = true := by
  intro h
  obtain ⟨log', hinit, -⟩ := h .init .unresolved (fun _ => some) ⟨false, 0, []⟩ LogCfg.bounded_init
    rfl rfl
  obtain ⟨size, ⟨path, hreal, -⟩, -⟩ :=
    (initLogger_success_iff LogCfg.bounded_init rfl rfl fun _ => some).mp hinit
  cases hreal

end PowerApi
