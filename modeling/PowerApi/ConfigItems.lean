import PowerApi.Config

/-!
# The settings (`config.c`)

What the loops of `LoadConfigFile` and `CheckAndUpdateConfig` do with a key and a value.
There are two validators for a setting: `UpdateLogCfg` and `UpdateServCfg` at start-up,
`UpdateConfig` while the daemon runs. A number is read with `atoi`, as an `int`, and stored
in a wider or narrower unsigned field.
-/

namespace PowerApi

/-- `MAX_PATH_NAME`. -/
def maxPathName : ℕ := 128

/-- `MAX_FILE_NAME`. -/
def maxFileName : ℕ := 178

/-- `MAX_SERVER_PORT`. -/
def maxServerPort : Int := 65535

/-- `UNIT_FACTOR`. -/
def unitFactor : Int := 1048576

/-! ## The data -/

/-- `enum CnfItemType`. -/
inductive CnfItemType where
  | fls
  | cnt
  | lgv
  | lgp
  | bkp
  | pfx
  | svp
  | skf
  deriving DecidableEq, Repr

/-- The names of the items. -/
def CnfItemType.name : CnfItemType → Bytes
  | fls => text "file_size"
  | cnt => text "cmp_cnt"
  | lgv => text "log_level"
  | lgp => text "log_path"
  | bkp => text "bak_log_path"
  | pfx => text "log_pfx"
  | svp => text "port"
  | skf => text "sock_file"

/-- The items in the order in which they are compared. -/
def CnfItemType.all : List CnfItemType := [fls, cnt, lgv, lgp, bkp, pfx, svp, skf]

/-- `LogCfg`. The three names are strings. -/
structure LogCfg where
  maxFileSize : UInt64
  maxCmpCnt : UInt64
  /-- `enum LogLevel`, an `unsigned int` -/
  logLevel : UInt32
  logPath : Bytes
  logBkp : Bytes
  logPfx : Bytes
  deriving DecidableEq, Repr

/-- `ServCfg`. -/
structure ServCfg where
  port : UInt16
  sockFile : Bytes
  deriving DecidableEq, Repr

/-- `g_logCfg` and `g_servCfg`. -/
structure Cfg where
  log : LogCfg
  serv : ServCfg
  deriving DecidableEq, Repr

/-! ## The functions -/

/-- `IsNumStr`. -/
def isNumStr (str : Bytes) : Bool := str.all isDigit

/-- `StringToEnum`. It ends without a `return` for a string that is no name: what the caller
gets there is `garbage`, one of the items or some other number. -/
def stringToEnum (garbage : Option CnfItemType) (str : Bytes) : Option CnfItemType :=
  match CnfItemType.all.find? fun t => t.name = str with
  | some t => some t
  | none => garbage

/-- `actualValue * UNIT_FACTOR - MAX_LINE_LENGTH`, an `int`. -/
def fileSizeOf (actualValue : Int) : Int :=
  wrapInt (wrapInt (actualValue * unitFactor) - maxLineLength)

/-- `InitLogCfg`. -/
def LogCfg.init : LogCfg where
  maxFileSize := UInt64.ofInt (fileSizeOf 10)
  maxCmpCnt := 3
  logLevel := 0
  logPath := text "/opt/os_data/log"
  logBkp := text "/opt/os_data/log/bak"
  logPfx := text "papis.log"

/-- `InitServCfg`. -/
def ServCfg.init : ServCfg := ⟨0, text "pwrserver.sock"⟩

/-- `UpdateLogCfg`. -/
def updateLogCfg (cfg : LogCfg) (type : CnfItemType) (value : Bytes) : RtnCode × LogCfg :=
  let actualValue := atoi value
  match type with
  | .fls =>
    if isNumStr value = false ∨ actualValue ≤ 0 then (.errInvalideParam, cfg)
    else (.success, { cfg with maxFileSize := UInt64.ofInt (fileSizeOf actualValue) })
  | .cnt =>
    if isNumStr value = false ∨ actualValue ≤ 0 then (.errInvalideParam, cfg)
    else (.success, { cfg with maxCmpCnt := UInt64.ofInt actualValue })
  | .lgv =>
    if isNumStr value = false ∨ actualValue < 0 then (.errInvalideParam, cfg)
    else (.success, { cfg with logLevel := UInt32.ofInt actualValue })
  | .lgp => (.success, { cfg with logPath := value.take (maxPathName - 1) })
  | .bkp => (.success, { cfg with logBkp := value.take (maxPathName - 1) })
  | .pfx => (.success, { cfg with logPfx := value.take (maxPathName - 1) })
  | _ => (.success, cfg)

/-- `UpdateServCfg`. `fileExists` says which files `access` finds. -/
def updateServCfg (fileExists : Bytes → Bool) (cfg : ServCfg) (type : CnfItemType)
    (value : Bytes) : RtnCode × ServCfg :=
  let actualValue := atoi value
  match type with
  | .svp =>
    if isNumStr value = false ∨ actualValue < 0 ∨ maxServerPort < actualValue then
      (.errInvalideParam, cfg)
    else (.success, { cfg with port := UInt16.ofInt actualValue })
  | .skf =>
    if fileExists value = false then (.errInvalideParam, cfg)
    else (.success, { cfg with sockFile := value.take (maxFileName - 1) })
  | _ => (.success, cfg)

/-- The switch in the loop of `LoadConfigFile`, with the code that it drops. -/
def loadItem (fileExists : Bytes → Bool) (cfg : Cfg) (type : Option CnfItemType) (value : Bytes) :
    RtnCode × Cfg :=
  match type with
  | some .fls | some .cnt | some .lgv | some .lgp | some .bkp | some .pfx =>
    let r := updateLogCfg cfg.log (type.getD .fls) value
    (r.1, { cfg with log := r.2 })
  | some .svp | some .skf =>
    let r := updateServCfg fileExists cfg.serv (type.getD .svp) value
    (r.1, { cfg with serv := r.2 })
  | none => (.success, cfg)

/-- `HandleInvalidUpdate`. -/
def handleInvalidUpdate (garbage : Option CnfItemType) (cfg : Cfg) (key value : Bytes) : RtnCode :=
  match stringToEnum garbage key with
  | some .lgp => if value ≠ cfg.log.logPath then .errCommon else .success
  | some .bkp => if value ≠ cfg.log.logBkp then .errCommon else .success
  | some .pfx => if value ≠ cfg.log.logPfx then .errCommon else .success
  | some .skf => if value ≠ cfg.serv.sockFile then .errCommon else .success
  | _ => .success

/-- `UpdateConfig`. It classifies the key, and `HandleInvalidUpdate` does so again: there is
garbage for both. -/
def updateConfig (garbage : Option CnfItemType × Option CnfItemType) (cfg : Cfg)
    (key value : Bytes) : RtnCode × Cfg :=
  let actualValue := atoi value
  match stringToEnum garbage.1 key with
  -- Properties that can be dynamically validated
  | some .fls =>
    if isNumStr value = false ∨ actualValue < 0 then (.errInvalideParam, cfg)
    else
      let maxFileSize := UInt64.ofInt (fileSizeOf actualValue)
      if maxFileSize ≠ cfg.log.maxFileSize then
        (.success, { cfg with log := { cfg.log with maxFileSize := maxFileSize } })
      else (.success, cfg)
  | some .cnt =>
    if isNumStr value = false ∨ actualValue < 0 then (.errInvalideParam, cfg)
    else if UInt64.ofInt actualValue ≠ cfg.log.maxCmpCnt then
      (.success, { cfg with log := { cfg.log with maxCmpCnt := UInt64.ofInt actualValue } })
    else (.success, cfg)
  | some .lgv =>
    if isNumStr value = false ∨ actualValue < 0 then (.errInvalideParam, cfg)
    else if UInt32.ofInt actualValue ≠ cfg.log.logLevel then
      (.success, { cfg with log := { cfg.log with logLevel := UInt32.ofInt actualValue } })
    else (.success, cfg)
  -- Properties that cannot be dynamically validated
  | _ => (handleInvalidUpdate garbage.2 cfg key value, cfg)

/-! ## Keys -/

theorem find_name (type : CnfItemType) :
    (CnfItemType.all.find? fun t => t.name = type.name) = some type := by
  cases type <;> decide +kernel

@[simp] theorem stringToEnum_name (garbage : Option CnfItemType) (type : CnfItemType) :
    stringToEnum garbage type.name = some type := by
  rw [stringToEnum, find_name]

/-- A key that is no name. -/
theorem stringToEnum_unknown {key : Bytes} (h : ∀ type : CnfItemType, key ≠ type.name)
    (garbage : Option CnfItemType) : stringToEnum garbage key = garbage := by
  have hnone : (CnfItemType.all.find? fun t => t.name = key) = none :=
    List.find?_eq_none.mpr fun t _ => by simpa using (h t).symm
  rw [stringToEnum, hnone]

/-! ## Numbers -/

theorem isNumStr_iff {str : Bytes} : isNumStr str = true ↔ ∀ c ∈ str, isDigit c = true :=
  List.all_eq_true

/-- What `atoi` makes of a string of digits: the value is cut to a `long`, and the `long` to
an `int`. -/
theorem atoi_eq {str : Bytes} (h : isNumStr str = true) :
    atoi str = wrapInt (min (2 ^ 63 - 1) (digitsValue str : Int)) := by
  rw [atoi, strtol_digits (isNumStr_iff.mp h)]

/-- A number that `atoi` turns into a negative `int`. -/
def ReadsNegative (v : ℕ) : Prop := 2 ^ 63 ≤ v ∨ 2 ^ 31 ≤ v % 2 ^ 32

/-- A number that `atoi` turns into 0. -/
def ReadsZero (v : ℕ) : Prop := v < 2 ^ 63 ∧ v % 2 ^ 32 = 0

instance : DecidablePred ReadsNegative := fun _ => inferInstanceAs (Decidable (_ ∨ _))

instance : DecidablePred ReadsZero := fun _ => inferInstanceAs (Decidable (_ ∧ _))

section Atoi

variable {str : Bytes}

theorem wrapInt_eq (n : Int) :
    wrapInt n = if n % 2 ^ 32 < 2 ^ 31 then n % 2 ^ 32 else n % 2 ^ 32 - 2 ^ 32 := by
  rw [wrapInt, Int.bmod_def]
  rfl

theorem atoi_neg_iff (h : isNumStr str = true) :
    atoi str < 0 ↔ ReadsNegative (digitsValue str) := by
  rw [atoi_eq h, wrapInt_eq, ReadsNegative]
  omega

theorem atoi_zero_iff (h : isNumStr str = true) : atoi str = 0 ↔ ReadsZero (digitsValue str) := by
  rw [atoi_eq h, wrapInt_eq, ReadsZero]
  omega

/-- A number that is not read as a negative one is read modulo 2^32. -/
theorem atoi_of_not_neg (h : isNumStr str = true) (hneg : ¬ ReadsNegative (digitsValue str)) :
    atoi str = (digitsValue str % 2 ^ 32 : ℕ) ∧ digitsValue str % 2 ^ 32 < 2 ^ 31 := by
  rw [ReadsNegative] at hneg
  rw [atoi_eq h, wrapInt_eq]
  omega

end Atoi

/-! ### Conversions to unsigned fields -/

theorem toNat_uint64OfInt (n : Int) : ((UInt64.ofInt n).toNat : Int) = n % 2 ^ 64 := by
  have hlt : (n % 2 ^ 64).toNat < UInt64.size := by
    rw [UInt64.size]
    omega
  rw [UInt64.ofInt, UInt64.toNat_ofNat_of_lt' hlt]
  omega

theorem toNat_uint32OfInt (n : Int) : ((UInt32.ofInt n).toNat : Int) = n % 2 ^ 32 := by
  have hlt : (n % 2 ^ 32).toNat < UInt32.size := by
    rw [UInt32.size]
    omega
  rw [UInt32.ofInt, UInt32.toNat_ofNat_of_lt' hlt]
  omega

theorem toNat_uint16OfInt (n : Int) : ((UInt16.ofInt n).toNat : Int) = n % 2 ^ 16 := by
  have hlt : (n % 2 ^ 16).toNat < UInt16.size := by
    rw [UInt16.size]
    omega
  rw [UInt16.ofInt, UInt16.toNat_ofNat_of_lt' hlt]
  omega

end PowerApi
