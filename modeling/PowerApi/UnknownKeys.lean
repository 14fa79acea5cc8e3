import PowerApi.ConfigItems

/-!
# Keys that are no names (`config.c`)

`StringToEnum` has no `return` for a key that it does not know, so its caller goes on with
whatever number is there. If that happens to be one of the items, the line is taken for a
setting. `unknown_key_ignored_iff` says exactly when such a line leaves no trace.
-/

namespace PowerApi

/-! ## The loops -/

/-- The loop of `LoadConfigFile` over what `fgets` reads, each with the number that
`StringToEnum` gives for an unknown key. -/
def loadLines (fileExists : Bytes → Bool) :
    List (Bytes × Option CnfItemType) → Cfg → Except Fault (RtnCode × Cfg)
  | [], cfg => return (.success, cfg)
  | (line, garbage) :: lines, cfg => do
    match ← pair (cString line) with
    | none => loadLines fileExists lines cfg
    | some (key, value) =>
      loadLines fileExists lines (loadItem fileExists cfg (stringToEnum garbage key) value).2

/-- What the loop of `CheckAndUpdateConfig` works on. -/
structure Reload where
  cfg : Cfg
  /-- The number of invalid updates -/
  invalidUpdateSum : ℕ
  /-- The number of undynamically validated attrs that been modified -/
  nonDynamicSum : ℕ

namespace Reload

/-- The switch over the code of `UpdateConfig`. -/
def count (s : Reload) (r : RtnCode × Cfg) : Reload :=
  match r.1 with
  | .errInvalideParam => { s with cfg := r.2, invalidUpdateSum := s.invalidUpdateSum + 1 }
  | .errCommon => { s with cfg := r.2, nonDynamicSum := s.nonDynamicSum + 1 }
  | _ => { s with cfg := r.2 }

/-- What `CheckAndUpdateConfig` returns. -/
def result (s : Reload) : RtnCode × Cfg :=
  (if s.invalidUpdateSum ≠ 0 then .errInvalideParam
    else if s.nonDynamicSum ≠ 0 then .errModifyBanUpdateAttrCurrently
    else .success, s.cfg)

end Reload

/-- The loop of `CheckAndUpdateConfig` over what `fgets` reads. -/
def reloadLines : List (Bytes × Option CnfItemType × Option CnfItemType) → Reload →
    Except Fault (RtnCode × Cfg)
  | [], s => return s.result
  | (line, garbage) :: lines, s => do
    match ← pair (cString line) with
    | none => reloadLines lines s
    | some (key, value) => reloadLines lines (s.count (updateConfig garbage s.cfg key value))

/-! ## A line that leaves no trace -/

/-- Whatever lines follow, `LoadConfigFile` does what it does without the line. -/
def IgnoredAtStart (fileExists : Bytes → Bool) (cfg : Cfg) (line : Bytes)
    (garbage : Option CnfItemType) : Prop :=
  ∀ lines, loadLines fileExists ((line, garbage) :: lines) cfg = loadLines fileExists lines cfg

/-- Whatever lines follow and whatever has been counted, so does `CheckAndUpdateConfig`. -/
def IgnoredAtRun (cfg : Cfg) (line : Bytes) (garbage : Option CnfItemType × Option CnfItemType) :
    Prop :=
  ∀ m n lines, reloadLines ((line, garbage) :: lines) ⟨cfg, m, n⟩ = reloadLines lines ⟨cfg, m, n⟩

/-- The number is no item, or the one of an item for which the value is refused or is what is
stored already. -/
def IdleAtStart (fileExists : Bytes → Bool) (cfg : Cfg) (garbage : Option CnfItemType)
    (value : Bytes) : Prop :=
  match garbage with
  | none => True
  | some .fls => isNumStr value = false ∨ atoi value ≤ 0 ∨
      cfg.log.maxFileSize = UInt64.ofInt (fileSizeOf (atoi value))
  | some .cnt => isNumStr value = false ∨ atoi value ≤ 0 ∨
      cfg.log.maxCmpCnt = UInt64.ofInt (atoi value)
  | some .lgv => isNumStr value = false ∨ atoi value < 0 ∨
      cfg.log.logLevel = UInt32.ofInt (atoi value)
  | some .lgp => cfg.log.logPath = value.take (maxPathName - 1)
  | some .bkp => cfg.log.logBkp = value.take (maxPathName - 1)
  | some .pfx => cfg.log.logPfx = value.take (maxPathName - 1)
  | some .svp => isNumStr value = false ∨ atoi value < 0 ∨ maxServerPort < atoi value ∨
      cfg.serv.port = UInt16.ofInt (atoi value)
  | some .skf => fileExists value = false ∨ cfg.serv.sockFile = value.take (maxFileName - 1)

/-- The first number is that of an item that can change and has the value already, or that of
none; then the second is no item that cannot change and has another value. -/
def IdleAtRun (cfg : Cfg) (garbage : Option CnfItemType × Option CnfItemType) (value : Bytes) :
    Prop :=
  match garbage.1 with
  | some .fls => isNumStr value = true ∧ 0 ≤ atoi value ∧
      cfg.log.maxFileSize = UInt64.ofInt (fileSizeOf (atoi value))
  | some .cnt => isNumStr value = true ∧ 0 ≤ atoi value ∧
      cfg.log.maxCmpCnt = UInt64.ofInt (atoi value)
  | some .lgv => isNumStr value = true ∧ 0 ≤ atoi value ∧
      cfg.log.logLevel = UInt32.ofInt (atoi value)
  | _ =>
    match garbage.2 with
    | some .lgp => cfg.log.logPath = value
    | some .bkp => cfg.log.logBkp = value
    | some .pfx => cfg.log.logPfx = value
    | some .skf => cfg.serv.sockFile = value
    | _ => True

section Ignored

variable {fileExists : Bytes → Bool} {cfg : Cfg} {key value line : Bytes}

theorem ite_snd_eq {p : Prop} [Decidable p] {α : Type} {a b : RtnCode} {x y : α} :
    (if p then (a, x) else (b, y)).2 = x ↔ p ∨ x = y := by
  split <;> rename_i hp
  · simp [hp]
  · simp [hp, eq_comm]

/-- The settings stay as they are exactly if the line is idle. -/
theorem loadItem_idle_iff {garbage : Option CnfItemType} :
    (loadItem fileExists cfg garbage value).2 = cfg ↔ IdleAtStart fileExists cfg garbage value := by
  obtain ⟨⟨size, cnt, level, path, bkp, pfx⟩, ⟨port, sock⟩⟩ := cfg
  rcases garbage with _ | _ | _ | _ | _ | _ | _ | _ | _
  · exact iff_of_true rfl trivial
  all_goals
    simp only [loadItem, Option.getD_some, updateLogCfg, updateServCfg, IdleAtStart, Cfg.mk.injEq,
      and_true, true_and, ite_snd_eq, LogCfg.mk.injEq, ServCfg.mk.injEq, or_assoc]
  all_goals simp only [eq_comm]

/-- What an update has to be to leave no trace. -/
def Idle (cfg : Cfg) (r : RtnCode × Cfg) : Prop :=
  r.1 ≠ .errInvalideParam ∧ r.1 ≠ .errCommon ∧ r.2 = cfg

/-- An item that can change: the value is taken, and is what is stored. -/
theorem idle_dynamic {α : Type} [DecidableEq α] {new old : α} {cfg' : Cfg}
    (hcfg : cfg' = cfg ↔ new = old) :
    Idle cfg (if isNumStr value = false ∨ atoi value < 0 then (.errInvalideParam, cfg)
        else if new ≠ old then (.success, cfg') else (.success, cfg)) ↔
      isNumStr value = true ∧ 0 ≤ atoi value ∧ old = new := by
  rw [← and_assoc, ← Bool.not_eq_false, ← not_lt, ← not_or]
  by_cases hrefused : isNumStr value = false ∨ atoi value < 0
  · rw [if_pos hrefused]
    exact iff_of_false (fun h => h.1 rfl) fun h => h.1 hrefused
  · rw [if_neg hrefused, and_iff_right hrefused]
    by_cases hnew : new = old
    · simp [Idle, hnew]
    · simp [Idle, hnew, hcfg, eq_comm]

/-- An item that cannot change: the value is the one that it has. -/
theorem idle_fixed {value old : Bytes} :
    Idle cfg (if value ≠ old then .errCommon else .success, cfg) ↔ old = value := by
  by_cases hsame : value = old
  · simp [Idle, hsame]
  · simp [Idle, hsame, eq_comm]

theorem updateConfig_idle_iff {garbage : Option CnfItemType × Option CnfItemType}
    (hkey : ∀ type : CnfItemType, key ≠ type.name) :
    Idle cfg (updateConfig garbage cfg key value) ↔ IdleAtRun cfg garbage value := by
  obtain ⟨⟨size, cnt, level, path, bkp, pfx⟩, ⟨port, sock⟩⟩ := cfg
  obtain ⟨garbage, again⟩ := garbage
  rw [updateConfig, stringToEnum_unknown hkey]
  rcases garbage with _ | _ | _ | _ | _ | _ | _ | _ | _
  case some.fls => exact idle_dynamic (by simp)
  case some.cnt => exact idle_dynamic (by simp)
  case some.lgv => exact idle_dynamic (by simp)
  -- `HandleInvalidUpdate` looks once more
  all_goals
    dsimp only [IdleAtRun]
    rw [handleInvalidUpdate, stringToEnum_unknown hkey]
    rcases again with _ | _ | _ | _ | _ | _ | _ | _ | _
    all_goals first
      | exact idle_fixed
      | exact iff_of_true ⟨nofun, nofun, rfl⟩ trivial

/-- What has been counted stays, and no code comes of it, exactly if the update is idle. -/
theorem result_count {r : RtnCode × Cfg} :
    (Reload.count ⟨cfg, 0, 0⟩ r).result = (.success, cfg) ↔ Idle cfg r := by
  obtain ⟨code, cfg'⟩ := r
  cases code <;> simp [Reload.count, Reload.result, Idle]

theorem Idle.count_eq {s : Reload} {r : RtnCode × Cfg} (h : Idle s.cfg r) : s.count r = s := by
  obtain ⟨code, cfg'⟩ := r
  obtain ⟨hparam, hcommon, rfl⟩ := h
  cases code <;> first | rfl | exact absurd rfl hparam | exact absurd rfl hcommon

/-- A line that gives a key and a value leaves no trace at start-up exactly if it is idle. -/
theorem ignoredAtStart_pair {garbage : Option CnfItemType}
    (hpair : pair (cString line) = .ok (some (key, value)))
    (hkey : ∀ type : CnfItemType, key ≠ type.name) :
    IgnoredAtStart fileExists cfg line garbage ↔ IdleAtStart fileExists cfg garbage value := by
  rw [← loadItem_idle_iff]
  have hloop : ∀ lines, loadLines fileExists ((line, garbage) :: lines) cfg =
      loadLines fileExists lines (loadItem fileExists cfg garbage value).2 := by
    intro lines
    rw [loadLines, hpair, ok_bind]
    dsimp only
    rw [stringToEnum_unknown hkey]
  constructor
  · intro h
    have hnil := (hloop []).symm.trans (h [])
    exact congrArg Prod.snd (Except.ok.inj hnil)
  · intro hcfg lines
    rw [hloop, hcfg]

/-- Nor at run time. -/
theorem ignoredAtRun_pair {garbage : Option CnfItemType × Option CnfItemType}
    (hpair : pair (cString line) = .ok (some (key, value)))
    (hkey : ∀ type : CnfItemType, key ≠ type.name) :
    IgnoredAtRun cfg line garbage ↔ IdleAtRun cfg garbage value := by
  rw [← updateConfig_idle_iff hkey]
  have hloop : ∀ s lines, reloadLines ((line, garbage) :: lines) s =
      reloadLines lines (s.count (updateConfig garbage s.cfg key value)) := by
    intro s lines
    rw [reloadLines, hpair, ok_bind]
  constructor
  · intro h
    have hnil := (hloop ⟨cfg, 0, 0⟩ []).symm.trans (h 0 0 [])
    exact result_count.mp (Except.ok.inj hnil)
  · intro hidle m n lines
    rw [hloop, Idle.count_eq hidle]

/-- A line of which nothing comes leaves no trace. -/
theorem ignored_none {garbage : Option CnfItemType} {both : Option CnfItemType × Option CnfItemType}
    (hpair : pair (cString line) = .ok none) :
    IgnoredAtStart fileExists cfg line garbage ∧ IgnoredAtRun cfg line both := by
  constructor
  · intro lines
    rw [loadLines, hpair, ok_bind]
  · intro m n lines
    rw [reloadLines, hpair, ok_bind]

/-- A line that runs over its buffers leaves one. -/
theorem not_ignored_error {garbage : Option CnfItemType}
    {both : Option CnfItemType × Option CnfItemType} {fault : Fault}
    (hpair : pair (cString line) = .error fault) :
    ¬ IgnoredAtStart fileExists cfg line garbage ∧ ¬ IgnoredAtRun cfg line both := by
  constructor
  · intro h
    have hloop : loadLines fileExists [(line, garbage)] cfg = .error fault := by
      rw [loadLines, hpair, error_bind]
    cases hloop.symm.trans (h [])
  · intro h
    have hloop : reloadLines [(line, both)] ⟨cfg, 0, 0⟩ = .error fault := by
      rw [reloadLines, hpair, error_bind]
    cases hloop.symm.trans (h 0 0 [])

end Ignored

/-- **A line with an unknown key is ignored** if and only if it is skipped, or its key and its value
fit their buffers and the number that comes out of `StringToEnum` makes no difference. -/
theorem unknown_key_ignored_iff {line key value : Bytes} (hline : cString line = key ++ 61 :: value)
    (hkey : 61 ∉ key) (hunknown : ∀ type : CnfItemType, lrtrim key ≠ type.name)
    (fileExists : Bytes → Bool) (cfg : Cfg) (garbage : Option CnfItemType)
    (both : Option CnfItemType × Option CnfItemType) :
    (IgnoredAtStart fileExists cfg line garbage ↔
        Invalid (cString line) ∨ (key.length < maxKeyLen ∧ value.length < maxLineLength) ∧
          (Blank key ∨ Blank value ∨ IdleAtStart fileExists cfg garbage (lrtrim value))) ∧
      (IgnoredAtRun cfg line both ↔
        Invalid (cString line) ∨ (key.length < maxKeyLen ∧ value.length < maxLineLength) ∧
          (Blank key ∨ Blank value ∨ IdleAtRun cfg both (lrtrim value))) := by
  have hpair := pair_eq hkey value
  rw [← hline] at hpair
  by_cases hinvalid : Invalid (cString line)
  · rw [if_pos hinvalid] at hpair
    obtain ⟨hstart, hrun⟩ := ignored_none hpair
    exact ⟨iff_of_true hstart (.inl hinvalid), iff_of_true hrun (.inl hinvalid)⟩
  rw [if_neg hinvalid] at hpair
  rw [or_iff_right hinvalid, or_iff_right hinvalid, ← not_le, ← not_le, ← not_or]
  by_cases hlong : maxKeyLen ≤ key.length ∨ maxLineLength ≤ value.length
  · rw [if_pos hlong] at hpair
    obtain ⟨hstart, hrun⟩ := not_ignored_error hpair
    exact ⟨iff_of_false hstart fun h => h.1 hlong, iff_of_false hrun fun h => h.1 hlong⟩
  rw [if_neg hlong] at hpair
  rw [and_iff_right hlong, and_iff_right hlong, ← lrtrim_eq_nil, ← lrtrim_eq_nil]
  by_cases hblank : lrtrim key = [] ∨ lrtrim value = []
  · rw [if_pos hblank] at hpair
    obtain ⟨hstart, hrun⟩ := ignored_none hpair
    exact ⟨iff_of_true hstart (or_assoc.mp (.inl hblank)),
      iff_of_true hrun (or_assoc.mp (.inl hblank))⟩
  · rw [if_neg hblank] at hpair
    rw [← or_assoc, or_iff_right hblank, ← or_assoc, or_iff_right hblank]
    exact ⟨ignoredAtStart_pair hpair hunknown, ignoredAtRun_pair hpair hunknown⟩

theorem unknown_key_ignored_iff_none :
    IgnoredAtStart (fun _ => true) ⟨.init, .init⟩ (text "owner=7") none := by
  refine (@unknown_key_ignored_iff (text "owner=7") (text "owner") (text "7") (by decide +kernel)
    (by decide +kernel) ?_ (fun _ => true) ⟨.init, .init⟩ none (none, none)).1.mpr
    (.inr ⟨⟨by decide +kernel, by decide +kernel⟩, .inr (.inr trivial)⟩)
  rintro ⟨⟩ <;> decide +kernel

/-- What `StringToEnum` leaves behind is taken for the number of archives. -/
theorem owner_not_ignored :
    ¬ ∀ (fileExists : Bytes → Bool) (cfg : Cfg) (line key value : Bytes)
      (garbage : Option CnfItemType), cString line = key ++ 61 :: value → 61 ∉ key →
        key.length < maxKeyLen → (∀ type : CnfItemType, lrtrim key ≠ type.name) →
          IgnoredAtStart fileExists cfg line garbage := by
  intro h
  have hignored := h (fun _ => true) ⟨.init, .init⟩ (text "owner=7") (text "owner") (text "7")
    (some .cnt) (by decide +kernel) (by decide +kernel) (by decide +kernel)
    (by rintro ⟨⟩ <;> decide +kernel) []
  exact absurd hignored (by decide +kernel)

end PowerApi
