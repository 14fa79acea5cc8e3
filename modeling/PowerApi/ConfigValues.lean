import PowerApi.ConfigItems

/-!
# Numbers as settings (`config.c`)

Two questions about the four settings that are numbers.

* Do the start-up and the running daemon take the same values? They compare with 0 in
  different ways (`taken_alike_iff`).
* Is a number that is taken the one that is stored? It is cut to an `int` by `atoi`, and a
  file size is multiplied as one (`means_what_it_says_iff`).
-/

namespace PowerApi

/-- The settings that can change at run time. -/
def CnfItemType.Dynamic (type : CnfItemType) : Prop := type = fls ∨ type = cnt ∨ type = lgv

instance (type : CnfItemType) : Decidable type.Dynamic := inferInstanceAs (Decidable (_ ∨ _))

/-! ## What the validators do -/

section Validators

variable {fileExists : Bytes → Bool} {cfg : Cfg} {value : Bytes}
  {garbage : Option CnfItemType × Option CnfItemType}

/-- The setting after a number has been stored. -/
def Cfg.store (cfg : Cfg) (type : CnfItemType) (actualValue : Int) : Cfg :=
  match type with
  | .fls =>
    { cfg with log := { cfg.log with maxFileSize := UInt64.ofInt (fileSizeOf actualValue) } }
  | .cnt => { cfg with log := { cfg.log with maxCmpCnt := UInt64.ofInt actualValue } }
  | .lgv => { cfg with log := { cfg.log with logLevel := UInt32.ofInt actualValue } }
  | .svp => { cfg with serv := { cfg.serv with port := UInt16.ofInt actualValue } }
  | _ => cfg

/-- What `LoadConfigFile` refuses. -/
def RefusedAtStart (type : CnfItemType) (value : Bytes) : Prop :=
  isNumStr value = false ∨ atoi value < 0 ∨
    match type with
    | .fls | .cnt => atoi value = 0
    | .svp => maxServerPort < atoi value
    | _ => False

/-- What `UpdateConfig` refuses. -/
def RefusedAtRun (value : Bytes) : Prop := isNumStr value = false ∨ atoi value < 0

instance (type : CnfItemType) (value : Bytes) : Decidable (RefusedAtStart type value) := by
  unfold RefusedAtStart
  cases type <;> infer_instance

instance (value : Bytes) : Decidable (RefusedAtRun value) := inferInstanceAs (Decidable (_ ∨ _))

theorem loadItem_number {type : CnfItemType} (htype : type.Dynamic ∨ type = .svp) :
    loadItem fileExists cfg (some type) value =
      if RefusedAtStart type value then (.errInvalideParam, cfg)
      else (.success, cfg.store type (atoi value)) := by
  have hle : isNumStr value = false ∨ atoi value ≤ 0 ↔
      isNumStr value = false ∨ atoi value < 0 ∨ atoi value = 0 :=
    or_congr_right le_iff_lt_or_eq
  by_cases hrefused : RefusedAtStart type value
  · rw [if_pos hrefused]
    obtain (rfl | rfl | rfl) | rfl := htype
    all_goals
      simp only [RefusedAtStart, or_false] at hrefused
      simp [loadItem, updateLogCfg, updateServCfg, hle, hrefused]
  · rw [if_neg hrefused]
    obtain (rfl | rfl | rfl) | rfl := htype
    all_goals
      simp only [RefusedAtStart, or_false] at hrefused
      simp [loadItem, updateLogCfg, updateServCfg, Cfg.store, hle, hrefused]

theorem updateConfig_number {type : CnfItemType} (htype : type.Dynamic) :
    updateConfig garbage cfg type.name value =
      if RefusedAtRun value then (.errInvalideParam, cfg)
      else (.success, cfg.store type (atoi value)) := by
  rw [updateConfig, stringToEnum_name]
  obtain rfl | rfl | rfl := htype
  all_goals
    by_cases hrefused : RefusedAtRun value
    · rw [if_pos hrefused]
      exact if_pos hrefused
    · -- what is stored already is not stored again
      rw [if_neg hrefused]
      refine (if_neg hrefused).trans ?_
      dsimp only
      split <;> rename_i hnew
      · rfl
      · rw [Cfg.store, not_ne_iff.mp hnew]

theorem loadItem_log {type : CnfItemType} (htype : type.Dynamic) :
    loadItem fileExists cfg (some type) value =
      ((updateLogCfg cfg.log type value).1,
        { cfg with log := (updateLogCfg cfg.log type value).2 }) := by
  obtain rfl | rfl | rfl := htype <;> rfl

/-! ## The same values are taken -/

/-- Both refuse the value and leave the settings alone, or both take it and store the same. -/
def Alike (cfg : Cfg) (start : RtnCode × LogCfg) (run : RtnCode × Cfg) : Prop :=
  (start.1 ≠ .success ∧ start.2 = cfg.log ∧ run.1 ≠ .success ∧ run.2 = cfg) ∨
    (start.1 = .success ∧ run.1 = .success ∧ run.2 = { cfg with log := start.2 })

theorem alike_iff {type : CnfItemType} (htype : type.Dynamic) :
    Alike cfg (updateLogCfg cfg.log type value) (updateConfig garbage cfg type.name value) ↔
      (RefusedAtStart type value ↔ RefusedAtRun value) := by
  have hload := (loadItem_log htype).symm.trans
    (@loadItem_number (fun _ => true) cfg value type (.inl htype))
  rw [updateConfig_number htype, Alike]
  generalize updateLogCfg cfg.log type value = start at hload
  by_cases hstart : RefusedAtStart type value <;> by_cases hrun : RefusedAtRun value
  all_goals
    simp only [hstart, hrun, if_true, if_false, Prod.mk.injEq] at hload ⊢
    obtain ⟨hcode, hcfg⟩ := hload
  · have hlog : start.2 = cfg.log := congrArg Cfg.log hcfg
    simp [hcode, hlog]
  · simp [hcode]
  · simp [hcode]
  · simp [hcode, hcfg]

end Validators

/-- **The same values are taken** at start-up and at run time, and mean the same, if and only if
the setting is the log level or the value is not a number that is read as 0. -/
theorem taken_alike_iff {type : CnfItemType} (htype : type.Dynamic) (cfg : Cfg) (value : Bytes)
    (garbage : Option CnfItemType × Option CnfItemType) :
    Alike cfg (updateLogCfg cfg.log type value) (updateConfig garbage cfg type.name value) ↔
      type = .lgv ∨ isNumStr value = false ∨ ¬ ReadsZero (digitsValue value) := by
  rw [alike_iff htype]
  by_cases hnum : isNumStr value = true
  · have hzero := atoi_zero_iff hnum
    rw [← hzero]
    obtain rfl | rfl | rfl := htype
    · simp [RefusedAtStart, RefusedAtRun, hnum]
      omega
    · simp [RefusedAtStart, RefusedAtRun, hnum]
      omega
    · simp [RefusedAtStart, RefusedAtRun, hnum]
  · rw [Bool.not_eq_true] at hnum
    exact iff_of_true (iff_of_true (.inl hnum) (.inl hnum)) (.inr (.inl hnum))

theorem taken_alike_iff_ten :
    Alike ⟨.init, .init⟩ (updateLogCfg .init .cnt (text "10"))
      (updateConfig (none, none) ⟨.init, .init⟩ (text "cmp_cnt") (text "10")) :=
  (@taken_alike_iff .cnt (.inr (.inl rfl)) ⟨.init, .init⟩ (text "10") (none, none)).mpr
    (.inr (.inr (by decide +kernel)))

theorem zero_not_alike :
    ¬ ∀ (type : CnfItemType) (cfg : Cfg) (value : Bytes)
      (garbage : Option CnfItemType × Option CnfItemType), type.Dynamic →
        Alike cfg (updateLogCfg cfg.log type value) (updateConfig garbage cfg type.name value) := by
  intro h
  have hzero := (alike_iff (.inl rfl)).mp (h .fls ⟨.init, .init⟩ (text "0") (none, none) (.inl rfl))
  exact absurd hzero (by decide +kernel)

/-! ## A number that is taken is stored -/

/-- The setting is the exact image of a number. -/
def Meant (type : CnfItemType) (v : ℕ) (cfg : Cfg) : Prop :=
  match type with
  | .fls => (cfg.log.maxFileSize.toNat : Int) = v * 1048576 - 256
  | .cnt => cfg.log.maxCmpCnt.toNat = v
  | .lgv => cfg.log.logLevel.toNat = v
  | .svp => cfg.serv.port.toNat = v ∧ v ≤ 65535
  | _ => True

/-- A value that is taken consists of digits, and their number is what is stored. -/
def MeansWhatItSays (type : CnfItemType) (value : Bytes) (r : RtnCode × Cfg) : Prop :=
  r.1 = .success → isNumStr value = true ∧ Meant type (digitsValue value) r.2

/-- The values that `LoadConfigFile` refuses, or stores as they are. -/
def ExactAtStart (type : CnfItemType) (value : Bytes) : Prop :=
  let v := digitsValue value
  isNumStr value = false ∨ ReadsNegative v ∨
    match type with
    | .fls => ReadsZero v ∨ v ≤ 2048
    | .cnt => ReadsZero v ∨ v < 2 ^ 31
    | .lgv => v < 2 ^ 31
    | .svp => 65535 < v % 2 ^ 32 ∨ v ≤ 65535
    | _ => True

/-- The values that `UpdateConfig` refuses, or stores as they are. It takes any value for the
port and stores none. -/
def ExactAtRun (cfg : Cfg) (type : CnfItemType) (value : Bytes) : Prop :=
  let v := digitsValue value
  match type with
  | .fls => isNumStr value = false ∨ ReadsNegative v ∨ (1 ≤ v ∧ v ≤ 2048) ∨ v = 2 ^ 44
  | .cnt | .lgv => isNumStr value = false ∨ ReadsNegative v ∨ v < 2 ^ 31
  | .svp => isNumStr value = true ∧ v = cfg.serv.port.toNat
  | _ => True

instance (type : CnfItemType) (value : Bytes) : Decidable (ExactAtStart type value) := by
  unfold ExactAtStart
  cases type <;> infer_instance

instance (cfg : Cfg) (type : CnfItemType) (value : Bytes) :
    Decidable (ExactAtRun cfg type value) := by
  unfold ExactAtRun
  cases type <;> infer_instance

section Meant

variable {cfg : Cfg} {value : Bytes}

/-- What is stored for a number below 2^31. -/
theorem meant_store {type : CnfItemType} (htype : type.Dynamic ∨ type = .svp) {m : ℕ}
    (hm : m < 2 ^ 31) {v : ℕ} (hv : v < 2 ^ 63) (hmod : m = v % 2 ^ 32) :
    Meant type v (cfg.store type m) ↔
      match type with
      | .fls => (1 ≤ v ∧ v ≤ 2048) ∨ v = 2 ^ 44
      | .svp => v ≤ 65535
      | _ => v < 2 ^ 31 := by
  obtain (rfl | rfl | rfl) | rfl := htype
  · simp only [Meant, Cfg.store]
    rw [toNat_uint64OfInt, fileSizeOf, wrapInt_eq, wrapInt_eq, unitFactor, maxLineLength]
    omega
  · simp only [Meant, Cfg.store]
    have h := toNat_uint64OfInt m
    omega
  · simp only [Meant, Cfg.store]
    have h := toNat_uint32OfInt m
    omega
  · simp only [Meant, Cfg.store]
    have h := toNat_uint16OfInt m
    omega

/-- A value has its meaning if it is refused, or is a number and stored as such. -/
theorem meansWhatItSays_ite {type : CnfItemType} {p : Prop} [Decidable p] {cfg' : Cfg} :
    MeansWhatItSays type value (if p then (.errInvalideParam, cfg) else (.success, cfg')) ↔
      p ∨ isNumStr value = true ∧ Meant type (digitsValue value) cfg' := by
  rw [MeansWhatItSays]
  by_cases hp : p <;> simp [hp]

/-- At start-up. -/
theorem exactAtStart_iff {fileExists : Bytes → Bool} {type : CnfItemType}
    (htype : type.Dynamic ∨ type = .svp) :
    MeansWhatItSays type value (loadItem fileExists cfg (some type) value) ↔
      ExactAtStart type value := by
  rw [loadItem_number htype, meansWhatItSays_ite]
  by_cases hnum : isNumStr value = true
  · by_cases hneg : ReadsNegative (digitsValue value)
    · exact iff_of_true (.inl (.inr (.inl ((atoi_neg_iff hnum).mpr hneg)))) (.inr (.inl hneg))
    · obtain ⟨hatoi, hm⟩ := atoi_of_not_neg hnum hneg
      have hv : digitsValue value < 2 ^ 63 := not_le.mp fun hle => hneg (.inl hle)
      have hstore := @meant_store cfg type htype _ hm _ hv rfl
      rw [hatoi, hstore]
      obtain (rfl | rfl | rfl) | rfl := htype
      all_goals
        simp only [RefusedAtStart, ExactAtStart, hatoi, hnum, hneg, ReadsZero, hv, maxServerPort,
          Bool.true_eq_false, false_or, or_false, true_and]
        omega
  · rw [Bool.not_eq_true] at hnum
    exact iff_of_true (.inl (.inl hnum)) (.inl hnum)

/-- At run time. -/
theorem exactAtRun_iff {garbage : Option CnfItemType × Option CnfItemType} {type : CnfItemType}
    (htype : type.Dynamic ∨ type = .svp) :
    MeansWhatItSays type value (updateConfig garbage cfg type.name value) ↔
      ExactAtRun cfg type value := by
  obtain htype | rfl := htype
  · rw [updateConfig_number htype, meansWhatItSays_ite]
    by_cases hnum : isNumStr value = true
    · by_cases hneg : ReadsNegative (digitsValue value)
      · refine iff_of_true (.inl (.inr ((atoi_neg_iff hnum).mpr hneg))) ?_
        obtain rfl | rfl | rfl := htype <;> exact .inr (.inl hneg)
      · obtain ⟨hatoi, hm⟩ := atoi_of_not_neg hnum hneg
        have hv : digitsValue value < 2 ^ 63 := not_le.mp fun hle => hneg (.inl hle)
        have hstore := @meant_store cfg type (.inl htype) _ hm _ hv rfl
        rw [hatoi, hstore]
        obtain rfl | rfl | rfl := htype
        all_goals
          simp only [RefusedAtRun, ExactAtRun, hatoi, hnum, hneg, Bool.true_eq_false, false_or,
            true_and]
          omega
    · rw [Bool.not_eq_true] at hnum
      refine iff_of_true (.inl (.inl hnum)) ?_
      obtain rfl | rfl | rfl := htype <;> exact .inl hnum
  · -- the port is no setting of `UpdateConfig`
    have hport : updateConfig garbage cfg CnfItemType.svp.name value = (.success, cfg) := by
      rw [updateConfig, stringToEnum_name]
      simp [handleInvalidUpdate]
    rw [hport, MeansWhatItSays, ExactAtRun]
    have hlt := cfg.serv.port.toNat_lt
    simp only [true_imp_iff, Meant]
    refine and_congr_right fun _ => ?_
    omega

end Meant

/-- **A number means what it says** if and only if it is refused or small enough, at start-up;
at run time also if it is not the file size 0, and if the port is what it was. -/
theorem means_what_it_says_iff {type : CnfItemType} (htype : type.Dynamic ∨ type = .svp)
    (fileExists : Bytes → Bool) (cfg : Cfg) (garbage : Option CnfItemType × Option CnfItemType)
    (value : Bytes) :
    (MeansWhatItSays type value (loadItem fileExists cfg (some type) value) ↔
        ExactAtStart type value) ∧
      (MeansWhatItSays type value (updateConfig garbage cfg type.name value) ↔
        ExactAtRun cfg type value) :=
  ⟨exactAtStart_iff htype, exactAtRun_iff htype⟩

theorem means_what_it_says_iff_ten :
    MeansWhatItSays .fls (text "10")
      (updateConfig (none, none) ⟨.init, .init⟩ CnfItemType.fls.name (text "10")) :=
  (@means_what_it_says_iff .fls (.inl (.inl rfl)) (fun _ => true) ⟨.init, .init⟩ (none, none)
    (text "10")).2.mpr (by decide +kernel)

/-- A file size of 2049 MB is stored as an enormous one. -/
theorem twoGigabytes_not_meant :
    ¬ ∀ (type : CnfItemType) (fileExists : Bytes → Bool) (cfg : Cfg) (value : Bytes),
      type.Dynamic ∨ type = .svp → value ≠ [] →
        MeansWhatItSays type value (loadItem fileExists cfg (some type) value) := by
  intro h
  have hmeant := h .fls (fun _ => true) ⟨.init, .init⟩ (text "2049") (.inl (.inl rfl))
    (by decide +kernel)
  have hexact := (exactAtStart_iff (.inl (.inl rfl))).mp hmeant
  exact absurd hexact (by decide +kernel)

end PowerApi
