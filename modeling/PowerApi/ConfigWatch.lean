import PowerApi.Transition
import PowerApi.KeyStore
import PowerApi.ConfigValues
import PowerApi.UnknownKeys

/-!
# The daemon and its configuration file (`main_frame.c`, `config.c`, `utils.c`)

`InitConfig` remembers the MD5 sum of the configuration file and loads it. Every five
seconds the main loop calls `CheckAndUpdateConfig`, which takes the sum again and goes
through the file only if the sum is another. `stepAlways` is the loop without that
shortcut: it goes through the file every time. `shortcut_agrees` says that the settings are
the same, whatever is done to the file and whenever, as long as it does not change between
`md5sum` and the reading. Where it does the shortcut can miss a file for good (`swapped_missed`).

What a pass through the file does is said by `reload_means`: the settings that can change
are those of the file that come last and are valid, and the rest stays. So a pass over the
same file a second time changes nothing, which is why the first one is enough.
-/

namespace PowerApi

open KeyStore

/-! ## A pass through the file -/

/-- The settings that can change at run time, each as a number. -/
def Cfg.running (cfg : Cfg) : CnfItemType → Option UInt64
  | .fls => some cfg.log.maxFileSize
  | .cnt => some cfg.log.maxCmpCnt
  | .lgv => some cfg.log.logLevel.toUInt64
  | _ => none

/-- The settings that cannot. -/
def Cfg.fixed (cfg : Cfg) : (Bytes × Bytes × Bytes) × ServCfg :=
  ((cfg.log.logPath, cfg.log.logBkp, cfg.log.logPfx), cfg.serv)

/-- What is stored of a number. -/
def storedAs (type : CnfItemType) (actualValue : Int) : UInt64 :=
  match type with
  | .fls => UInt64.ofInt (fileSizeOf actualValue)
  | .cnt => UInt64.ofInt actualValue
  | _ => (UInt32.ofInt actualValue).toUInt64

/-- What a line of the file sets while the daemon runs. -/
def change (kv : Bytes × Bytes) : Option (CnfItemType × UInt64) :=
  (stringToEnum none kv.1).bind fun type =>
    if type.Dynamic ∧ ¬ RefusedAtRun kv.2 then some (type, storedAs type (atoi kv.2)) else none

/-- What the lines of the file set. -/
def changes (ps : List (Bytes × Bytes)) : List (CnfItemType × UInt64) := ps.filterMap change

/-- The keys of the file are names of items. -/
def KnownKeys (ps : List (Bytes × Bytes)) : Prop :=
  ∀ kv ∈ ps, ∃ type : CnfItemType, kv.1 = type.name

/-- A number that cannot be taken. -/
def Refused (kv : Bytes × Bytes) : Prop :=
  ∃ type : CnfItemType, type.Dynamic ∧ kv.1 = type.name ∧ RefusedAtRun kv.2

/-- What is compared with the value of a setting that cannot change. -/
def Cfg.compared (cfg : Cfg) : CnfItemType → Option Bytes
  | .lgp => some cfg.log.logPath
  | .bkp => some cfg.log.logBkp
  | .pfx => some cfg.log.logPfx
  | .skf => some cfg.serv.sockFile
  | _ => none

/-- Another value for a setting that cannot change. A port is not compared. -/
def Banned (cfg : Cfg) (kv : Bytes × Bytes) : Prop :=
  ∃ type : CnfItemType, kv.1 = type.name ∧ ∃ held ∈ cfg.compared type, kv.2 ≠ held

theorem name_inj {type type' : CnfItemType} (h : type.name = type'.name) : type = type' := by
  have hsame := congrArg (stringToEnum none) h
  rwa [stringToEnum_name, stringToEnum_name, Option.some_inj] at hsame

theorem refused_name {type : CnfItemType} {value : Bytes} :
    Refused (type.name, value) ↔ type.Dynamic ∧ RefusedAtRun value := by
  constructor
  · rintro ⟨type', hdyn, hname, hrefused⟩
    obtain rfl := name_inj hname
    exact ⟨hdyn, hrefused⟩
  · exact fun h => ⟨type, h.1, rfl, h.2⟩

theorem banned_name {cfg : Cfg} {type : CnfItemType} {value : Bytes} :
    Banned cfg (type.name, value) ↔ ∃ held ∈ cfg.compared type, value ≠ held := by
  constructor
  · rintro ⟨type', hname, held⟩
    obtain rfl := name_inj hname
    exact held
  · exact fun h => ⟨type, rfl, h⟩

theorem compared_congr {cfg cfg' : Cfg} (h : cfg.fixed = cfg'.fixed) :
    cfg.compared = cfg'.compared := by
  obtain ⟨⟨fls, cnt, lgv, lgp, bkp, pfx⟩, serv⟩ := cfg
  obtain ⟨⟨fls', cnt', lgv', lgp', bkp', pfx'⟩, serv'⟩ := cfg'
  simp only [Cfg.fixed, Prod.mk.injEq] at h
  obtain ⟨⟨rfl, rfl, rfl⟩, rfl⟩ := h
  funext type
  cases type <;> rfl

theorem banned_congr {cfg cfg' : Cfg} (h : cfg.fixed = cfg'.fixed) : Banned cfg = Banned cfg' := by
  unfold Banned
  rw [compared_congr h]

theorem Cfg.eq_of_running {cfg cfg' : Cfg} (hrunning : cfg.running = cfg'.running)
    (hfixed : cfg.fixed = cfg'.fixed) : cfg = cfg' := by
  obtain ⟨⟨fls, cnt, lgv, lgp, bkp, pfx⟩, serv⟩ := cfg
  obtain ⟨⟨fls', cnt', lgv', lgp', bkp', pfx'⟩, serv'⟩ := cfg'
  have hfls : fls = fls' := Option.some.inj (congrFun hrunning .fls)
  have hcnt : cnt = cnt' := Option.some.inj (congrFun hrunning .cnt)
  have hlgv : lgv = lgv' := by
    have hwide := congrArg UInt64.toUInt32 (Option.some.inj (congrFun hrunning .lgv))
    simpa using hwide
  simp only [Cfg.fixed, Prod.mk.injEq] at hfixed
  obtain ⟨⟨rfl, rfl, rfl⟩, rfl⟩ := hfixed
  rw [hfls, hcnt, hlgv]

theorem change_name (type : CnfItemType) (value : Bytes) :
    change (type.name, value) =
      if type.Dynamic ∧ ¬ RefusedAtRun value then some (type, storedAs type (atoi value))
      else none := by
  rw [change, stringToEnum_name]
  rfl

theorem running_store {cfg : Cfg} {type : CnfItemType} (htype : type.Dynamic) (n : Int) :
    (cfg.store type n).running = put cfg.running (type, storedAs type n) := by
  funext t
  obtain rfl | rfl | rfl := htype <;> cases t <;> rfl

theorem fixed_store {cfg : Cfg} {type : CnfItemType} (htype : type.Dynamic) (n : Int) :
    (cfg.store type n).fixed = cfg.fixed := by
  obtain rfl | rfl | rfl := htype <;> rfl

open Classical in
/-- `UpdateConfig` for a key that is a name. -/
theorem updateConfig_named {garbage : Option CnfItemType × Option CnfItemType} {cfg : Cfg}
    {kv : Bytes × Bytes} (hkey : ∃ type : CnfItemType, kv.1 = type.name) :
    (updateConfig garbage cfg kv.1 kv.2).1 =
        (if Refused kv then .errInvalideParam else if Banned cfg kv then .errCommon else .success) ∧
      (updateConfig garbage cfg kv.1 kv.2).2.running = putAll (change kv).toList cfg.running ∧
      (updateConfig garbage cfg kv.1 kv.2).2.fixed = cfg.fixed := by
  obtain ⟨key, value⟩ := kv
  obtain ⟨type, rfl⟩ := hkey
  dsimp only
  rw [change_name, refused_name, banned_name]
  by_cases htype : type.Dynamic
  · have hbanned : ¬ ∃ held ∈ cfg.compared type, value ≠ held := by
      obtain rfl | rfl | rfl := htype <;> rintro ⟨held, hheld, -⟩ <;> cases hheld
    rw [updateConfig_number htype, if_neg hbanned]
    by_cases hrefused : RefusedAtRun value
    · rw [if_pos hrefused, if_pos ⟨htype, hrefused⟩, if_neg fun h => h.2 hrefused]
      exact ⟨rfl, rfl, rfl⟩
    · rw [if_neg hrefused, if_neg fun h => hrefused h.2, if_pos ⟨htype, hrefused⟩]
      exact ⟨rfl, running_store htype _, fixed_store htype _⟩
  · have hrefused : ¬ (type.Dynamic ∧ RefusedAtRun value) := fun h => htype h.1
    have hchange : ¬ (type.Dynamic ∧ ¬ RefusedAtRun value) := fun h => htype h.1
    rw [if_neg hrefused, if_neg hchange]
    have hsame : updateConfig garbage cfg type.name value =
        (if ∃ held ∈ cfg.compared type, value ≠ held then .errCommon else .success, cfg) := by
      rw [updateConfig, handleInvalidUpdate, stringToEnum_name, stringToEnum_name]
      revert htype
      cases type <;> simp [CnfItemType.Dynamic, Cfg.compared]
    rw [hsame]
    refine ⟨?_, rfl, rfl⟩
    dsimp only
    congr

theorem count_cfg (s : Reload) (r : RtnCode × Cfg) : (s.count r).cfg = r.2 := by
  unfold Reload.count
  split <;> rfl

theorem changes_append (p : Option (Bytes × Bytes)) (q : List (Bytes × Bytes)) :
    changes (p.toList ++ q) = (p.bind change).toList ++ changes q := by
  rw [changes, changes, List.filterMap_append]
  cases p with
  | none => rfl
  | some kv => cases hkv : change kv <;> simp [hkv]

open Classical in
/-- The loop counts the lines that cannot be taken, and of the others those that must not be
changed. -/
theorem reloadLines_known {lines : List (Bytes × Option CnfItemType × Option CnfItemType)}
    {ps : List (Bytes × Bytes)} (hps : pairs (lines.map Prod.fst) = .ok ps) (hknown : KnownKeys ps)
    (s : Reload) : ∃ cfg, reloadLines lines s =
        .ok (Reload.result ⟨cfg, s.invalidUpdateSum + ps.countP (Refused ·),
          s.nonDynamicSum + ps.countP fun kv => ¬ Refused kv ∧ Banned s.cfg kv⟩) ∧
      cfg.running = putAll (changes ps) s.cfg.running ∧ cfg.fixed = s.cfg.fixed := by
  induction lines generalizing ps s with
  | nil =>
    obtain rfl := Except.ok.inj hps
    exact ⟨s.cfg, rfl, rfl, rfl⟩
  | cons line lines ih =>
    obtain ⟨line, garbage⟩ := line
    rw [List.map_cons, pairs_cons] at hps
    obtain ⟨p, q, hp, hq, rfl⟩ := hps
    have hrest : KnownKeys q := fun kv hkv => hknown kv (List.mem_append_right _ hkv)
    rw [changes_append]
    cases p with
    | none =>
      obtain ⟨cfg, hr, hrunning, hfixed⟩ := ih hq hrest s
      exact ⟨cfg, by rw [reloadLines, hp]; exact hr, hrunning, hfixed⟩
    | some kv =>
      obtain ⟨hcode, hfirst, hsame⟩ := @updateConfig_named garbage s.cfg kv
        (hknown kv (List.mem_append_left _ List.mem_cons_self))
      obtain ⟨cfg, hr, hrunning, hfixed⟩ :=
        ih hq hrest (s.count (updateConfig garbage s.cfg kv.1 kv.2))
      rw [count_cfg] at hr hrunning hfixed
      refine ⟨cfg, ?_, ?_, hfixed.trans hsame⟩
      · rw [reloadLines, hp, ok_bind]
        refine hr.trans ?_
        rw [banned_congr hsame]
        unfold Reload.count
        rw [hcode]
        by_cases hrefused : Refused kv
        · simp [hrefused, add_assoc, add_comm]
        · by_cases hbanned : Banned s.cfg kv <;> simp [hrefused, hbanned, add_assoc, add_comm]
      · rw [hrunning, hfirst, putAll_append]
        rfl

open Classical in
/-- **A pass through the file**: the settings that can change are those of the file that come last
and are valid, all others stay, and the caller learns that a number could not be taken, or else
that a setting was given another value that must not be. -/
theorem reload_means {lines : List (Bytes × Option CnfItemType × Option CnfItemType)}
    {ps : List (Bytes × Bytes)} (hps : pairs (lines.map Prod.fst) = .ok ps) (hknown : KnownKeys ps)
    (cfg : Cfg) : ∃ r, reloadLines lines ⟨cfg, 0, 0⟩ = .ok r ∧
      (∀ type, r.2.running type =
        (cfg.running type).map fun held => (lastPut type (changes ps)).getD held) ∧
      r.2.fixed = cfg.fixed ∧
      r.1 = if ∃ kv ∈ ps, Refused kv then .errInvalideParam
        else if ∃ kv ∈ ps, Banned cfg kv then .errModifyBanUpdateAttrCurrently else .success := by
  obtain ⟨cfg', hr, hrunning, hfixed⟩ := reloadLines_known hps hknown ⟨cfg, 0, 0⟩
  refine ⟨_, hr, fun type => ?_, hfixed, ?_⟩
  · rw [← putAll_apply]
    exact congrFun hrunning type
  · have hinvalid : ps.countP (Refused ·) ≠ 0 ↔ ∃ kv ∈ ps, Refused kv := by
      rw [← Nat.pos_iff_ne_zero, List.countP_pos_iff]
      simp
    simp only [Reload.result, Nat.zero_add]
    by_cases hrefused : ∃ kv ∈ ps, Refused kv
    · rw [if_pos (hinvalid.mpr hrefused), if_pos hrefused]
    · have hbanned : (ps.countP fun kv => ¬ Refused kv ∧ Banned cfg kv) ≠ 0 ↔
          ∃ kv ∈ ps, Banned cfg kv := by
        rw [← Nat.pos_iff_ne_zero, List.countP_pos_iff]
        refine exists_congr fun kv => and_congr_right fun hkv => ?_
        rw [decide_eq_true_eq]
        exact and_iff_right fun h => hrefused ⟨kv, hkv, h⟩
      rw [if_neg (mt hinvalid.mp hrefused), if_neg hrefused]
      by_cases hany : ∃ kv ∈ ps, Banned cfg kv
      · rw [if_pos (hbanned.mpr hany), if_pos hany]
      · rw [if_neg (mt hbanned.mp hany), if_neg hany]

/-- Two sizes, the second of them no number: the first one holds. -/
theorem reload_means_sizes :
    ∃ r, reloadLines [(text "file_size=20\n", none, none), (text "file_size=x\n", none, none)]
        ⟨⟨.init, .init⟩, 0, 0⟩ = .ok r ∧
      r.1 = .errInvalideParam ∧ r.2.running .fls = some (UInt64.ofInt (fileSizeOf 20)) := by
  have hps : pairs (([(text "file_size=20\n", none, none), (text "file_size=x\n", none, none)] :
      List (Bytes × Option CnfItemType × Option CnfItemType)).map Prod.fst) =
      .ok [(text "file_size", text "20"), (text "file_size", text "x")] := by decide +kernel
  have hknown : KnownKeys [(text "file_size", text "20"), (text "file_size", text "x")] := by
    intro kv hkv
    refine ⟨.fls, ?_⟩
    revert kv
    decide +kernel
  obtain ⟨r, hr, hrunning, -, hcode⟩ := reload_means hps hknown ⟨.init, .init⟩
  refine ⟨r, hr, ?_, ?_⟩
  · rw [hcode, if_pos]
    exact ⟨(text "file_size", text "x"), by decide +kernel, .fls, .inl rfl, rfl,
      .inl (by decide +kernel)⟩
  · rw [hrunning]
    decide +kernel

/-- Where the loop comes to its end, so does the extraction of keys and values. -/
theorem pairs_of_reloadLines {lines : List (Bytes × Option CnfItemType × Option CnfItemType)}
    {s : Reload} {r : RtnCode × Cfg} (h : reloadLines lines s = .ok r) :
    ∃ ps, pairs (lines.map Prod.fst) = .ok ps := by
  induction lines generalizing s with
  | nil => exact ⟨[], rfl⟩
  | cons line lines ih =>
    obtain ⟨line, garbage⟩ := line
    rw [reloadLines] at h
    obtain ⟨p, hp, hrest⟩ := bind_eq_ok.mp h
    obtain ⟨q, hq⟩ : ∃ q, pairs (lines.map Prod.fst) = .ok q := by
      cases p with
      | none => exact ih hrest
      | some kv => exact ih hrest
    exact ⟨p.toList ++ q, pairs_cons.mpr ⟨p, q, hp, hq, rfl⟩⟩

/-- Setting the same once more changes nothing. -/
theorem putAll_twice {K V : Type} [DecidableEq K] (ws : List (K × V)) (files : K → Option V) :
    putAll ws (putAll ws files) = putAll ws files := by
  rw [putAll_eq_self_iff]
  intro k held hheld value hvalue
  rw [putAll_apply, hvalue] at hheld
  obtain ⟨old, -, rfl⟩ := Option.map_eq_some_iff.mp hheld
  rfl

/-! ## The main loop -/

/-- What there is under the path of the configuration file. -/
inductive ConfigFile where
  | missing
  /-- it cannot be opened -/
  | unreadable
  | readable (bytes : Bytes)
  deriving DecidableEq

/-- The configuration file, and what the daemon keeps of it. -/
structure Watcher where
  file : ConfigFile
  /-- `g_logCfg` and `g_servCfg` -/
  cfg : Cfg
  /-- `g_lastMd5` -/
  lastMd5 : Bytes
  deriving DecidableEq

/-- `MAX_NAME_LEN`, the size of the command in `GetMd5`. -/
def md5CmdSize : ℕ := 128

/-- `GetMd5`, and the empty string where it finds nothing. `md5` stands for `md5sum`. -/
def getMd5 (md5 : Bytes → Bytes) (path : Bytes) (file : ConfigFile) : Except Fault Bytes :=
  if md5CmdSize ≤ (text "md5sum ").length + path.length +
      (text " | awk '\x7bprint $1\x7d'").length then .error .overrun
  else
    match file with
    | .readable bytes => .ok (md5 bytes)
    | _ => .ok []

/-- What `StringToEnum` gives for the unknown keys of a file, line by line: twice, since
`UpdateConfig` and `HandleInvalidUpdate` ask. -/
abbrev Garbage : Type := ℕ → Option CnfItemType × Option CnfItemType

/-- `InitConfig`; nothing where it fails and the daemon does not start. When the file is read
it is what `file` is then. -/
def initConfig (md5 : Bytes → Bytes) (fileExists : Bytes → Bool) (path : Bytes) (garbage : Garbage)
    (before file : ConfigFile) : Except Fault (Option Watcher) := do
  let lastMd5 ← getMd5 md5 path before
  if lastMd5 = [] then return none
  else
    match file with
    -- `strlen` of what `realpath` gives
    | .missing => throw .nullDeref
    | .unreadable => return none
    | .readable bytes =>
      let lines := (reads (maxLineNum - 2) bytes).mapIdx fun i line => (line, (garbage i).1)
      let (_, cfg) ← loadLines fileExists lines ⟨.init, .init⟩
      return some ⟨file, cfg, lastMd5⟩

/-- The part of `CheckAndUpdateConfig` that goes through the file, with what it returns. -/
def reload (garbage : Garbage) (cfg : Cfg) : ConfigFile → Except Fault (RtnCode × Cfg × Bool)
  | .missing => throw .nullDeref
  | .unreadable => return (.errCommon, cfg, false)
  | .readable bytes => do
    let lines := (reads (maxLineLength - 2) bytes).mapIdx fun i line => (line, garbage i)
    let (rspCode, cfg) ← reloadLines lines ⟨cfg, 0, 0⟩
    return (rspCode, cfg, true)

/-- `CheckAndUpdateConfig`. When the file is read it is `file`. -/
def checkConfig (md5 : Bytes → Bytes) (path : Bytes) (garbage : Garbage) (file : ConfigFile)
    (w : Watcher) : Except Fault (RtnCode × Watcher) := do
  let curMd5 ← getMd5 md5 path w.file
  if curMd5 = [] ∨ curMd5 = w.lastMd5 then return (.success, { w with file := file })
  else
    let (rspCode, cfg, read) ← reload garbage w.cfg file
    return (rspCode, ⟨file, cfg, if read then curMd5 else w.lastMd5⟩)

namespace Watcher

/-- What happens to the file, and the rounds of the main loop. -/
inductive Event where
  | edit (file : ConfigFile)
  /-- `CheckAndUpdateConfig`; between `md5sum` and the reading the file may become another -/
  | round (garbage : Garbage) (between : Option ConfigFile)

/-- One step of the daemon. -/
def step (md5 : Bytes → Bytes) (path : Bytes) (w : Watcher) : Event → Option Watcher
  | .edit file => some { w with file := file }
  | .round garbage between =>
    (checkConfig md5 path garbage (between.getD w.file) w).toOption.map Prod.snd

/-- One step of a daemon that goes through the file in every round, if there is one. -/
def stepAlways (a : ConfigFile × Cfg) : Event → Option (ConfigFile × Cfg)
  | .edit file => some (file, a.2)
  | .round garbage between =>
    match a.1 with
    | .readable _ =>
      let file := between.getD a.1
      (reload garbage a.2 file).toOption.map fun r => (file, r.2.1)
    | _ => some (between.getD a.1, a.2)

/-- The file changes to one of `K`, and not during a round. -/
def Quiet (K : Set ConfigFile) : Event → Prop
  | .edit file => file ∈ K
  | .round _ between => between = none

end Watcher

/-- All keys of a file, as `CheckAndUpdateConfig` reads it, are names of items. -/
def KnownFile (bytes : Bytes) : Prop := ∀ ps, checkAndUpdateConfig bytes = .ok ps → KnownKeys ps

/-- A pass through the file does not change the settings. -/
def Passed (bytes : Bytes) (cfg : Cfg) : Prop :=
  ∀ garbage, ∃ rspCode, reload garbage cfg (.readable bytes) = .ok (rspCode, cfg, true)

theorem map_fst_mapIdx {α β : Type} (l : List α) (g : ℕ → β) :
    (l.mapIdx fun i line => (line, g i)).map Prod.fst = l := by
  induction l generalizing g with
  | nil => rfl
  | cons line l ih => rw [List.mapIdx_cons, List.map_cons, ih]

/-- What a pass through a file with known keys does. -/
theorem reload_known {bytes : Bytes} {ps : List (Bytes × Bytes)}
    (hps : checkAndUpdateConfig bytes = .ok ps) (hknown : KnownKeys ps) (garbage : Garbage)
    (cfg : Cfg) : ∃ rspCode cfg', reload garbage cfg (.readable bytes) = .ok (rspCode, cfg', true) ∧
      cfg'.running = putAll (changes ps) cfg.running ∧ cfg'.fixed = cfg.fixed := by
  obtain ⟨cfg', hr, hrunning, hfixed⟩ := reloadLines_known
    (by rw [map_fst_mapIdx (reads (maxLineLength - 2) bytes) garbage]; exact hps) hknown ⟨cfg, 0, 0⟩
  exact ⟨_, cfg', by rw [reload, hr]; rfl, hrunning, hfixed⟩

/-- After a pass another one changes nothing. -/
theorem passed_of_reload {bytes : Bytes} (hknown : KnownFile bytes) {garbage : Garbage} {cfg : Cfg}
    {r : RtnCode × Cfg × Bool} (h : reload garbage cfg (.readable bytes) = .ok r) :
    Passed bytes r.2.1 := by
  obtain ⟨s, hs, -⟩ := bind_eq_ok.mp h
  obtain ⟨ps, hps⟩ := pairs_of_reloadLines hs
  rw [map_fst_mapIdx] at hps
  obtain ⟨rspCode, cfg', hreload, hrunning, hfixed⟩ := reload_known hps (hknown ps hps) garbage cfg
  obtain rfl := Except.ok.inj (h.symm.trans hreload)
  intro garbage'
  obtain ⟨rspCode', cfg'', hreload', hrunning', hfixed'⟩ :=
    reload_known hps (hknown ps hps) garbage' cfg'
  refine ⟨rspCode', ?_⟩
  rw [hreload', Cfg.eq_of_running (hrunning'.trans ?_) hfixed']
  rw [hrunning, putAll_twice]

/-! ## The start -/

/-- The values that `LoadConfigFile` refuses are those that `UpdateConfig` refuses. -/
def RefusedAlike (ps : List (Bytes × Bytes)) : Prop :=
  ∀ kv ∈ ps, ∀ type : CnfItemType, kv.1 = type.name → type.Dynamic →
    (RefusedAtStart type kv.2 ↔ RefusedAtRun kv.2)

/-- A line of the file at the start. -/
theorem loadItem_named {fileExists : Bytes → Bool} {garbage : Option CnfItemType} {cfg : Cfg}
    {kv : Bytes × Bytes} (hkey : ∃ type : CnfItemType, kv.1 = type.name)
    (halike : ∀ type : CnfItemType, kv.1 = type.name → type.Dynamic →
      (RefusedAtStart type kv.2 ↔ RefusedAtRun kv.2)) :
    (loadItem fileExists cfg (stringToEnum garbage kv.1) kv.2).2.running =
      putAll (change kv).toList cfg.running := by
  obtain ⟨key, value⟩ := kv
  obtain ⟨type, rfl⟩ := hkey
  dsimp only at halike ⊢
  rw [change_name, stringToEnum_name]
  by_cases htype : type.Dynamic
  · rw [loadItem_number (.inl htype)]
    by_cases hrefused : RefusedAtRun value
    · rw [if_pos ((halike type rfl htype).mpr hrefused), if_neg fun h => h.2 hrefused]
      rfl
    · rw [if_neg (mt (halike type rfl htype).mp hrefused), if_pos ⟨htype, hrefused⟩]
      exact running_store htype _
  · rw [if_neg fun h => htype h.1]
    funext t
    revert htype
    cases type with
    | svp =>
      intro _
      rw [loadItem_number (.inr rfl)]
      split <;> cases t <;> rfl
    | skf =>
      intro _
      rw [loadItem]
      simp only [Option.getD_some, updateServCfg]
      split <;> cases t <;> rfl
    | fls => exact fun htype => absurd (.inl rfl) htype
    | cnt => exact fun htype => absurd (.inr (.inl rfl)) htype
    | lgv => exact fun htype => absurd (.inr (.inr rfl)) htype
    | _ => intro _; cases t <;> rfl

theorem running_load {fileExists : Bytes → Bool} {lines : List (Bytes × Option CnfItemType)}
    {ps : List (Bytes × Bytes)} (hps : pairs (lines.map Prod.fst) = .ok ps) (hknown : KnownKeys ps)
    (halike : RefusedAlike ps) {cfg : Cfg} {r : RtnCode × Cfg}
    (h : loadLines fileExists lines cfg = .ok r) :
    r.2.running = putAll (changes ps) cfg.running := by
  induction lines generalizing ps cfg with
  | nil =>
    obtain rfl := Except.ok.inj hps
    obtain rfl := Except.ok.inj h
    rfl
  | cons line lines ih =>
    obtain ⟨line, garbage⟩ := line
    rw [List.map_cons, pairs_cons] at hps
    obtain ⟨p, q, hp, hq, rfl⟩ := hps
    have hrest : KnownKeys q := fun kv hkv => hknown kv (List.mem_append_right _ hkv)
    have halike' : RefusedAlike q := fun kv hkv => halike kv (List.mem_append_right _ hkv)
    rw [loadLines, hp, ok_bind] at h
    cases p with
    | none => exact ih hq hrest halike' h
    | some kv =>
      have hkv : kv ∈ (some kv).toList ++ q := List.mem_append_left _ List.mem_cons_self
      rw [ih hq hrest halike' h, loadItem_named (hknown kv hkv) (halike kv hkv)]
      rw [changes_append, putAll_append]
      rfl

/-- The daemon and the loop without the shortcut start alike on such a file: what the one loads is
what the other passes through. -/
structure LoadedAlike (bytes : Bytes) : Prop where
  same : SameParse bytes
  known : KnownFile bytes
  refused : ∀ ps, checkAndUpdateConfig bytes = .ok ps → RefusedAlike ps

/-- After the start a pass changes nothing. -/
theorem passed_initConfig {md5 : Bytes → Bytes} {fileExists : Bytes → Bool} {path bytes : Bytes}
    {garbage : Garbage} {before : ConfigFile} {w : Watcher} (halike : LoadedAlike bytes)
    (h : initConfig md5 fileExists path garbage before (.readable bytes) = .ok (some w)) :
    Passed bytes w.cfg ∧ w.file = .readable bytes ∧
      getMd5 md5 path before = .ok w.lastMd5 ∧ w.lastMd5 ≠ [] := by
  obtain ⟨lastMd5, hmd5, h⟩ := bind_eq_ok.mp h
  split at h
  · cases h
  rename_i hne
  obtain ⟨⟨rspCode, cfg⟩, hload, h⟩ := bind_eq_ok.mp h
  obtain rfl := Option.some.inj (Except.ok.inj h)
  refine ⟨fun garbage' => ?_, rfl, hmd5, hne⟩
  obtain ⟨ps, hps, hcheck⟩ := halike.same
  have hrunning := running_load (by rw [map_fst_mapIdx]; exact hps) (halike.known ps hcheck)
    (halike.refused ps hcheck) hload
  obtain ⟨rspCode', cfg', hreload, hrunning', hfixed'⟩ :=
    reload_known hcheck (halike.known ps hcheck) garbage' cfg
  refine ⟨rspCode', ?_⟩
  rw [hreload, Cfg.eq_of_running (hrunning'.trans ?_) hfixed']
  rw [hrunning, putAll_twice]

/-! ## The shortcut -/

namespace Watcher

variable {md5 : Bytes → Bytes} {path : Bytes} {K : Set ConfigFile}

/-- The path leaves room in the command. -/
theorem getMd5_ok {file : ConfigFile} {sum : Bytes} (h : getMd5 md5 path file = .ok sum)
    (file' : ConfigFile) : getMd5 md5 path file' =
      .ok (match file' with
        | .readable bytes => md5 bytes
        | _ => []) := by
  unfold getMd5 at h ⊢
  split at h
  · cases h
  · rw [if_neg ‹_›]
    cases file' <;> rfl

/-- What `g_lastMd5` is the sum of has been passed through last. -/
def Fresh (md5 : Bytes → Bytes) (K : Set ConfigFile) (w : Watcher) : Prop :=
  ∃ bytes, .readable bytes ∈ K ∧ w.lastMd5 = md5 bytes ∧ Passed bytes w.cfg

/-- A round in which the file stays what it is does the same with the shortcut and without. -/
theorem round_agrees (hinj : ∀ a b, .readable a ∈ K → .readable b ∈ K → md5 a = md5 b → a = b)
    (hmd5 : ∀ bytes, md5 bytes ≠ []) (hknown : ∀ bytes, .readable bytes ∈ K → KnownFile bytes)
    (hpath : ∃ file sum, getMd5 md5 path file = .ok sum) {w : Watcher} (hfresh : w.Fresh md5 K)
    (hfile : w.file ∈ K) (garbage : Garbage) :
    Option.Rel (fun w' a => a = (w'.file, w'.cfg) ∧ w'.Fresh md5 K ∧ w'.file ∈ K)
      (step md5 path w (.round garbage none))
      (stepAlways (w.file, w.cfg) (.round garbage none)) := by
  obtain ⟨file, sum, hsum⟩ := hpath
  obtain ⟨passed, hpassed, hlast, hpass⟩ := hfresh
  have hcur := getMd5_ok hsum w.file
  rw [step, stepAlways, checkConfig, hcur, ok_bind]
  cases hw : w.file with
  | missing => exact .some ⟨rfl, ⟨passed, hpassed, hlast, hpass⟩, hw ▸ hfile⟩
  | unreadable => exact .some ⟨rfl, ⟨passed, hpassed, hlast, hpass⟩, hw ▸ hfile⟩
  | readable bytes =>
    rw [hw] at hfile
    dsimp only [Option.getD_none]
    by_cases hsame : md5 bytes = w.lastMd5
    · -- the file was passed through last, and another pass would do nothing
      obtain rfl := hinj bytes passed hfile hpassed (hsame.trans hlast)
      obtain ⟨rspCode, hreload⟩ := hpass garbage
      rw [if_pos (.inr hsame), hreload]
      exact .some ⟨rfl, ⟨bytes, hpassed, hlast, hpass⟩, hfile⟩
    · rw [if_neg (not_or.mpr ⟨hmd5 bytes, hsame⟩)]
      cases hreload : reload garbage w.cfg (.readable bytes) with
      | error f => exact .none
      | ok r =>
        have hagain := passed_of_reload (hknown bytes hfile) hreload
        obtain ⟨s, -, hr⟩ := bind_eq_ok.mp hreload
        obtain rfl := Except.ok.inj hr
        exact .some ⟨rfl, ⟨bytes, hfile, rfl, hagain⟩, hfile⟩

/-- **The shortcut does not show**: as long as the file never changes during a round, the daemon
has in every state of every run the settings of one that goes through the file in every round. -/
theorem shortcut_agrees
    (hinj : ∀ a b, .readable a ∈ K → .readable b ∈ K → md5 a = md5 b → a = b)
    (hmd5 : ∀ bytes, md5 bytes ≠ []) (hknown : ∀ bytes, .readable bytes ∈ K → KnownFile bytes)
    {fileExists : Bytes → Bool} {path bytes : Bytes} {garbage : Garbage} {w : Watcher}
    (hbytes : .readable bytes ∈ K) (halike : LoadedAlike bytes)
    (hstart : initConfig md5 fileExists path garbage (.readable bytes) (.readable bytes) =
      .ok (some w))
    {events : List Event} (hquiet : ∀ e ∈ events, Quiet K e) :
    Option.Rel (fun w' a => a = (w'.file, w'.cfg)) (Transition.run (step md5 path) w events)
      (Transition.run stepAlways (.readable bytes, w.cfg) events) := by
  obtain ⟨hpass, hfile, hsum, -⟩ := passed_initConfig halike hstart
  have hlast : w.lastMd5 = md5 bytes :=
    Except.ok.inj (hsum.symm.trans (getMd5_ok hsum (.readable bytes)))
  let R : Watcher → ConfigFile × Cfg → Prop := fun w' a =>
    a = (w'.file, w'.cfg) ∧ w'.Fresh md5 K ∧ w'.file ∈ K
  have hfirst : R w (.readable bytes, w.cfg) :=
    ⟨by rw [hfile], ⟨bytes, hbytes, hlast, hpass⟩, hfile ▸ hbytes⟩
  have hrel : Option.Rel R (Transition.run (step md5 path) w events)
      (Transition.run stepAlways (.readable bytes, w.cfg) events) := by
    refine Transition.run_related ?_ hquiet hfirst
    rintro w' a e ⟨rfl, hfresh, hin⟩ hq
    cases e with
    | edit file => exact .some ⟨rfl, hfresh, hq⟩
    | round garbage between =>
      obtain rfl : between = none := hq
      exact round_agrees hinj hmd5 hknown ⟨_, _, hsum⟩ hfresh hin garbage
  revert hrel
  generalize Transition.run (step md5 path) w events = x
  generalize Transition.run stepAlways (.readable bytes, w.cfg) events = y
  rintro (⟨h, -⟩ | _)
  · exact .some h
  · exact .none

/-! ## Two files -/

/-- A configuration of one line. -/
def tenMegabytes : Bytes := text "file_size=10\n"

/-- Another one. -/
def twentyMegabytes : Bytes := text "file_size=20\n"

/-- What `md5sum` prints for the two. -/
def md5OfTwo (bytes : Bytes) : Bytes :=
  if bytes = tenMegabytes then text "a2c2c4645bbf89b3a7469e4cc7a5c61d"
  else if bytes = twentyMegabytes then text "178289509a6f70d7650ec5fdfe86ae39"
  else text "d41d8cd98f00b204e9800998ecf8427e"

/-- No unknown key finds an item. -/
def noGarbage : Garbage := fun _ => (none, none)

/-- The daemon after a start with the first. -/
def startedWithTen : Watcher :=
  ⟨.readable tenMegabytes, ⟨.init, .init⟩, text "a2c2c4645bbf89b3a7469e4cc7a5c61d"⟩

theorem knownFile_of {bytes : Bytes} {ps : List (Bytes × Bytes)}
    (hps : checkAndUpdateConfig bytes = .ok ps) (hknown : KnownKeys ps) : KnownFile bytes := by
  intro ps' hps'
  obtain rfl := Except.ok.inj (hps.symm.trans hps')
  exact hknown

theorem shortcut_agrees_two :
    Option.Rel (fun w a => a = (w.file, w.cfg))
        (Transition.run (step md5OfTwo (text "/etc/p.ini")) startedWithTen
          [.round noGarbage none, .edit (.readable twentyMegabytes), .round noGarbage none])
        (Transition.run stepAlways (.readable tenMegabytes, ⟨.init, .init⟩)
          [.round noGarbage none, .edit (.readable twentyMegabytes), .round noGarbage none]) := by
  have hten : checkAndUpdateConfig tenMegabytes = .ok [(text "file_size", text "10")] := by
    decide +kernel
  have htwenty : checkAndUpdateConfig twentyMegabytes = .ok [(text "file_size", text "20")] := by
    decide +kernel
  have hname : ∀ value, KnownKeys [(text "file_size", value)] := by
    intro value kv hkv
    obtain rfl := List.mem_singleton.mp hkv
    exact ⟨.fls, rfl⟩
  have hstart : initConfig md5OfTwo (fun _ => false) (text "/etc/p.ini") noGarbage
      (.readable tenMegabytes) (.readable tenMegabytes) = .ok (some startedWithTen) := by
    decide +kernel
  refine shortcut_agrees (K := {.readable tenMegabytes, .readable twentyMegabytes}) ?_ ?_ ?_
    (.inl rfl) ⟨?_, ?_, ?_⟩ hstart ?_
  · rintro a b (ha | ha) (hb | hb) <;> obtain rfl := ConfigFile.readable.inj ha <;>
      obtain rfl := ConfigFile.readable.inj hb <;> decide +kernel
  · intro bytes
    unfold md5OfTwo
    split
    · decide +kernel
    · split <;> decide +kernel
  · rintro bytes (h | h) <;> obtain rfl := ConfigFile.readable.inj h
    · exact knownFile_of hten (hname _)
    · exact knownFile_of htwenty (hname _)
  · exact ⟨_, by decide +kernel, hten⟩
  · exact knownFile_of hten (hname _)
  · intro ps hps kv hkv type htype hdyn
    obtain rfl := Except.ok.inj (hten.symm.trans hps)
    obtain rfl := List.mem_singleton.mp hkv
    obtain rfl | rfl | rfl := hdyn <;> revert htype <;> decide +kernel
  · intro e he
    fin_cases he <;> simp [Quiet]

/-- While the daemon checks the second file, the first is put back for a moment: its settings are
read again, and with the second file in place no round looks at it. -/
theorem swapped_missed :
    Transition.run (step md5OfTwo (text "/etc/p.ini")) startedWithTen
        [.edit (.readable twentyMegabytes), .round noGarbage (some (.readable tenMegabytes)),
          .edit (.readable twentyMegabytes), .round noGarbage none] =
      some { startedWithTen with
        file := .readable twentyMegabytes
        lastMd5 := md5OfTwo twentyMegabytes } := by
  decide +kernel

end Watcher

end PowerApi
