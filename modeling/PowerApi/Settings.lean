import PowerApi.Commands
import PowerApi.KeyStore

/-!
# What a failed setting leaves behind (`GovernorSet`, `FreqSet`, `FreqRangeSet`)

The three setters go through the policies and end at the first one whose command does
not start, or whose file cannot be written. Here they are given with the attribute
files, which hold what was written to them; a `Setting` is a call of one of them.
What it would write is its list of `attempts`, and after a failure the attempts in
front of it stay written. `Machine` says of a command or a file once and for all
whether it fails; with `up` a turn of a loop can fail beyond that.
-/

namespace PowerApi

open KeyStore

/-- The attribute files and what they hold. -/
abbrev Files := Bytes → Option Bytes

namespace Machine

variable (m : Machine) (up : ℕ → Bool)

/-- A turn of the loop of `GovernorSet`. -/
def governorAttempt (gov policy : Bytes) : Attempt Bytes Bytes where
  key := policyFile policy (text "/scaling_governor")
  value := gov
  starts := (m.popen (governorLine gov policy)).isSome

/-- A turn of the loop of `FreqSet`. -/
def speedAttempt (t : CurFreq) : Attempt Bytes Bytes :=
  let freq := wrapInt ((Float.ofBits t.curFreq).toInt32.toInt * thousand)
  { key := policyFile (text "policy" ++ decimal t.policyId) (text "/scaling_setspeed")
    value := decimal freq
    starts := (m.popen (speedLine freq t.policyId)).isSome }

/-- A turn of one of the loops of `FreqRangeSet`. -/
def rangeAttempt (file buf policy : Bytes) : Attempt Bytes Bytes where
  key := policyFile policy file
  value := buf
  starts := m.writeFile (policyFile policy file) buf

/-- The attempts of a loop of `FreqRangeSet`. -/
def rangeAttempts (file : Bytes) (freq : Int) (policys : List Bytes) : List (Attempt Bytes Bytes) :=
  policys.map (m.rangeAttempt file (decimal (wrapInt (freq * thousand))))

/-- `GovernorSet` with the files. -/
def governorSetFiles (gov : DataPtr) (policys : List Bytes) (files : Files) :
    Except Fault (Int × Files) := do
  let mem ← gov.deref
  let gov := cString (mem ++ m.past)
  if policys.any fun policy => m.checkAvailableGovernor gov policy ≠ 0 then
    return (RtnCode.errInvalideParam.code, files)
  else if m.scratchOk = false then return (1, files)
  else
    let (ok, files) := tryAll (whereUp up (policys.map (m.governorAttempt gov))) files
    return (if ok then RtnCode.success.code else RtnCode.errCommon.code, files)

/-- `FreqSet` with the files. -/
def freqSetFiles (target : List CurFreq) (files : Files) : Int × Files :=
  let (ok, files) := tryAll (whereUp up (target.map m.speedAttempt)) files
  (if ok then RtnCode.success.code else RtnCode.errCommon.code, files)

/-- `FreqRangeSet` with the files. -/
def freqRangeSetFiles (rstData : DataPtr) (files : Files) : Except Fault (Int × Files) := do
  match ← m.getPolicys with
  | none => return (1, files)
  | some policys =>
    let mem ← rstData.deref
    let (minFreq, maxFreq) := freqRangeOf (mem ++ m.past)
    let (ok, files) :=
      tryAll (whereUp up (m.rangeAttempts (text "/scaling_min_freq") minFreq policys)) files
    if ok = false then return (1, files)
    else
      let (ok, files) := tryAll (whereUp (fun i => up (i + policys.length))
        (m.rangeAttempts (text "/scaling_max_freq") maxFreq policys)) files
      if ok = false then return (1, files) else return (0, files)

/-- A call of a setter. -/
inductive Setting where
  | governorSet (gov : DataPtr) (policys : List Bytes)
  | freqSet (target : List CurFreq)
  | freqRangeSet (rstData : DataPtr)

/-- The call: its code, and the files afterwards. -/
def Setting.run (s : Setting) (files : Files) : Except Fault (Int × Files) :=
  match s with
  | governorSet gov policys => m.governorSetFiles up gov policys files
  | freqSet target => .ok (m.freqSetFiles up target files)
  | freqRangeSet rstData => m.freqRangeSetFiles up rstData files

/-- The code of the call. -/
def Setting.code (s : Setting) : Except Fault Int :=
  match s with
  | governorSet gov policys => m.governorSet gov policys
  | freqSet target => .ok (m.freqSet target)
  | freqRangeSet rstData => m.freqRangeSet rstData

/-- What the call sets if nothing fails; nothing if it is refused or faulty. -/
def Setting.attempts (s : Setting) : List (Attempt Bytes Bytes) :=
  match s with
  | governorSet gov policys =>
    match gov.deref with
    | .error _ => []
    | .ok mem =>
      let gov := cString (mem ++ m.past)
      if policys.any fun policy => m.checkAvailableGovernor gov policy ≠ 0 then []
      else if m.scratchOk = false then []
      else policys.map (m.governorAttempt gov)
  | freqSet target => target.map m.speedAttempt
  | freqRangeSet rstData =>
    match m.getPolicys, rstData.deref with
    | .ok (some policys), .ok mem =>
      m.rangeAttempts (text "/scaling_min_freq") (freqRangeOf (mem ++ m.past)).1 policys ++
        m.rangeAttempts (text "/scaling_max_freq") (freqRangeOf (mem ++ m.past)).2 policys
    | _, _ => []

/-- What becomes of these attempts. -/
def Setting.tries (s : Setting) : List (Attempt Bytes Bytes) := whereUp up (s.attempts m)

/-- A setting that fails changes nothing. -/
def FailsClean (s : Setting) (files : Files) : Prop :=
  ∀ code files', s.run m up files = .ok (code, files') → code ≠ 0 → files' = files

variable {m up}

/-! ## The setters and their codes -/

theorem governorSetFiles_code (gov : DataPtr) (policys : List Bytes) (files : Files) :
    m.governorSet gov policys =
      m.governorSetFiles (fun _ => true) gov policys files >>= fun r => .ok r.1 := by
  rw [governorSet, governorSetFiles]
  cases gov.deref with
  | error f => rfl
  | ok mem =>
    rw [ok_bind, ok_bind]
    dsimp only
    split
    · rfl
    · split
      · rfl
      · have hfst := tryAll_fst (policys.map (m.governorAttempt (cString (mem ++ m.past)))) files
        rw [List.all_map] at hfst
        rw [whereUp_true]
        change _ = Except.ok (if (tryAll _ files).1 then _ else _)
        rw [hfst]
        exact (apply_ite (@Except.ok Fault Int) _ _ _).symm

theorem freqSetFiles_code (target : List CurFreq) (files : Files) :
    m.freqSet target = (m.freqSetFiles (fun _ => true) target files).1 := by
  have hfst := tryAll_fst (target.map m.speedAttempt) files
  rw [List.all_map] at hfst
  rw [freqSetFiles, whereUp_true]
  change _ = if (tryAll _ files).1 then _ else _
  rw [hfst]
  rfl

theorem writePolicys_eq (policys : List Bytes) (file : Bytes) (freq : Int) (files : Files) :
    m.writePolicys policys file (decimal (wrapInt (freq * thousand))) =
      (tryAll (m.rangeAttempts file freq policys) files).1 := by
  rw [tryAll_fst, rangeAttempts, List.all_map]
  rfl

theorem freqRangeSetFiles_code (rstData : DataPtr) (files : Files) :
    m.freqRangeSet rstData =
      m.freqRangeSetFiles (fun _ => true) rstData files >>= fun r => .ok r.1 := by
  rw [freqRangeSet, freqRangeSetFiles]
  rcases m.getPolicys with f | _ | policys
  · rfl
  · rfl
  rw [ok_bind, ok_bind]
  dsimp only
  rw [freqRangeSetOf]
  cases rstData.deref with
  | error f => rfl
  | ok mem =>
    rw [ok_bind, ok_bind]
    dsimp only
    rw [writePolicys_eq policys _ _ files, whereUp_true]
    rcases tryAll (m.rangeAttempts (text "/scaling_min_freq") _ policys) files with
      ⟨_ | _, files'⟩
    · rfl
    · rw [writePolicys_eq policys _ _ files', whereUp_true]
      rcases tryAll (m.rangeAttempts (text "/scaling_max_freq") _ policys) files' with
        ⟨_ | _, files''⟩ <;> rfl

/-- Where no turn fails beyond that, the codes are those of the functions without files. -/
theorem run_code (s : Setting) (files : Files) :
    s.code m = s.run m (fun _ => true) files >>= fun r => .ok r.1 := by
  cases s with
  | governorSet gov policys => exact governorSetFiles_code gov policys files
  | freqSet target => exact congrArg Except.ok (freqSetFiles_code target files)
  | freqRangeSet rstData => exact freqRangeSetFiles_code rstData files

/-! ## What a setter leaves -/

/-- A call that comes to its attempts, and ends at the first one that fails. -/
structure Ends (m : Machine) (up : ℕ → Bool) (s : Setting) (files : Files) (code : Int) :
    Prop where
  run_eq : s.run m up files = .ok (code, putAll (begun (s.tries m up)) files)
  code_iff : code = 0 ↔ ∀ a ∈ s.tries m up, a.starts = true

/-- A call that is refused, or faulty, and comes to no attempt. -/
structure Refused (m : Machine) (up : ℕ → Bool) (s : Setting) (files : Files) : Prop where
  attempts_eq : s.attempts m = []
  unchanged : ∀ code files', s.run m up files = .ok (code, files') → files' = files

/-- The code of a loop is 0 if every attempt succeeds. -/
theorem code_tryAll {as : List (Attempt Bytes Bytes)} {files : Files} {code : Int}
    (h : code ≠ 0) :
    (if (tryAll as files).1 then RtnCode.success.code else code) = 0 ↔
      ∀ a ∈ as, a.starts = true := by
  rw [tryAll_fst, ← List.all_eq_true]
  split <;> rename_i hall
  · exact iff_of_true rfl hall
  · exact iff_of_false h hall

theorem refused_of_ok {s : Setting} {files : Files} (code : Int) (hattempts : s.attempts m = [])
    (hrun : s.run m up files = .ok (code, files)) : m.Refused up s files :=
  ⟨hattempts, fun _ _ h => (congrArg Prod.snd (Except.ok.inj (hrun.symm.trans h))).symm⟩

theorem refused_of_error {s : Setting} {files : Files} (f : Fault) (hattempts : s.attempts m = [])
    (hrun : s.run m up files = .error f) : m.Refused up s files :=
  ⟨hattempts, fun _ _ h => nomatch hrun.symm.trans h⟩

theorem governorSet_cases (gov : DataPtr) (policys : List Bytes) (files : Files) :
    m.Refused up (.governorSet gov policys) files ∨
      ∃ code, m.Ends up (.governorSet gov policys) files code := by
  cases hgov : gov.deref with
  | error f =>
    refine .inl (refused_of_error f ?_ ?_)
    · rw [Setting.attempts, hgov]
    · rw [Setting.run, governorSetFiles, hgov, error_bind]
  | ok mem =>
    -- the two checks, and then the loop
    have hattempts : Setting.attempts m (.governorSet gov policys) =
        if (policys.any fun policy => m.checkAvailableGovernor (cString (mem ++ m.past)) policy ≠ 0)
        then [] else if m.scratchOk = false then []
        else policys.map (m.governorAttempt (cString (mem ++ m.past))) := by
      rw [Setting.attempts, hgov]
    have hrun : Setting.run m up (.governorSet gov policys) files =
        if (policys.any fun policy => m.checkAvailableGovernor (cString (mem ++ m.past)) policy ≠ 0)
        then .ok (RtnCode.errInvalideParam.code, files)
        else if m.scratchOk = false then .ok (1, files)
        else
          let as := policys.map (m.governorAttempt (cString (mem ++ m.past)))
          let r := tryAll (whereUp up as) files
          .ok (if r.1 then RtnCode.success.code else RtnCode.errCommon.code, r.2) := by
      rw [Setting.run, governorSetFiles, hgov]
      rfl
    split at hattempts <;> rename_i hcheck
    · rw [if_pos hcheck] at hrun
      exact .inl (refused_of_ok _ hattempts hrun)
    · rw [if_neg hcheck] at hrun
      split at hattempts <;> rename_i hscratch
      · rw [if_pos hscratch] at hrun
        exact .inl (refused_of_ok _ hattempts hrun)
      · rw [if_neg hscratch, ← hattempts] at hrun
        refine .inr ⟨_, hrun.trans ?_, @code_tryAll _ files RtnCode.errCommon.code (by decide)⟩
        rw [← tryAll_snd]
        rfl

theorem freqSet_ends (target : List CurFreq) (files : Files) :
    ∃ code, m.Ends up (.freqSet target) files code := by
  refine ⟨(m.freqSetFiles up target files).1, ?_, code_tryAll (by decide)⟩
  rw [← tryAll_snd]
  rfl

theorem freqRangeSet_cases (rstData : DataPtr) (files : Files) :
    m.Refused up (.freqRangeSet rstData) files ∨
      ∃ code, m.Ends up (.freqRangeSet rstData) files code := by
  rcases hlist : m.getPolicys with f | _ | policys
  · refine .inl (refused_of_error f ?_ ?_)
    · rw [Setting.attempts, hlist]
    · rw [Setting.run, freqRangeSetFiles, hlist, error_bind]
  · refine .inl (refused_of_ok 1 ?_ ?_)
    · rw [Setting.attempts, hlist]
    · rw [Setting.run, freqRangeSetFiles, hlist, ok_bind]
      rfl
  cases hdata : rstData.deref with
  | error f =>
    refine .inl (refused_of_error f ?_ ?_)
    · rw [Setting.attempts, hlist, hdata]
    · rw [Setting.run, freqRangeSetFiles, hlist, ok_bind, hdata]
      rfl
  | ok mem =>
    -- the two loops are one over the attempts of both
    have htries : Setting.tries m up (.freqRangeSet rstData) =
        whereUp up (m.rangeAttempts (text "/scaling_min_freq") (freqRangeOf (mem ++ m.past)).1
          policys) ++ whereUp (fun i => up (i + policys.length))
            (m.rangeAttempts (text "/scaling_max_freq") (freqRangeOf (mem ++ m.past)).2 policys) := by
      rw [Setting.tries, Setting.attempts, hlist, hdata]
      dsimp only
      rw [whereUp_append, rangeAttempts, List.length_map]
    refine .inr ⟨if (tryAll (Setting.tries m up (.freqRangeSet rstData)) files).1 then
      RtnCode.success.code else 1, ?_, code_tryAll (by decide)⟩
    rw [Setting.run, freqRangeSetFiles, hlist, ok_bind, ← tryAll_snd, htries, tryAll_append]
    dsimp only
    rw [hdata, ok_bind]
    rcases tryAll (whereUp up (m.rangeAttempts (text "/scaling_min_freq") _ policys)) files with
      ⟨_ | _, files'⟩
    · rfl
    · dsimp only [if_true]
      rcases tryAll (whereUp _ (m.rangeAttempts (text "/scaling_max_freq") _ policys)) files' with
        ⟨_ | _, files''⟩ <;> rfl

theorem run_cases (s : Setting) (files : Files) :
    m.Refused up s files ∨ ∃ code, m.Ends up s files code := by
  cases s with
  | governorSet gov policys => exact governorSet_cases gov policys files
  | freqSet target => exact .inr (freqSet_ends target files)
  | freqRangeSet rstData => exact freqRangeSet_cases rstData files

/-- A call that is not refused and whose attempts all succeed. -/
theorem run_of_starts {s : Setting} {files : Files} (hne : s.attempts m ≠ [])
    (hall : ∀ a ∈ s.tries m up, a.starts = true) :
    s.run m up files = .ok (0, putAll (begun (s.tries m up)) files) := by
  obtain hrefused | ⟨code, hends⟩ := @run_cases m up s files
  · exact absurd hrefused.attempts_eq hne
  · rw [hends.run_eq, hends.code_iff.mpr hall]

/-- What is set before the first failure stays. -/
theorem not_failsClean {s : Setting} {files : Files} (hfail : ∃ a ∈ s.tries m up, a.starts = false)
    (hnew : ¬ AlreadyThere (begun (s.tries m up)) files) : ¬ m.FailsClean up s files := by
  obtain ⟨a, ha, hstart⟩ := hfail
  obtain hrefused | ⟨code, hends⟩ := @run_cases m up s files
  · rw [Setting.tries, hrefused.attempts_eq] at ha
    cases ha
  · intro hclean
    refine hnew (putAll_eq_self_iff.mp (hclean code _ hends.run_eq fun hcode => ?_))
    exact absurd (hends.code_iff.mp hcode a ha) (by simp [hstart])

/-- **A failed setting changes nothing** exactly if none of its attempts fails, or those in
front of the first failure set what was there already. -/
theorem failed_setting_clean (m : Machine) (up : ℕ → Bool) (s : Setting) (files : Files) :
    m.FailsClean up s files ↔
      (∀ a ∈ s.tries m up, a.starts = true) ∨ AlreadyThere (begun (s.tries m up)) files := by
  constructor
  · intro hclean
    by_contra hnot
    obtain ⟨hfail, hnew⟩ := not_or.mp hnot
    refine not_failsClean ?_ hnew hclean
    simpa using hfail
  · intro h code files' hrun hcode
    obtain hrefused | ⟨code', hends⟩ := @run_cases m up s files
    · exact hrefused.unchanged code files' hrun
    · obtain ⟨rfl, rfl⟩ := Prod.mk.inj (Except.ok.inj (hends.run_eq.symm.trans hrun))
      obtain hall | hthere := h
      · exact absurd (hends.code_iff.mpr hall) hcode
      · exact putAll_eq_self_iff.mpr hthere

/-- A machine with one policy, whose upper bound cannot be written. -/
def lockedMachine : Machine :=
  { Server.bareMachine with
    popen := fun _ => some [text "policy0\n"]
    writeFile := fun path _ => path = policyFile (text "policy0") (text "/scaling_min_freq") }

/-- A range from 5 to 9 MHz. -/
def rangeData : DataPtr := .heap 1 [5, 0, 0, 0, 9, 0, 0, 0]

/-- The lower bound is changed when writing the upper one fails. -/
theorem minFreq_not_clean : ¬ lockedMachine.FailsClean (fun _ => true) (.freqRangeSet rangeData)
    fun _ => some (text "0") := by
  have hbegun : begun (Setting.tries lockedMachine (fun _ => true) (.freqRangeSet rangeData)) =
      [(policyFile (text "policy0") (text "/scaling_min_freq"), text "5000")] := by
    decide +kernel
  refine not_failsClean (by decide +kernel) fun hthere => ?_
  rw [hbegun] at hthere
  have hheld := hthere (policyFile (text "policy0") (text "/scaling_min_freq")) (text "0") rfl
    (text "5000") (by rw [lastPut, if_pos rfl]; rfl)
  exact absurd hheld (by decide +kernel)

end Machine

end PowerApi
