import PowerApi.Commands

/-!
# When a governor is accepted (`GovernorSet`)

`GovernorSet` asks for every policy whether its list has the governor, and writes the
governor to all policies if they have it. `CheckAvailableGovernor` makes the path of
such a list with `strncat`, and bounds the policy's name by the length of the
governor there: it looks at the list of `cutName`. `CutFits` says for which lists and
names the answer is right anyway.
-/

namespace PowerApi

namespace Machine

/-- The name under which `CheckAvailableGovernor` looks for the list of a policy. -/
def cutName (gov policy : Bytes) : Bytes := policy.take gov.length

/-- All these policies have the governor in their lists. -/
def OfferedByAll (m : Machine) (gov : Bytes) (policys : List Bytes) : Prop :=
  ∀ policy ∈ policys, gov ∈ m.availableGovernors policy

instance (m : Machine) (gov : Bytes) (policys : List Bytes) :
    Decidable (m.OfferedByAll gov policys) :=
  inferInstanceAs (Decidable (∀ policy ∈ policys, _))

/-- What `GovernorSet` is to come to: success, with the governor written to every policy,
if all of them offer it, and otherwise an error and nothing written. -/
def AcceptsOffered (m : Machine) (gov : Bytes) (policys : List Bytes)
    (run : Except Fault (Int × List Bytes)) : Prop :=
  run = if m.OfferedByAll gov policys then
      .ok (RtnCode.success.code, policys.map (governorLine gov))
    else .ok (RtnCode.errInvalideParam.code, [])

/-- The cut names do no harm. -/
structure CutFits (m : Machine) (gov : Bytes) (policys : List Bytes) : Prop where
  /-- A governor that all offer is found under the cut names too, and can be written. -/
  accepted : m.OfferedByAll gov policys → m.scratchOk = true ∧ ∀ policy ∈ policys,
    cutName gov policy ∈ policys ∧ (m.popen (governorLine gov policy)).isSome
  /-- A governor that one does not offer is missed under a cut name too. -/
  refused : ¬ m.OfferedByAll gov policys → m.scratchOk = false ∨ ∃ policy ∈ policys,
    cutName gov policy ∈ policys → gov ∉ m.availableGovernors (cutName gov policy)

section Governors

variable {m : Machine} {gov : Bytes} {policys : List Bytes}

/-- `GovernorSet` on a C string in a buffer. -/
theorem governorSetRun_heap (hgov : ∀ c ∈ gov, c ≠ 0) (addr : UInt64) (rest : Bytes) :
    m.governorSetRun (.heap addr (gov ++ 0 :: rest)) policys =
      if policys.any fun policy => m.checkAvailableGovernor gov policy ≠ 0 then
        .ok (RtnCode.errInvalideParam.code, [])
      else if m.scratchOk = false then .ok (1, [])
      else .ok (m.runLines (policys.map (governorLine gov))) := by
  rw [governorSetRun, DataPtr.deref, ok_bind, List.append_assoc, List.cons_append,
    cString_append_zero hgov]
  rfl

/-- All policies are written to if and only if every command starts. -/
theorem runLines_eq_iff {lines : List Bytes} :
    m.runLines lines = (RtnCode.success.code, lines) ↔ ∀ line ∈ lines, (m.popen line).isSome := by
  constructor
  · intro hrun
    have hlines : (m.runLines lines).2 = lines := congrArg Prod.snd hrun
    rw [runLines_snd, List.takeWhile_eq_self_iff] at hlines
    exact hlines
  · intro hall
    have hcode : (m.runLines lines).1 = RtnCode.success.code := by
      rw [runLines_fst, if_pos (List.all_eq_true.mpr hall)]
    exact Prod.ext hcode (runLines_success hcode)

/-- The loop that writes has a code of its own for its failures. -/
theorem runLines_fst_ne (lines : List Bytes) :
    (m.runLines lines).1 ≠ RtnCode.errInvalideParam.code := by
  rw [runLines_fst]
  split <;> decide

/-- Without memory for the path every governor is refused. -/
theorem acceptsOffered_short (hgov : ∀ c ∈ gov, c ≠ 0) (hscratch : m.scratchOk = false)
    (addr : UInt64) (rest : Bytes) :
    m.AcceptsOffered gov policys (m.governorSetRun (.heap addr (gov ++ 0 :: rest)) policys) ↔
      ¬ m.OfferedByAll gov policys := by
  have hcheck : ∀ policy, m.checkAvailableGovernor gov policy ≠ 0 := fun policy hzero =>
    absurd (checkAvailableGovernor_eq_zero.mp hzero).1 (by simp [hscratch])
  rw [governorSetRun_heap hgov, AcceptsOffered]
  by_cases hall : m.OfferedByAll gov policys
  · rw [if_pos hall]
    refine iff_of_false (fun hrun => ?_) (not_not.mpr hall)
    split at hrun
    · cases hrun
    · cases hrun
  · -- there is a policy, and the first check fails
    rw [if_neg hall]
    refine iff_of_true (if_pos ?_) hall
    cases policys with
    | nil => exact absurd nofun hall
    | cons policy policys => simp [hcheck]

theorem acceptsOffered_iff_cut (hgov : ∀ c ∈ gov, c ≠ 0) (hscratch : m.scratchOk = true)
    (addr : UInt64) (rest : Bytes) :
    m.AcceptsOffered gov policys (m.governorSetRun (.heap addr (gov ++ 0 :: rest)) policys) ↔
      if ∀ policy ∈ policys, gov ∈ m.availableGovernors (cutName gov policy) then
        m.OfferedByAll gov policys ∧
          ∀ policy ∈ policys, (m.popen (governorLine gov policy)).isSome
      else ¬ m.OfferedByAll gov policys := by
  rw [governorSetRun_heap hgov, AcceptsOffered]
  by_cases hcut : ∀ policy ∈ policys, gov ∈ m.availableGovernors (cutName gov policy)
  · rw [if_pos hcut, if_neg fun hany => (any_check_iff hscratch).mp hany hcut,
      if_neg (by simp [hscratch])]
    by_cases hall : m.OfferedByAll gov policys
    · rw [if_pos hall, and_iff_right hall, Except.ok.injEq, runLines_eq_iff, List.forall_mem_map]
    · rw [if_neg hall]
      refine iff_of_false (fun hrun => ?_) fun h => hall h.1
      exact runLines_fst_ne _ (congrArg Prod.fst (Except.ok.inj hrun))
  · rw [if_neg hcut, if_pos ((any_check_iff hscratch).mpr hcut)]
    by_cases hall : m.OfferedByAll gov policys
    · rw [if_pos hall]
      exact iff_of_false (fun hrun => nomatch hrun) (not_not.mpr hall)
    · rw [if_neg hall]
      exact iff_of_true rfl hall

end Governors

/-- **A governor is accepted exactly when every policy offers it**, if the cut names fit.
No lists are found but those of the policies. -/
theorem governorSet_acceptsOffered (m : Machine) (gov : Bytes) (hgov : ∀ c ∈ gov, c ≠ 0)
    (policys : List Bytes) (hother : ∀ name, name ∉ policys → m.availableGovernors name = [])
    (addr : UInt64) (rest : Bytes) :
    m.AcceptsOffered gov policys (m.governorSetRun (.heap addr (gov ++ 0 :: rest)) policys) ↔
      m.CutFits gov policys := by
  have hlisted : ∀ name, gov ∈ m.availableGovernors name → name ∈ policys := by
    intro name hmem
    by_contra hnot
    rw [hother name hnot] at hmem
    cases hmem
  by_cases hscratch : m.scratchOk = true
  · rw [acceptsOffered_iff_cut hgov hscratch]
    split <;> rename_i hcut
    · constructor
      · rintro ⟨hall, hstart⟩
        refine ⟨fun _ => ⟨hscratch, fun policy hmem => ⟨?_, hstart policy hmem⟩⟩,
          fun hnot => absurd hall hnot⟩
        exact hlisted _ (hcut policy hmem)
      · intro hfits
        have hall : m.OfferedByAll gov policys := by
          by_contra hnot
          obtain hshort | ⟨policy, hmem, hmiss⟩ := hfits.refused hnot
          · exact absurd hscratch (by simp [hshort])
          · exact hmiss (hlisted _ (hcut policy hmem)) (hcut policy hmem)
        exact ⟨hall, fun policy hmem => ((hfits.accepted hall).2 policy hmem).2⟩
    · constructor
      · intro hnot
        refine ⟨fun hall => absurd hall hnot, fun _ => .inr ?_⟩
        obtain ⟨policy, hmiss⟩ := not_forall.mp hcut
        obtain ⟨hmem, hmiss⟩ := Classical.not_imp.mp hmiss
        exact ⟨policy, hmem, fun _ => hmiss⟩
      · -- the cut names of policies that all offer it would be policies themselves
        intro hfits hall
        exact hcut fun policy hmem => hall _ ((hfits.accepted hall).2 policy hmem).1
  · rw [Bool.not_eq_true] at hscratch
    rw [acceptsOffered_short hgov hscratch]
    constructor
    · exact fun hnot => ⟨fun hall => absurd hall hnot, fun _ => .inl hscratch⟩
    · exact fun hfits hall => absurd (hfits.accepted hall).1 (by simp [hscratch])

/-- The command line with which `CheckAvailableGovernor` reads a list. -/
def availableLine (policy : Bytes) : Bytes :=
  text "cat /sys/devices/system/cpu/cpufreq/" ++ policy ++ text "/scaling_available_governors"

/-- A machine with one policy, which offers `ondemand`. -/
def ondemandMachine (policy : Bytes) : Machine :=
  { Server.bareMachine with popen := fun line =>
      if line = availableLine policy then some [text "performance ondemand\n"] else some [] }

/-- It has no other lists. -/
theorem ondemandMachine_other {policy name : Bytes} (h : name ≠ policy) :
    (ondemandMachine policy).availableGovernors name = [] := by
  have hline : availableLine name ≠ availableLine policy := fun heq =>
    h (List.append_cancel_left (List.append_cancel_right heq))
  have hpopen : (ondemandMachine policy).popen (availableLine name) = some [] := if_neg hline
  rw [availableGovernors, ← availableLine, hpopen]

theorem governorSet_acceptsOffered_policy0 :
    (ondemandMachine (text "policy0")).AcceptsOffered (text "ondemand") [text "policy0"]
        ((ondemandMachine (text "policy0")).governorSetRun (.heap 1 (text "ondemand" ++ [0]))
          [text "policy0"]) ↔
      (ondemandMachine (text "policy0")).CutFits (text "ondemand") [text "policy0"] :=
  governorSet_acceptsOffered _ _ (by decide +kernel) _
    (fun _ hname => ondemandMachine_other fun heq => hname (List.mem_singleton.mpr heq)) 1 []

/-- `policy100` offers `ondemand`, and its name is a letter longer. -/
theorem policy100_not_acceptsOffered :
    ¬ (ondemandMachine (text "policy100")).AcceptsOffered (text "ondemand") [text "policy100"]
      ((ondemandMachine (text "policy100")).governorSetRun (.heap 1 (text "ondemand" ++ [0]))
        [text "policy100"]) := by
  have hname : cutName (text "ondemand") (text "policy100") ≠ text "policy100" := by decide +kernel
  have hmiss : ¬ ∀ policy ∈ [text "policy100"], text "ondemand" ∈
      (ondemandMachine (text "policy100")).availableGovernors (cutName (text "ondemand") policy) := by
    rw [List.forall_mem_singleton, ondemandMachine_other hname]
    exact List.not_mem_nil
  rw [acceptsOffered_iff_cut (by decide +kernel) rfl 1 [], if_neg hmiss, not_not]
  decide +kernel

end Machine

end PowerApi
