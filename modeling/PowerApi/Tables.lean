import PowerApi.CpuLines
import PowerApi.Leftovers

/-!
# Tables that the machine fills (`cpuservice.c`)

Three arrays have as many elements as the machine was thought to need: the names of the
policies, the names of the governors and the NUMA nodes. `GetPolicys` and
`AllGovernorsRead` store what they read one behind the other, `CpuInfoCopy` stores at the
number in a label, and none of them looks at the size of the array. `tables_kept_iff` is
what the listing, the text and the labels have to be for all indices to stay inside. A read
behind the buffer of `CpuInfoRead` does not end its loop: it finds what is on the stack there,
and the next line of `lscpu` is stored like any other.
-/

namespace PowerApi

/-! ## The stores -/

/-- The loop of `GetPolicys` over the lines of the listing. -/
def policyStores (m : Machine) : List (ℕ × Bytes) :=
  storesFrom Machine.policyName 0 (m.listing.getD [])

/-- The indices into `numa` in a run of `CpuInfoRead`, up to one that is wrong. -/
def numaStores (m : Machine) (host : Host) (behind : Behind) : List Int :=
  (traceLines host ((m.popen lscpu).getD []) (host.staleBuf ++ behind.bytes)).1

/-- All stores are inside their arrays. -/
structure TablesKept (m : Machine) (host : Host) (behind : Behind) : Prop where
  policys : ∀ store ∈ policyStores m, store.1 < maxCpuListLen
  governors : ∀ store ∈ (allGovernorsRead host).2.2, store.1 < maxGovNum
  numa : ∀ j ∈ numaStores m host behind, InNuma j

/-! ## Which inputs fit -/

/-- Every node is one of `numa`. -/
def NodesFit (lines : List LscpuLine) : Prop := ∀ line ∈ lines, NodeFits line.name

/-- A loop stays inside an array if and only if there are not too many items. -/
theorem storesFrom_lt {item : Bytes → Bytes} {num size : ℕ} {strs : List Bytes} :
    (∀ store ∈ storesFrom item num strs, store.1 < size) ↔
      strs = [] ∨ num + strs.length ≤ size := by
  induction strs generalizing num with
  | nil => exact iff_of_true nofun (.inl rfl)
  | cons str strs ih =>
    rw [storesFrom, List.forall_mem_cons, ih, List.length_cons]
    constructor
    · rintro ⟨hlt, rfl | hle⟩
      · exact .inr hlt
      · exact .inr (by omega)
    · rintro (hnil | hle)
      · cases hnil
      · exact ⟨by dsimp only; omega, .inr (by omega)⟩

theorem storesFrom_zero_lt {item : Bytes → Bytes} {size : ℕ} {strs : List Bytes} :
    (∀ store ∈ storesFrom item 0 strs, store.1 < size) ↔ strs.length ≤ size := by
  rw [storesFrom_lt, Nat.zero_add, or_iff_right_of_imp]
  rintro rfl
  exact Nat.zero_le size

theorem map_storesFrom (item : Bytes → Bytes) (num : ℕ) (strs : List Bytes) :
    (storesFrom item num strs).map Prod.snd = strs.map item := by
  induction strs generalizing num with
  | nil => rfl
  | cons str strs ih => rw [storesFrom, List.map_cons, List.map_cons, ih]

/-- The names that `GetPolicys` leaves are those that the loop stores. -/
theorem getPolicys_stores {m : Machine} {policys : List Bytes}
    (h : m.getPolicys = .ok (some policys)) :
    (policyStores m).map Prod.snd = policys ∧
      ∀ store ∈ policyStores m, store.1 < maxCpuListLen := by
  rcases @Machine.getPolicys_cases m with ⟨herr, -⟩ | ⟨hok, hfits⟩
  · cases herr.symm.trans h
  · cases hl : m.listing with
    | none =>
      rw [hok, hl] at h
      cases h
    | some lines =>
      rw [hok, hl] at h
      cases h
      rw [policyStores, hl, Option.getD_some, map_storesFrom, storesFrom_zero_lt]
      exact ⟨rfl, hfits lines hl⟩

theorem policyStores_lt {m : Machine} :
    (∀ store ∈ policyStores m, store.1 < maxCpuListLen) ↔ m.ListingFits := by
  rw [policyStores, storesFrom_zero_lt, Machine.ListingFits]
  cases m.listing with
  | none => exact iff_of_true (Nat.zero_le _) (by simp)
  | some lines => exact ⟨fun h _ heq => Option.some.inj heq ▸ h, fun h => h lines rfl⟩

theorem governorStores_lt {host : Host} :
    (∀ store ∈ (allGovernorsRead host).2.2, store.1 < maxGovNum) ↔ GovernorsFit host := by
  rw [← govNum_le_iff, allGovernorsRead]
  cases host.file availableGovernors with
  | none => exact iff_of_true (by simp) (Nat.zero_le _)
  | some content =>
    dsimp only
    split
    · exact iff_of_true (by simp) (Nat.zero_le _)
    · exact storesFrom_zero_lt

/-- The indices that a run comes to. -/
theorem runLines_inNuma (host : Host) (lines : List LscpuLine) :
    (∀ j ∈ (runLines host 0 lines).1, InNuma j) ↔ NodesFit lines := by
  induction lines with
  | nil => exact iff_of_true nofun nofun
  | cons line lines ih =>
    have hindex : (∀ j ∈ (nodeIndex line.name).toList, InNuma j) ↔ NodeFits line.name :=
      forall_congr' fun j => imp_congr_left Option.mem_toList
    rw [NodesFit, List.forall_mem_cons, runLines]
    split <;> rename_i hpasses
    · rw [NumaTrace.after, List.forall_mem_append, hindex, ih, NodesFit]
    · rw [hindex]
      exact iff_of_false (fun hnode => hpasses ⟨hnode, fun h => h.2 rfl⟩)
        fun h => hpasses ⟨h.1, fun h => h.2 rfl⟩

theorem numaStores_inNuma {m : Machine} (host : Host) (behind : Behind) {lines : List LscpuLine}
    (hfits : ∀ line ∈ lines, line.Fits)
    (hm : m.popen lscpu = some (lines.flatMap fun line => fgetsCalls line.print)) :
    (∀ j ∈ numaStores m host behind, InNuma j) ↔ NodesFit lines := by
  have hends : 0 ∈ (host.staleBuf ++ behind.bytes).drop (maxStringLen - 1) := by
    rw [List.drop_append_of_le_length (by rw [host.length_staleBuf]; exact Nat.sub_le ..)]
    exact List.mem_append_right _ behind.ends
  rw [numaStores, hm, Option.getD_some, traceLines_behind host hfits hends, runLines_inNuma]

/-- Nothing is stored outside of the three tables if and only if the listing has at most
248 policies, the text at most 16 governors and every label of a node a number from 0 to 15. -/
theorem tables_kept_iff (m : Machine) (host : Host) (behind : Behind) (lines : List LscpuLine)
    (hfits : ∀ line ∈ lines, line.Fits)
    (hm : m.popen lscpu = some (lines.flatMap fun line => fgetsCalls line.print)) :
    TablesKept m host behind ↔ m.ListingFits ∧ GovernorsFit host ∧ NodesFit lines := by
  rw [← policyStores_lt, ← governorStores_lt, ← numaStores_inNuma host behind hfits hm]
  exact ⟨fun h => ⟨h.policys, h.governors, h.numa⟩, fun h => ⟨h.1, h.2.1, h.2.2⟩⟩

/-- A machine with a policy for each of its 256 cores. -/
def manyCoreMachine : Machine :=
  { Server.bareMachine with
    popen := fun cmd => if cmd = lscpu then some []
      else some ((List.range 256).map fun i : ℕ => text "policy" ++ decimal i ++ [10]) }

theorem listing_ne_lscpu :
    text "ls /sys/devices/system/cpu/cpufreq | grep policy" ≠ lscpu := by decide +kernel

/-- Nothing but the end of a string behind `buf`. -/
def zeroBehind : Behind := ⟨[0], List.mem_singleton_self 0⟩

theorem tables_kept_iff_manyCore :
    TablesKept manyCoreMachine Server.emptyHost zeroBehind ↔ manyCoreMachine.ListingFits ∧
      GovernorsFit Server.emptyHost ∧ NodesFit [] :=
  tables_kept_iff manyCoreMachine Server.emptyHost zeroBehind [] nofun (if_pos rfl)

/-- The last names are stored behind the array. -/
theorem manyCore_not_kept : ¬ TablesKept manyCoreMachine Server.emptyHost zeroBehind := by
  intro h
  have hlisting := policyStores_lt.mp h.policys _ (if_neg listing_ne_lscpu)
  rw [List.length_map, List.length_range] at hlisting
  exact absurd hlisting (by decide)

end PowerApi
