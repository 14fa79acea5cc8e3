import PowerApi.Task

/-!
# The subscribers of one collection task

A task records a subscription twice, in a slot with a non-zero `sysId` and in
the counter `subNum`. `CollTask.WF` says that the two agree and that no client
has two slots; `CollTask.Has` is what the slots mean, the set of subscriptions.
Adding and deleting a subscriber keep `WF` and change `Has` for that client
only.
-/

namespace PowerApi

open Slots

namespace CollTask

/-- `subNum` counts the taken slots, and no client has two. -/
structure Counted (t : CollTask) : Prop where
  sub_count : t.subNum = count fun i => (t.subscriberList i).sysId ≠ 0
  distinct : ∀ i j, (t.subscriberList i).sysId ≠ 0 →
    (t.subscriberList i).sysId = (t.subscriberList j).sysId → i = j

/-- The invariant of a task in the registry: it also has a subscriber. -/
structure WF (t : CollTask) : Prop extends Counted t where
  sub_pos : 1 ≤ t.subNum

/-- The task holds this subscription. -/
def Has (t : CollTask) (sub : CollDataSubscriber) : Prop :=
  sub.sysId ≠ 0 ∧ ∃ i, t.subscriberList i = sub

/-- What `DeleteSubscriber` leaves in the task's slot of the registry. -/
def withoutSubscriber (t : CollTask) (s : UInt32) : Option CollTask :=
  let t' := t.clearSubscriber s
  if t'.subNum ≤ 0 then none else some (t'.updataTaskInterval none)

@[simp] theorem updataTaskInterval_subscriberList (t : CollTask) (o : Option (Fin maxClientNum)) :
    (t.updataTaskInterval o).subscriberList = t.subscriberList := by
  rcases o with _ | i
  · rfl
  · unfold updataTaskInterval
    dsimp only
    split <;> rfl

@[simp] theorem updataTaskInterval_subNum (t : CollTask) (o : Option (Fin maxClientNum)) :
    (t.updataTaskInterval o).subNum = t.subNum := by
  rcases o with _ | i
  · rfl
  · unfold updataTaskInterval
    dsimp only
    split <;> rfl

@[simp] theorem updataTaskInterval_dataType (t : CollTask) (o : Option (Fin maxClientNum)) :
    (t.updataTaskInterval o).dataType = t.dataType := by
  rcases o with _ | i
  · rfl
  · unfold updataTaskInterval
    dsimp only
    split <;> rfl

/-- The interval has no part in the count. -/
theorem Counted.updataTaskInterval {t : CollTask} (h : t.Counted) (o : Option (Fin maxClientNum)) :
    (t.updataTaskInterval o).Counted :=
  ⟨by simpa using h.sub_count, by simpa using h.distinct⟩

/-- Taking over an interval changes no subscription. -/
theorem has_updataTaskInterval {t : CollTask} {o : Option (Fin maxClientNum)}
    {sub : CollDataSubscriber} : (t.updataTaskInterval o).Has sub ↔ t.Has sub := by
  simp [Has]

/-! ## Clearing a subscriber -/

/-- Clearing writes a free slot over the client's, if it has one. -/
theorem clearSubscriber_cases (t : CollTask) (s : UInt32) :
    (∃ i, (t.subscriberList i).sysId = s ∧ t.clearSubscriber s =
      { t with
        subscriberList := Function.update t.subscriberList i .zero
        subNum := t.subNum - 1 }) ∨
    (∀ i, (t.subscriberList i).sysId ≠ s) ∧ t.clearSubscriber s = t := by
  unfold clearSubscriber
  cases hf : t.findSubscriberById s with
  | none => exact .inr ⟨first_eq_none.mp hf, rfl⟩
  | some i => exact .inl ⟨i, first_spec hf, rfl⟩

@[simp] theorem clearSubscriber_dataType (t : CollTask) (s : UInt32) :
    (t.clearSubscriber s).dataType = t.dataType := by
  obtain ⟨i, -, ht⟩ | ⟨-, ht⟩ := t.clearSubscriber_cases s <;> rw [ht]

/-- The count is still that of the slots in use when a client's slot is cleared. -/
theorem Counted.clearSubscriber {t : CollTask} (h : t.Counted) {s : UInt32} (hs : s ≠ 0) :
    (t.clearSubscriber s).Counted := by
  obtain ⟨i, hid, ht⟩ | ⟨-, ht⟩ := t.clearSubscriber_cases s
  · rw [ht]
    refine ⟨?_, ?_⟩
    · have hcount := count_update (p := fun sub : CollDataSubscriber => sub.sysId ≠ 0)
        t.subscriberList i CollDataSubscriber.zero
      rw [if_pos (by rw [hid]; exact hs), if_neg (by simp [CollDataSubscriber.zero])] at hcount
      have hold := h.sub_count
      dsimp only at hcount ⊢
      omega
    · intro j k hj hjk
      by_cases hji : j = i
      · subst hji
        exact absurd (by simp [CollDataSubscriber.zero]) hj
      · by_cases hki : k = i
        · subst hki
          rw [hjk] at hj
          exact absurd (by simp [CollDataSubscriber.zero]) hj
        · simp only [Function.update_of_ne hji, Function.update_of_ne hki] at hj hjk
          exact h.distinct j k hj hjk
  · rw [ht]
    exact h

/-- Clearing removes the client's subscription and no other. -/
theorem has_clearSubscriber {t : CollTask} (h : t.Counted) {s : UInt32}
    {sub : CollDataSubscriber} :
    (t.clearSubscriber s).Has sub ↔ t.Has sub ∧ sub.sysId ≠ s := by
  obtain ⟨i, hid, ht⟩ | ⟨hno, ht⟩ := t.clearSubscriber_cases s
  · rw [ht]
    constructor
    · rintro ⟨h0, j, rfl⟩
      dsimp only at h0 ⊢
      by_cases hji : j = i
      · subst hji
        exact absurd (by simp [CollDataSubscriber.zero]) h0
      · rw [Function.update_of_ne hji] at h0 ⊢
        refine ⟨⟨h0, j, rfl⟩, fun hjs => hji ?_⟩
        exact h.distinct j i h0 (hjs.trans hid.symm)
    · rintro ⟨⟨h0, j, rfl⟩, hne⟩
      have hji : j ≠ i := by
        rintro rfl
        exact hne hid
      exact ⟨h0, j, Function.update_of_ne hji _ _⟩
  · rw [ht]
    constructor
    · rintro ⟨h0, i, rfl⟩
      exact ⟨⟨h0, i, rfl⟩, hno i⟩
    · exact fun hsub => hsub.1

/-- A task without one of its subscribers collects the same data. -/
theorem withoutSubscriber_dataType {t t' : CollTask} {s : UInt32}
    (h : t.withoutSubscriber s = some t') : t'.dataType = t.dataType := by
  unfold withoutSubscriber at h
  dsimp only at h
  split at h
  · cases h
  · obtain rfl := Option.some.inj h
    simp

/-- A task without one of its subscribers is well formed, if anything is left of it. -/
theorem WF.withoutSubscriber {t t' : CollTask} (h : t.WF) {s : UInt32} (hs : s ≠ 0)
    (ht' : t.withoutSubscriber s = some t') : t'.WF := by
  unfold CollTask.withoutSubscriber at ht'
  dsimp only at ht'
  split at ht'
  · cases ht'
  · rename_i hpos
    obtain rfl := Option.some.inj ht'
    have hc := (h.toCounted.clearSubscriber hs).updataTaskInterval none
    exact ⟨hc, by rw [updataTaskInterval_subNum]; omega⟩

/-- A task is dropped with its last subscriber, and only then. -/
theorem has_withoutSubscriber {t : CollTask} (h : t.WF) {s : UInt32} (hs : s ≠ 0)
    {sub : CollDataSubscriber} :
    (∃ t', t.withoutSubscriber s = some t' ∧ t'.Has sub) ↔ t.Has sub ∧ sub.sysId ≠ s := by
  rw [← has_clearSubscriber h.toCounted]
  unfold CollTask.withoutSubscriber
  dsimp only
  split
  · rename_i hzero
    have hc := (h.toCounted.clearSubscriber hs).sub_count
    have h0 : count (fun i => ((t.clearSubscriber s).subscriberList i).sysId ≠ 0) = 0 := by omega
    constructor
    · rintro ⟨t', ht', -⟩
      cases ht'
    · rintro ⟨hne, i, rfl⟩
      exact absurd hne (count_eq_zero.mp h0 i)
  · constructor
    · rintro ⟨t', ht', hsub⟩
      obtain rfl := Option.some.inj ht'
      exact has_updataTaskInterval.mp hsub
    · exact fun hsub => ⟨_, rfl, has_updataTaskInterval.mpr hsub⟩

/-- Deleting "client" 0 clears a slot that is free already, but counts it: a task
with one subscriber is dropped, and other tasks keep theirs. -/
theorem has_withoutSubscriber_zero {t : CollTask} (h : t.WF) {sub : CollDataSubscriber} :
    (∃ t', t.withoutSubscriber 0 = some t' ∧ t'.Has sub) ↔ t.Has sub ∧ t.subNum ≠ 1 := by
  have hpos := h.sub_pos
  have hhas : (t.clearSubscriber 0).Has sub ↔ t.Has sub :=
    (has_clearSubscriber h.toCounted).trans (and_iff_left_of_imp fun hsub => hsub.1)
  have hzero : (t.clearSubscriber 0).subNum ≤ 0 ↔ t.subNum = 1 := by
    obtain ⟨i, -, ht⟩ | ⟨hno, ht⟩ := t.clearSubscriber_cases 0
    · rw [ht]
      dsimp only
      omega
    · have hcount := h.sub_count
      rw [count_eq_of_forall hno] at hcount
      rw [ht, hcount]
      decide
  unfold withoutSubscriber
  dsimp only
  split
  · rename_i hle
    refine iff_of_false ?_ fun hsub => hsub.2 (hzero.mp hle)
    rintro ⟨t', ht', -⟩
    cases ht'
  · rename_i hle
    rw [← hhas]
    constructor
    · rintro ⟨t', ht', hsub⟩
      obtain rfl := Option.some.inj ht'
      exact ⟨has_updataTaskInterval.mp hsub, fun hone => hle (hzero.mpr hone)⟩
    · exact fun hsub => ⟨_, rfl, has_updataTaskInterval.mpr hsub.1⟩

/-! ## Adding a subscriber -/

/-- An add writes the new interval into the client's slot, takes a free slot for a
new client, or fails because there is none. -/
theorem addSubscriber_cases (t : CollTask) (info : BasicDcTaskInfo) (s : UInt32) (now : TimeVal) :
    (∃ i, (t.subscriberList i).sysId = s ∧ t.addSubscriber info s now = (.success,
      { t with
        subscriberList := Function.update t.subscriberList i
          { t.subscriberList i with interval := info.interval } }.updataTaskInterval (some i))) ∨
    ((∀ i, (t.subscriberList i).sysId ≠ s) ∧ ∃ i, (t.subscriberList i).sysId = 0 ∧
      t.addSubscriber info s now = (.success,
        { t with
          subscriberList := Function.update t.subscriberList i ⟨s, info.interval, now⟩
          subNum := t.subNum + 1 }.updataTaskInterval (some i))) ∨
    (∀ i, (t.subscriberList i).sysId ≠ s) ∧
      t.addSubscriber info s now = (.errSysException, t) := by
  unfold addSubscriber
  cases hf : t.findSubscriberById s with
  | some i => exact .inl ⟨i, first_spec hf, rfl⟩
  | none =>
    cases hfree : t.findSubscriberById 0 with
    | some i => exact .inr (.inl ⟨first_eq_none.mp hf, i, first_spec hfree, rfl⟩)
    | none => exact .inr (.inr ⟨first_eq_none.mp hf, rfl⟩)

@[simp] theorem addSubscriber_dataType (t : CollTask) (info : BasicDcTaskInfo) (s : UInt32)
    (now : TimeVal) : (t.addSubscriber info s now).2.dataType = t.dataType := by
  obtain ⟨i, -, ht⟩ | ⟨-, i, -, ht⟩ | ⟨-, ht⟩ := t.addSubscriber_cases info s now <;> simp [ht]

/-- A failed add changes nothing. -/
theorem addSubscriber_of_error {t : CollTask} {info : BasicDcTaskInfo} {s : UInt32}
    {now : TimeVal} (h : (t.addSubscriber info s now).1 ≠ .success) :
    (t.addSubscriber info s now).2 = t := by
  obtain ⟨i, -, ht⟩ | ⟨-, i, -, ht⟩ | ⟨-, ht⟩ := t.addSubscriber_cases info s now
  · exact absurd (congrArg Prod.fst ht) h
  · exact absurd (congrArg Prod.fst ht) h
  · rw [ht]

/-- A task is well formed with one more subscriber. -/
theorem WF.addSubscriber {t : CollTask} (h : t.WF) {s : UInt32} (hs : s ≠ 0)
    (info : BasicDcTaskInfo) (now : TimeVal) : (t.addSubscriber info s now).2.WF := by
  have hpos := h.sub_pos
  obtain ⟨i, -, ht⟩ | ⟨hno, i, hzero, ht⟩ | ⟨-, ht⟩ := t.addSubscriber_cases info s now
  · -- only the interval of the client's slot changes
    have hids : ∀ j, (Function.update t.subscriberList i
        { t.subscriberList i with interval := info.interval } j).sysId =
          (t.subscriberList j).sysId := by
      intro j
      by_cases hji : j = i
      · subst hji
        simp
      · rw [Function.update_of_ne hji]
    rw [ht]
    dsimp only
    refine ⟨Counted.updataTaskInterval ⟨?_, ?_⟩ _, by simpa using hpos⟩
    · simpa only [hids] using h.sub_count
    · simpa only [hids] using h.distinct
  · -- a free slot becomes the new client's
    rw [ht]
    dsimp only
    refine ⟨Counted.updataTaskInterval ⟨?_, ?_⟩ _, ?_⟩
    · have hcount := count_update (p := fun sub : CollDataSubscriber => sub.sysId ≠ 0)
        t.subscriberList i ⟨s, info.interval, now⟩
      rw [if_neg (by simpa using hzero), if_pos hs] at hcount
      have hold := h.sub_count
      dsimp only at hcount ⊢
      omega
    · intro j k hj hjk
      by_cases hji : j = i
      · subst hji
        by_contra hjk'
        simp only [Function.update_self, Function.update_of_ne (Ne.symm hjk')] at hjk
        exact hno k hjk.symm
      · by_cases hki : k = i
        · subst hki
          simp only [Function.update_self, Function.update_of_ne hji] at hjk
          exact absurd hjk (hno j)
        · simp only [Function.update_of_ne hji, Function.update_of_ne hki] at hj hjk
          exact h.distinct j k hj hjk
    · simp only [updataTaskInterval_subNum]
      omega
  · rw [ht]
    exact h

/-- A successful add gives the client a subscription with the interval asked for. -/
theorem has_addSubscriber_self {t : CollTask} {info : BasicDcTaskInfo} {s : UInt32}
    {now : TimeVal} (hs : s ≠ 0) (h : (t.addSubscriber info s now).1 = .success) :
    ∃ sub, (t.addSubscriber info s now).2.Has sub ∧ sub.sysId = s ∧
      sub.interval = info.interval := by
  obtain ⟨i, hid, ht⟩ | ⟨-, i, -, ht⟩ | ⟨-, ht⟩ := t.addSubscriber_cases info s now
  · refine ⟨{ t.subscriberList i with interval := info.interval }, ?_, hid, rfl⟩
    rw [ht]
    exact has_updataTaskInterval.mpr ⟨by rwa [hid], i, Function.update_self ..⟩
  · refine ⟨⟨s, info.interval, now⟩, ?_, rfl, rfl⟩
    rw [ht]
    exact has_updataTaskInterval.mpr ⟨hs, i, Function.update_self ..⟩
  · rw [ht] at h
    cases h

/-- An add leaves the subscriptions of the other clients alone. -/
theorem has_addSubscriber_other {t : CollTask} {info : BasicDcTaskInfo} {s : UInt32}
    {now : TimeVal} {sub : CollDataSubscriber} (hne : sub.sysId ≠ s) :
    (t.addSubscriber info s now).2.Has sub ↔ t.Has sub := by
  have hkey : ∀ (i : Fin maxClientNum) (x : CollDataSubscriber),
      (t.subscriberList i).sysId = s ∨ (t.subscriberList i).sysId = 0 → x.sysId = s →
        ((sub.sysId ≠ 0 ∧ ∃ j, Function.update t.subscriberList i x j = sub) ↔ t.Has sub) := by
    intro i x hi hx
    constructor
    · rintro ⟨h0, j, hj⟩
      by_cases hji : j = i
      · subst hji
        rw [Function.update_self] at hj
        exact absurd (hj ▸ hx) hne
      · rw [Function.update_of_ne hji] at hj
        exact ⟨h0, j, hj⟩
    · rintro ⟨h0, j, rfl⟩
      have hji : j ≠ i := by
        rintro rfl
        exact hi.elim hne h0
      exact ⟨h0, j, Function.update_of_ne hji _ _⟩
  obtain ⟨i, hid, ht⟩ | ⟨-, i, hzero, ht⟩ | ⟨-, ht⟩ := t.addSubscriber_cases info s now
  · rw [ht]
    exact has_updataTaskInterval.trans (hkey i _ (.inl hid) hid)
  · rw [ht]
    exact has_updataTaskInterval.trans (hkey i _ (.inr hzero) rfl)
  · rw [ht]

/-! ## A new task -/

/-- So is one with the client that it is created for. -/
theorem wf_new (info : BasicDcTaskInfo) {s : UInt32} (hs : s ≠ 0) (now : TimeVal) :
    (new info s now).WF := by
  have hcount := count_update (p := fun sub : CollDataSubscriber => sub.sysId ≠ 0)
    (fun _ : Fin maxClientNum => CollDataSubscriber.zero) 0 ⟨s, info.interval, now⟩
  have hzero : count (fun _ : Fin maxClientNum => CollDataSubscriber.zero.sysId ≠ 0) = 0 :=
    count_eq_zero.mpr fun _ h => h rfl
  rw [if_neg (by simp [CollDataSubscriber.zero]), if_pos hs, hzero] at hcount
  have hone : count (fun i => ((new info s now).subscriberList i).sysId ≠ 0) = 1 := hcount
  refine ⟨⟨?_, ?_⟩, by simp [new]⟩
  · rw [hone]
    rfl
  · intro i j hi hij
    have hat : ∀ k, ((new info s now).subscriberList k).sysId ≠ 0 → k = 0 := by
      intro k hk
      by_contra hne
      exact hk (by simp [new, Function.update_of_ne hne, CollDataSubscriber.zero])
    rw [hat i hi, hat j (hij ▸ hi)]

/-- A new task has one subscription, that of its client. -/
theorem has_new {info : BasicDcTaskInfo} {s : UInt32} (hs : s ≠ 0) {now : TimeVal}
    {sub : CollDataSubscriber} :
    (new info s now).Has sub ↔ sub = ⟨s, info.interval, now⟩ := by
  constructor
  · rintro ⟨h0, i, rfl⟩
    by_cases hi : i = 0
    · subst hi
      simp [new]
    · exact absurd (by simp [new, Function.update_of_ne hi, CollDataSubscriber.zero]) h0
  · rintro rfl
    exact ⟨hs, 0, by simp [new]⟩

/-! ## Who gets a slot -/

/-- The client has a slot. -/
def Lists (t : CollTask) (d : UInt32) : Prop := d ≠ 0 ∧ ∃ i, (t.subscriberList i).sysId = d

/-- Who has a subscription is listed. -/
theorem Has.lists {t : CollTask} {sub : CollDataSubscriber} (h : t.Has sub) :
    t.Lists sub.sysId := by
  obtain ⟨h0, i, hi⟩ := h
  exact ⟨h0, i, congrArg CollDataSubscriber.sysId hi⟩

/-- Who is listed has a subscription. -/
theorem Lists.has {t : CollTask} {d : UInt32} (h : t.Lists d) : ∃ sub, sub.sysId = d ∧ t.Has sub := by
  obtain ⟨h0, i, rfl⟩ := h
  exact ⟨_, rfl, h0, i, rfl⟩

/-- Taking over an interval changes nobody's listing. -/
theorem lists_updataTaskInterval {t : CollTask} {o : Option (Fin maxClientNum)} {d : UInt32} :
    (t.updataTaskInterval o).Lists d ↔ t.Lists d := by
  simp [Lists]

/-- A write to a slot gives a slot to nobody but the client it writes. -/
theorem Lists.of_update {t t' : CollTask} {i : Fin maxClientNum} {sub : CollDataSubscriber}
    {d : UInt32} (ht : t'.subscriberList = Function.update t.subscriberList i sub)
    (h : t'.Lists d) : d = sub.sysId ∨ t.Lists d := by
  obtain ⟨h0, j, hj⟩ := h
  rw [ht] at hj
  by_cases hji : j = i
  · subst hji
    rw [Function.update_self] at hj
    exact .inl hj.symm
  · rw [Function.update_of_ne hji] at hj
    exact .inr ⟨h0, j, hj⟩

/-- Clearing the slot of a client lists nobody new. -/
theorem lists_clearSubscriber {t : CollTask} {s d : UInt32} (h : (t.clearSubscriber s).Lists d) :
    t.Lists d := by
  obtain ⟨i, -, ht⟩ | ⟨-, ht⟩ := t.clearSubscriber_cases s
  · rw [ht] at h
    obtain hd | hd := h.of_update rfl
    · exact absurd hd h.1
    · exact hd
  · rwa [ht] at h

/-- Neither does deleting a subscriber. -/
theorem lists_withoutSubscriber {t t' : CollTask} {s d : UInt32}
    (ht : t.withoutSubscriber s = some t') (h : t'.Lists d) : t.Lists d := by
  unfold withoutSubscriber at ht
  dsimp only at ht
  split at ht
  · cases ht
  · obtain rfl := Option.some.inj ht
    exact lists_clearSubscriber (lists_updataTaskInterval.mp h)

/-- Adding a client lists that client only. -/
theorem lists_addSubscriber {t : CollTask} {info : BasicDcTaskInfo} {s d : UInt32} {now : TimeVal}
    (h : (t.addSubscriber info s now).2.Lists d) : d = s ∨ t.Lists d := by
  obtain ⟨i, hid, ht⟩ | ⟨-, i, -, ht⟩ | ⟨-, ht⟩ := t.addSubscriber_cases info s now
  · rw [ht] at h
    have hd := @Lists.of_update t _ i { t.subscriberList i with interval := info.interval } d rfl
      (lists_updataTaskInterval.mp h)
    rwa [hid] at hd
  · rw [ht] at h
    exact (lists_updataTaskInterval.mp h).of_update rfl
  · rw [ht] at h
    exact .inr h

/-- A client without a slot gets one exactly when one is free. -/
theorem lists_addSubscriber_self {t : CollTask} {info : BasicDcTaskInfo} {s : UInt32}
    {now : TimeVal} (hs : s ≠ 0) (hnew : ¬ t.Lists s) :
    (t.addSubscriber info s now).2.Lists s ↔ ∃ i, (t.subscriberList i).sysId = 0 := by
  have hno : t.findSubscriberById s = none :=
    first_eq_none.mpr fun i hi => hnew ⟨hs, i, hi⟩
  unfold addSubscriber
  rw [hno]
  cases hfree : t.findSubscriberById 0 with
  | some i =>
    refine iff_of_true (lists_updataTaskInterval.mpr ⟨hs, i, ?_⟩) ⟨i, first_spec hfree⟩
    dsimp only
    rw [Function.update_self]
  | none => exact iff_of_false hnew fun ⟨i, hi⟩ => first_eq_none.mp hfree i hi

/-- A new task lists the client that it is created for. -/
theorem lists_new_self {info : BasicDcTaskInfo} {s : UInt32} {now : TimeVal} (hs : s ≠ 0) :
    (new info s now).Lists s :=
  ⟨hs, 0, by simp [new]⟩

/-- It lists nobody else. -/
theorem lists_new {info : BasicDcTaskInfo} {s d : UInt32} {now : TimeVal}
    (h : (new info s now).Lists d) : d = s := by
  obtain ⟨h0, i, hi⟩ := h
  by_cases hi0 : i = 0
  · subst hi0
    simpa [new] using hi.symm
  · refine absurd hi.symm ?_
    simpa [new, Function.update_of_ne hi0, CollDataSubscriber.zero] using h0

end CollTask

end PowerApi
