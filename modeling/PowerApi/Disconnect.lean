import PowerApi.Server

/-!
# Cleaning up after a disconnect

`CleanClientResource` takes a pointer to a client and, separately, the client's
index; both its callers pass `g_pwrClients`, the array, for the pointer. So the
authority and the tasks are cleaned for the client of slot 0, and only the table
entry for the client that is gone.

`CleansExactly` is what the cleanup is for, `CleansRight` the condition under
which the one that is executed does it.
-/

namespace PowerApi

namespace Server

/-- The system id that a slot of the client table holds. -/
def sysIdAt (srv : Server) (i : Fin maxClientNum) : UInt32 := (srv.pwrClients i).sysId

/-- From `srv` to `srv'`, everything of the client in slot `idx` is gone, and
nothing of any other client. -/
structure CleansExactly (srv srv' : Server) (idx : Fin maxClientNum) : Prop where
  authority : ¬ srv'.auth.Owns (srv.sysIdAt idx)
  subscriptions : ∀ ty, ¬ srv'.tasks.Subscribed (srv.sysIdAt idx) ty
  slot : (srv'.pwrClients idx).fd = invalidFd
  other_slot : ∀ j, j ≠ idx → srv'.pwrClients j = srv.pwrClients j
  other_authority : ∀ j, j ≠ idx → (srv.pwrClients j).fd ≠ invalidFd →
    srv.auth.Owns (srv.sysIdAt j) → srv'.auth.Owns (srv.sysIdAt j)
  other_subscriptions : ∀ j, j ≠ idx → (srv.pwrClients j).fd ≠ invalidFd →
    ∀ ty sub, sub.sysId = srv.sysIdAt j → (srv'.tasks.HasSub ty sub ↔ srv.tasks.HasSub ty sub)

/-- A client that the cleanup would not have to do anything for. -/
def HoldsNothing (srv : Server) (d : UInt32) : Prop :=
  ¬ srv.auth.Owns d ∧ ∀ ty, ¬ srv.tasks.Subscribed d ty

/-- Cleaning with slot 0's id is right for the client in slot `idx`: it is the same
id, or neither of the two clients holds anything. The id 0, which a task's free
slots have too, is a case of its own: it drops the tasks with one subscriber. -/
def CleansRight (srv : Server) (idx : Fin maxClientNum) : Prop :=
  if srv.sysIdAt 0 = 0 then
    (srv.sysIdAt 0 = srv.sysIdAt idx ∨ ¬ srv.auth.Owns (srv.sysIdAt idx) ∧
      (srv.pwrClients.Connected (srv.sysIdAt 0) → ¬ srv.auth.Owns (srv.sysIdAt 0))) ∧
    ∀ i t sub, srv.tasks.collTaskList i = some t → t.Has sub →
      (sub.sysId = srv.sysIdAt idx → t.subNum = 1) ∧
      (sub.sysId ≠ srv.sysIdAt idx → srv.pwrClients.Connected sub.sysId → t.subNum ≠ 1)
  else
    srv.sysIdAt 0 = srv.sysIdAt idx ∨ srv.HoldsNothing (srv.sysIdAt idx) ∧
      (srv.pwrClients.Connected (srv.sysIdAt 0) → srv.HoldsNothing (srv.sysIdAt 0))

section Cleanup

variable {srv : Server} {idx : Fin maxClientNum}

/-- The ids of the other connections. -/
theorem WF.other_iff (hwf : srv.WF) (hidx : (srv.pwrClients idx).fd ≠ invalidFd) {d : UInt32} :
    (∃ j, j ≠ idx ∧ (srv.pwrClients j).fd ≠ invalidFd ∧ srv.sysIdAt j = d) ↔
      d ≠ srv.sysIdAt idx ∧ srv.pwrClients.Connected d := by
  constructor
  · rintro ⟨j, hji, hfd, rfl⟩
    exact ⟨fun hid => hji (hwf.distinct j idx hfd hidx hid), j, hfd, rfl⟩
  · rintro ⟨hne, j, hfd, rfl⟩
    refine ⟨j, ?_, hfd, rfl⟩
    rintro rfl
    exact hne rfl

/-- What the executed cleanup does about the authority is right for the client
under these conditions. -/
theorem authority_cleanup (hwf : srv.WF) (hidx : (srv.pwrClients idx).fd ≠ invalidFd)
    (s : UInt32) :
    (¬ (srv.auth.cleanControlAuth s).Owns (srv.sysIdAt idx) ∧
      ∀ j, j ≠ idx → (srv.pwrClients j).fd ≠ invalidFd → srv.auth.Owns (srv.sysIdAt j) →
        (srv.auth.cleanControlAuth s).Owns (srv.sysIdAt j)) ↔
    (s = srv.sysIdAt idx ∨ ¬ srv.auth.Owns (srv.sysIdAt idx) ∧
      (srv.pwrClients.Connected s → ¬ srv.auth.Owns s)) := by
  constructor
  · rintro ⟨hown, hother⟩
    by_cases hs : s = srv.sysIdAt idx
    · exact .inl hs
    · refine .inr ⟨fun h => hown ((Auth.owns_doAuthRelease_iff (Ne.symm hs)).mpr h), ?_⟩
      intro hconn hs'
      obtain ⟨j, hji, hfd, rfl⟩ := (hwf.other_iff hidx).mpr ⟨hs, hconn⟩
      exact Auth.not_owns_doAuthRelease _ _ (hother j hji hfd hs')
  · intro hcond
    refine ⟨fun h => ?_, fun j hji hfd hj => ?_⟩
    · obtain rfl | ⟨hno, -⟩ := hcond
      · exact Auth.not_owns_doAuthRelease _ _ h
      · exact hno (Auth.owns_of_doAuthRelease h)
    · have hother := (hwf.other_iff hidx).mp ⟨j, hji, hfd, rfl⟩
      refine (Auth.owns_doAuthRelease_iff ?_).mpr hj
      obtain rfl | ⟨-, hno⟩ := hcond
      · exact hother.1
      · rintro rfl
        exact hno hother.2 hj

/-- And about the tasks: what it removes has to be all that the client subscribes
to and nothing of another connection. -/
theorem tasks_cleanup (hwf : srv.WF) (hidx : (srv.pwrClients idx).fd ≠ invalidFd)
    {r' : TaskReg} {P : CollTask → CollDataSubscriber → Prop}
    (hr' : ∀ ty sub, r'.HasSub ty sub ↔ ∃ i t, srv.tasks.collTaskList i = some t ∧
      t.dataType = ty ∧ t.Has sub ∧ ¬ P t sub) :
    ((∀ ty, ¬ r'.Subscribed (srv.sysIdAt idx) ty) ∧
      ∀ j, j ≠ idx → (srv.pwrClients j).fd ≠ invalidFd → ∀ ty sub,
        sub.sysId = srv.sysIdAt j → (r'.HasSub ty sub ↔ srv.tasks.HasSub ty sub)) ↔
    ∀ i t sub, srv.tasks.collTaskList i = some t → t.Has sub →
      (sub.sysId = srv.sysIdAt idx → P t sub) ∧
      (sub.sysId ≠ srv.sysIdAt idx → srv.pwrClients.Connected sub.sysId → ¬ P t sub) := by
  constructor
  · rintro ⟨hown, hother⟩ i t sub hi hsub
    refine ⟨fun hid => ?_, fun hid hconn => ?_⟩
    · by_contra hhit
      exact hown t.dataType ⟨sub, hid, (hr' _ _).mpr ⟨i, t, hi, rfl, hsub, hhit⟩⟩
    · obtain ⟨j, hji, hfd, hj⟩ := (hwf.other_iff hidx).mpr ⟨hid, hconn⟩
      have hkept := (hother j hji hfd t.dataType sub hj.symm).mpr ⟨i, t, hi, rfl, hsub⟩
      obtain ⟨k, u, hk, hty, -, hhit⟩ := (hr' _ _).mp hkept
      obtain rfl := hwf.tasks.types k i u t hk hi hty
      obtain rfl := Option.some.inj (hk.symm.trans hi)
      exact hhit
  · intro hcond
    refine ⟨?_, fun j hji hfd ty sub hid => ?_⟩
    · rintro ty ⟨sub, hid, hsub⟩
      obtain ⟨i, t, hi, -, hhas, hhit⟩ := (hr' _ _).mp hsub
      exact hhit ((hcond i t sub hi hhas).1 hid)
    · rw [hr']
      constructor
      · rintro ⟨i, t, hi, hty, hsub, -⟩
        exact ⟨i, t, hi, hty, hsub⟩
      · rintro ⟨i, t, hi, hty, hsub⟩
        have hother := (hwf.other_iff hidx).mp ⟨j, hji, hfd, rfl⟩
        rw [← hid] at hother
        exact ⟨i, t, hi, hty, hsub, (hcond i t sub hi hsub).2 hother.1 hother.2⟩

/-- The tasks' part of `CleansRight`, for an id that is not 0. -/
theorem tasks_cleansRight {s c : UInt32} (hs : s ≠ c) :
    (∀ i t sub, srv.tasks.collTaskList i = some t → t.Has sub →
      (sub.sysId = c → sub.sysId = s) ∧
      (sub.sysId ≠ c → srv.pwrClients.Connected sub.sysId → sub.sysId ≠ s)) ↔
    (∀ ty, ¬ srv.tasks.Subscribed c ty) ∧
      (srv.pwrClients.Connected s → ∀ ty, ¬ srv.tasks.Subscribed s ty) := by
  constructor
  · intro h
    refine ⟨?_, fun hconn => ?_⟩
    · rintro ty ⟨sub, rfl, i, t, hi, -, hsub⟩
      exact hs ((h i t sub hi hsub).1 rfl).symm
    · rintro ty ⟨sub, rfl, i, t, hi, -, hsub⟩
      exact (h i t sub hi hsub).2 hs hconn rfl
  · rintro ⟨hc, hconn⟩ i t sub hi hsub
    refine ⟨?_, fun _ hconn' => ?_⟩
    · rintro rfl
      exact absurd ⟨sub, rfl, i, t, hi, rfl, hsub⟩ (hc t.dataType)
    · rintro rfl
      exact hconn hconn' t.dataType ⟨sub, rfl, i, t, hi, rfl, hsub⟩

/-- The executed cleanup does what it is for exactly under `CleansRight`. -/
theorem cleansExactly_iff (hwf : srv.WF) (hidx : (srv.pwrClients idx).fd ≠ invalidFd) :
    srv.CleansExactly (srv.cleanClientResource (srv.pwrClients 0) idx) idx ↔
      srv.CleansRight idx := by
  have hauth := authority_cleanup hwf hidx (srv.sysIdAt 0)
  have hparts : srv.CleansExactly (srv.cleanClientResource (srv.pwrClients 0) idx) idx ↔
      (¬ (srv.auth.cleanControlAuth (srv.sysIdAt 0)).Owns (srv.sysIdAt idx) ∧
        ∀ j, j ≠ idx → (srv.pwrClients j).fd ≠ invalidFd → srv.auth.Owns (srv.sysIdAt j) →
          (srv.auth.cleanControlAuth (srv.sysIdAt 0)).Owns (srv.sysIdAt j)) ∧
      ((∀ ty, ¬ (srv.tasks.cleanDataCollTaskByClient (srv.sysIdAt 0)).Subscribed
          (srv.sysIdAt idx) ty) ∧
        ∀ j, j ≠ idx → (srv.pwrClients j).fd ≠ invalidFd → ∀ ty sub, sub.sysId = srv.sysIdAt j →
          ((srv.tasks.cleanDataCollTaskByClient (srv.sysIdAt 0)).HasSub ty sub ↔
            srv.tasks.HasSub ty sub)) := by
    constructor
    · rintro ⟨hown, hsubs, -, -, hother, hothers⟩
      exact ⟨⟨hown, hother⟩, hsubs, hothers⟩
    · rintro ⟨⟨hown, hother⟩, hsubs, hothers⟩
      refine ⟨hown, hsubs, ?_, fun j hji => ?_, hother, hothers⟩
      · exact cleanClientResource_fd srv _ idx
      · exact Function.update_of_ne hji ..
  rw [hparts, hauth]
  unfold CleansRight
  split
  · rename_i h0
    rw [tasks_cleanup hwf hidx (P := fun t _ => t.subNum = 1)]
    intro ty sub
    rw [h0]
    exact TaskReg.hasSub_deleteAllTaskByClient_zero hwf.tasks
  · rename_i h0
    rw [tasks_cleanup hwf hidx (P := fun _ sub => sub.sysId = srv.sysIdAt 0)]
    · by_cases hs : srv.sysIdAt 0 = srv.sysIdAt idx
      · refine iff_of_true ⟨.inl hs, fun i t sub _ _ => ?_⟩ (.inl hs)
        rw [hs]
        exact ⟨id, fun hne _ => hne⟩
      · rw [tasks_cleansRight hs, or_iff_right hs, or_iff_right hs]
        unfold HoldsNothing
        constructor
        · rintro ⟨⟨hc, hs'⟩, hsubs, hsubs'⟩
          exact ⟨⟨hc, hsubs⟩, fun hconn => ⟨hs' hconn, hsubs' hconn⟩⟩
        · rintro ⟨⟨hc, hsubs⟩, hs'⟩
          exact ⟨⟨hc, fun hconn => (hs' hconn).1⟩, hsubs, fun hconn => (hs' hconn).2⟩
    · intro ty sub
      refine (TaskReg.hasSub_deleteAllTaskByClient hwf.tasks h0).trans ?_
      constructor
      · rintro ⟨⟨i, t, hi, hty, hsub⟩, hne⟩
        exact ⟨i, t, hi, hty, hsub, hne⟩
      · rintro ⟨i, t, hi, hty, hsub, hne⟩
        exact ⟨⟨i, t, hi, hty, hsub⟩, hne⟩

end Cleanup

/-- When the connection of a client ends within a read, the read fails, and it has
cleaned up after exactly that client if and only if `CleansRight` held. -/
theorem readMsg_disconnect (srv : ServerState) (idx : Fin maxClientNum) {len : ℕ} {conn : Conn}
    (hidx : (srv.1.pwrClients idx).fd ≠ invalidFd)
    (hend : (Conn.stream false conn).length < len) :
    ∃ ret buf srv' conn', srv.1.readMsg len conn idx = .ok (ret, buf, srv', conn') ∧
      ret ≠ .success ∧ (srv.1.CleansExactly srv' idx ↔ srv.1.CleansRight idx) := by
  obtain ⟨ret, conn', hret, heq⟩ := readMsg_short srv.1 idx hend
  exact ⟨ret, _, _, conn', heq, hret, cleansExactly_iff srv.2 hidx⟩

/-- Two clients are connected, 1 in slot 0 and 2 in slot 1, and 2 has the authority. -/
def secondOwns : ServerState where
  val := { init with
    pwrClients := fun i => if i = 0 then ⟨10, 1⟩ else if i = 1 then ⟨11, 2⟩ else .none
    auth := ⟨true, 2⟩ }
  property := ⟨TaskReg.wf_empty.initTaskService, by decide, nofun, nofun⟩

theorem readMsg_disconnect_secondOwns :
    ∃ ret buf srv' conn', secondOwns.1.readMsg 40 [.closed] 1 = .ok (ret, buf, srv', conn') ∧
      ret ≠ .success ∧ (secondOwns.1.CleansExactly srv' 1 ↔ secondOwns.1.CleansRight 1) :=
  readMsg_disconnect secondOwns 1 (by decide) (by decide)

/-- When client 2 disconnects it keeps the authority. -/
theorem secondOwns_disconnect :
    ¬ ∀ ret buf srv' conn', secondOwns.1.readMsg 40 [.closed] 1 = .ok (ret, buf, srv', conn') →
      secondOwns.1.CleansExactly srv' 1 := by
  intro h
  exact (h _ _ _ _ rfl).authority (by decide)

end Server

end PowerApi
