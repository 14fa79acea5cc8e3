import PowerApi.Threads
import PowerApi.Answers

/-!
# Clients that are gone (`server.c`, `comservice.c`, `taskservice.c`)

A client that is gone must not be granted anything: once the socket thread has
cleaned up after it, no step may make it the owner of the authority or a
subscriber, until it connects again. The one thing that does is a request of its
own that was still queued, since the handlers do not look at the client table.
`gone_granted_nothing` says exactly when: in a step that serves such a request
and finds the authority, or a subscriber slot, to be had.

Such steps do not occur in runs whose clean-ups leave no request for a grant
behind (`settled_granted_nothing`). The invariant there is that whoever has such
a request waiting is connected.
-/

namespace PowerApi

/-- The request asks for something that would outlive it. -/
def PwrMsg.AsksGrant (req : PwrMsg) : Prop :=
  OperationType.ofCode req.head.optType = some .comRequestControlAuth ∨
    OperationType.ofCode req.head.optType = some .comCreateDcTask ∧
      req.head.dataLen = Server.sizeofBasicDcTaskInfo

instance (req : PwrMsg) : Decidable req.AsksGrant := by
  unfold PwrMsg.AsksGrant
  infer_instance

namespace Server

/-- From `srv` to `srv'`, nobody without a connection becomes the owner of the
authority or a subscriber. -/
def GrantsNoStranger (srv srv' : Server) : Prop :=
  ∀ c, ¬ srv.pwrClients.Connected c →
    (srv'.auth.Owns c → srv.auth.Owns c) ∧
      ∀ ty, srv'.tasks.Subscribed c ty → srv.tasks.Subscribed c ty

theorem GrantsNoStranger.of_same {srv srv' : Server} (hauth : srv'.auth = srv.auth)
    (htasks : srv'.tasks = srv.tasks) : srv.GrantsNoStranger srv' := by
  intro c _
  rw [hauth, htasks]
  exact ⟨id, fun _ => id⟩

/-- Only a request for the authority makes an owner, and only of who sent it. -/
theorem owns_decided {srv : Server} {m : Machine} {req : PwrMsg} {c : UInt32}
    (h : (srv.decided m req).auth.Owns c) :
    srv.auth.Owns c ∨ req.AsksGrant ∧ c = req.head.sysId := by
  unfold decided at h
  split at h
  · split at h <;> exact .inl h
  · split at h <;> exact .inl h
  · rename_i hop
    obtain hold | hc := Auth.owns_of_doAuthRequest h
    · exact .inl hold
    · exact .inr ⟨.inl hop, hc⟩
  · exact .inl (Auth.owns_of_doAuthRelease h)
  · exact .inl h

/-- Only a create makes a subscriber, and only of who sent it. -/
theorem subscribed_decided {srv : Server} {m : Machine} {req : PwrMsg} {c ty : UInt32}
    (h : (srv.decided m req).tasks.Subscribed c ty) :
    srv.tasks.Subscribed c ty ∨ req.AsksGrant ∧ c = req.head.sysId := by
  unfold decided at h
  split at h
  · rename_i hop
    split at h
    · exact .inl h
    · by_cases hc : c = req.head.sysId
      · exact .inr ⟨.inr ⟨hop, not_not.mp ‹_›⟩, hc⟩
      · exact .inl (TaskReg.subscribed_createTask (fun hand => hc hand.1) h)
  · split at h
    · exact .inl h
    · exact .inl (TaskReg.subscribed_deleteTask h)
  · exact .inl h
  · exact .inl h
  · exact .inl h

/-- Serving the request gives its sender something it does not have: the authority,
which nobody has, or a subscription, for which there is room. -/
def WouldGrant (srv : Server) (m : Machine) (req : PwrMsg) : Prop :=
  OperationType.ofCode req.head.optType = some .comRequestControlAuth ∧ srv.auth.authed = false ∨
  (OperationType.ofCode req.head.optType = some .comCreateDcTask ∧
    req.head.dataLen = sizeofBasicDcTaskInfo) ∧ req.head.sysId ≠ 0 ∧
    ¬ srv.tasks.Subscribed req.head.sysId (basicDcTaskInfoOf req.payload).dataType ∧
    srv.tasks.HasRoom (basicDcTaskInfoOf req.payload).dataType m.create

theorem WouldGrant.asksGrant {srv : Server} {m : Machine} {req : PwrMsg}
    (h : srv.WouldGrant m req) : req.AsksGrant := by
  obtain ⟨hop, -⟩ | ⟨hop, -⟩ := h
  · exact .inl hop
  · exact .inr hop

/-- What is granted to the sender of a request is what the request would grant. -/
theorem wouldGrant_of_owns {srv : Server} {m : Machine} {req : PwrMsg}
    (hnew : ¬ srv.auth.Owns req.head.sysId)
    (h : (srv.decided m req).auth.Owns req.head.sysId) : srv.WouldGrant m req := by
  obtain hold | ⟨hop | hop, -⟩ := owns_decided h
  · exact absurd hold hnew
  · refine .inl ⟨hop, Bool.eq_false_iff.mpr fun hauthed => hnew ?_⟩
    unfold decided Auth.doAuthRequest at h
    simp only [hop, hauthed, if_true] at h
    split at h <;> exact h
  · unfold decided at h
    simp only [hop.1, hop.2, ne_eq, not_true, if_false] at h
    exact absurd h hnew

theorem wouldGrant_of_subscribed {srv : Server} {m : Machine} {req : PwrMsg} {ty : UInt32}
    (hnew : ¬ srv.tasks.Subscribed req.head.sysId ty)
    (h : (srv.decided m req).tasks.Subscribed req.head.sysId ty) : srv.WouldGrant m req := by
  obtain hold | ⟨hop | hop, -⟩ := subscribed_decided h
  · exact absurd hold hnew
  · unfold decided at h
    simp only [hop] at h
    exact absurd h hnew
  · unfold decided at h
    simp only [hop.1, hop.2, ne_eq, not_true, if_false] at h
    by_cases hty : ty = (basicDcTaskInfoOf req.payload).dataType
    · subst hty
      have hs : req.head.sysId ≠ 0 := by
        obtain ⟨i, t, -, -, hlists⟩ := TaskReg.subscribed_iff.mp h
        exact hlists.1
      exact .inr ⟨hop, hs, hnew, (TaskReg.subscribed_createTask_self hs hnew).mp h⟩
    · exact absurd (TaskReg.subscribed_createTask (fun hand => hty hand.2) h) hnew

/-- Serving a request of a client without a connection grants it something exactly if
the request would. -/
theorem grantsNoStranger_processReqMsg {srv srv' : Server} {m : Machine} {req : PwrMsg}
    (h : srv.processReqMsg m req = .ok srv') :
    srv.GrantsNoStranger srv' ↔
      (srv.WouldGrant m req → srv.pwrClients.Connected req.head.sysId) := by
  have hdecided : srv'.auth = (srv.decided m req).auth ∧ srv'.tasks = (srv.decided m req).tasks := by
    obtain rfl | ⟨rspCode, data, len, -, rfl⟩ := responds_processReqMsg h
    · exact ⟨rfl, rfl⟩
    · exact ⟨rfl, rfl⟩
  unfold GrantsNoStranger
  rw [hdecided.1, hdecided.2]
  constructor
  · intro hno hgrant
    by_contra hconn
    obtain ⟨howns, hsub⟩ := hno _ hconn
    unfold decided at howns hsub
    obtain ⟨hop, hauthed⟩ | ⟨⟨hop, hlen⟩, hs, hnew, hroom⟩ := hgrant
    · simp only [hop] at howns
      have hget : (srv.auth.doAuthRequest req.head.sysId).2.Owns req.head.sysId := by
        simp [Auth.doAuthRequest, Auth.Owns, hauthed]
      exact absurd (howns hget).1 (by simp [hauthed])
    · simp only [hop, hlen, ne_eq, not_true, if_false] at hsub
      exact hnew (hsub _ ((TaskReg.subscribed_createTask_self hs hnew).mpr hroom))
  · intro hreq c hc
    refine ⟨fun howns => of_not_not fun hnew => ?_, fun ty hsub => of_not_not fun hnew => ?_⟩
    · obtain hold | ⟨-, rfl⟩ := owns_decided howns
      · exact hnew hold
      · exact hc (hreq (wouldGrant_of_owns hnew howns))
    · obtain hold | ⟨-, rfl⟩ := subscribed_decided hsub
      · exact hnew hold
      · exact hc (hreq (wouldGrant_of_subscribed hnew hsub))

end Server

namespace Threads

variable {s s' : Threads} {e : Event}

/-- The step does not serve a request that would give something to a client without a
connection. -/
def Fresh (s : Threads) : Event → Prop
  | .serve m => ∀ req, s.cur = some req → s.srv.WouldGrant m req →
      s.srv.pwrClients.Connected req.head.sysId
  | _ => True

/-- One step of either thread. -/
theorem step_grantsNoStranger (h : step s e = some s') :
    s.srv.GrantsNoStranger s'.srv ↔ s.Fresh e := by
  cases move_of_step h with
  | accept newClient _ => exact iff_of_true (.of_same rfl rfl) trivial
  | receive i msg _ _ _ => exact iff_of_true (.of_same rfl rfl) trivial
  | lose idx _ => exact iff_of_true (.of_same rfl rfl) trivial
  | clean c hc =>
    refine iff_of_true ?_ trivial
    obtain ⟨idx, pc⟩ := c
    cases pc with
    | auth => exact fun c _ => ⟨Auth.owns_of_doAuthRelease, fun _ => id⟩
    | tasks => exact fun c _ => ⟨id, fun _ => TaskReg.subscribed_deleteAllTaskByClient⟩
    | list => exact .of_same rfl rfl
  | send _ => exact iff_of_true (.of_same rfl rfl) trivial
  | pop msg recvBuff _ _ => exact iff_of_true (.of_same rfl rfl) trivial
  | serve m req srv' hcur hserve =>
    rw [Server.grantsNoStranger_processReqMsg hserve]
    refine ⟨fun hno req' hreq' hgrant => ?_, fun hfresh => hfresh req hcur⟩
    obtain rfl := Option.some.inj (hcur.symm.trans hreq')
    exact hno hgrant

/-- **A client that is gone is granted nothing**: in a run of the two threads no step
makes a client without a connection the owner of the authority or a subscriber, if
and only if no step serves a request that such a client left and that would. -/
theorem gone_granted_nothing (events : List Event) :
    Transition.Along step (fun s _ s' => s.srv.GrantsNoStranger s'.srv) init events ↔
      Transition.Along step (fun s e _ => s.Fresh e) init events :=
  Transition.along_congr step_grantsNoStranger

/-- Client 1 connects, asks for the authority and is gone before the request is served. -/
def staleRun : List Event :=
  [.accept ⟨10, 1⟩, .receive 0 (Server.plainRequest .comRequestControlAuth),
    .lose (some 0), .clean, .clean, .clean, .pop, .serve Server.bareMachine]

/-- Then it gets it. -/
theorem staleRun_granted :
    ¬ Transition.Along step (fun s _ s' => s.srv.GrantsNoStranger s'.srv) init staleRun := by
  intro h
  have hserve := (h _ rfl).2 _ rfl |>.2 _ rfl |>.2 _ rfl |>.2 _ rfl |>.2 _ rfl |>.2 _ rfl |>.2 _ rfl
  exact absurd ((hserve.1 1 (by decide)).1 (by decide)).1 (by decide)

/-! ## Clean-ups that leave nothing behind -/

/-- The requests that have been received and not been served. -/
def pending (s : Threads) : List PwrMsg := s.cur.toList ++ s.srv.recvBuff.toList

/-- Whoever has a request for a grant waiting is connected. -/
def PendingConnected (s : Threads) : Prop :=
  ∀ req ∈ s.pending, req.AsksGrant → s.srv.pwrClients.Connected req.head.sysId

/-- When a clean-up takes a client off the table, none of its requests for a grant is
waiting. -/
def Settled (s : Threads) : Event → Prop
  | .clean => ∀ idx, s.cleaning = some ⟨some idx, .list⟩ →
      ∀ req ∈ s.pending, req.AsksGrant → req.head.sysId ≠ (s.srv.pwrClients idx).sysId
  | _ => True

theorem pendingConnected_init : init.PendingConnected := nofun

theorem PendingConnected.fresh (h : s.PendingConnected) (e : Event) : s.Fresh e := by
  cases e with
  | serve m =>
    intro req hcur hgrant
    exact h req (List.mem_append_left _ (by rw [hcur]; exact List.mem_cons_self)) hgrant.asksGrant
  | _ => trivial

/-- A step that keeps the table and adds no request keeps the invariant. -/
theorem PendingConnected.of_subset (h : s.PendingConnected)
    (htable : ∀ c, s.srv.pwrClients.Connected c → s'.srv.pwrClients.Connected c)
    (hpending : ∀ req ∈ s'.pending, req ∈ s.pending) : s'.PendingConnected :=
  fun req hreq hask => htable _ (h req (hpending req hreq) hask)

theorem PendingConnected.receive (h : s.PendingConnected) {i : Fin maxClientNum} {msg : PwrMsg}
    (hfd : (s.srv.pwrClients i).fd ≠ invalidFd) :
    PendingConnected { s with
      srv := s.srv.withRecv ⟨{ msg.head with sysId := (s.srv.pwrClients i).sysId }, msg.data⟩ } := by
  intro req hreq hask
  obtain hcur | hrecv := List.mem_append.mp hreq
  · exact h req (List.mem_append_left _ hcur) hask
  · obtain hold | rfl := mem_toList_enqueue hrecv
    · exact h req (List.mem_append_right _ hold) hask
    · exact ⟨i, hfd, rfl⟩

theorem PendingConnected.clean (h : s.PendingConnected) {c : Cleaning} (hc : s.cleaning = some c)
    (hs : s.Settled .clean) : (s.cleanCall c).PendingConnected := by
  obtain ⟨idx, pc⟩ := c
  cases pc with
  | auth => exact h
  | tasks => exact h
  | list =>
    cases idx with
    | none => exact h
    | some i =>
      intro req hreq hask
      exact ClientTable.connected_deleteFromClientList (h req hreq hask) (hs i hc req hreq hask)

theorem PendingConnected.step (h : s.PendingConnected) (hs : Threads.step s e = some s')
    (hsettled : s.Settled e) : s'.PendingConnected := by
  cases move_of_step hs with
  | accept newClient _ =>
    exact h.of_subset (fun c => ClientTable.connected_addToClientList) fun _ => id
  | receive i msg _ hfd _ => exact h.receive hfd
  | lose idx _ => exact h
  | clean c hc => exact h.clean hc hsettled
  | send _ => exact h
  | pop msg recvBuff hcur hpop =>
    refine h.of_subset (fun _ => id) fun req hreq => List.mem_append_right _ ?_
    cases msg with
    | none =>
      rw [← toList_of_pop_none hpop]
      exact hreq
    | some msg =>
      rw [toList_of_pop_some hpop]
      exact hreq
  | serve m req srv' hcur hserve =>
    have hsame : srv'.pwrClients = s.srv.pwrClients ∧ srv'.recvBuff = s.srv.recvBuff :=
      Server.processReqMsg_frame hserve
    refine h.of_subset (fun c hconn => hsame.1 ▸ hconn) fun req hreq => List.mem_append_right _ ?_
    rw [← hsame.2]
    exact hreq

/-- In a run whose clean-ups leave no request for a grant behind, no client that is gone
is granted anything. -/
theorem settled_granted_nothing (events : List Event)
    (hsettled : Transition.Along step (fun s e _ => s.Settled e) init events) :
    Transition.Along step (fun s _ s' => s.srv.GrantsNoStranger s'.srv) init events :=
  Transition.Along.of_invariant
    (fun h hs hG => ⟨h.step hs hG, (step_grantsNoStranger hs).mpr (h.fresh _)⟩)
    pendingConnected_init hsettled

end Threads

end PowerApi
