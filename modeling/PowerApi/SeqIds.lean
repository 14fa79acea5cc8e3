import PowerApi.Calls

/-!
# Sequence ids (`pwrmsg.c`, `sockclient.c`)

A response finds its node by the sequence id alone, and the ids wrap: the process
id in the upper half, a 16-bit counter below. `responses_not_mixed_up` says that a
node nevertheless gets the response to its own request only, if no more than 65535
requests are created while one is alive: of two requests that are alive at once
the ids are then different, and both the one whose node is found and the one whose
response it is are alive when it is found.

How the list is linked does not matter for this, and it may be broken.
-/

namespace PowerApi

/-- The caller has queued its request, and has not returned. -/
def CallPc.Waiting : CallPc → Bool
  | fresh => false
  | created => false
  | returned => false
  | finished => false
  | _ => true

theorem CallPc.waiting_of_hasReq {pc : CallPc} (h : pc.HasReq = true) : pc.Waiting = true := by
  cases pc <;> first | rfl | cases h

namespace Calls

variable {s s' : Calls} {e : Event} {pid : UInt32}

/-- The message is in a queue or in transit. -/
def Underway (s : Calls) (m : CallMsg) : Prop :=
  m ∈ s.sendBuff.toList ∨ m ∈ s.wire ∨ m ∈ s.back ∨ ∃ node, s.hand = some (node, m)

/-- The caller is still waiting, or its request or its response is under way. -/
def Alive (s : Calls) (c : ℕ) : Prop :=
  (s.pc c).Waiting = true ∨ ∃ m, s.Underway m ∧ m.call = c

/-- Since the oldest request that is alive, fewer than 65536 have been created. -/
def Window (s : Calls) : Prop := ∀ c, s.Alive c → s.created - (c + 1) < 65536

/-- What is in a node is a response to the node's own request. -/
def OwnResponses (s : Calls) : Prop :=
  ∀ node rsp, s.rspMsg node = some rsp → rsp.call = node ∧ s.Answers rsp

/-- Equal ids are a multiple of 65536 requests apart. -/
theorem mod_eq_of_seqIdOf_eq {c d : ℕ} (h : seqIdOf pid c = seqIdOf pid d) :
    c % 65536 = d % 65536 := by
  have h16 : (UInt16.ofNat c).toUInt32 = (UInt16.ofNat d).toUInt32 := (UInt32.add_right_inj _).mp h
  have hnat := congrArg UInt32.toNat h16
  simpa using hnat

/-- Two requests that are alive have different ids. -/
theorem Window.eq_of_seqIdOf_eq (hw : s.Window) {c d : ℕ} (hc : s.Alive c) (hd : s.Alive d)
    (hc' : c < s.created) (hd' : d < s.created) (h : seqIdOf pid c = seqIdOf pid d) : c = d := by
  have hmod := mod_eq_of_seqIdOf_eq h
  have hwc := hw c hc
  have hwd := hw d hd
  omega

/-- The node that is found for a response is the one of the call that it answers. -/
theorem Window.found (hw : s.Window) (ht : s.Traced pid) (hn : s.Nodes) {rsp : CallMsg} {node : ℕ}
    {waitList : DList ℕ} (hrsp : rsp ∈ s.back)
    (hfind : findAndMoveWaitingMsg s.created s.waitList (s.hasSeqId rsp.msg.head.seqId) =
      some (some node, waitList)) : rsp.call = node := by
  obtain ⟨found, hsearch, hmove⟩ := Option.bind_eq_some_iff.mp hfind
  -- the node that was moved out passed the test
  have hnode : s.hasSeqId rsp.msg.head.seqId node = true := by
    cases found with
    | none => cases hmove
    | some pc =>
      obtain ⟨l, -, heq⟩ := Option.map_eq_some_iff.mp hmove
      obtain rfl : pc = node := Option.some.inj (Prod.mk.inj heq).1
      exact Links.search_some hsearch
  rw [hasSeqId, hn.reqMsg node] at hnode
  split at hnode
  · cases hnode
  · rename_i reqMsg hreq
    obtain ⟨hpc, hreqMsg⟩ := Option.ite_none_right_eq_some.mp hreq
    have hlt : node < s.created := by
      refine Nat.lt_of_not_le fun hle => ?_
      rw [(hn.fresh node).mpr hle] at hpc
      cases hpc
    obtain ⟨hcall, hanswers⟩ := ht.answered rsp hrsp
    have hids : seqIdOf pid rsp.call = seqIdOf pid node := by
      rw [← ht.seqId_of_answers hcall hanswers, ← ht.seqId node hlt, Option.some.inj hreqMsg]
      exact (beq_iff_eq.mp hnode).symm
    exact hw.eq_of_seqIdOf_eq (.inr ⟨rsp, .inr (.inr (.inl hrsp)), rfl⟩)
      (.inl (CallPc.waiting_of_hasReq hpc)) hcall hlt hids

/-- What comes into the socket thread's hands. -/
theorem hand_step {node : ℕ} {rsp : CallMsg} (hs : step s e = some s')
    (h : s'.hand = some (node, rsp)) :
    s.hand = some (node, rsp) ∨ rsp ∈ s.back ∧ ∃ waitList,
      findAndMoveWaitingMsg s.created s.waitList (s.hasSeqId rsp.msg.head.seqId) =
        some (some node, waitList) := by
  cases move_of_step hs with
  | found k rsp node waitList _ hrsp hfind =>
    obtain ⟨rfl, rfl⟩ := Prod.mk.inj (Option.some.inj h)
    exact .inr ⟨List.mem_of_getElem? hrsp, waitList, hfind⟩
  | attach node rsp _ => cases h
  | _ => exact .inl h

/-- What comes into a node. -/
theorem rspMsg_step {node : ℕ} {rsp : CallMsg} (hs : step s e = some s')
    (h : s'.rspMsg node = some rsp) : s.rspMsg node = some rsp ∨ s.hand = some (node, rsp) := by
  cases move_of_step hs with
  | clearRsp c _ =>
    have hrsp : Function.update s.rspMsg c none node = some rsp := h
    rw [Function.update_apply] at hrsp
    split at hrsp
    · cases hrsp
    · exact .inl hrsp
  | release c _ =>
    have hrsp : Function.update s.rspMsg c none node = some rsp := h
    rw [Function.update_apply] at hrsp
    split at hrsp
    · cases hrsp
    · exact .inl hrsp
  | attach target got hhand =>
    have hrsp : Function.update s.rspMsg target (some got) node = some rsp := h
    rw [Function.update_apply] at hrsp
    split at hrsp
    · rename_i hnode
      rw [hnode, ← Option.some.inj hrsp]
      exact .inr hhand
    · exact .inl hrsp
  | _ => exact .inl h

/-- The invariant. What the socket thread has in its hands goes to the right node, too. -/
structure Matched (pid : UInt32) (s : Calls) : Prop extends Traced pid s, Nodes s where
  hand_own : ∀ node rsp, s.hand = some (node, rsp) → rsp.call = node
  rsp_own : ∀ node rsp, s.rspMsg node = some rsp →
    rsp.call = node ∧ rsp.call < s.created ∧ s.Answers rsp

theorem matched_init (pid : UInt32) : (init pid).Matched pid :=
  ⟨traced_init pid, nodes_init pid, nofun, nofun⟩

theorem Matched.step (h : s.Matched pid) (hw : s.Window) (hs : step s e = some s') :
    s'.Matched pid := by
  refine ⟨h.toTraced.step h.toNodes hs, h.toNodes.step hs, fun node rsp hhand => ?_,
    fun node rsp hrsp => ?_⟩
  · rcases hand_step hs hhand with hold | ⟨hback, waitList, hfind⟩
    · exact h.hand_own node rsp hold
    · exact hw.found h.toTraced h.toNodes hback hfind
  · obtain ⟨hle, -, hsame⟩ := request_step hs
    obtain ⟨hcall, hlt, hanswers⟩ : rsp.call = node ∧ rsp.call < s.created ∧ s.Answers rsp := by
      rcases rspMsg_step hs hrsp with hold | hhand
      · exact h.rsp_own node rsp hold
      · exact ⟨h.hand_own node rsp hhand, h.hand node rsp hhand⟩
    exact ⟨hcall, hlt.trans_le hle, hanswers.of_request (hsame rsp.call hlt)⟩

/-- **Responses are not mixed up**: in a run in which, at every moment, fewer than 65536
requests have been created since the oldest one alive, no node ever holds a response
that was generated from another request than its own. -/
theorem responses_not_mixed_up (pid : UInt32) (events : List Event)
    (hwindow : Transition.Along step (fun s _ _ => s.Window) (init pid) events) :
    Transition.Along step (fun _ _ s' => s'.OwnResponses) (init pid) events := by
  refine Transition.Along.of_invariant (fun h hs hw => ?_) (matched_init pid) hwindow
  have hmatched := h.step hw hs
  refine ⟨hmatched, fun node rsp hrsp => ?_⟩
  obtain ⟨hcall, -, hanswers⟩ := hmatched.rsp_own node rsp hrsp
  exact ⟨hcall, hanswers⟩

/-- A run that is not longer than the window stays inside it. -/
theorem along_window {events : List Event} :
    ∀ {s : Calls}, s.created + events.length ≤ 65536 →
      Transition.Along step (fun s _ _ => s.Window) s events := by
  induction events with
  | nil => intro s _; trivial
  | cons e events ih =>
    intro s hlen s' hs
    rw [List.length_cons] at hlen
    obtain ⟨-, hle, -⟩ := request_step hs
    refine ⟨fun c _ => ?_, ih ?_⟩ <;> omega

/-- The first call times out, and its response comes while the second one is waiting. -/
def lateResponse : List Event :=
  [.create .comRequestControlAuth 0 0 .null, .queue 0 0, .link 0, .send, .serve 0 7 0 .null 0,
    .wake 0 true, .readHead 0, .moveOut 0, .take 0, .clearReq 0, .clearRsp 0, .release 0,
    .create .comReleaseControlAuth 0 0 .null, .queue 1 0, .link 1, .send, .find 0,
    .serve 0 7 0 .null 0, .find 0, .attach]

/-- The second call gets its own response. -/
theorem responses_not_mixed_up_late :
    ((Transition.run step (init 7) lateResponse).bind fun s => s.rspMsg 1).map CallMsg.call =
        some 1 ∧
      Transition.Along step (fun _ _ s' => s'.OwnResponses) (init 7) lateResponse :=
  ⟨by rfl, responses_not_mixed_up 7 lateResponse (along_window (by decide))⟩

end Calls

end PowerApi
