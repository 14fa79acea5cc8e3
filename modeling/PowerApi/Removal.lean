import PowerApi.Waiting

/-!
# Leaving the list of waiting calls (`sockclient.c`, `pwrbuffer.c`)

`registered` says who ought to be in `g_waitList`, whatever the pointers do: a
caller is registered when its node is linked, and is struck off when a response is
found for it or when it moves itself out. `wait_list_exact` compares the pointers
with it after every step of every run.

Two things break it. `SendMsgSyn` takes a wait that gives 0 for an answer: woken
without one, it goes on to `ReleaseResultWaitingMsgNode` with its node in the list,
which cuts off whoever is behind. And `MoveOutWaitingMsg` reads the head of the list
before it has locked it: if that head has been moved out meanwhile, the walk ends
before it gets to the node.
-/

namespace PowerApi

namespace Calls

variable {s s' : Calls} {e : Event} {ws : List ℕ} {c : ℕ}

/-- The callers that have registered, and have not been answered and not been removed. -/
def registered (s : Calls) (ws : List ℕ) : Event → List ℕ
  | .link c => ws ++ [c]
  | .moveOut c => ws.erase c
  | .find k =>
    match s.back[k]?.bind fun rsp => ws.find? (s.hasSeqId rsp.msg.head.seqId) with
    | none => ws
    | some c => ws.erase c
  | _ => ws

/-- A step of the library, with the callers that are registered. -/
def listStep (t : Calls × List ℕ) (e : Event) : Option (Calls × List ℕ) :=
  (step t.1 e).map fun s => (s, registered t.1 t.2 e)

/-- A wait gives 0 only to a caller that has been taken out of the list, and a caller that
is in the list starts from its head when it moves itself out. -/
def Heeded (s : Calls) : Event → Prop
  | .wake c expired => expired = false → ¬ s.InList c
  | .moveOut c => s.InList c → s.pc c = .moving s.waitList.head
  | _ => True

instance instDecidableHeeded (s : Calls) : (e : Event) → Decidable (s.Heeded e)
  | .wake c expired => inferInstanceAs (Decidable (expired = false → ¬ s.InList c))
  | .moveOut c => inferInstanceAs (Decidable (s.InList c → s.pc c = .moving s.waitList.head))
  | .create .. | .abort _ | .queue .. | .link _ | .readHead _ | .take _ | .clearReq _
  | .clearRsp _ | .release _ | .finish _ | .send | .serve .. | .loseRequest _ | .loseResponse _
  | .find _ | .attach => .isTrue trivial

/-- `SendMsgSyn` has returned. -/
def Back (s : Calls) (c : ℕ) : Prop := s.pc c = .returned ∨ s.pc c = .finished

/-- The list links exactly the callers `ws`, and nobody who has returned. -/
structure Exact (s : Calls) (ws : List ℕ) : Prop where
  links : s.waitList.Repr ws
  back : ∀ c, s.Back c → c ∉ ws ∧ ¬ s.waitList.Reaches s.waitList.head c

/-- The list is in order, and whoever is in it is waiting. -/
structure Listed (s : Calls) (ws : List ℕ) : Prop extends Nodes s where
  tidy : s.waitList.Tidy ws
  inWait : ∀ c ∈ ws, (s.pc c).InWait = true

theorem listed_init (pid : UInt32) : (init pid).Listed [] :=
  ⟨nodes_init pid, DList.tidy_empty, nofun⟩

theorem Listed.exact (h : s.Listed ws) : s.Exact ws := by
  refine ⟨h.tidy.toRepr, fun c hback => ?_⟩
  rw [h.tidy.toRepr.reaches_iff, and_self]
  intro hc
  have hin := h.inWait c hc
  rcases hback with hpc | hpc <;> rw [hpc] at hin <;> cases hin

theorem Listed.length_le (h : s.Listed ws) : ws.length ≤ s.created :=
  (Calls.length_le h.toNodes h.tidy h.inWait).1

/-- A caller that is not waiting is not in the list. -/
theorem Listed.out (h : s.Listed ws) (hpc : (s.pc c).InWait = false) : c ∉ ws := fun hc => by
  rw [h.inWait c hc] at hpc
  cases hpc

/-- A step of one caller that leaves the others where they are. -/
theorem Listed.of_call (h : s.Listed ws) (hn : s'.Nodes) {ws' : List ℕ}
    (htidy : s'.waitList.Tidy ws') (hsub : ∀ d ∈ ws', d ≠ c → d ∈ ws)
    (hpc : ∀ d, d ≠ c → s'.pc d = s.pc d) (hc : c ∈ ws' → (s'.pc c).InWait = true) :
    s'.Listed ws' := by
  refine ⟨hn, htidy, fun d hd => ?_⟩
  by_cases hdc : d = c
  · exact hdc ▸ hc (hdc ▸ hd)
  · rw [hpc d hdc]
    exact h.inWait d (hsub d hd hdc)

/-- A caller that moves itself out is out: it was already, or it is found. -/
theorem tidy_moveOut (h : s.Listed ws) {head : Option ℕ} {waitList : DList ℕ}
    (hpc : s.pc c = .moving head) (ho : s.InList c → s.pc c = .moving s.waitList.head)
    (hmove : moveOutWaitingMsg s.created s.waitList head c = some waitList) :
    waitList.Tidy (ws.erase c) := by
  by_cases hc : c ∈ ws
  · have hhead := ho ((inList_iff h.tidy h.length_le).mpr hc)
    obtain rfl : head = s.waitList.head := by simpa [hpc] using hhead
    obtain ⟨waitList', hres, htidy⟩ := moveOutWaitingMsg_tidy h.tidy c h.length_le
    obtain rfl := Option.some.inj (hres.symm.trans hmove)
    exact htidy
  · have hlt := (Calls.length_le h.toNodes h.tidy h.inWait).2 c (by simp [hpc]) hc
    rw [List.erase_of_not_mem hc]
    by_cases hhead : head = some c
    · -- the walk starts at the node itself, which has no neighbours any more
      obtain ⟨fuel, hfuel⟩ := Nat.exists_eq_succ_of_ne_zero (Nat.ne_of_gt (Nat.zero_lt_of_lt hlt))
      rw [hhead, hfuel, moveOutWaitingMsg, Links.search, if_pos (by simp)] at hmove
      cases (moveFromList_out h.tidy hc).symm.trans hmove
    · have hres := moveOutWaitingMsg_out h.tidy hlt hc hhead
      obtain rfl := Option.some.inj (hres.symm.trans hmove)
      exact h.tidy

/-- The pointers follow the register. -/
theorem Listed.step (h : s.Listed ws) (hs : Calls.step s e = some s') (ho : s.Heeded e) :
    s'.Listed (s.registered ws e) := by
  have hn := h.toNodes.step hs
  have honly := fun c => @onlyCall_step s s' e c hs
  cases move_of_step hs with
  | link c hpc =>
    have hout : c ∉ ws := h.out (by rw [hpc]; rfl)
    refine h.of_call hn (addToWaitingListTail_tidy h.tidy hout) (fun d hd hdc => ?_)
      (honly c rfl).pc fun _ => ?_
    · simpa [registered, hdc] using hd
    · simp [Calls.goto, CallPc.InWait]
  | wake c expired hpc =>
    refine h.of_call hn h.tidy (fun _ hd _ => hd) (honly c rfl).pc fun hc => ?_
    cases expired with
    | true => simp [Calls.goto, CallPc.InWait]
    | false => exact absurd ((inList_iff h.tidy h.length_le).mpr hc) (ho rfl)
  | readHead c hpc =>
    refine h.of_call hn h.tidy (fun _ hd _ => hd) (honly c rfl).pc fun _ => ?_
    simp [Calls.goto, CallPc.InWait]
  | moveOut c head waitList hpc hmove =>
    refine h.of_call hn (tidy_moveOut h hpc ho hmove) (fun d hd _ => List.mem_of_mem_erase hd)
      (honly c rfl).pc fun hc => ?_
    exact absurd rfl (h.tidy.nodup.mem_erase_iff.mp hc).1
  | release c hpc =>
    have hout : c ∉ ws := h.out (by rw [hpc]; rfl)
    exact h.of_call hn (clearLinks_tidy h.tidy hout) (fun _ hd _ => hd) (honly c rfl).pc
      fun hc => absurd hc hout
  | create _ _ _ _ _ _ _ =>
    have hpc := (h.fresh s.created).mpr le_rfl
    exact h.of_call hn h.tidy (fun _ hd _ => hd) (honly _ rfl).pc
      fun hc => absurd hc (h.out (by rw [hpc]; rfl))
  | abort c hpc =>
    refine h.of_call hn h.tidy (fun _ hd _ => hd) (honly c rfl).pc fun hc => absurd hc (h.out ?_)
    rcases hpc with hpc | hpc <;> rw [hpc] <;> rfl
  | queue c _ _ hpc _ =>
    exact h.of_call hn h.tidy (fun _ hd _ => hd) (honly c rfl).pc
      fun hc => absurd hc (h.out (by rw [hpc]; rfl))
  | take c hpc =>
    exact h.of_call hn h.tidy (fun _ hd _ => hd) (honly c rfl).pc
      fun hc => absurd hc (h.out (by rw [hpc]; rfl))
  | clearReq c hpc =>
    exact h.of_call hn h.tidy (fun _ hd _ => hd) (honly c rfl).pc
      fun hc => absurd hc (h.out (by rw [hpc]; rfl))
  | clearRsp c hpc =>
    exact h.of_call hn h.tidy (fun _ hd _ => hd) (honly c rfl).pc
      fun hc => absurd hc (h.out (by rw [hpc]; rfl))
  | finish c hpc =>
    exact h.of_call hn h.tidy (fun _ hd _ => hd) (honly c rfl).pc
      fun hc => absurd hc (h.out (by rw [hpc]; rfl))
  | drop k rsp waitList hhand hrsp hfind =>
    rcases findAndMoveWaitingMsg_tidy h.tidy (s.hasSeqId rsp.msg.head.seqId) h.length_le with
      ⟨hnone, hres⟩ | ⟨pc, _, _, hres, _⟩
    · have hreg : s.registered ws (.find k) = ws := by
        rw [registered, hrsp, Option.bind_some, hnone]
      obtain ⟨-, rfl⟩ := Prod.mk.inj (Option.some.inj (hfind.symm.trans hres))
      rw [hreg]
      exact ⟨hn, h.tidy, h.inWait⟩
    · cases hfind.symm.trans hres
  | found k rsp node waitList hhand hrsp hfind =>
    rcases findAndMoveWaitingMsg_tidy h.tidy (s.hasSeqId rsp.msg.head.seqId) h.length_le with
      ⟨_, hres⟩ | ⟨pc, rwm, hpc, hres, htidy⟩
    · cases hfind.symm.trans hres
    · have hreg : s.registered ws (.find k) = ws.erase pc := by
        rw [registered, hrsp, Option.bind_some, hpc]
      obtain ⟨-, rfl⟩ := Prod.mk.inj (Option.some.inj (hfind.symm.trans hres))
      rw [hreg]
      exact ⟨hn, htidy, fun d hd => h.inWait d (List.mem_of_mem_erase hd)⟩
  | send _ _ _ => exact ⟨hn, h.tidy, h.inWait⟩
  | serve _ _ _ _ _ _ _ => exact ⟨hn, h.tidy, h.inWait⟩
  | loseRequest _ => exact ⟨hn, h.tidy, h.inWait⟩
  | loseResponse _ => exact ⟨hn, h.tidy, h.inWait⟩
  | attach _ _ _ => exact ⟨hn, h.tidy, h.inWait⟩

/-- **A finished call leaves no trace**: in a run in which no wait gives 0 to a caller that
is in the list, and no caller that is in the list walks from a head that has moved, the
list links after every step exactly the callers that are registered, and no caller that
has returned. -/
theorem wait_list_exact (pid : UInt32) (events : List Event)
    (hheeded : Transition.Along listStep (fun t e _ => t.1.Heeded e) (init pid, []) events) :
    Transition.Along listStep (fun _ _ t' => t'.1.Exact t'.2) (init pid, []) events := by
  refine Transition.Along.of_invariant (I := fun t => t.1.Listed t.2) ?_ (listed_init pid) hheeded
  rintro ⟨s, ws⟩ e t' h hs ho
  obtain ⟨s', hstep, rfl⟩ := Option.map_eq_some_iff.mp hs
  have h' := h.step hstep ho
  exact ⟨h', h'.exact⟩

/-- Two callers wait: the one in front times out, the other is answered meanwhile. -/
def oneAnswered : List Event :=
  [.create .comRequestControlAuth 0 0 .null, .queue 0 0, .link 0,
    .create .comReleaseControlAuth 0 0 .null, .queue 1 0, .link 1, .send, .send, .wake 0 true,
    .readHead 0, .serve 1 7 0 .null 0, .find 0, .moveOut 0, .attach, .wake 1 false, .take 0,
    .clearReq 0, .clearRsp 0, .release 0, .take 1, .clearReq 1, .clearRsp 1, .release 1]

theorem wait_list_exact_oneAnswered :
    ((Transition.run listStep (init 7, []) oneAnswered).map fun t => (t.1.waitList.head, t.2)) =
      some (none, []) ∧
    Transition.Along listStep (fun _ _ t' => t'.1.Exact t'.2) (init 7, []) oneAnswered :=
  ⟨by decide, wait_list_exact 7 oneAnswered (by decide)⟩

/-- Two callers wait, and the one in front is woken without an answer. -/
def wokenForNothing : List Event :=
  [.create .comRequestControlAuth 0 0 .null, .queue 0 0, .link 0,
    .create .comReleaseControlAuth 0 0 .null, .queue 1 0, .link 1, .wake 0 false, .take 0,
    .clearReq 0, .clearRsp 0, .release 0]

/-- It has returned and is still in the list, and the other cannot be reached any more. -/
theorem wokenForNothing_not_exact :
    ¬ ∀ (pid : UInt32) (events : List Event),
      Transition.Along listStep (fun _ _ t' => t'.1.Exact t'.2) (init pid, []) events := by
  intro h
  have hlast := (h 7 wokenForNothing _ rfl).2 _ rfl |>.2 _ rfl |>.2 _ rfl |>.2 _ rfl |>.2 _ rfl
    |>.2 _ rfl |>.2 _ rfl |>.2 _ rfl |>.2 _ rfl |>.2 _ rfl
  exact (hlast.1.back 0 (.inl rfl)).2 (.here 0)

/-- Two callers time out, and the one behind has read the head before that is moved out. -/
def staleHead : List Event :=
  [.create .comRequestControlAuth 0 0 .null, .queue 0 0, .link 0,
    .create .comReleaseControlAuth 0 0 .null, .queue 1 0, .link 1, .wake 1 true, .readHead 1,
    .wake 0 true, .readHead 0, .moveOut 0, .moveOut 1]

/-- Its walk ends at the node that was moved out, and it stays in the list. -/
theorem staleHead_not_exact :
    ¬ Transition.Along listStep (fun _ _ t' => t'.1.Exact t'.2) (init 7, []) staleHead := by
  intro h
  have hlast := (h _ rfl).2 _ rfl |>.2 _ rfl |>.2 _ rfl |>.2 _ rfl |>.2 _ rfl
    |>.2 _ rfl |>.2 _ rfl |>.2 _ rfl |>.2 _ rfl |>.2 _ rfl |>.2 _ rfl
  exact absurd (hlast.1.links.reaches_iff.mp (.here 1)) List.not_mem_nil

end Calls

end PowerApi
