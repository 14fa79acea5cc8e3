import PowerApi.Msg
import PowerApi.Transition
import PowerApi.WaitList

/-!
# The list of waiting calls over whole runs (`pwrbuffer.c`, list part)

`listStep` is one call on the list, from the lock to the unlock, with what it returns.
A list that is a `Chain` stays one through every sequence of calls, and each of them does
to the nodes what `listCall` does to a list of them; `wait_list_refines` says so.
What the nodes hold can be changed by others between two calls, so that a call which
looks at the requests comes with these.
-/

namespace PowerApi

open Transition

universe u

/-- A call on the list. -/
inductive ListCall (ι : Type u) where
  /-- `AddToWaitingListTail` -/
  | addToTail (newNode : ι)
  /-- `FindAndMoveWaitingMsg`, with the requests that the nodes hold -/
  | findAndMove (reqMsg : ι → Option PwrMsg) (seqId : UInt32)
  /-- `MoveOutWaitingMsg` -/
  | moveOut (node : ι)

/-- The list, and what the last call returned. -/
structure ListState (ι : Type u) where
  rwm : DList ι
  returned : Option ι

variable {ι : Type u} [DecidableEq ι]

/-- The node's request has the sequence id. -/
def asksFor (reqMsg : ι → Option PwrMsg) (seqId : UInt32) (pc : ι) : Bool :=
  (reqMsg pc).any fun req => req.head.seqId == seqId

/-- One call; `none` if it dereferences NULL or walks over more than `fuel` nodes. -/
def listStep (fuel : ℕ) (s : ListState ι) : ListCall ι → Option (ListState ι)
  | .addToTail newNode => some ⟨addToWaitingListTail s.rwm newNode, none⟩
  | .findAndMove reqMsg seqId =>
    (findAndMoveWaitingMsg fuel s.rwm (asksFor reqMsg seqId)).map fun (r, rwm) => ⟨rwm, r⟩
  | .moveOut node =>
    (moveOutWaitingMsg fuel s.rwm s.rwm.head node).map fun rwm => ⟨rwm, none⟩

/-- What a call is for: the nodes in the list afterwards, and what it returns. -/
def listCall (ws : List ι) : ListCall ι → List ι × Option ι
  | .addToTail newNode => (ws ++ [newNode], none)
  | .findAndMove reqMsg seqId =>
    match ws.find? (asksFor reqMsg seqId) with
    | none => (ws, none)
    | some pc => (ws.erase pc, some pc)
  | .moveOut node => (ws.erase node, none)

/-- The call does to the pointers what it is for. -/
structure Served (ws : List ι) (call : ListCall ι) (s s' : ListState ι) : Prop where
  chain : s'.rwm.Chain (listCall ws call).1
  returned : s'.returned = (listCall ws call).2
  /-- a node that is taken out points nowhere any more -/
  cleared : ∀ node ∈ ws, node ∉ (listCall ws call).1 →
    s'.rwm.next node = none ∧ s'.rwm.prev node = none
  /-- a call that takes out no node writes nothing -/
  unchanged : (listCall ws call).1 = ws → s'.rwm = s.rwm

/-- A node that is added is not in the list. -/
def Fresh (s : ListState ι) (call : ListCall ι) : Prop :=
  ∀ newNode, call = .addToTail newNode → ¬ s.rwm.Reaches s.rwm.head newNode

section Served

variable {fuel : ℕ} {s : ListState ι} {ws : List ι} {node : ι}

/-- Taking out a node that is there. -/
theorem served_moveFromList (h : s.rwm.Chain ws) (hnode : node ∈ ws) {call : ListCall ι}
    {r : Option ι} (hcall : listCall ws call = (ws.erase node, r)) :
    ∃ rwm', moveFromList s.rwm node = some rwm' ∧ Served ws call s ⟨rwm', r⟩ := by
  obtain ⟨rwm', hmove, hrepr, hnext, hprev, -⟩ := moveFromList_repr h.repr hnode
  refine ⟨rwm', hmove, ?_, ?_, ?_, ?_⟩ <;> rw [hcall]
  · exact hrepr.chain
  · intro y hy hout
    -- only the node itself is gone
    obtain rfl : y = node := by
      by_contra hne
      exact hout ((List.mem_erase_of_ne hne).mpr hy)
    exact ⟨hnext, hprev⟩
  · intro heq
    have hlen := congrArg List.length heq
    have hpos := List.length_pos_of_mem hnode
    rw [List.length_erase_of_mem hnode] at hlen
    omega

/-- Taking out nothing. -/
theorem served_self (h : s.rwm.Chain ws) {call : ListCall ι} {r : Option ι}
    (hcall : listCall ws call = (ws, r)) : Served ws call s ⟨s.rwm, r⟩ := by
  refine ⟨?_, ?_, ?_, fun _ => rfl⟩ <;> rw [hcall]
  · exact h
  · exact fun node hnode hout => absurd hnode hout

/-- Every call is served. -/
theorem served_step (h : s.rwm.Chain ws) (hfuel : ws.length ≤ fuel) {call : ListCall ι}
    (hfresh : Fresh s call) : ∃ s', listStep fuel s call = some s' ∧ Served ws call s s' := by
  cases call with
  | addToTail newNode =>
    have hnew : newNode ∉ ws := fun hmem =>
      hfresh newNode rfl (h.repr.reaches_iff.mpr hmem)
    refine ⟨_, rfl, (addToWaitingListTail_repr h.repr hnew).chain, rfl, ?_, ?_⟩
    · exact fun node hnode hout => absurd (List.mem_append_left _ hnode) hout
    · exact fun heq => absurd heq (by simp [listCall])
  | findAndMove reqMsg seqId =>
    rw [listStep, findAndMoveWaitingMsg_eq h.repr _ hfuel]
    cases hfind : ws.find? (asksFor reqMsg seqId) with
    | none => exact ⟨_, rfl, served_self h (by rw [listCall, hfind])⟩
    | some pc =>
      have hcall : listCall ws (.findAndMove reqMsg seqId) = (ws.erase pc, some pc) := by
        rw [listCall, hfind]
      obtain ⟨rwm', hmove, hserved⟩ :=
        served_moveFromList h (List.mem_of_find?_eq_some hfind) hcall
      exact ⟨_, by dsimp only; rw [hmove]; rfl, hserved⟩
  | moveOut node =>
    rw [listStep, moveOutWaitingMsg_eq h.repr node hfuel]
    by_cases hnode : node ∈ ws
    · have hcall : listCall ws (.moveOut node) = (ws.erase node, none) := rfl
      obtain ⟨rwm', hmove, hserved⟩ := served_moveFromList h hnode hcall
      rw [if_pos hnode, hmove]
      exact ⟨_, rfl, hserved⟩
    · rw [if_neg hnode]
      exact ⟨_, rfl, served_self h (by rw [listCall, List.erase_of_not_mem hnode])⟩

/-- A call adds at most one node. -/
theorem length_listCall_le (ws : List ι) (call : ListCall ι) :
    (listCall ws call).1.length ≤ ws.length + 1 := by
  cases call with
  | addToTail newNode => simp [listCall]
  | findAndMove reqMsg seqId =>
    rw [listCall]
    split
    · exact Nat.le_succ _
    · exact Nat.le_succ_of_le List.length_erase_le
  | moveOut node => exact Nat.le_succ_of_le List.length_erase_le

end Served

/-- **The wait list refines a list**: from a chain on every sequence of calls that adds fresh
nodes only goes through, each call does what it is for, and in the end the list is the chain
of the nodes that the calls have left, in their order. -/
theorem wait_list_refines {fuel : ℕ} {s : ListState ι} {ws : List ι} (h : s.rwm.Chain ws)
    {calls : List (ListCall ι)} (hfuel : ws.length + calls.length ≤ fuel)
    (hfresh : Along (listStep fuel) (fun s call _ => Fresh s call) s calls) :
    (∃ t, run (listStep fuel) s calls = some t ∧
      t.rwm.Chain (calls.foldl (fun ws call => (listCall ws call).1) ws)) ∧
    Along (listStep fuel) (fun s call s' => ∃ ws, s.rwm.Chain ws ∧ Served ws call s s') s calls := by
  induction calls generalizing s ws with
  | nil => exact ⟨⟨s, rfl, h⟩, trivial⟩
  | cons call calls ih =>
    rw [List.length_cons] at hfuel
    have hroom : ws.length ≤ fuel := by omega
    have hlen := length_listCall_le ws call
    -- a call that adds a node always returns
    have hcall : Fresh s call := by
      rintro newNode rfl
      exact (hfresh _ rfl).1 newNode rfl
    obtain ⟨s', hs', hserved⟩ := served_step h hroom hcall
    obtain ⟨⟨t, ht, hchain⟩, halong⟩ := ih hserved.chain (by omega) (hfresh s' hs').2
    refine ⟨⟨t, run_cons_eq_some.mpr ⟨s', hs', ht⟩, hchain⟩, fun s'' hs'' => ?_⟩
    obtain rfl := Option.some.inj (hs'.symm.trans hs'')
    exact ⟨⟨ws, h, hserved⟩, halong⟩

/-- Two calls wait in an empty list, the second one gets its response. -/
def twoWait : List (ListCall ℕ) :=
  [.addToTail 7, .addToTail 3,
    .findAndMove (fun n => if n = 3 then some ⟨MsgHead.zero, .null⟩ else none) 0]

theorem wait_list_refines_two :
    ∃ t, run (listStep 3) ⟨DList.empty, none⟩ twoWait = some t ∧ t.rwm.Chain [7] := by
  have hfresh : Along (listStep 3) (fun s call _ => Fresh s call) ⟨DList.empty, none⟩ twoWait := by
    intro s hs
    obtain rfl := Option.some.inj hs
    refine ⟨?_, fun s hs => ?_⟩
    · rintro newNode ⟨⟩ hreach
      exact absurd (DList.repr_empty.reaches_iff.mp hreach) List.not_mem_nil
    · obtain rfl := Option.some.inj hs
      refine ⟨?_, fun s hs => ⟨nofun, trivial⟩⟩
      rintro newNode ⟨⟩ hreach
      have hrepr := addToWaitingListTail_repr DList.repr_empty (@List.not_mem_nil ℕ 7)
      exact absurd (hrepr.reaches_iff.mp hreach) (by decide)
  exact (wait_list_refines DList.repr_empty.chain (by decide) hfresh).1

end PowerApi
