import PowerApi.Calls

/-!
# Calls that wait for a response (`sockclient.c`, `pwrbuffer.c`)

Where the response of a call can be, and who is in the list of waiting calls. Of
every call there is at most one message: its request in the client's queue or on
the wire, or the response on its way back, or the response in `ProcessRspMsg`. The
list links the calls that are waiting and whose response has not been found.

Both is so as long as the threads get no chance to break the list. `Ordered` says
what they must not do: a response must not come before its node is linked, a wait
must not succeed before the response is found, the head of the list must not move
while `MoveOutWaitingMsg` has read it and has not locked the list, and a caller must
not take its result while `ProcessRspMsg` holds the response in its hands.
-/

namespace PowerApi

namespace CallPc

/-- The node does not exist yet. -/
def Early : CallPc → Bool
  | fresh => true
  | created => true
  | queued => true
  | _ => false

theorem eq_of_early {pc : CallPc} (h : pc.Early = true) :
    pc = .fresh ∨ pc = .created ∨ pc = .queued := by
  cases pc <;> simp [Early] at h ⊢

/-- The node may be in the list. -/
def InWait : CallPc → Bool
  | linked => true
  | expired => true
  | moving _ => true
  | _ => false

/-- `MoveOutWaitingMsg` is under way, or next. -/
def Leaving : CallPc → Bool
  | expired => true
  | moving _ => true
  | _ => false

/-- The caller has taken its result, or returned without one. -/
def HasTaken : CallPc → Bool
  | taken => true
  | reqCleared => true
  | rspCleared => true
  | returned => true
  | finished => true
  | _ => false

theorem of_hasTaken {pc : CallPc} (h : pc.HasTaken = true) :
    pc.InWait = false ∧ pc.Leaving = false ∧ pc.Early = false ∧ pc ≠ .fresh ∧ pc ≠ .created := by
  cases pc <;> simp [HasTaken] at h <;> exact ⟨rfl, rfl, rfl, nofun, nofun⟩

end CallPc

namespace Calls

variable {s s' : Calls} {e : Event} {ws : List ℕ} {c d : ℕ}

/-! ## Where the messages are -/

/-- How often a list has a message of the call. -/
def countOf (l : List CallMsg) (c : ℕ) : ℕ := (l.map CallMsg.call).count c

theorem countOf_cons (m : CallMsg) (l : List CallMsg) (c : ℕ) :
    countOf (m :: l) c = countOf l c + if m.call = c then 1 else 0 := by
  simp [countOf, List.count_cons]

theorem countOf_append (l l' : List CallMsg) (c : ℕ) :
    countOf (l ++ l') c = countOf l c + countOf l' c := by
  simp [countOf]

theorem countOf_le {l l' : List CallMsg} (h : l.Sublist l') (c : ℕ) : countOf l c ≤ countOf l' c :=
  (h.map CallMsg.call).count_le c

theorem countOf_pos {l : List CallMsg} {m : CallMsg} (h : m ∈ l) : 0 < countOf l m.call :=
  List.count_pos_iff.mpr (List.mem_map_of_mem h)

theorem countOf_eraseIdx {l : List CallMsg} {k : ℕ} {m : CallMsg} (h : l[k]? = some m) (c : ℕ) :
    countOf l c = countOf (l.eraseIdx k) c + if m.call = c then 1 else 0 := by
  obtain ⟨hk, rfl⟩ := List.getElem?_eq_some_iff.mp h
  rw [← countOf_cons]
  exact ((List.getElem_cons_eraseIdx_perm hk).map CallMsg.call).symm.count_eq c

/-- How many messages of the call are under way. -/
def flight (s : Calls) (c : ℕ) : ℕ :=
  countOf s.sendBuff.toList c + countOf s.wire c + countOf s.back c

/-- How many responses to the call have reached `ProcessRspMsg`. -/
def seen (s : Calls) (c : ℕ) : ℕ := countOf (s.processed.map Prod.fst) c

/-- The node is in the list. -/
def InList (s : Calls) (c : ℕ) : Prop :=
  s.waitList.search (fun node => node = c) s.created s.waitList.head = some (some c)

instance (s : Calls) (c : ℕ) : Decidable (s.InList c) := by
  unfold InList
  infer_instance

/-- The threads do not come in each other's way. -/
def Ordered (s : Calls) : Event → Prop
  | .find k => ∀ rsp ∈ s.back[k]?, s.pc rsp.call ≠ .queued ∧
      ∀ c, c < s.created → s.InList c → s.hasSeqId rsp.msg.head.seqId c = true → c = rsp.call
  | .wake c expired => expired = false → ¬ s.InList c
  | .moveOut c => s.pc c = .moving s.waitList.head ∨
      ¬ s.InList c ∧ s.pc c ≠ .moving (some c)
  | .take c => ∀ hand ∈ s.hand, hand.1 ≠ c
  | _ => True

instance (s : Calls) (e : Event) : Decidable (s.Ordered e) := by
  unfold Ordered
  split <;> infer_instance

/-! ## Who is in the list -/

/-- Nothing changes but what belongs to one call. -/
structure OnlyCall (s s' : Calls) (c : ℕ) : Prop where
  pc : ∀ d, d ≠ c → s'.pc d = s.pc d
  late : ∀ d, d ≠ c → s'.late d = s.late d
  rspMsg : ∀ d, d ≠ c → s'.rspMsg d = s.rspMsg d
  result : ∀ d, d ≠ c → s'.result d = s.result d
  flight : ∀ d, d ≠ c → s'.flight d ≤ s.flight d
  hand : s'.hand = s.hand
  processed : s'.processed = s.processed

/-- A call and its place in the list. -/
structure Waits (s : Calls) (ws : List ℕ) (c : ℕ) : Prop where
  inWait : c ∈ ws → (s.pc c).InWait = true
  late : (s.pc c).Leaving = true → s.late c = true
  begun : 0 < s.flight c → s.pc c ≠ .fresh ∧ s.pc c ≠ .created
  expected : 0 < s.flight c → s.Due c → s.pc c = .queued ∨ c ∈ ws
  unseen : (s.pc c).Early = true → s.seen c = 0
  once : s.flight c + s.seen c ≤ 1

theorem waits_init (pid : UInt32) (c : ℕ) : (init pid).Waits [] c :=
  ⟨nofun, nofun, nofun, nofun, fun _ => rfl, Nat.zero_le 1⟩

theorem due_congr (hpc : s'.pc c = s.pc c) (hlate : s'.late c = s.late c) :
    s'.Due c ↔ s.Due c := by
  unfold Due
  rw [hpc, hlate]

/-- A call that the step is not of. -/
theorem Waits.other (h : s.Waits ws d) (hstep : OnlyCall s s' c) (hd : d ≠ c) {ws' : List ℕ}
    (hws : d ∈ ws' ↔ d ∈ ws) : s'.Waits ws' d := by
  have hpc := hstep.pc d hd
  have hlate := hstep.late d hd
  have hflight := hstep.flight d hd
  refine ⟨fun hin => ?_, fun hl => ?_, fun hpos => ?_, fun hpos hdue => ?_, fun hearly => ?_, ?_⟩
  · rw [hpc]
    exact h.inWait (hws.mp hin)
  · rw [hlate]
    exact h.late (hpc ▸ hl)
  · rw [hpc]
    exact h.begun (hpos.trans_le hflight)
  · rw [hpc, hws]
    exact h.expected (hpos.trans_le hflight) ((due_congr hpc hlate).mp hdue)
  · rw [seen, hstep.processed]
    exact h.unseen (hpc ▸ hearly)
  · have honce := h.once
    rw [seen, hstep.processed]
    exact (Nat.add_le_add_right hflight _).trans honce

/-- A call of which some message got lost. -/
theorem Waits.of_flight (h : s.Waits ws c) (hpc : s'.pc = s.pc) (hlate : s'.late = s.late)
    (hprocessed : s'.processed = s.processed) (hflight : s'.flight c ≤ s.flight c) :
    s'.Waits ws c := by
  refine ⟨?_, ?_, fun hpos => ?_, fun hpos hdue => ?_, ?_, ?_⟩
  · rw [hpc]
    exact h.inWait
  · rw [hpc, hlate]
    exact h.late
  · rw [hpc]
    exact h.begun (hpos.trans_le hflight)
  · rw [hpc]
    exact h.expected (hpos.trans_le hflight) ((due_congr (by rw [hpc]) (by rw [hlate])).mp hdue)
  · rw [hpc, seen, hprocessed]
    exact h.unseen
  · have honce := h.once
    rw [seen, hprocessed]
    exact (Nat.add_le_add_right hflight _).trans honce

/-- A call that is not waiting is not in the list. -/
theorem Waits.out (h : s.Waits ws c) (hpc : (s.pc c).InWait = false) : c ∉ ws := fun hin => by
  rw [h.inWait hin] at hpc
  cases hpc

/-- Whoever waits has been created, so that the walks along the list are long enough. -/
theorem length_le (hn : s.Nodes) (htidy : s.waitList.Tidy ws)
    (h : ∀ d ∈ ws, (s.pc d).InWait = true) :
    ws.length ≤ s.created ∧ ∀ c, s.pc c ≠ .fresh → c ∉ ws → ws.length < s.created := by
  have hlt : ∀ c, s.pc c ≠ .fresh → c < s.created := fun c hc =>
    Nat.lt_of_not_le fun hle => hc ((hn.fresh c).mpr hle)
  have hws : ∀ c ∈ ws, c < s.created := by
    intro c hc
    refine hlt c fun hfresh => ?_
    have hin := h c hc
    rw [hfresh] at hin
    cases hin
  have hbound : ∀ {l : List ℕ}, l.Nodup → (∀ c ∈ l, c < s.created) → l.length ≤ s.created := by
    intro l hl hmem
    have hsub : l.Subperm (List.range s.created) :=
      hl.subperm fun c hc => List.mem_range.mpr (hmem c hc)
    simpa using hsub.length_le
  refine ⟨hbound htidy.nodup hws, fun c hc hout => ?_⟩
  exact hbound (l := c :: ws) (List.nodup_cons.mpr ⟨hout, htidy.nodup⟩)
    (List.forall_mem_cons.mpr ⟨hlt c hc, hws⟩)

theorem inList_iff (htidy : s.waitList.Tidy ws) (hlen : ws.length ≤ s.created) :
    s.InList c ↔ c ∈ ws := by
  have hsearch : s.waitList.search (fun node => node = c) s.created s.waitList.head =
      some (ws.find? fun node => node = c) := by
    rw [htidy.head]
    exact htidy.toRepr.search [] ws _ hlen
  rw [InList, hsearch]
  constructor
  · intro h
    exact List.mem_of_find?_eq_some (Option.some.inj h)
  · intro hc
    obtain ⟨node, hnode⟩ := Option.isSome_iff_exists.mp
      (List.find?_isSome (p := fun node => decide (node = c)).mpr ⟨c, hc, by simp⟩)
    have heq : node = c := by simpa using List.find?_some hnode
    rw [hnode, heq]

/-! ## The steps -/

/-- A step of one call that leaves the list as it is. -/
theorem waits_of_call (h : ∀ d, s.Waits ws d) (hstep : OnlyCall s s' c) (hc : s'.Waits ws c) :
    ∀ d, s'.Waits ws d := by
  intro d
  by_cases hd : d = c
  · exact hd ▸ hc
  · exact (h d).other hstep hd Iff.rfl

/-- A step of one call by which none of its messages moves. -/
theorem onlyCall_goto {pc : CallPc} (hpc : s'.pc = Function.update s.pc c pc)
    (hlate : ∀ d, d ≠ c → s'.late d = s.late d) (hrspMsg : ∀ d, d ≠ c → s'.rspMsg d = s.rspMsg d)
    (hresult : ∀ d, d ≠ c → s'.result d = s.result d) (hsendBuff : s'.sendBuff = s.sendBuff)
    (hwire : s'.wire = s.wire) (hback : s'.back = s.back) (hhand : s'.hand = s.hand)
    (hprocessed : s'.processed = s.processed) : OnlyCall s s' c := by
  refine ⟨fun d hd => ?_, hlate, hrspMsg, hresult, fun d _ => ?_, hhand, hprocessed⟩
  · rw [hpc, Function.update_of_ne hd]
  · rw [flight, flight, hsendBuff, hwire, hback]

/-- The call that an event is a step of. -/
def callOf (s : Calls) : Event → Option ℕ
  | .create _ _ _ _ => some s.created
  | .abort c => some c
  | .queue c _ => some c
  | .link c => some c
  | .wake c _ => some c
  | .readHead c => some c
  | .moveOut c => some c
  | .take c => some c
  | .clearReq c => some c
  | .clearRsp c => some c
  | .release c => some c
  | .finish c => some c
  | _ => none

theorem onlyCall_step (hs : step s e = some s') (hc : s.callOf e = some c) : OnlyCall s s' c := by
  cases move_of_step hs with
  | queue _ addr copy _ _ =>
    cases hc
    refine ⟨fun d hd => Function.update_of_ne hd .., fun _ _ => rfl, fun _ _ => rfl,
      fun _ _ => rfl, fun d hd => ?_, rfl, rfl⟩
    obtain ⟨l, hl, heq⟩ := toList_enqueue s.sendBuff ⟨c, copy⟩
    have hle : countOf (enqueue s.sendBuff ⟨c, copy⟩).toList d ≤ countOf s.sendBuff.toList d := by
      rw [heq, countOf_append, countOf_cons, if_neg hd.symm]
      exact countOf_le hl.sublist d
    exact Nat.add_le_add_right (Nat.add_le_add_right hle _) _
  | wake _ _ _ =>
    cases hc
    exact onlyCall_goto rfl (fun d hd => Function.update_of_ne hd ..) (fun _ _ => rfl)
      (fun _ _ => rfl) rfl rfl rfl rfl rfl
  | take _ _ =>
    cases hc
    exact onlyCall_goto rfl (fun _ _ => rfl) (fun _ _ => rfl)
      (fun d hd => Function.update_of_ne hd ..) rfl rfl rfl rfl rfl
  | clearRsp _ _ =>
    cases hc
    exact onlyCall_goto rfl (fun _ _ => rfl) (fun d hd => Function.update_of_ne hd ..)
      (fun _ _ => rfl) rfl rfl rfl rfl rfl
  | release _ _ =>
    cases hc
    exact onlyCall_goto rfl (fun _ _ => rfl) (fun d hd => Function.update_of_ne hd ..)
      (fun _ _ => rfl) rfl rfl rfl rfl rfl
  | _ =>
    cases hc <;> exact
      onlyCall_goto rfl (fun _ _ => rfl) (fun _ _ => rfl) (fun _ _ => rfl) rfl rfl rfl rfl rfl

/-- A call whose step moves none of its messages and keeps it where it is in the list. -/
theorem Waits.goto (h : s.Waits ws c) (hflight : s'.flight c = s.flight c)
    (hprocessed : s'.processed = s.processed) (hin : c ∈ ws → (s'.pc c).InWait = true)
    (hleaving : (s'.pc c).Leaving = true → s'.late c = true)
    (hbegun : 0 < s.flight c → s'.pc c ≠ .fresh ∧ s'.pc c ≠ .created)
    (hdue : 0 < s.flight c → ¬ s'.Due c) (hearly : (s'.pc c).Early = true → (s.pc c).Early = true) :
    s'.Waits ws c := by
  refine ⟨hin, hleaving, ?_, ?_, fun he => ?_, ?_⟩
  · rw [hflight]
    exact hbegun
  · rw [hflight]
    exact fun hpos hd => absurd hd (hdue hpos)
  · rw [seen, hprocessed]
    exact h.unseen (hearly he)
  · rw [hflight, seen, hprocessed]
    exact h.once

/-- Past the wait, nothing is expected any more. -/
theorem Waits.not_expected (h : s.Waits ws c) (hin : (s.pc c).InWait = false)
    (hqueued : s.pc c ≠ .queued) (hpos : 0 < s.flight c) : ¬ s.Due c := fun hdue => by
  rcases h.expected hpos hdue with hq | hws
  · exact hqueued hq
  · exact h.out hin hws

/-- A call that has got past its wait. -/
theorem Waits.past (h : s.Waits ws c) (hin : (s.pc c).InWait = false) (hqueued : s.pc c ≠ .queued)
    (hflight : s'.flight c = s.flight c) (hprocessed : s'.processed = s.processed)
    (hpc : (s'.pc c).HasTaken = true) (hdue : s'.Due c → s.Due c) : s'.Waits ws c := by
  obtain ⟨-, hleaving, hearly, hbegun⟩ := CallPc.of_hasTaken hpc
  refine h.goto hflight hprocessed (fun hc => absurd hc (h.out hin)) ?_ (fun _ => hbegun)
    (fun hpos hd => h.not_expected hin hqueued hpos (hdue hd)) ?_
  · rw [hleaving]
    nofun
  · rw [hearly]
    nofun

theorem waits_create (h : s.Waits ws s.created) (hn : s.Nodes) {factory : MsgFactory}
    {request : ℕ → PwrMsg} :
    Waits { s with
      factory := factory
      created := s.created + 1
      request := request
      pc := Function.update s.pc s.created .created } ws s.created := by
  have hfresh := (hn.fresh s.created).mpr le_rfl
  have hnone : ¬ 0 < s.flight s.created := fun hpos => (h.begun hpos).1 hfresh
  have hout : s.created ∉ ws := h.out (by rw [hfresh]; rfl)
  refine h.goto rfl rfl (fun hin => absurd hin hout) ?_ (fun hpos => absurd hpos hnone)
    (fun hpos => absurd hpos hnone) fun _ => by rw [hfresh]; rfl
  simp [CallPc.Leaving]

theorem waits_queue (h : s.Waits ws c) (hpc : s.pc c = .created) {copy : PwrMsg} :
    Waits ({ s with sendBuff := enqueue s.sendBuff ⟨c, copy⟩ }.goto c .queued) ws c := by
  have hnone : s.flight c = 0 := Nat.eq_zero_of_not_pos fun hpos => (h.begun hpos).2 hpc
  have hunseen : s.seen c = 0 := h.unseen (by rw [hpc]; rfl)
  have hout : c ∉ ws := h.out (by rw [hpc]; rfl)
  have hflight : Calls.flight ({ s with sendBuff := enqueue s.sendBuff ⟨c, copy⟩ }.goto c .queued) c
      ≤ s.flight c + 1 := by
    obtain ⟨l, hl, heq⟩ := toList_enqueue s.sendBuff ⟨c, copy⟩
    have hle := countOf_le hl.sublist c
    have hone : countOf (enqueue s.sendBuff ⟨c, copy⟩).toList c = countOf l c + 1 := by
      rw [heq, countOf_append, countOf_cons, if_pos rfl]
      rfl
    simp only [flight, goto, hone]
    omega
  refine ⟨fun hin => absurd hin hout, ?_, fun _ => ?_, fun _ _ => .inl ?_, fun _ => hunseen, ?_⟩
  · simp [goto, CallPc.Leaving]
  · simp [goto]
  · simp [goto]
  · have hseen : Calls.seen ({ s with sendBuff := enqueue s.sendBuff ⟨c, copy⟩ }.goto c .queued) c
        = 0 := hunseen
    omega

theorem hasSeqId_own {pid : UInt32} (ht : s.Traced pid) (hn : s.Nodes) {rsp : CallMsg}
    (hrsp : rsp ∈ s.back) (hpc : (s.pc rsp.call).InWait = true) :
    s.hasSeqId rsp.msg.head.seqId rsp.call = true := by
  obtain ⟨hcall, hanswers⟩ := ht.answered rsp hrsp
  have hreq : (s.pc rsp.call).HasReq = true := by
    cases hp : s.pc rsp.call <;> rw [hp] at hpc <;> first | rfl | cases hpc
  rw [hasSeqId, hn.reqMsg, if_pos hreq]
  exact beq_iff_eq.mpr ((ht.seqId rsp.call hcall).trans (ht.seqId_of_answers hcall hanswers).symm)

/-- `FindAndMoveWaitingMsg` finds the node of the call if it is in the list, and no other. -/
theorem find_own {pid : UInt32} (ht : s.Traced pid) (hn : s.Nodes) (htidy : s.waitList.Tidy ws)
    (h : ∀ d, s.Waits ws d) {k : ℕ} {rsp : CallMsg} {found : Option ℕ} {waitList : DList ℕ}
    (hrsp : s.back[k]? = some rsp) (ho : s.Ordered (.find k))
    (hfind : findAndMoveWaitingMsg s.created s.waitList (s.hasSeqId rsp.msg.head.seqId) =
      some (found, waitList)) :
    found = none ∧ rsp.call ∉ ws ∧ waitList.Tidy ws ∨
      found = some rsp.call ∧ rsp.call ∈ ws ∧ waitList.Tidy (ws.erase rsp.call) := by
  obtain ⟨hlen, -⟩ := length_le hn htidy fun d => (h d).inWait
  rcases findAndMoveWaitingMsg_tidy htidy (s.hasSeqId rsp.msg.head.seqId) hlen with
    ⟨hnone, hres⟩ | ⟨node, waitList', hsome, hres, htidy'⟩
  · obtain ⟨rfl, rfl⟩ := Prod.mk.inj (Option.some.inj (hres.symm.trans hfind))
    refine .inl ⟨rfl, fun hin => ?_, htidy⟩
    have hown := hasSeqId_own ht hn (List.mem_of_getElem? hrsp) ((h rsp.call).inWait hin)
    exact absurd hown (List.find?_eq_none.mp hnone rsp.call hin)
  · obtain ⟨rfl, rfl⟩ := Prod.mk.inj (Option.some.inj (hres.symm.trans hfind))
    have hin := List.mem_of_find?_eq_some hsome
    have hlt : node < s.created := Nat.lt_of_not_le fun hle => by
      have hpc := (h node).inWait hin
      rw [(hn.fresh node).mpr hle] at hpc
      cases hpc
    obtain rfl := (ho rsp hrsp).2 node hlt ((inList_iff htidy hlen).mpr hin) (List.find?_some hsome)
    exact .inr ⟨rfl, hin, htidy'⟩

/-- A response has reached `ProcessRspMsg`, and its call is not in the list any more. -/
theorem waits_seen (h : ∀ d, s.Waits ws d) {k : ℕ} {rsp : CallMsg} {due : Bool} {ws' : List ℕ}
    (hrsp : s.back[k]? = some rsp) (hqueued : s.pc rsp.call ≠ .queued) (hpc : s'.pc = s.pc)
    (hlate : s'.late = s.late) (hsendBuff : s'.sendBuff = s.sendBuff) (hwire : s'.wire = s.wire)
    (hback : s'.back = s.back.eraseIdx k) (hprocessed : s'.processed = s.processed ++ [(rsp, due)])
    (hout : rsp.call ∉ ws') (hws : ∀ d, d ≠ rsp.call → (d ∈ ws' ↔ d ∈ ws)) :
    ∀ d, s'.Waits ws' d := by
  intro d
  have hd := h d
  have honce := hd.once
  have hcount := countOf_eraseIdx hrsp d
  have hflight : s.flight d = s'.flight d + if rsp.call = d then 1 else 0 := by
    rw [flight, flight, hsendBuff, hwire, hback, hcount]
    omega
  have hseen : s'.seen d = s.seen d + if rsp.call = d then 1 else 0 := by
    rw [seen, hprocessed, List.map_append, countOf_append]
    exact congrArg _ ((countOf_cons _ _ _).trans (Nat.zero_add _))
  by_cases hcall : rsp.call = d
  · subst hcall
    rw [if_pos rfl] at hflight hseen
    have hnone : ¬ 0 < s'.flight rsp.call := by omega
    refine ⟨fun hin => absurd hin hout, ?_, fun hpos => absurd hpos hnone,
      fun hpos => absurd hpos hnone, fun hearly => ?_, by omega⟩
    · rw [hpc, hlate]
      exact hd.late
    · -- the call has queued its request
      obtain ⟨hfresh, hcreated⟩ := hd.begun (by omega)
      rw [hpc] at hearly
      rcases CallPc.eq_of_early hearly with hp | hp | hp
      · exact absurd hp hfresh
      · exact absurd hp hcreated
      · exact absurd hp hqueued
  · rw [if_neg hcall] at hflight hseen
    rw [Nat.add_zero] at hflight hseen
    refine ⟨fun hin => ?_, ?_, fun hpos => ?_, fun hpos hdue => ?_, ?_, by omega⟩
    · rw [hpc]
      exact hd.inWait ((hws d (Ne.symm hcall)).mp hin)
    · rw [hpc, hlate]
      exact hd.late
    · rw [hpc]
      exact hd.begun (hflight ▸ hpos)
    · rw [hpc, hws d (Ne.symm hcall)]
      exact hd.expected (hflight ▸ hpos) ((due_congr (by rw [hpc]) (by rw [hlate])).mp hdue)
    · rw [hpc, hseen]
      exact hd.unseen

/-- `MoveOutWaitingMsg` takes a call's own node off the list if it is there. -/
theorem moveOut_own (hn : s.Nodes) (htidy : s.waitList.Tidy ws)
    (h : ∀ d ∈ ws, (s.pc d).InWait = true) {head : Option ℕ} {waitList : DList ℕ}
    (hpc : s.pc c = .moving head) (ho : s.Ordered (.moveOut c))
    (hmove : moveOutWaitingMsg s.created s.waitList head c = some waitList) :
    waitList.Tidy (ws.erase c) := by
  obtain ⟨hlen, hlt⟩ := length_le hn htidy h
  rcases ho with hhead | ⟨hout, hhead⟩
  · obtain rfl : head = s.waitList.head := by simpa [hpc] using hhead
    obtain ⟨waitList', hres, htidy'⟩ := moveOutWaitingMsg_tidy htidy c hlen
    obtain rfl := Option.some.inj (hres.symm.trans hmove)
    exact htidy'
  · have hc : c ∉ ws := fun hc => hout ((inList_iff htidy hlen).mpr hc)
    have hne : head ≠ some c := by simpa [hpc] using hhead
    have hres := moveOutWaitingMsg_out htidy (hlt c (by simp [hpc]) hc) hc hne
    obtain rfl := Option.some.inj (hres.symm.trans hmove)
    rwa [List.erase_of_not_mem hc]

/-- A call that is off the list before it goes on has no response under way. -/
theorem no_flight_of_found (hn : s.Nodes) (htidy : s.waitList.Tidy ws) (h : ∀ d, s.Waits ws d)
    (hpc : s.pc c = .linked) (ho : ¬ s.InList c) : c ∉ ws ∧ ¬ 0 < s.flight c := by
  obtain ⟨hlen, -⟩ := length_le hn htidy fun d => (h d).inWait
  have hout : c ∉ ws := fun hc => ho ((inList_iff htidy hlen).mpr hc)
  refine ⟨hout, fun hpos => ?_⟩
  rcases (h c).expected hpos (by simp [Due, hpc]) with hq | hws
  · rw [hpc] at hq
    cases hq
  · exact hout hws

/-- The list keeps its order and the calls in it, if the threads keep theirs. -/
theorem waits_step {pid : UInt32} (ht : s.Traced pid) (hn : s.Nodes)
    (htidy : s.waitList.Tidy ws) (h : ∀ d, s.Waits ws d) (ho : s.Ordered e)
    (hs : step s e = some s') : ∃ ws', s'.waitList.Tidy ws' ∧ ∀ d, s'.Waits ws' d := by
  have honly := fun c => @onlyCall_step s s' e c hs
  cases move_of_step hs with
  | create _ _ _ _ _ _ _ =>
    exact ⟨ws, htidy, waits_of_call h (honly _ rfl) (waits_create (h _) hn)⟩
  | queue c _ _ hpc _ => exact ⟨ws, htidy, waits_of_call h (honly c rfl) (waits_queue (h c) hpc)⟩
  | abort c hpc =>
    have hin : (s.pc c).InWait = false := by rcases hpc with hpc | hpc <;> rw [hpc] <;> rfl
    refine ⟨ws, htidy, waits_of_call h (honly c rfl) ((h c).goto rfl rfl
      (fun hc => absurd hc ((h c).out hin)) ?_ (fun _ => ?_) (fun _ => ?_) ?_)⟩ <;>
      simp [Calls.goto, CallPc.Leaving, CallPc.Early, Due]
  | link c hpc =>
    have hout : c ∉ ws := (h c).out (by rw [hpc]; rfl)
    refine ⟨ws ++ [c], addToWaitingListTail_tidy htidy hout, fun d => ?_⟩
    by_cases hd : d = c
    · subst hd
      refine ⟨fun _ => ?_, ?_, fun _ => ?_, fun _ _ => .inr (by simp), ?_, (h d).once⟩ <;>
        simp [Calls.goto, CallPc.InWait, CallPc.Leaving, CallPc.Early]
    · exact (h d).other (honly c rfl) hd (by simp [hd])
  | wake c expired hpc =>
    cases expired with
    | true =>
      refine ⟨ws, htidy, waits_of_call h (honly c rfl) ((h c).goto rfl rfl (fun _ => ?_) (fun _ => ?_)
        (fun _ => ?_) (fun _ => ?_) ?_)⟩ <;>
        simp [Calls.goto, CallPc.InWait, CallPc.Early, Due]
    | false =>
      obtain ⟨hout, hnone⟩ := no_flight_of_found hn htidy h hpc (ho rfl)
      refine ⟨ws, htidy, waits_of_call h (honly c rfl) ((h c).goto rfl rfl
        (fun hc => absurd hc hout) ?_ (fun hpos => absurd hpos hnone)
        (fun hpos => absurd hpos hnone) ?_)⟩ <;>
        simp [Calls.goto, CallPc.Leaving, CallPc.Early]
  | readHead c hpc =>
    have hlate := (h c).late (by rw [hpc]; rfl)
    refine ⟨ws, htidy, waits_of_call h (honly c rfl) ((h c).goto rfl rfl (fun _ => ?_)
      (fun _ => hlate) (fun _ => ?_) (fun _ => ?_) ?_)⟩ <;>
      simp [Calls.goto, CallPc.InWait, CallPc.Early, Due]
  | moveOut c head waitList hpc hmove =>
    have hlate := (h c).late (by rw [hpc]; rfl)
    have hlist := moveOut_own hn htidy (fun d => (h d).inWait) hpc ho hmove
    refine ⟨ws.erase c, hlist, fun d => ?_⟩
    by_cases hd : d = c
    · subst hd
      have hout : d ∉ ws.erase d := fun hin => by
        have := (htidy.nodup.mem_erase_iff.mp hin).1
        exact this rfl
      refine ⟨fun hc => absurd hc hout, ?_, fun _ => ?_, fun _ hdue => ?_, ?_, (h d).once⟩
      · simp [Calls.goto, CallPc.Leaving]
      · simp [Calls.goto]
      · simp [Calls.goto, Due, hlate] at hdue
      · simp [Calls.goto, CallPc.Early]
    · exact (h d).other (honly c rfl) hd (by rw [htidy.nodup.mem_erase_iff]; simp [hd])
  | take c hpc | clearReq c hpc | clearRsp c hpc =>
    exact ⟨ws, htidy, waits_of_call h (honly c rfl) ((h c).past (by rw [hpc]; rfl) (by simp [hpc])
      rfl rfl (by simp [Calls.goto, CallPc.HasTaken]) (by simp [Calls.goto, Due, hpc]))⟩
  | release c hpc =>
    refine ⟨ws, clearLinks_tidy htidy ((h c).out (by rw [hpc]; rfl)), waits_of_call h (honly c rfl)
      ((h c).past (by rw [hpc]; rfl) (by simp [hpc]) rfl rfl ?_ ?_)⟩
    · simp [Calls.goto, CallPc.HasTaken]
    · simp [Calls.goto, Due]
  | finish c hpc =>
    exact ⟨ws, htidy, waits_of_call h (honly c rfl) ((h c).past (by rw [hpc]; rfl) (by simp [hpc])
      rfl rfl (by simp [Calls.goto, CallPc.HasTaken]) (by simp [Calls.goto, Due]))⟩
  | send msg sendBuff hpop =>
    refine ⟨ws, htidy, fun d => (h d).of_flight rfl rfl rfl ?_⟩
    cases msg with
    | none => simp [flight, toList_of_pop_none hpop]
    | some msg =>
      simp only [flight, toList_of_pop_some hpop, countOf_cons, countOf_append, Option.toList_some]
      simp only [countOf, List.map_nil, List.count_nil]
      omega
  | serve k sysId rspCode data dataLen req hreq =>
    refine ⟨ws, htidy, fun d => (h d).of_flight rfl rfl rfl ?_⟩
    have hcount := countOf_eraseIdx hreq d
    simp only [flight, hcount, countOf_append, countOf_cons]
    simp only [countOf, List.map_nil, List.count_nil]
    omega
  | loseRequest k =>
    refine ⟨ws, htidy, fun d => (h d).of_flight rfl rfl rfl ?_⟩
    have hcount := countOf_le (List.eraseIdx_sublist s.wire k) d
    simp only [flight]
    omega
  | loseResponse k =>
    refine ⟨ws, htidy, fun d => (h d).of_flight rfl rfl rfl ?_⟩
    have hcount := countOf_le (List.eraseIdx_sublist s.back k) d
    simp only [flight]
    omega
  | drop k rsp waitList hhand hrsp hfind =>
    rcases find_own ht hn htidy h hrsp ho hfind with ⟨-, hout, htidy'⟩ | ⟨hfound, -⟩
    · exact ⟨ws, htidy', waits_seen h hrsp (ho rsp hrsp).1 rfl rfl rfl rfl rfl rfl hout
        fun _ _ => Iff.rfl⟩
    · cases hfound
  | found k rsp node waitList hhand hrsp hfind =>
    rcases find_own ht hn htidy h hrsp ho hfind with ⟨hfound, -⟩ | ⟨hfound, -, htidy'⟩
    · cases hfound
    · refine ⟨ws.erase rsp.call, htidy', waits_seen h hrsp (ho rsp hrsp).1 rfl rfl rfl rfl rfl rfl
        (fun hin => ?_) fun d hd => ?_⟩
      · exact (htidy.nodup.mem_erase_iff.mp hin).1 rfl
      · rw [htidy.nodup.mem_erase_iff]
        simp [hd]
  | attach node rsp hhand => exact ⟨ws, htidy, fun d => (h d).of_flight rfl rfl rfl le_rfl⟩

end Calls

end PowerApi
