import PowerApi.Waiting

/-!
# No response is lost (`sockclient.c`, `pwrbuffer.c`)

A response that reaches `ProcessRspMsg` belongs to one caller. If that caller has
queued its request and is still waiting it must get the response, and otherwise
the response must be released once. `Accounted` says so of every response that has
reached `ProcessRspMsg` in a run, and `responses_accounted` that it is so in every
run whose steps are `Ordered`.

It is not so in every run: `SendMsgSyn` queues the request before it links the
node, and a response that is faster than that finds no node and is dropped, though
its caller goes on to wait for it (`earlyResponse_not_accounted`).
-/

namespace PowerApi

/-- `node->rspMsg` is NULL again. -/
def CallPc.Cleared : CallPc → Bool
  | rspCleared => true
  | returned => true
  | finished => true
  | _ => false

theorem CallPc.hasTaken_of_cleared {pc : CallPc} (h : pc.Cleared = true) : pc.HasTaken = true := by
  cases pc <;> first | rfl | cases h

namespace Calls

variable {s s' : Calls} {e : Event} {ws : List ℕ} {c d : ℕ} {rsp : CallMsg}

/-- The response is in the hands of the socket thread, or in the node for its caller to
take, or its caller has it. -/
def Held (s : Calls) (rsp : CallMsg) : Prop :=
  s.hand = some (rsp.call, rsp) ∨
    s.rspMsg rsp.call = some rsp ∧ (s.pc rsp.call).HasTaken = false ∨
    s.result rsp.call = some rsp ∧ s.pc rsp.call ≠ .finished

instance (s : Calls) (rsp : CallMsg) : Decidable (s.Held rsp) := by
  unfold Held
  infer_instance

/-- Nothing is lost, leaked or mixed up. -/
structure Accounted (s : Calls) : Prop where
  /-- a caller that was waiting gets the response -/
  due : ∀ rsp, (rsp, true) ∈ s.processed →
    if (s.pc rsp.call).HasTaken then s.result rsp.call = some rsp else s.Held rsp
  /-- a response that nobody has any more was released once -/
  once : ∀ rsp, rsp ∈ s.processed.map Prod.fst →
    s.released.count rsp = if s.Held rsp then 0 else 1
  /-- nobody gets the response to another call -/
  own : ∀ c rsp, s.result c = some rsp → rsp.call = c
  /-- a response is attached only to the node of its caller, which has not taken its result -/
  untaken : ∀ c rsp, s.hand = some (c, rsp) → rsp.call = c ∧ (s.pc c).HasTaken = false

/-- A call and the response to it. -/
structure Kept (s : Calls) (c : ℕ) : Prop where
  early : (s.pc c).Early = true → s.rspMsg c = none
  untaken : (s.pc c).HasTaken = false → s.result c = none
  cleared : (s.pc c).Cleared = true → s.rspMsg c = none
  hand : ∀ rsp, s.hand = some (c, rsp) →
    rsp.call = c ∧ (s.pc c).HasTaken = false ∧ rsp ∈ s.processed.map Prod.fst
  node : ∀ rsp, s.rspMsg c = some rsp → rsp.call = c ∧ rsp ∈ s.processed.map Prod.fst
  result : ∀ rsp, s.result c = some rsp → rsp.call = c ∧ rsp ∈ s.processed.map Prod.fst
  once : ∀ rsp, rsp ∈ s.processed.map Prod.fst → rsp.call = c →
    s.released.count rsp = if s.Held rsp then 0 else 1
  due : ∀ rsp, (rsp, true) ∈ s.processed → rsp.call = c →
    s.Held rsp ∨ (s.pc c).HasTaken = true ∧ s.result c = some rsp

theorem kept_init (pid : UInt32) (c : ℕ) : (init pid).Kept c :=
  ⟨fun _ => rfl, fun _ => rfl, nofun, nofun, nofun, nofun, nofun, nofun⟩

/-- What becomes of a response depends on its own call. -/
theorem held_congr (hpc : s'.pc rsp.call = s.pc rsp.call)
    (hhand : s'.hand = some (rsp.call, rsp) ↔ s.hand = some (rsp.call, rsp))
    (hrspMsg : s'.rspMsg rsp.call = s.rspMsg rsp.call)
    (hresult : s'.result rsp.call = s.result rsp.call) : s'.Held rsp ↔ s.Held rsp := by
  unfold Held
  rw [hpc, hhand, hrspMsg, hresult]

/-- Once its caller has taken its result, a response is with its caller. -/
theorem Kept.held_iff (h : s.Kept c) (hpc : (s.pc c).HasTaken = true) (hcall : rsp.call = c) :
    s.Held rsp ↔ s.result c = some rsp ∧ s.pc c ≠ .finished := by
  subst hcall
  unfold Held
  constructor
  · rintro (hhand | ⟨-, huntaken⟩ | hresult)
    · rw [(h.hand rsp hhand).2.1] at hpc
      cases hpc
    · rw [huntaken] at hpc
      cases hpc
    · exact hresult
  · exact fun hresult => .inr (.inr hresult)

/-- By then nothing is on its way to it from the socket thread's hand. -/
theorem Kept.not_in_hand (h : s.Kept c) (hpc : (s.pc c).HasTaken = true) (rsp : CallMsg) :
    s.hand ≠ some (c, rsp) := by
  intro hhand
  rw [(h.hand rsp hhand).2.1] at hpc
  cases hpc

/-- And a response that was due is the result. -/
theorem Kept.result_of_due (h : s.Kept c) (hpc : (s.pc c).HasTaken = true)
    (hrsp : (rsp, true) ∈ s.processed) (hcall : rsp.call = c) : s.result c = some rsp := by
  rcases h.due rsp hrsp hcall with hold | ⟨-, hresult⟩
  · exact ((h.held_iff hpc hcall).mp hold).1
  · exact hresult

/-- A call that the step is not of. -/
theorem Kept.other (h : s.Kept d) (hstep : OnlyCall s s' c) (hd : d ≠ c) {l : List CallMsg}
    (hreleased : s'.released = s.released ++ l) (hl : ∀ rsp ∈ l, rsp.call = c) : s'.Kept d := by
  have hpc := hstep.pc d hd
  have hrspMsg := hstep.rspMsg d hd
  have hresult := hstep.result d hd
  have hheld : ∀ rsp : CallMsg, rsp.call = d → (s'.Held rsp ↔ s.Held rsp) := by
    rintro rsp rfl
    exact held_congr hpc (by rw [hstep.hand]) hrspMsg hresult
  refine ⟨?_, ?_, ?_, ?_, ?_, ?_, fun rsp hrsp hcall => ?_, fun rsp hrsp hcall => ?_⟩
  · rw [hpc, hrspMsg]
    exact h.early
  · rw [hpc, hresult]
    exact h.untaken
  · rw [hpc, hrspMsg]
    exact h.cleared
  · rw [hpc, hstep.hand, hstep.processed]
    exact h.hand
  · rw [hrspMsg, hstep.processed]
    exact h.node
  · rw [hresult, hstep.processed]
    exact h.result
  · rw [hstep.processed] at hrsp
    have hnone : l.count rsp = 0 := List.count_eq_zero.mpr fun hin =>
      hd (hcall.symm.trans (hl rsp hin))
    simp only [hheld rsp hcall]
    rw [hreleased, List.count_append, hnone]
    exact h.once rsp hrsp hcall
  · rw [hstep.processed] at hrsp
    rw [hheld rsp hcall, hpc, hresult]
    exact h.due rsp hrsp hcall

/-- A step of the call that leaves its response where it is. -/
theorem Kept.goto (h : s.Kept c) (hearly : (s'.pc c).Early = true → (s.pc c).Early = true)
    (hhasTaken : (s'.pc c).HasTaken = (s.pc c).HasTaken)
    (hcleared : (s'.pc c).Cleared = true → s'.rspMsg c = none) (hfinished : s'.pc c ≠ .finished)
    (hunfinished : s.pc c ≠ .finished) (hrspMsg : s'.rspMsg c = s.rspMsg c)
    (hresult : s'.result c = s.result c) (hhand : s'.hand = s.hand)
    (hprocessed : s'.processed = s.processed) (hreleased : s'.released = s.released) :
    s'.Kept c := by
  have hheld : ∀ rsp : CallMsg, rsp.call = c → (s'.Held rsp ↔ s.Held rsp) := by
    rintro rsp rfl
    unfold Held
    rw [hhand, hrspMsg, hresult, hhasTaken]
    simp [hfinished, hunfinished]
  refine ⟨fun he => ?_, ?_, hcleared, ?_, ?_, ?_, fun rsp hrsp hcall => ?_, fun rsp hrsp hcall => ?_⟩
  · rw [hrspMsg]
    exact h.early (hearly he)
  · rw [hhasTaken, hresult]
    exact h.untaken
  · rw [hhasTaken, hhand, hprocessed]
    exact h.hand
  · rw [hrspMsg, hprocessed]
    exact h.node
  · rw [hresult, hprocessed]
    exact h.result
  · rw [hprocessed] at hrsp
    simp only [hheld rsp hcall]
    rw [hreleased]
    exact h.once rsp hrsp hcall
  · rw [hprocessed] at hrsp
    rw [hheld rsp hcall, hhasTaken, hresult]
    exact h.due rsp hrsp hcall

theorem seen_pos (hrsp : rsp ∈ s.processed.map Prod.fst) : 0 < s.seen rsp.call := countOf_pos hrsp

/-- Of a call at most one response has been processed. -/
theorem eq_of_seen {rsp' : CallMsg} (h : s.seen c ≤ 1) (hrsp : rsp ∈ s.processed.map Prod.fst)
    (hrsp' : rsp' ∈ s.processed.map Prod.fst) (hcall : rsp.call = c) (hcall' : rsp'.call = c) :
    rsp = rsp' := by
  have hone : ∀ l : List CallMsg, countOf l c ≤ 1 → rsp ∈ l → rsp' ∈ l → rsp = rsp' := by
    intro l
    induction l with
    | nil => exact fun _ hin => absurd hin List.not_mem_nil
    | cons m l ih =>
      intro hle hin hin'
      rw [countOf_cons] at hle
      -- two responses would count twice
      have hhead : ∀ x ∈ l, x.call = c → m.call ≠ c := by
        rintro x hx rfl hm
        have hpos := countOf_pos hx
        rw [if_pos hm] at hle
        omega
      rcases List.mem_cons.mp hin with rfl | hl <;> rcases List.mem_cons.mp hin' with rfl | hl'
      · rfl
      · exact absurd hcall (hhead rsp' hl' hcall')
      · exact absurd hcall' (hhead rsp hl hcall)
      · exact ih (by omega) hl hl'
  exact hone _ h hrsp hrsp'

/-! ## The steps -/

theorem kept_abort (h : s.Kept c) (hw : s.Waits ws c) (hpc : (s.pc c).Early = true) :
    (s.goto c .returned).Kept c := by
  have hnone : ∀ rsp, rsp ∈ s.processed.map Prod.fst → rsp.call ≠ c := by
    rintro rsp hrsp rfl
    have hpos := seen_pos hrsp
    have hunseen := hw.unseen hpc
    omega
  have huntaken : (s.pc c).HasTaken = false := by
    rcases CallPc.eq_of_early hpc with hp | hp | hp <;> rw [hp] <;> rfl
  have hrspMsg : s.rspMsg c = none := h.early hpc
  have hresult : s.result c = none := h.untaken huntaken
  refine ⟨fun _ => hrspMsg, fun _ => hresult, fun _ => hrspMsg, fun rsp hhand => ?_,
    fun rsp hrsp => ?_, fun rsp hrsp => ?_, fun rsp hrsp hcall => absurd hcall (hnone rsp hrsp),
    fun rsp hrsp hcall => absurd hcall (hnone rsp (List.mem_map_of_mem hrsp))⟩
  · obtain ⟨hcall, -, hin⟩ := h.hand rsp hhand
    exact absurd hcall (hnone rsp hin)
  · exact absurd (hrspMsg.symm.trans hrsp) nofun
  · exact absurd (hresult.symm.trans hrsp) nofun

theorem kept_take (h : s.Kept c) (hpc : s.pc c = .ready) (hhand : ∀ rsp, s.hand ≠ some (c, rsp)) :
    Kept ({ s with result := Function.update s.result c (s.rspMsg c) }.goto c .taken) c := by
  have hresult : s.result c = none := h.untaken (by rw [hpc]; rfl)
  have hheld : ∀ rsp : CallMsg, rsp.call = c →
      (Held ({ s with result := Function.update s.result c (s.rspMsg c) }.goto c .taken) rsp ↔
        s.Held rsp) := by
    rintro rsp rfl
    have hhand' := hhand rsp
    simp [Held, Calls.goto, CallPc.HasTaken, hpc, hresult, hhand']
  refine ⟨?_, ?_, ?_, fun rsp hh => absurd hh (hhand rsp), h.node, fun rsp hrsp => h.node rsp ?_,
    fun rsp hrsp hcall => ?_, fun rsp hrsp hcall => .inl ?_⟩
  · simp [Calls.goto, CallPc.Early]
  · simp [Calls.goto, CallPc.HasTaken]
  · simp [Calls.goto, CallPc.Cleared]
  · simpa [Calls.goto] using hrsp
  · simp only [hheld rsp hcall]
    exact h.once rsp hrsp hcall
  · rw [hheld rsp hcall]
    rcases h.due rsp hrsp hcall with hold | ⟨htaken, -⟩
    · exact hold
    · rw [hpc] at htaken
      cases htaken

theorem kept_clearRsp (h : s.Kept c) (hpc : s.pc c = .reqCleared) :
    Kept ({ s with rspMsg := Function.update s.rspMsg c none }.goto c .rspCleared) c := by
  have htaken : (s.pc c).HasTaken = true := by rw [hpc]; rfl
  have hhand := h.not_in_hand htaken
  have hheld : ∀ rsp : CallMsg, rsp.call = c →
      (Held ({ s with rspMsg := Function.update s.rspMsg c none }.goto c .rspCleared) rsp ↔
        s.Held rsp) := by
    rintro rsp rfl
    have hhand' := hhand rsp
    simp [Held, Calls.goto, CallPc.HasTaken, hpc, hhand']
  refine ⟨?_, ?_, ?_, fun rsp hh => absurd hh (hhand rsp), fun rsp hrsp => ?_, h.result,
    fun rsp hrsp hcall => ?_, fun rsp hrsp hcall => .inr ⟨?_, ?_⟩⟩
  · simp [Calls.goto, CallPc.Early]
  · simp [Calls.goto, CallPc.HasTaken]
  · simp [Calls.goto]
  · simp [Calls.goto] at hrsp
  · simp only [hheld rsp hcall]
    exact h.once rsp hrsp hcall
  · simp [Calls.goto, CallPc.HasTaken]
  · exact h.result_of_due htaken hrsp hcall

theorem kept_finish (h : s.Kept c) (hpc : s.pc c = .returned) :
    Kept ({ s with released := s.released ++ (s.result c).toList }.goto c .finished) c := by
  have htaken : (s.pc c).HasTaken = true := by rw [hpc]; rfl
  have hhand := h.not_in_hand htaken
  refine ⟨?_, ?_, fun _ => h.cleared (by rw [hpc]; rfl), fun rsp hh => absurd hh (hhand rsp),
    h.node, h.result, fun rsp hrsp hcall => ?_, fun rsp hrsp hcall => .inr ⟨?_, ?_⟩⟩
  · simp [Calls.goto, CallPc.Early]
  · simp [Calls.goto, CallPc.HasTaken]
  · have hgone : ¬ Held ({ s with released := s.released ++ (s.result c).toList }.goto c .finished)
        rsp := by
      subst hcall
      have hhand' := hhand rsp
      simp [Held, Calls.goto, CallPc.HasTaken, hhand']
    have honce := h.once rsp hrsp hcall
    simp only [h.held_iff htaken hcall] at honce
    rw [if_neg hgone]
    dsimp only [Calls.goto]
    rw [List.count_append, honce]
    cases hresult : s.result c with
    | none => simp
    | some res =>
      by_cases hres : res = rsp
      · simp [hres, hpc]
      · simp [hres]
  · simp [Calls.goto, CallPc.HasTaken]
  · exact h.result_of_due htaken hrsp hcall

/-- A response on its way is the first one to its call. -/
theorem Waits.first {k : ℕ} (hw : s.Waits ws rsp.call) (hrsp : s.back[k]? = some rsp) :
    0 < s.flight rsp.call ∧ ∀ rsp' ∈ s.processed.map Prod.fst, rsp'.call ≠ rsp.call := by
  have hback := countOf_pos (List.mem_of_getElem? hrsp)
  have hpos : 0 < s.flight rsp.call := by
    unfold flight
    omega
  refine ⟨hpos, fun rsp' hrsp' hcall => ?_⟩
  have hseen := seen_pos hrsp'
  have honce := hw.once
  rw [hcall] at hseen
  omega

section ProcessRspMsg

variable {k : ℕ} (h : ∀ d, s.Kept d) (hw : s.Waits ws rsp.call) (hhand : s.hand = none)
  (hreleased : ∀ rsp ∈ s.released, rsp ∈ s.processed.map Prod.fst) (hrsp : s.back[k]? = some rsp)

include h hw hhand hreleased hrsp

theorem kept_drop {waitList : DList ℕ} (hqueued : s.pc rsp.call ≠ .queued) (hout : rsp.call ∉ ws)
    (d : ℕ) : Kept { s with
      waitList := waitList
      back := s.back.eraseIdx k
      processed := s.processed ++ [(rsp, decide (s.Due rsp.call))]
      released := s.released ++ [rsp] } d := by
  obtain ⟨hpos, hfirst⟩ := hw.first hrsp
  have hold : s.processed.map Prod.fst ⊆
      (s.processed ++ [(rsp, decide (s.Due rsp.call))]).map Prod.fst :=
    List.map_subset _ (List.subset_append_left _ _)
  refine ⟨(h d).early, (h d).untaken, (h d).cleared, fun r hr => ?_, fun r hr => ?_,
    fun r hr => ?_, fun r hr hcall => ?_, fun r hr hcall => ?_⟩
  · exact absurd (hhand.symm.trans hr) nofun
  · exact ⟨((h d).node r hr).1, hold ((h d).node r hr).2⟩
  · exact ⟨((h d).result r hr).1, hold ((h d).result r hr).2⟩
  · dsimp only at hr ⊢
    rw [List.map_append] at hr
    rcases List.mem_append.mp hr with hr | hr
    · have hne : rsp ≠ r := fun heq => hfirst r hr (congrArg CallMsg.call heq.symm)
      rw [List.count_append, List.count_singleton, beq_false_of_ne hne]
      exact (h d).once r hr hcall
    · obtain rfl := List.mem_singleton.mp hr
      have hnone : s.released.count r = 0 :=
        List.count_eq_zero.mpr fun hin => hfirst r (hreleased r hin) rfl
      have hlost : ¬ s.Held r := by
        rintro (hh | ⟨hnode, -⟩ | ⟨hresult, -⟩)
        · exact absurd (hhand.symm.trans hh) nofun
        · exact hfirst r ((h r.call).node r hnode).2 rfl
        · exact hfirst r ((h r.call).result r hresult).2 rfl
      rw [List.count_append, hnone, List.count_singleton_self]
      exact (if_neg hlost).symm
  · rcases List.mem_append.mp hr with hr | hr
    · exact (h d).due r hr hcall
    · -- nobody is waiting for a response that finds no node
      obtain ⟨rfl, hdue⟩ := Prod.mk.inj (List.mem_singleton.mp hr)
      rcases hw.expected hpos (of_decide_eq_true hdue.symm) with hq | hin
      · exact absurd hq hqueued
      · exact absurd hin hout

theorem kept_found {waitList : DList ℕ} (htaken : (s.pc rsp.call).HasTaken = false) (d : ℕ) :
    Kept { s with
      waitList := waitList
      back := s.back.eraseIdx k
      processed := s.processed ++ [(rsp, decide (s.Due rsp.call))]
      hand := some (rsp.call, rsp) } d := by
  obtain ⟨hpos, hfirst⟩ := hw.first hrsp
  have hold : s.processed.map Prod.fst ⊆
      (s.processed ++ [(rsp, decide (s.Due rsp.call))]).map Prod.fst :=
    List.map_subset _ (List.subset_append_left _ _)
  have hnew : rsp ∈ (s.processed ++ [(rsp, decide (s.Due rsp.call))]).map Prod.fst := by simp
  -- the other responses are where they were
  have hheld : ∀ r ∈ s.processed.map Prod.fst, Held { s with
      waitList := waitList
      back := s.back.eraseIdx k
      processed := s.processed ++ [(rsp, decide (s.Due rsp.call))]
      hand := some (rsp.call, rsp) } r ↔ s.Held r := by
    intro r hr
    refine held_congr rfl (iff_of_false (fun hh => ?_) fun hh => ?_) rfl rfl
    · exact hfirst r hr (Prod.mk.inj (Option.some.inj hh)).1.symm
    · exact absurd (hhand.symm.trans hh) nofun
  refine ⟨(h d).early, (h d).untaken, (h d).cleared, fun r hr => ?_, fun r hr => ?_,
    fun r hr => ?_, fun r hr hcall => ?_, fun r hr hcall => ?_⟩
  · obtain ⟨rfl, rfl⟩ := Prod.mk.inj (Option.some.inj hr)
    exact ⟨rfl, htaken, hnew⟩
  · exact ⟨((h d).node r hr).1, hold ((h d).node r hr).2⟩
  · exact ⟨((h d).result r hr).1, hold ((h d).result r hr).2⟩
  · dsimp only at hr
    rw [List.map_append] at hr
    rcases List.mem_append.mp hr with hr | hr
    · simp only [hheld r hr]
      exact (h d).once r hr hcall
    · obtain rfl := List.mem_singleton.mp hr
      rw [if_pos (.inl rfl)]
      exact List.count_eq_zero.mpr fun hin => hfirst r (hreleased r hin) rfl
  · rcases List.mem_append.mp hr with hr | hr
    · rw [hheld r (List.mem_map_of_mem hr)]
      exact (h d).due r hr hcall
    · obtain ⟨rfl, -⟩ := Prod.mk.inj (List.mem_singleton.mp hr)
      exact .inl (.inl rfl)

end ProcessRspMsg

theorem kept_attach (h : ∀ d, s.Kept d) {node : ℕ} (hw : s.Waits ws node)
    (hhand : s.hand = some (node, rsp)) (d : ℕ) :
    Kept { s with rspMsg := Function.update s.rspMsg node (some rsp), hand := none } d := by
  obtain ⟨rfl, htaken, hin⟩ := (h node).hand rsp hhand
  have hheld : ∀ r ∈ s.processed.map Prod.fst, Held { s with
      rspMsg := Function.update s.rspMsg rsp.call (some rsp), hand := none } r ↔ s.Held r := by
    intro r hr
    by_cases hcall : r.call = rsp.call
    · -- it was in the hands, and is in the node
      have honce := hw.once
      obtain rfl := eq_of_seen (by omega) hr hin hcall rfl
      exact iff_of_true (.inr (.inl ⟨Function.update_self .., htaken⟩)) (.inl hhand)
    · refine held_congr rfl (iff_of_false nofun fun hh => ?_) (Function.update_of_ne hcall ..) rfl
      exact hcall (Prod.mk.inj (Option.some.inj (hhand.symm.trans hh))).1.symm
  refine ⟨fun he => ?_, (h d).untaken, fun hc => ?_, nofun, fun r hr => ?_, (h d).result,
    fun r hr hcall => ?_, fun r hr hcall => ?_⟩
  · by_cases hd : d = rsp.call
    · -- a call without a node gets no response
      have hseen := seen_pos hin
      have hunseen := hw.unseen (hd ▸ he)
      omega
    · exact (Function.update_of_ne hd ..).trans ((h d).early he)
  · by_cases hd : d = rsp.call
    · have hpc := CallPc.hasTaken_of_cleared hc
      rw [hd] at hpc
      exact absurd (htaken.symm.trans hpc) nofun
    · exact (Function.update_of_ne hd ..).trans ((h d).cleared hc)
  · dsimp only at hr
    rw [Function.update_apply] at hr
    split at hr
    · obtain rfl := Option.some.inj hr
      exact ⟨by symm; assumption, hin⟩
    · exact (h d).node r hr
  · simp only [hheld r hr]
    exact (h d).once r hr hcall
  · rw [hheld r (List.mem_map_of_mem hr)]
    exact (h d).due r hr hcall

/-- The invariant of the runs whose steps are ordered. -/
structure Orderly (pid : UInt32) (s : Calls) : Prop extends Traced pid s, Nodes s where
  list : ∃ ws, s.waitList.Tidy ws ∧ ∀ c, s.Waits ws c
  kept : ∀ c, s.Kept c
  released_sub : ∀ rsp ∈ s.released, rsp ∈ s.processed.map Prod.fst

theorem orderly_init (pid : UInt32) : (init pid).Orderly pid :=
  ⟨traced_init pid, nodes_init pid, ⟨[], DList.tidy_empty, waits_init pid⟩, kept_init pid, nofun⟩

/-- A step of one call that releases nothing. -/
theorem kept_of_call (h : ∀ d, s.Kept d) (hstep : OnlyCall s s' c)
    (hreleased : s'.released = s.released) (hc : s'.Kept c) : ∀ d, s'.Kept d := by
  intro d
  by_cases hd : d = c
  · exact hd ▸ hc
  · exact (h d).other hstep hd (hreleased.trans (List.append_nil _).symm) nofun

theorem Orderly.kept_step {pid : UInt32} (h : s.Orderly pid) (ho : s.Ordered e)
    (hs : step s e = some s') : ∀ d, s'.Kept d := by
  obtain ⟨ht, hn, ⟨ws, htidy, hw⟩, hk, hsub⟩ := h
  have honly := fun c => @onlyCall_step s s' e c hs
  cases move_of_step hs with
  | create _ _ _ _ _ _ _ =>
    have hpc := (hn.fresh s.created).mpr le_rfl
    refine kept_of_call hk (honly _ rfl) rfl ((hk _).goto ?_ ?_ ?_ ?_ ?_ rfl rfl rfl rfl rfl) <;>
      simp [hpc, CallPc.Early, CallPc.HasTaken, CallPc.Cleared]
  | abort c hpc =>
    refine kept_of_call hk (honly c rfl) rfl (kept_abort (hk c) (hw c) ?_)
    rcases hpc with hpc | hpc <;> rw [hpc] <;> rfl
  | queue c _ _ hpc _ =>
    refine kept_of_call hk (honly c rfl) rfl ((hk c).goto ?_ ?_ ?_ ?_ ?_ rfl rfl rfl rfl rfl) <;>
      simp [hpc, Calls.goto, CallPc.Early, CallPc.HasTaken, CallPc.Cleared]
  | link c hpc =>
    refine kept_of_call hk (honly c rfl) rfl ((hk c).goto ?_ ?_ ?_ ?_ ?_ rfl rfl rfl rfl rfl) <;>
      simp [hpc, Calls.goto, CallPc.Early, CallPc.HasTaken, CallPc.Cleared]
  | wake c expired hpc =>
    refine kept_of_call hk (honly c rfl) rfl ((hk c).goto ?_ ?_ ?_ ?_ ?_ rfl rfl rfl rfl rfl) <;>
      cases expired <;> simp [hpc, Calls.goto, CallPc.Early, CallPc.HasTaken, CallPc.Cleared]
  | readHead c hpc =>
    refine kept_of_call hk (honly c rfl) rfl ((hk c).goto ?_ ?_ ?_ ?_ ?_ rfl rfl rfl rfl rfl) <;>
      simp [hpc, Calls.goto, CallPc.Early, CallPc.HasTaken, CallPc.Cleared]
  | moveOut c head waitList hpc _ =>
    refine kept_of_call hk (honly c rfl) rfl ((hk c).goto ?_ ?_ ?_ ?_ ?_ rfl rfl rfl rfl rfl) <;>
      simp [hpc, Calls.goto, CallPc.Early, CallPc.HasTaken, CallPc.Cleared]
  | take c hpc =>
    exact kept_of_call hk (honly c rfl) rfl
      (kept_take (hk c) hpc fun rsp hhand => ho (c, rsp) hhand rfl)
  | clearReq c hpc =>
    refine kept_of_call hk (honly c rfl) rfl ((hk c).goto ?_ ?_ ?_ ?_ ?_ rfl rfl rfl rfl rfl) <;>
      simp [hpc, Calls.goto, CallPc.Early, CallPc.HasTaken, CallPc.Cleared]
  | clearRsp c hpc => exact kept_of_call hk (honly c rfl) rfl (kept_clearRsp (hk c) hpc)
  | release c hpc =>
    -- the node holds no response any more
    have hnone : s.rspMsg c = none := (hk c).cleared (by rw [hpc]; rfl)
    have hreleased : s.released ++ (s.rspMsg c).toList = s.released := by simp [hnone]
    refine kept_of_call hk (honly c rfl) hreleased
      ((hk c).goto ?_ ?_ ?_ ?_ ?_ ?_ rfl rfl rfl hreleased) <;>
      simp [hpc, hnone, Calls.goto, CallPc.Early, CallPc.HasTaken]
  | finish c hpc =>
    intro d
    by_cases hd : d = c
    · rw [hd]
      exact kept_finish (hk c) hpc
    · refine (hk d).other (honly c rfl) hd rfl fun rsp hrsp => ?_
      exact ((hk c).result rsp (Option.mem_toList.mp hrsp)).1
  | send _ _ _ =>
    exact fun d => ⟨(hk d).early, (hk d).untaken, (hk d).cleared, (hk d).hand, (hk d).node,
      (hk d).result, (hk d).once, (hk d).due⟩
  | serve _ _ _ _ _ _ _ =>
    exact fun d => ⟨(hk d).early, (hk d).untaken, (hk d).cleared, (hk d).hand, (hk d).node,
      (hk d).result, (hk d).once, (hk d).due⟩
  | loseRequest _ =>
    exact fun d => ⟨(hk d).early, (hk d).untaken, (hk d).cleared, (hk d).hand, (hk d).node,
      (hk d).result, (hk d).once, (hk d).due⟩
  | loseResponse _ =>
    exact fun d => ⟨(hk d).early, (hk d).untaken, (hk d).cleared, (hk d).hand, (hk d).node,
      (hk d).result, (hk d).once, (hk d).due⟩
  | drop k rsp waitList hhand hrsp hfind =>
    rcases find_own ht hn htidy hw hrsp ho hfind with ⟨-, hout, -⟩ | ⟨hfound, -⟩
    · exact kept_drop hk (hw _) hhand hsub hrsp (ho rsp hrsp).1 hout
    · cases hfound
  | found k rsp node waitList hhand hrsp hfind =>
    rcases find_own ht hn htidy hw hrsp ho hfind with ⟨hfound, -⟩ | ⟨hfound, hin, -⟩
    · cases hfound
    · obtain rfl := Option.some.inj hfound
      refine kept_found hk (hw _) hhand hsub hrsp ?_
      have hwait := (hw _).inWait hin
      cases hp : s.pc rsp.call <;> rw [hp] at hwait <;> first | rfl | cases hwait
  | attach node rsp hhand => exact kept_attach hk (hw node) hhand

/-- Only responses that were processed are released. -/
theorem Orderly.released_step {pid : UInt32} (h : s.Orderly pid) (hs : step s e = some s') :
    ∀ rsp ∈ s'.released, rsp ∈ s'.processed.map Prod.fst := by
  intro rsp hrsp
  cases move_of_step hs with
  | release c hpc =>
    rcases List.mem_append.mp hrsp with hrsp | hrsp
    · exact h.released_sub rsp hrsp
    · exact ((h.kept c).node rsp (Option.mem_toList.mp hrsp)).2
  | finish c hpc =>
    rcases List.mem_append.mp hrsp with hrsp | hrsp
    · exact h.released_sub rsp hrsp
    · exact ((h.kept c).result rsp (Option.mem_toList.mp hrsp)).2
  | drop k r _ _ _ _ =>
    rw [List.map_append]
    rcases List.mem_append.mp hrsp with hrsp | hrsp
    · exact List.mem_append_left _ (h.released_sub rsp hrsp)
    · exact List.mem_append_right _ hrsp
  | found k r node _ _ _ _ =>
    rw [List.map_append]
    exact List.mem_append_left _ (h.released_sub rsp hrsp)
  | _ => exact h.released_sub rsp hrsp

theorem Orderly.step {pid : UInt32} (h : s.Orderly pid) (ho : s.Ordered e)
    (hs : Calls.step s e = some s') : s'.Orderly pid := by
  obtain ⟨ws, htidy, hw⟩ := h.list
  exact ⟨h.toTraced.step h.toNodes hs, h.toNodes.step hs,
    waits_step h.toTraced h.toNodes htidy hw ho hs, h.kept_step ho hs, h.released_step hs⟩

theorem Orderly.accounted {pid : UInt32} (h : s.Orderly pid) : s.Accounted where
  due := by
    intro rsp hrsp
    rcases (h.kept rsp.call).due rsp hrsp rfl with hheld | ⟨htaken, hresult⟩
    · split
      · exact ((h.kept rsp.call).held_iff ‹_› rfl).mp hheld |>.1
      · exact hheld
    · rw [if_pos htaken]
      exact hresult
  once rsp hrsp := (h.kept rsp.call).once rsp hrsp rfl
  own c rsp hrsp := ((h.kept c).result rsp hrsp).1
  untaken c rsp hhand :=
    have hand := (h.kept c).hand rsp hhand
    ⟨hand.1, hand.2.1⟩

/-- **No response is lost**: in a run whose steps are all ordered, after every step every
response that has reached `ProcessRspMsg` is accounted for. -/
theorem responses_accounted (pid : UInt32) (events : List Event)
    (hordered : Transition.Along step (fun s e _ => s.Ordered e) (init pid) events) :
    Transition.Along step (fun _ _ s' => s'.Accounted) (init pid) events :=
  Transition.Along.of_invariant
    (fun h hs ho => ⟨h.step ho hs, (h.step ho hs).accounted⟩) (orderly_init pid) hordered

/-- One call gets its response, and the next one times out before its response comes. -/
def oneLate : List Event :=
  [.create .comRequestControlAuth 0 0 .null, .queue 0 0, .link 0, .send, .serve 0 7 0 .null 0,
    .find 0, .attach, .wake 0 false, .take 0, .clearReq 0, .clearRsp 0, .release 0, .finish 0,
    .create .comReleaseControlAuth 0 0 .null, .queue 1 0, .link 1, .send, .wake 1 true,
    .readHead 1, .moveOut 1, .serve 0 7 0 .null 0, .find 0, .take 1, .clearReq 1, .clearRsp 1,
    .release 1, .finish 1]

theorem responses_accounted_oneLate :
    ((Transition.run step (init 7) oneLate).map fun s =>
        ((s.result 0).map CallMsg.call, s.result 1, s.released.map CallMsg.call)) =
      some (some 0, none, [0, 1]) ∧
    Transition.Along step (fun _ _ s' => s'.Accounted) (init 7) oneLate :=
  ⟨by decide, responses_accounted 7 oneLate (by decide)⟩

/-- The response comes before the node is linked. -/
def earlyResponse : List Event :=
  [.create .comRequestControlAuth 0 0 .null, .queue 0 0, .send, .serve 0 7 0 .null 0, .find 0]

/-- It is dropped, though its caller goes on to wait for it. -/
theorem earlyResponse_not_accounted :
    ¬ Transition.Along step (fun _ _ s' => s'.Accounted) (init 7) earlyResponse := by
  intro h
  have hlast := (h _ rfl).2 _ rfl |>.2 _ rfl |>.2 _ rfl |>.2 _ rfl
  have hdue := hlast.1.due _ List.mem_cons_self
  exact absurd hdue (by decide)

end Calls

end PowerApi
