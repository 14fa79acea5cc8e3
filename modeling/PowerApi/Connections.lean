import PowerApi.ClientTable
import PowerApi.Transition

/-!
# The client table over whole runs (`pwrclient.c`)

The table together with the descriptors it is responsible for: those that `accept` has
delivered, that were handed over successfully, and that are still open. A descriptor
that `accept` delivers is none of these. What is closed while it is not open is kept in
`stray`, a descriptor closed twice for instance; closing `INVALID_FD` does nothing.

`Faithful` says that the table is a map from system ids to open connections, one slot for
each; `connections_faithful` that it is after every step of every run.
-/

namespace PowerApi

open ClientTable

/-- The table and the descriptors that were handed over to it. -/
structure Connections where
  clients : ClientTable
  /-- those that are open -/
  opened : Finset Int
  /-- those that were closed while they were not open -/
  stray : List Int
  deriving DecidableEq

namespace Connections

variable {s s' : Connections}

/-- `close`. -/
def close (s : Connections) (fd : Int) : Connections :=
  if fd = invalidFd then s
  else if fd ∈ s.opened then { s with opened := s.opened.erase fd }
  else { s with stray := s.stray ++ [fd] }

/-- What happens to the table. -/
inductive Op where
  | add (newClient : PwrClient)
  | delete (idx : Option (Fin maxClientNum))
  | closeAll

/-- After `InitPwrClient`. -/
def init : Connections := ⟨initPwrClient, ∅, []⟩

/-- After a call that has left the table `clients` and closed some descriptors. -/
def after (s : Connections) (clients : ClientTable) (closed : List Int) : Connections :=
  { closed.foldl close s with clients := clients }

/-- After `AddToClientList` has been given the descriptor `fd`. -/
def afterAdd (s : Connections) (fd : Int) (r : RtnCode × ClientTable × List Int) : Connections :=
  let s := s.after r.2.1 r.2.2
  if r.1 = .success then { s with opened := insert fd s.opened } else s

/-- One call. `accept` delivers a descriptor that is not open, and the system id is not
negative as an `int`. -/
def step (s : Connections) : Op → Option Connections
  | .add newClient =>
    if 0 ≤ newClient.fd ∧ newClient.fd ∉ s.opened ∧ newClient.sysId.toNat < 2 ^ 31 then
      some (s.afterAdd newClient.fd (addToClientList s.clients newClient))
    else none
  | .delete idx =>
    let (_, clients, closed) := deleteFromClientList s.clients idx
    some (s.after clients closed)
  | .closeAll =>
    let (clients, closed) := closeAllConnections s.clients
    some (s.after clients closed)

/-- The slot holds a connection. -/
def Live (clients : ClientTable) (i : Fin maxClientNum) : Prop := (clients i).fd ≠ invalidFd

instance (clients : ClientTable) (i : Fin maxClientNum) : Decidable (Live clients i) := by
  unfold Live
  infer_instance

/-- The table maps system ids to open connections. -/
structure Faithful (s : Connections) : Prop where
  /-- a slot is free by both marks or by none -/
  free : ∀ i, (s.clients i).fd = invalidFd ↔ (s.clients i).sysId = invalidSysId
  sysIds : ∀ i j, Live s.clients i → Live s.clients j →
    (s.clients i).sysId = (s.clients j).sysId → i = j
  fds : ∀ i j, Live s.clients i → (s.clients i).fd = (s.clients j).fd → i = j
  opened : ∀ fd, fd ∈ s.opened ↔ ∃ i, Live s.clients i ∧ (s.clients i).fd = fd
  closed : s.stray = []

theorem faithful_init : init.Faithful where
  free _ := iff_of_true rfl rfl
  sysIds _ _ h := absurd rfl h
  fds _ _ h := absurd rfl h
  opened fd := iff_of_false (Finset.notMem_empty fd) fun ⟨_, h, _⟩ => h rfl
  closed := rfl

theorem ne_invalidFd {fd : Int} (h : 0 ≤ fd) : fd ≠ invalidFd := by
  rintro rfl
  exact absurd h (by decide)

theorem ne_invalidSysId {sysId : UInt32} (h : sysId.toNat < 2 ^ 31) : sysId ≠ invalidSysId := by
  rintro rfl
  exact absurd h (by decide)

/-! ## Looking up -/

/-- `GetFdBySysId` gives the connection that is registered under the id, or `INVALID_FD`. -/
theorem Faithful.getFdBySysId (h : s.Faithful) (sysId : UInt32) :
    (∃ i, Live s.clients i ∧ (s.clients i).sysId = sysId ∧
      getFdBySysId s.clients sysId = (s.clients i).fd) ∨
    ¬ Connected s.clients sysId ∧ getFdBySysId s.clients sysId = invalidFd := by
  unfold ClientTable.getFdBySysId
  cases hfirst : Slots.first fun i => (s.clients i).sysId = sysId with
  | none =>
    refine .inr ⟨?_, rfl⟩
    rintro ⟨i, -, hid⟩
    exact Slots.first_eq_none.mp hfirst i hid
  | some i =>
    have hid := Slots.first_spec hfirst
    by_cases hlive : Live s.clients i
    · exact .inl ⟨i, hlive, hid, rfl⟩
    · -- a free slot is found under the id that marks free slots, which nobody has
      have hfree : (s.clients i).fd = invalidFd := not_not.mp hlive
      refine .inr ⟨?_, hfree⟩
      rintro ⟨j, hj, hjd⟩
      refine hj ((h.free j).mpr ?_)
      rw [hjd, ← hid]
      exact (h.free i).mp hfree

/-! ## Registering -/

/-- What `AddToClientList` does with a connection: the one registered under the same id is
replaced, or a free slot is taken, or the table is full. -/
inductive Adds (clients : ClientTable) (c : PwrClient) : RtnCode × ClientTable × List Int → Prop
  | reconnect (i : Fin maxClientNum) (hlive : Live clients i) (hid : (clients i).sysId = c.sysId) :
    Adds clients c (.success, Function.update clients i c, [(clients i).fd])
  | new (i : Fin maxClientNum) (hnew : ¬ Connected clients c.sysId) (hfree : ¬ Live clients i) :
    Adds clients c (.success, Function.update clients i c, [])
  | full (hnew : ¬ Connected clients c.sysId) (hfull : ∀ i, Live clients i) :
    Adds clients c (.errOverMaxConnection, clients, [])

theorem Faithful.adds (h : s.Faithful) {c : PwrClient} (hfd : c.fd ≠ invalidFd)
    (hid : c.sysId ≠ invalidSysId) : Adds s.clients c (addToClientList s.clients c) := by
  rcases addToClientList_cases s.clients hfd with
    ⟨i, hsame, heq⟩ | ⟨hother, ⟨i, hfree, heq⟩ | ⟨hfull, heq⟩⟩ <;> rw [heq]
  · exact .reconnect i (fun hfree => hid (hsame ▸ (h.free i).mp hfree)) hsame
  · exact .new i (fun ⟨j, _, hj⟩ => hother j hj) (not_not.mpr hfree)
  · exact .full (fun ⟨j, _, hj⟩ => hother j hj) hfull

/-! ## Closing -/

theorem close_invalidFd (s : Connections) : s.close invalidFd = s := if_pos rfl

/-- Closing descriptors that are open, one after the other. -/
theorem foldl_close {fds : List Int} (hnodup : fds.Nodup) (hvalid : ∀ fd ∈ fds, fd ≠ invalidFd)
    (hopen : ∀ fd ∈ fds, fd ∈ s.opened) :
    fds.foldl close s = { s with opened := s.opened \ fds.toFinset } := by
  induction fds generalizing s with
  | nil => simp
  | cons fd fds ih =>
    obtain ⟨hfd, hnodup⟩ := List.nodup_cons.mp hnodup
    have hclose : s.close fd = { s with opened := s.opened.erase fd } := by
      rw [close, if_neg (hvalid fd List.mem_cons_self), if_pos (hopen fd List.mem_cons_self)]
    rw [List.foldl_cons, hclose, ih hnodup fun fd' h => hvalid fd' (List.mem_cons_of_mem _ h)]
    · dsimp only
      rw [List.toFinset_cons, Finset.sdiff_insert, Finset.erase_sdiff_comm]
    · intro fd' h
      have hne : fd' ≠ fd := fun heq => hfd (heq ▸ h)
      exact Finset.mem_erase.mpr ⟨hne, hopen fd' (List.mem_cons_of_mem _ h)⟩

theorem Faithful.close_live (h : s.Faithful) {i : Fin maxClientNum} (hlive : Live s.clients i) :
    s.close (s.clients i).fd = { s with opened := s.opened.erase (s.clients i).fd } := by
  rw [close, if_neg hlive, if_pos ((h.opened _).mpr ⟨i, hlive, rfl⟩)]

/-- The loop of `CloseAllConnections` over some of the slots. -/
theorem foldl_closeAll (clients : ClientTable) (closed : List Int) {l : List (Fin maxClientNum)}
    (hnodup : l.Nodup) :
    l.foldl closeSlot (clients, closed) =
    (fun j => if j ∈ l ∧ Live clients j then .none else clients j,
      closed ++ (l.filter fun j => Live clients j).map fun j => (clients j).fd) := by
  induction l generalizing clients closed with
  | nil => simp
  | cons i l ih =>
    obtain ⟨hi, hnodup⟩ := List.nodup_cons.mp hnodup
    rw [List.foldl_cons]
    by_cases hlive : Live clients i
    · rw [closeSlot, if_neg hlive, ih _ _ hnodup, List.filter_cons_of_pos (by simpa using hlive)]
      have hother : ∀ j ∈ l, Function.update clients i PwrClient.none j = clients j := by
        intro j hj
        refine Function.update_of_ne ?_ ..
        rintro rfl
        exact hi hj
      refine Prod.ext (funext fun j => ?_) ?_
      · by_cases hj : j = i
        · subst hj
          simp [hi, hlive]
        · simp [hj, Live]
      · have hfilter : (l.filter fun j => Live (Function.update clients i PwrClient.none) j) =
            l.filter fun j => Live clients j :=
          List.filter_congr fun j hj => by simp only [Live, hother j hj]
        dsimp only
        rw [hfilter, List.map_cons, List.append_assoc, List.singleton_append]
        congr 2
        exact List.map_congr_left fun j hj => by rw [hother j (List.mem_of_mem_filter hj)]
    · rw [closeSlot, if_pos (not_not.mp hlive), ih _ _ hnodup,
        List.filter_cons_of_neg (by simpa using hlive)]
      refine Prod.ext (funext fun j => ?_) rfl
      by_cases hj : j = i
      · subst hj
        simp [hlive]
      · simp [hj]

/-- `CloseAllConnections` frees all slots and closes what was in them. -/
theorem Faithful.closeAll (h : s.Faithful) :
    closeAllConnections s.clients = (initPwrClient,
      ((List.finRange maxClientNum).filter fun j => Live s.clients j).map
        fun j => (s.clients j).fd) := by
  rw [closeAllConnections, foldl_closeAll _ _ (List.nodup_finRange _), List.nil_append]
  refine Prod.ext (funext fun j => ?_) rfl
  dsimp only
  split
  · rfl
  · next hj =>
    have hfree : (s.clients j).fd = invalidFd := by
      simpa [Live, List.mem_finRange] using hj
    have hid := (h.free j).mp hfree
    exact PwrClient.mk.injEq .. ▸ ⟨hfree, hid⟩

/-! ## The steps -/

theorem Faithful.invalidFd_notMem (h : s.Faithful) : invalidFd ∉ s.opened := fun hmem => by
  obtain ⟨i, hlive, hi⟩ := (h.opened _).mp hmem
  exact hlive hi

/-- A slot is emptied, and the connection in it closed. -/
theorem Faithful.clear (h : s.Faithful) (i : Fin maxClientNum) :
    Faithful ⟨Function.update s.clients i .none, s.opened.erase (s.clients i).fd, s.stray⟩ := by
  have hlive : ∀ j, Live (Function.update s.clients i .none) j ↔ j ≠ i ∧ Live s.clients j := by
    intro j
    by_cases hj : j = i
    · subst hj
      simp [Live, PwrClient.none]
    · simp [Live, hj]
  refine ⟨fun j => ?_, fun j k hj hk => ?_, fun j k hj => ?_, fun fd => ?_, h.closed⟩
  · by_cases hj : j = i
    · subst hj
      simp [PwrClient.none]
    · simpa [hj] using h.free j
  · obtain ⟨hji, hj⟩ := (hlive j).mp hj
    obtain ⟨hki, hk⟩ := (hlive k).mp hk
    simpa [hji, hki] using h.sysIds j k hj hk
  · obtain ⟨hji, hj⟩ := (hlive j).mp hj
    by_cases hk : k = i
    · subst hk
      exact fun heq => absurd (by simpa [hji, PwrClient.none] using heq) hj
    · simpa [hji, hk] using h.fds j k hj
  · rw [Finset.mem_erase, h.opened]
    constructor
    · rintro ⟨hne, j, hj, rfl⟩
      have hji : j ≠ i := by
        rintro rfl
        exact hne rfl
      exact ⟨j, (hlive j).mpr ⟨hji, hj⟩, by simp [hji]⟩
    · rintro ⟨j, hj, hfd⟩
      obtain ⟨hji, hj⟩ := (hlive j).mp hj
      simp only [Function.update_of_ne hji] at hfd
      exact ⟨fun heq => hji (h.fds j i hj (hfd.trans heq)), j, hj, hfd⟩

/-- A free slot is taken by a connection that is not open and whose id is not registered. -/
theorem Faithful.fill (h : s.Faithful) {i : Fin maxClientNum} (hfree : ¬ Live s.clients i)
    {c : PwrClient} (hfd : c.fd ≠ invalidFd) (hid : c.sysId ≠ invalidSysId)
    (hfresh : c.fd ∉ s.opened) (hnew : ¬ Connected s.clients c.sysId) :
    Faithful ⟨Function.update s.clients i c, insert c.fd s.opened, s.stray⟩ := by
  have hlive : ∀ j, Live (Function.update s.clients i c) j ↔ j = i ∨ Live s.clients j := by
    intro j
    by_cases hj : j = i
    · subst hj
      simpa [Live] using hfd
    · simp [Live, hj]
  have hother : ∀ j, j ≠ i → Live s.clients j →
      (s.clients j).sysId ≠ c.sysId ∧ (s.clients j).fd ≠ c.fd := fun j _ hj =>
    ⟨fun heq => hnew ⟨j, hj, heq⟩, fun heq => hfresh ((h.opened _).mpr ⟨j, hj, heq⟩)⟩
  refine ⟨fun j => ?_, fun j k hj hk => ?_, fun j k hj => ?_, fun fd => ?_, h.closed⟩
  · by_cases hj : j = i
    · subst hj
      simpa using iff_of_false hfd hid
    · simpa [hj] using h.free j
  · by_cases hji : j = i <;> by_cases hki : k = i
    · exact fun _ => hji.trans hki.symm
    · have hk := ((hlive k).mp hk).resolve_left hki
      simpa [hji, hki] using fun heq => absurd heq.symm (hother k hki hk).1
    · have hj := ((hlive j).mp hj).resolve_left hji
      simpa [hji, hki] using fun heq => absurd heq (hother j hji hj).1
    · have hj := ((hlive j).mp hj).resolve_left hji
      have hk := ((hlive k).mp hk).resolve_left hki
      simpa [hji, hki] using h.sysIds j k hj hk
  · by_cases hji : j = i <;> by_cases hki : k = i
    · exact fun _ => hji.trans hki.symm
    · by_cases hk : Live s.clients k
      · simpa [hji, hki] using fun heq => absurd heq.symm (hother k hki hk).2
      · simpa [hji, hki] using fun heq => absurd (heq.trans (not_not.mp hk)) hfd
    · have hj := ((hlive j).mp hj).resolve_left hji
      simpa [hji, hki] using fun heq => absurd heq (hother j hji hj).2
    · have hj := ((hlive j).mp hj).resolve_left hji
      simpa [hji, hki] using h.fds j k hj
  · rw [Finset.mem_insert, h.opened]
    constructor
    · rintro (rfl | ⟨j, hj, rfl⟩)
      · exact ⟨i, (hlive i).mpr (.inl rfl), by simp⟩
      · have hji : j ≠ i := by
          rintro rfl
          exact hfree hj
        exact ⟨j, (hlive j).mpr (.inr hj), by simp [hji]⟩
    · rintro ⟨j, hj, hfd'⟩
      by_cases hji : j = i
      · subst hji
        simp only [Function.update_self] at hfd'
        exact .inl hfd'.symm
      · simp only [Function.update_of_ne hji] at hfd'
        exact .inr ⟨j, ((hlive j).mp hj).resolve_left hji, hfd'⟩

/-- A connection takes the slot of the one registered under the same id. -/
theorem Faithful.replace (h : s.Faithful) {i : Fin maxClientNum} (hlive : Live s.clients i)
    {c : PwrClient} (hfd : c.fd ≠ invalidFd) (hid : c.sysId ≠ invalidSysId)
    (hfresh : c.fd ∉ s.opened) (hsame : (s.clients i).sysId = c.sysId) :
    Faithful ⟨Function.update s.clients i c, insert c.fd (s.opened.erase (s.clients i).fd),
      s.stray⟩ := by
  have hfree : ¬ Live (Function.update s.clients i PwrClient.none) i := by
    simp [Live, PwrClient.none]
  have hnew : ¬ Connected (Function.update s.clients i PwrClient.none) c.sysId := by
    rintro ⟨j, hj, hjd⟩
    have hji : j ≠ i := by
      rintro rfl
      exact hfree hj
    simp only [Function.update_of_ne hji] at hj hjd
    exact hji (h.sysIds j i hj hlive (hjd.trans hsame.symm))
  have hfill := (h.clear i).fill hfree hfd hid (fun hmem => hfresh (Finset.mem_of_mem_erase hmem))
    hnew
  simpa only [Function.update_idem] using hfill

theorem Faithful.afterAdd (h : s.Faithful) {c : PwrClient} (hfd : c.fd ≠ invalidFd)
    (hid : c.sysId ≠ invalidSysId) (hfresh : c.fd ∉ s.opened) :
    (s.afterAdd c.fd (addToClientList s.clients c)).Faithful := by
  have hadds := h.adds hfd hid
  generalize addToClientList s.clients c = r at hadds ⊢
  cases hadds with
  | reconnect i hlive hsame =>
    rw [Connections.afterAdd, after, List.foldl_cons, List.foldl_nil, h.close_live hlive]
    exact h.replace hlive hfd hid hfresh hsame
  | new i hnew hfree => exact h.fill hfree hfd hid hfresh hnew
  | full hnew hfull => exact h

theorem Faithful.afterDelete (h : s.Faithful) (i : Fin maxClientNum) :
    (s.after (Function.update s.clients i .none) [(s.clients i).fd]).Faithful := by
  have hclear := h.clear i
  rw [after, List.foldl_cons, List.foldl_nil]
  by_cases hlive : Live s.clients i
  · rw [h.close_live hlive]
    exact hclear
  · -- closing `INVALID_FD`
    have hfd : (s.clients i).fd = invalidFd := not_not.mp hlive
    rw [hfd, Finset.erase_eq_of_notMem h.invalidFd_notMem] at hclear
    rw [hfd, close_invalidFd]
    exact hclear

theorem Faithful.afterCloseAll (h : s.Faithful) :
    (s.after (closeAllConnections s.clients).1 (closeAllConnections s.clients).2).Faithful := by
  set fds := ((List.finRange maxClientNum).filter fun j => Live s.clients j).map
    fun j => (s.clients j).fd with hfds
  have hmem : ∀ fd, fd ∈ fds ↔ fd ∈ s.opened := by
    intro fd
    rw [h.opened, hfds]
    simp [List.mem_finRange]
  have hnodup : fds.Nodup := by
    rw [hfds]
    refine List.Nodup.map_on ?_ ((List.nodup_finRange _).filter _)
    intro i hi j _ heq
    exact h.fds i j (by simpa using List.of_mem_filter hi) heq
  have hclosed : s.opened \ fds.toFinset = ∅ := by
    rw [Finset.sdiff_eq_empty_iff_subset]
    exact fun fd hfd => List.mem_toFinset.mpr ((hmem fd).mpr hfd)
  rw [h.closeAll, ← hfds, after, foldl_close hnodup
    (fun fd hfd heq => h.invalidFd_notMem (heq ▸ (hmem fd).mp hfd)) fun fd hfd => (hmem fd).mp hfd,
    hclosed, h.closed]
  exact faithful_init

theorem Faithful.step (h : s.Faithful) {op : Op} (hs : Connections.step s op = some s') :
    s'.Faithful := by
  cases op with
  | add c =>
    rw [Connections.step] at hs
    obtain ⟨⟨hpos, hfresh, hid⟩, hs⟩ := Option.ite_none_right_eq_some.mp hs
    obtain rfl := Option.some.inj hs
    exact h.afterAdd (ne_invalidFd hpos) (ne_invalidSysId hid) hfresh
  | delete idx =>
    obtain rfl := Option.some.inj hs
    cases idx with
    | none => exact h
    | some i => exact h.afterDelete i
  | closeAll =>
    obtain rfl := Option.some.inj hs
    exact h.afterCloseAll

/-! ## Runs -/

/-- Whatever the sequence of calls: the table is a map from system ids to the open
connections, `GetFdBySysId` looks up every 32-bit id in it, and `AddToClientList` replaces
the connection of an id that is registered and rejects a new one when the table is full. -/
theorem connections_faithful {ops : List Op} {t : Connections}
    (hrun : Transition.run step init ops = some t) :
    t.Faithful ∧
    (∀ sysId, (∃ i, Live t.clients i ∧ (t.clients i).sysId = sysId ∧
        getFdBySysId t.clients sysId = (t.clients i).fd) ∨
      ¬ Connected t.clients sysId ∧ getFdBySysId t.clients sysId = invalidFd) ∧
    ∀ c, (step t (.add c)).isSome → Adds t.clients c (addToClientList t.clients c) := by
  have h : t.Faithful :=
    Transition.run_invariant (I := Faithful) (fun h hs => h.step hs) faithful_init hrun
  refine ⟨h, h.getFdBySysId, fun c hc => ?_⟩
  obtain ⟨s', hs⟩ := Option.isSome_iff_exists.mp hc
  obtain ⟨hfd, -, hid⟩ := (Option.ite_none_right_eq_some.mp hs).1
  exact h.adds (ne_invalidFd hfd) (ne_invalidSysId hid)

/-- Two clients, of which one comes again, and the other is deleted. -/
def comeAgain : List Op := [.add ⟨7, 100⟩, .add ⟨8, 200⟩, .add ⟨9, 100⟩, .delete (some 1)]

theorem connections_faithful_comeAgain :
    ∃ t, Transition.run step init comeAgain = some t ∧ t.opened = {9} ∧
      getFdBySysId t.clients 100 = 9 ∧ t.Faithful := by
  refine ⟨_, rfl, by decide, by decide, ?_⟩
  exact (@connections_faithful comeAgain _ rfl).1

end Connections

end PowerApi
