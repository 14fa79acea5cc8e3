import PowerApi.Connections
import PowerApi.Threads

/-!
# Which descriptors the socket loop looks at (`server.c`)

A turn of `RunServerSocketProcess` puts the descriptors of the table into a set, sends,
calls `select`, accepts, and asks for every slot of the table whether its descriptor is in
what `select` has left of the set. In between the table changes: sending frees the slot of
a connection that is gone, `AcceptConnection` fills a slot or replaces what is in it, and
`ProcessRecvMsgFromClient` frees the slot that it cannot read from.

`SocketLoop` is the table with the connections in it, numbered as they were accepted; a
`Turn` is what the system calls of a turn come to. `FD_SET` is guarded by a test for
`INVALID_FD`, `FD_ISSET` is not: it is asked about the `-1` of an empty slot. That
`ProcessRecvMsgFromClient` reads from a connection that was in the set holds nevertheless
where `FD_ISSET` has an answer, unless the connection that is accepted has got the number of one
that was closed while sending.
-/

namespace PowerApi

open ClientTable Connections

/-- `FD_SETSIZE`. -/
def fdSetsize : Int := 1024

/-- A descriptor that a set can hold. -/
def InSet (fd : Int) : Prop := 0 ≤ fd ∧ fd < fdSetsize

instance (fd : Int) : Decidable (InSet fd) := inferInstanceAs (Decidable (_ ∧ _))

/-- The client table and which connection is in a slot. -/
structure SocketLoop where
  clients : ClientTable
  conns : Fin maxClientNum → ℕ
  /-- how many connections were accepted -/
  accepted : ℕ

/-- What the system calls of one turn come to. -/
structure Turn where
  /-- what `CleanClientResource` is called with while sending -/
  dropped : List (Option (Fin maxClientNum))
  /-- what `select` leaves of the set; `none` if its result is not positive -/
  ready : Option (List Int)
  /-- `FD_ISSET` of what is no descriptor of a set -/
  stray : Int → Bool
  /-- the connection that `accept` delivers, and whose it is -/
  accepted : Option PwrClient
  /-- `ReadMsg` of the slot fails -/
  lost : Fin maxClientNum → Bool

/-- What is done with a descriptor or a slot. -/
inductive Touch where
  | fdSet (fd : Int)
  | fdIsset (fd : Int)
  /-- `ProcessRecvMsgFromClient`, and the connection in the slot -/
  | recv (clientIdx : Fin maxClientNum) (conn : Option ℕ)
  deriving DecidableEq

/-- Slots are freed one after the other. -/
def dropAll (clients : ClientTable) (dropped : List (Option (Fin maxClientNum))) : ClientTable :=
  dropped.foldl (fun clients idx => (deleteFromClientList clients idx).2.1) clients

/-- `FD_ISSET`. -/
def Turn.isSet (e : Turn) (fd : Int) : Bool :=
  if InSet fd then fd ∈ e.ready.getD [] else e.stray fd

namespace SocketLoop

/-- After `InitPwrClient`. -/
def init : SocketLoop := ⟨initPwrClient, fun _ => 0, 0⟩

/-- The connection in a slot. -/
def held (s : SocketLoop) (i : Fin maxClientNum) : Option ℕ :=
  if Live s.clients i then some (s.conns i) else none

/-- The descriptors that are put into the set. -/
def watched (listenFd : Int) (s : SocketLoop) : List Int :=
  listenFd :: ((List.finRange maxClientNum).filter fun i => Live s.clients i).map fun i =>
    (s.clients i).fd

/-- `ProcessSendMsgToClient`. -/
def afterSends (s : SocketLoop) (e : Turn) : SocketLoop :=
  { s with clients := dropAll s.clients e.dropped }

/-- `AcceptConnection`. -/
def afterAccept (s : SocketLoop) (e : Turn) : SocketLoop :=
  match e.accepted with
  | none => s
  | some newClient =>
    let clients := (addToClientList s.clients newClient).2.1
    ⟨clients, fun i => if (clients i).fd = newClient.fd then s.accepted else s.conns i,
      s.accepted + 1⟩

/-- The table when the loop over the slots begins. -/
def atScan (listenFd : Int) (s : SocketLoop) (e : Turn) : SocketLoop :=
  if e.isSet listenFd then (s.afterSends e).afterAccept e else s.afterSends e

/-- The loop over the slots. -/
def scan (e : Turn) : List (Fin maxClientNum) → SocketLoop → List Touch × SocketLoop
  | [], s => ([], s)
  | i :: is, s =>
    if e.isSet (s.clients i).fd then
      let r := scan e is
        (if e.lost i then { s with clients := dropAll s.clients [some i] } else s)
      (.fdIsset (s.clients i).fd :: .recv i (s.held i) :: r.1, r.2)
    else
      let r := scan e is s
      (.fdIsset (s.clients i).fd :: r.1, r.2)

/-- A turn of `RunServerSocketProcess`. -/
def turn (listenFd : Int) (s : SocketLoop) (e : Turn) : List Touch × SocketLoop :=
  let sets := (watched listenFd s).map .fdSet
  match e.ready with
  | none => (sets, s.afterSends e)
  | some _ =>
    let r := scan e (List.finRange maxClientNum) (atScan listenFd s e)
    (sets ++ .fdIsset listenFd :: r.1, r.2)

/-- What the system calls can come to: `select` leaves a part of the set, `accept` delivers a
descriptor that is not open. A descriptor that was closed while sending can be in what `select`
leaves: another thread may have opened something with its number. -/
structure Possible (listenFd : Int) (s : SocketLoop) (e : Turn) : Prop where
  subset : ∀ fd ∈ e.ready.getD [], fd ∈ watched listenFd s
  fresh : ∀ newClient ∈ e.accepted, 0 ≤ newClient.fd ∧ newClient.fd ≠ listenFd ∧
    ∀ i, ((s.afterSends e).clients i).fd ≠ newClient.fd

instance (listenFd : Int) (s : SocketLoop) (e : Turn) : Decidable (Possible listenFd s e) :=
  decidable_of_iff ((∀ fd ∈ e.ready.getD [], fd ∈ watched listenFd s) ∧
    ∀ newClient ∈ e.accepted, 0 ≤ newClient.fd ∧ newClient.fd ≠ listenFd ∧
      ∀ i, ((s.afterSends e).clients i).fd ≠ newClient.fd)
    ⟨fun h => ⟨h.1, h.2⟩, fun h => ⟨h.subset, h.fresh⟩⟩

/-- One turn. -/
def step (listenFd : Int) (s : SocketLoop) (e : Turn) : Option SocketLoop :=
  if Possible listenFd s e then some (turn listenFd s e).2 else none

/-- Only descriptors of sets are touched, and `ProcessRecvMsgFromClient` gets a slot whose
connection was in it when the set was made, and is reported. -/
structure Touches (listenFd : Int) (s : SocketLoop) (e : Turn) : Prop where
  inSet : ∀ fd, .fdSet fd ∈ (turn listenFd s e).1 ∨ .fdIsset fd ∈ (turn listenFd s e).1 → InSet fd
  same : ∀ i conn, .recv i conn ∈ (turn listenFd s e).1 → Live s.clients i ∧
    conn = s.held i ∧ (s.clients i).fd ∈ e.ready.getD []

/-- The slot that `AddToClientList` gives to a connection. -/
def slotFor (clients : ClientTable) (newClient : PwrClient) : Option (Fin maxClientNum) :=
  (getClientIdx clients newClient).or (findAvailableSlot clients)

/-- The connection that comes in this turn. -/
def newClient (listenFd : Int) (e : Turn) : Option PwrClient :=
  if listenFd ∈ e.ready.getD [] then e.accepted else none

/-- All connections have descriptors that a set can hold, and where `select` reports
something, the table is full after the sends, or the connection that comes takes the only empty
slot. The one that comes has not got the number of a descriptor that is reported. -/
structure AllInSet (listenFd : Int) (s : SocketLoop) (e : Turn) : Prop where
  listen : InSet listenFd
  watched : ∀ i, Live s.clients i → InSet (s.clients i).fd
  filled : e.ready.isSome → ∀ i, Live (s.afterSends e).clients i ∨
    ∃ c ∈ newClient listenFd e, slotFor (s.afterSends e).clients c = some i
  accepted : ∀ c ∈ newClient listenFd e, (slotFor (s.afterSends e).clients c).isSome →
    InSet c.fd ∧ c.fd ∉ e.ready.getD []

/-! ## What the phases change -/

/-- Some slots are freed. -/
def Freed (clients clients' : ClientTable) : Prop :=
  ∀ i, clients' i = clients i ∨ clients' i = .none

theorem freed_deleteFromClientList (clients : ClientTable) (idx : Option (Fin maxClientNum)) :
    Freed clients (deleteFromClientList clients idx).2.1 := by
  intro i
  cases idx with
  | none => exact .inl rfl
  | some j =>
    by_cases hij : i = j
    · subst hij
      exact .inr (Function.update_self ..)
    · exact .inl (Function.update_of_ne hij ..)

theorem Freed.trans {a b c : ClientTable} (h : Freed a b) (h' : Freed b c) : Freed a c :=
  fun i => (h' i).elim (fun heq => heq ▸ h i) .inr

theorem freed_dropAll (clients : ClientTable) (dropped : List (Option (Fin maxClientNum))) :
    Freed clients (dropAll clients dropped) := by
  induction dropped generalizing clients with
  | nil => exact fun _ => .inl rfl
  | cons idx dropped ih => exact (freed_deleteFromClientList clients idx).trans (ih _)

theorem Freed.of_live {clients clients' : ClientTable} (h : Freed clients clients')
    {i : Fin maxClientNum} (hlive : Live clients' i) : clients' i = clients i :=
  (h i).resolve_right fun hnone => hlive (congrArg PwrClient.fd hnone)

/-- What `AddToClientList` does with a connection: at most one slot changes. -/
theorem add_eq (clients : ClientTable) {c : PwrClient} (hpos : 0 ≤ c.fd) :
    (addToClientList clients c).2.1 =
      (slotFor clients c).elim clients fun k => Function.update clients k c := by
  rw [addToClientList, if_neg (ne_invalidFd hpos), slotFor]
  cases hidx : getClientIdx clients c with
  | some k =>
    have hsame : (clients k).sysId = c.sysId := Slots.first_spec hidx
    dsimp only [Option.or, Option.elim]
    rw [hsame]
  | none =>
    dsimp only [Option.or]
    cases findAvailableSlot clients <;> rfl

theorem add_cases (clients : ClientTable) {c : PwrClient} (hpos : 0 ≤ c.fd) :
    (addToClientList clients c).2.1 = clients ∨
      ∃ k, (addToClientList clients c).2.1 = Function.update clients k c := by
  rw [add_eq clients hpos]
  cases slotFor clients c with
  | none => exact .inl rfl
  | some k => exact .inr ⟨k, rfl⟩

theorem freed_scan (e : Turn) (is : List (Fin maxClientNum)) (s : SocketLoop) :
    Freed s.clients (scan e is s).2.clients := by
  induction is generalizing s with
  | nil => exact fun _ => .inl rfl
  | cons i is ih =>
    rw [scan]
    split
    · refine Freed.trans ?_ (ih _)
      split
      · exact freed_dropAll _ _
      · exact fun _ => .inl rfl
    · exact ih s

theorem scan_conns (e : Turn) (is : List (Fin maxClientNum)) (s : SocketLoop) :
    (scan e is s).2.conns = s.conns ∧ (scan e is s).2.accepted = s.accepted := by
  induction is generalizing s with
  | nil => exact ⟨rfl, rfl⟩
  | cons i is ih =>
    rw [scan]
    split
    · refine (ih _).imp (fun h => h.trans ?_) fun h => h.trans ?_ <;> split <;> rfl
    · exact ih s

/-- Every connection has its number. -/
def Numbered (s : SocketLoop) : Prop := ∀ i, Live s.clients i → s.conns i < s.accepted

theorem Numbered.freed {s t : SocketLoop} (h : Numbered s) (hfreed : Freed s.clients t.clients)
    (hconns : t.conns = s.conns ∧ t.accepted = s.accepted) : Numbered t := by
  intro i hlive
  rw [hconns.1, hconns.2]
  refine h i ?_
  rwa [Live, ← hfreed.of_live hlive]

theorem Numbered.afterAccept {t : SocketLoop} {e : Turn} (h : Numbered t)
    (hpos : ∀ newClient ∈ e.accepted, 0 ≤ newClient.fd) : Numbered (t.afterAccept e) := by
  rw [SocketLoop.afterAccept]
  split <;> rename_i haccepted
  · exact h
  rename_i newClient
  intro i hlive
  dsimp only at hlive ⊢
  split <;> rename_i hfd
  · exact Nat.lt_succ_self _
  · refine Nat.lt_succ_of_lt (h i ?_)
    rcases add_cases t.clients (hpos newClient haccepted) with heq | ⟨k, heq⟩ <;>
      rw [heq] at hlive hfd
    · exact hlive
    · have hik : i ≠ k := by
        rintro rfl
        exact hfd (congrArg PwrClient.fd (Function.update_self ..))
      rwa [Live, Function.update_of_ne hik] at hlive

theorem numbered_atScan {listenFd : Int} {s : SocketLoop} {e : Turn} (h : Numbered s)
    (hpossible : Possible listenFd s e) : Numbered (atScan listenFd s e) := by
  have hsends : Numbered (s.afterSends e) := h.freed (freed_dropAll _ _) ⟨rfl, rfl⟩
  rw [atScan]
  split
  · exact hsends.afterAccept fun c hc => (hpossible.fresh c hc).1
  · exact hsends

theorem Numbered.step {listenFd : Int} {s s' : SocketLoop} {e : Turn} (h : Numbered s)
    (hs : step listenFd s e = some s') : Numbered s' := by
  obtain ⟨hpossible, hs⟩ := Option.ite_none_right_eq_some.mp hs
  obtain rfl := Option.some.inj hs
  rw [turn]
  split
  · exact h.freed (freed_dropAll _ _) ⟨rfl, rfl⟩
  · exact (numbered_atScan h hpossible).freed (freed_scan _ _ _) (scan_conns _ _ _)

/-! ## What the loop over the slots touches -/

section Scan

variable {e : Turn} {is : List (Fin maxClientNum)} {s : SocketLoop} {i : Fin maxClientNum}

/-- Nothing happens to a slot before it is its turn. -/
theorem dropAll_other {clients : ClientTable} {j : Fin maxClientNum} (h : j ≠ i) :
    dropAll clients [some i] j = clients j := Function.update_of_ne h ..

/-- The state in which the loop goes on. -/
theorem exists_scan (e : Turn) (i : Fin maxClientNum) (is : List (Fin maxClientNum))
    (s : SocketLoop) :
    ∃ s', (∀ j, j ≠ i → s'.clients j = s.clients j) ∧ s'.conns = s.conns ∧
      (scan e (i :: is) s).1 = .fdIsset (s.clients i).fd ::
        ((if e.isSet (s.clients i).fd then [.recv i (s.held i)] else []) ++ (scan e is s').1) := by
  rw [scan]
  split
  · refine ⟨if e.lost i then { s with clients := dropAll s.clients [some i] } else s, ?_, ?_, ?_⟩
    · intro j hj
      split
      · exact dropAll_other hj
      · rfl
    · split <;> rfl
    · rfl
  · exact ⟨s, fun _ _ => rfl, rfl, rfl⟩

theorem held_congr {s' : SocketLoop} (hclients : s'.clients i = s.clients i)
    (hconns : s'.conns = s.conns) : s'.held i = s.held i := by
  have hlive : Live s'.clients i ↔ Live s.clients i := by rw [Live, Live, hclients]
  rw [held, held, hconns, if_congr hlive rfl rfl]

/-- It asks for the descriptor of every slot. -/
theorem fdIsset_scan (hnodup : is.Nodup) {fd : Int} :
    .fdIsset fd ∈ (scan e is s).1 ↔ ∃ i ∈ is, (s.clients i).fd = fd := by
  induction is generalizing s with
  | nil => exact iff_of_false nofun nofun
  | cons i is ih =>
    obtain ⟨hi, hnodup⟩ := List.nodup_cons.mp hnodup
    obtain ⟨s', hother, -, hscan⟩ := exists_scan e i is s
    have hrest : (∃ j ∈ is, (s'.clients j).fd = fd) ↔ ∃ j ∈ is, (s.clients j).fd = fd := by
      refine exists_congr fun j => and_congr_right fun hj => ?_
      rw [hother j fun heq => hi (heq ▸ hj)]
    rw [hscan, List.mem_cons, List.mem_append, ih hnodup, hrest, List.exists_mem_cons_iff]
    refine or_congr ⟨fun h => (Touch.fdIsset.inj h).symm, fun h => h ▸ rfl⟩ ?_
    refine or_iff_right fun hmem => ?_
    split at hmem
    · cases List.mem_singleton.mp hmem
    · cases hmem

/-- It calls `ProcessRecvMsgFromClient` for a slot whose descriptor is set. -/
theorem recv_scan (hnodup : is.Nodup) {conn : Option ℕ} (h : .recv i conn ∈ (scan e is s).1) :
    i ∈ is ∧ conn = s.held i ∧ e.isSet (s.clients i).fd = true := by
  induction is generalizing s with
  | nil => cases h
  | cons j is ih =>
    obtain ⟨hj, hnodup⟩ := List.nodup_cons.mp hnodup
    obtain ⟨s', hother, hconns, hscan⟩ := exists_scan e j is s
    rw [hscan] at h
    rcases List.mem_append.mp ((List.mem_cons.mp h).resolve_left nofun) with hmem | hmem
    · split at hmem <;> rename_i hset
      · cases List.mem_singleton.mp hmem
        exact ⟨List.mem_cons_self, rfl, hset⟩
      · cases hmem
    · obtain ⟨hi, hconn, hset⟩ := ih hnodup hmem
      have hij : i ≠ j := fun heq => hj (heq ▸ hi)
      rw [hother i hij] at hset
      exact ⟨List.mem_cons_of_mem _ hi, hconn.trans (held_congr (hother i hij) hconns), hset⟩

/-- And it does so for every such slot. -/
theorem recv_mem_scan (hnodup : is.Nodup) (hi : i ∈ is) (hset : e.isSet (s.clients i).fd = true) :
    .recv i (s.held i) ∈ (scan e is s).1 := by
  induction is generalizing s with
  | nil => cases hi
  | cons j is ih =>
    obtain ⟨hj, hnodup⟩ := List.nodup_cons.mp hnodup
    obtain ⟨s', hother, hconns, hscan⟩ := exists_scan e j is s
    rw [hscan]
    refine List.mem_cons_of_mem _ (List.mem_append.mpr ?_)
    by_cases hij : i = j
    · subst hij
      rw [if_pos hset]
      exact .inl (List.mem_singleton_self _)
    · have hsame := hother i hij
      rw [← held_congr hsame hconns]
      exact .inr (ih hnodup (List.mem_of_ne_of_mem hij hi) (by rwa [hsame]))

theorem fdSet_scan {fd : Int} : .fdSet fd ∉ (scan e is s).1 := by
  induction is generalizing s with
  | nil => exact nofun
  | cons i is ih =>
    obtain ⟨s', -, -, hscan⟩ := exists_scan e i is s
    rw [hscan, List.mem_cons, List.mem_append]
    rintro (h | h | h)
    · cases h
    · split at h
      · cases List.mem_singleton.mp h
      · cases h
    · exact ih h

end Scan

/-! ## A turn in a state that can be reached -/

section Turns

variable {listenFd : Int} {s : SocketLoop} {e : Turn}

theorem mem_watched {fd : Int} :
    fd ∈ watched listenFd s ↔ fd = listenFd ∨ ∃ i, Live s.clients i ∧ (s.clients i).fd = fd := by
  rw [watched, List.mem_cons, List.mem_map]
  refine or_congr_right (exists_congr fun i => and_congr_left fun _ => ?_)
  rw [List.mem_filter, decide_eq_true_iff]
  exact and_iff_right (List.mem_finRange i)

/-- What a turn does to descriptors. -/
theorem mem_turn {fd : Int} :
    .fdSet fd ∈ (turn listenFd s e).1 ∨ .fdIsset fd ∈ (turn listenFd s e).1 ↔
      fd ∈ watched listenFd s ∨ e.ready.isSome ∧
        (fd = listenFd ∨ ∃ i, ((atScan listenFd s e).clients i).fd = fd) := by
  have hset : .fdSet fd ∈ (watched listenFd s).map Touch.fdSet ↔ fd ∈ watched listenFd s :=
    List.mem_map_of_injective fun _ _ => Touch.fdSet.inj
  have hisset : .fdIsset fd ∉ (watched listenFd s).map Touch.fdSet := fun h => by
    obtain ⟨_, -, heq⟩ := List.mem_map.mp h
    cases heq
  rw [turn]
  cases e.ready with
  | none =>
    dsimp only
    rw [hset, or_iff_left hisset]
    exact (or_iff_left fun h => nomatch h.1).symm
  | some ready =>
    have hscan : .fdIsset fd ∈ (scan e (List.finRange maxClientNum) (atScan listenFd s e)).1 ↔
        ∃ i, ((atScan listenFd s e).clients i).fd = fd := by
      rw [fdIsset_scan (List.nodup_finRange _)]
      exact exists_congr fun i => and_iff_right (List.mem_finRange i)
    dsimp only
    rw [List.mem_append, List.mem_append, hset, List.mem_cons, List.mem_cons, hscan,
      or_iff_left fun h : _ ∨ _ => h.elim nofun fdSet_scan, or_iff_right hisset]
    refine or_congr_right ((and_iff_right rfl).trans (or_congr_left ?_)).symm
    exact ⟨fun h => h ▸ rfl, fun h => Touch.fdIsset.inj h⟩

/-- `ProcessRecvMsgFromClient` is called for a slot whose descriptor is set. -/
theorem recv_turn {i : Fin maxClientNum} {conn : Option ℕ}
    (h : .recv i conn ∈ (turn listenFd s e).1) :
    e.ready.isSome ∧ conn = (atScan listenFd s e).held i ∧
      e.isSet ((atScan listenFd s e).clients i).fd = true := by
  have hsets : .recv i conn ∉ (watched listenFd s).map Touch.fdSet := fun h => by
    obtain ⟨_, -, heq⟩ := List.mem_map.mp h
    cases heq
  rw [turn] at h
  cases hready : e.ready with
  | none =>
    rw [hready] at h
    exact absurd h hsets
  | some ready =>
    rw [hready] at h
    have hscan := (List.mem_cons.mp ((List.mem_append.mp h).resolve_left hsets)).resolve_left nofun
    exact ⟨rfl, (recv_scan (List.nodup_finRange _) hscan).2⟩

/-- It is called for every slot whose descriptor is set. -/
theorem recv_mem_turn {i : Fin maxClientNum} (hready : e.ready.isSome)
    (hset : e.isSet ((atScan listenFd s e).clients i).fd = true) :
    .recv i ((atScan listenFd s e).held i) ∈ (turn listenFd s e).1 := by
  have hscan := recv_mem_scan (List.nodup_finRange _) (List.mem_finRange i) hset
  rw [turn]
  cases hr : e.ready with
  | none => exact absurd hready (by simp [hr])
  | some ready => exact List.mem_append_right _ (List.mem_cons_of_mem _ hscan)

/-- The connection that comes is accepted. -/
theorem accepted_of_newClient {c : PwrClient} (hc : newClient listenFd e = some c) :
    listenFd ∈ e.ready.getD [] ∧ e.accepted = some c := by
  rw [newClient] at hc
  split at hc <;> rename_i hset
  · exact ⟨hset, hc⟩
  · cases hc

/-- The table that is scanned. -/
theorem atScan_eq (hpossible : Possible listenFd s e) (hlisten : InSet listenFd) :
    ((newClient listenFd e).bind (slotFor (s.afterSends e).clients) = none ∧
      (atScan listenFd s e).clients = (s.afterSends e).clients ∧
      ∀ i, (atScan listenFd s e).conns i = s.conns i) ∨
    ∃ c k, newClient listenFd e = some c ∧ slotFor (s.afterSends e).clients c = some k ∧
      (atScan listenFd s e).clients = Function.update (s.afterSends e).clients k c ∧
      ∀ i, (atScan listenFd s e).conns i = if i = k then s.accepted else s.conns i := by
  rw [atScan, Turn.isSet, if_pos hlisten]
  by_cases hset : listenFd ∈ e.ready.getD []
  · rw [if_pos (decide_eq_true hset), newClient, if_pos hset, afterAccept]
    cases haccepted : e.accepted with
    | none => exact .inl ⟨rfl, rfl, fun _ => rfl⟩
    | some c =>
      obtain ⟨hpos, -, hfresh⟩ := hpossible.fresh c haccepted
      have hadd := add_eq (s.afterSends e).clients hpos
      cases hslot : slotFor (s.afterSends e).clients c with
      | none =>
        rw [hslot] at hadd
        refine .inl ⟨hslot, hadd, fun i => if_neg ?_⟩
        rw [hadd]
        exact hfresh i
      | some k =>
        rw [hslot] at hadd
        refine .inr ⟨c, k, rfl, hslot, hadd, fun i => ?_⟩
        dsimp only
        rw [hadd]
        by_cases hik : i = k
        · subst hik
          rw [if_pos rfl, if_pos (congrArg PwrClient.fd (Function.update_self ..))]
          rfl
        · have hfd : (Function.update (s.afterSends e).clients k c i).fd ≠ c.fd := by
            rw [Function.update_of_ne hik]
            exact hfresh i
          rw [if_neg hik, Option.elim, if_neg hfd]
          rfl
  · rw [if_neg (decide_eq_false hset ▸ Bool.false_ne_true), newClient, if_neg hset]
    exact .inl ⟨rfl, rfl, fun _ => rfl⟩

/-- A slot whose descriptor is reported is as it was when the set was made: what is new in
the table has no descriptor that is reported. -/
theorem atScan_same (hpossible : Possible listenFd s e) (hall : AllInSet listenFd s e)
    {i : Fin maxClientNum} (hfd : ((atScan listenFd s e).clients i).fd ∈ e.ready.getD [])
    (hlive : Live (atScan listenFd s e).clients i) :
    Live s.clients i ∧ (atScan listenFd s e).held i = s.held i ∧
      (s.clients i).fd = ((atScan listenFd s e).clients i).fd := by
  have hat : (atScan listenFd s e).clients i = (s.afterSends e).clients i ∧
      (atScan listenFd s e).conns i = s.conns i := by
    obtain ⟨-, hclients, hconns⟩ | ⟨c, k, hc, hslot, hclients, hconns⟩ :=
      atScan_eq hpossible hall.listen
    · exact ⟨congrFun hclients i, hconns i⟩
    · have hik : i ≠ k := by
        rintro rfl
        rw [hclients, Function.update_self] at hfd
        exact (hall.accepted c hc (by rw [hslot]; rfl)).2 hfd
      rw [hclients, Function.update_of_ne hik, hconns, if_neg hik]
      exact ⟨rfl, rfl⟩
  have hi : (atScan listenFd s e).clients i = s.clients i := by
    have hafter : Live (s.afterSends e).clients i := by rwa [Live, ← hat.1]
    exact hat.1.trans (Freed.of_live (freed_dropAll s.clients e.dropped) hafter)
  refine ⟨by rwa [Live, ← hi], ?_, by rw [hi]⟩
  have hliveiff : Live (atScan listenFd s e).clients i ↔ Live s.clients i := by rw [Live, Live, hi]
  rw [held, held, hat.2, if_congr hliveiff rfl rfl]

/-- A write to a slot makes the descriptors of all slots fit if the new one fits and those
of the other slots do. -/
theorem forall_update_iff {clients : ClientTable} {k : Fin maxClientNum} {c : PwrClient}
    (hwatched : ∀ i, Live clients i → InSet (clients i).fd) :
    (∀ i, InSet (Function.update clients k c i).fd) ↔
      (∀ i, Live clients i ∨ k = i) ∧ InSet c.fd := by
  constructor
  · intro hall
    have hk := hall k
    rw [Function.update_self] at hk
    refine ⟨fun i => or_iff_not_imp_right.mpr fun hik => ?_, hk⟩
    have hi := hall i
    rw [Function.update_of_ne (Ne.symm hik)] at hi
    exact ne_invalidFd hi.1
  · rintro ⟨hfilled, hc⟩ i
    by_cases hik : i = k
    · rwa [hik, Function.update_self]
    · rw [Function.update_of_ne hik]
      exact hwatched i ((hfilled i).resolve_right (Ne.symm hik))

theorem forall_iff {clients : ClientTable}
    (hwatched : ∀ i, Live clients i → InSet (clients i).fd) :
    (∀ i, InSet (clients i).fd) ↔ ∀ i, Live clients i :=
  ⟨fun hall i => ne_invalidFd (hall i).1, fun hall i => hwatched i (hall i)⟩

/-- All slots that are scanned hold descriptors of a set if and only if the table is full
after the sends, or the connection that comes fills it. -/
theorem scanned_iff (hpossible : Possible listenFd s e) (hlisten : InSet listenFd)
    (hwatched : ∀ i, Live s.clients i → InSet (s.clients i).fd) :
    (∀ i, InSet ((atScan listenFd s e).clients i).fd) ↔
      (∀ i, Live (s.afterSends e).clients i ∨
        ∃ c ∈ newClient listenFd e, slotFor (s.afterSends e).clients c = some i) ∧
        ∀ c ∈ newClient listenFd e, (slotFor (s.afterSends e).clients c).isSome → InSet c.fd := by
  have hwatched' : ∀ i, Live (s.afterSends e).clients i →
      InSet ((s.afterSends e).clients i).fd := by
    intro i hlive
    have hi := Freed.of_live (freed_dropAll s.clients e.dropped) hlive
    have hin := hwatched i (by rwa [Live, ← hi])
    rwa [← hi] at hin
  obtain ⟨hnone, hclients, -⟩ | ⟨c, k, hc, hslot, hclients, -⟩ := atScan_eq hpossible hlisten
  · have hno : ∀ c ∈ newClient listenFd e, slotFor (s.afterSends e).clients c = none :=
      fun c hc => by rwa [hc, Option.bind_some] at hnone
    rw [hclients, forall_iff hwatched']
    refine Iff.trans ?_ (and_iff_left fun c hc hsome => ?_).symm
    · refine forall_congr' fun i => (or_iff_left ?_).symm
      rintro ⟨c, hc, hi⟩
      rw [hno c hc] at hi
      cases hi
    · rw [hno c hc] at hsome
      cases hsome
  · have hex : ∀ i, (∃ c' ∈ newClient listenFd e,
        slotFor (s.afterSends e).clients c' = some i) ↔ k = i := by
      intro i
      rw [hc]
      constructor
      · rintro ⟨c', hc', hi⟩
        obtain rfl := Option.some.inj hc'
        exact Option.some.inj (hslot.symm.trans hi)
      · rintro rfl
        exact ⟨c, rfl, hslot⟩
    rw [hclients, forall_update_iff hwatched']
    refine and_congr (forall_congr' fun i => or_congr_right (hex i).symm) ?_
    rw [hc]
    constructor
    · rintro hin c' hc' -
      exact Option.some.inj hc' ▸ hin
    · exact fun hall => hall c rfl (by rw [hslot]; rfl)

/-- A connection that comes with the number of a descriptor that is reported is read, but is
not the one that was in the set. -/
theorem not_reported (hnumbered : Numbered s) (hpossible : Possible listenFd s e)
    (htouches : Touches listenFd s e) (hlisten : InSet listenFd) {c : PwrClient}
    (hc : newClient listenFd e = some c) (hslot : (slotFor (s.afterSends e).clients c).isSome)
    (hin : InSet c.fd) : c.fd ∉ e.ready.getD [] := by
  intro hfd
  have hready : e.ready.isSome := by
    cases hr : e.ready with
    | none =>
      rw [hr] at hfd
      cases hfd
    | some _ => rfl
  obtain ⟨hnone, -, -⟩ | ⟨c', k, hc', hk, hclients, hconns⟩ := atScan_eq hpossible hlisten
  · rw [hc, Option.bind_some] at hnone
    rw [hnone] at hslot
    cases hslot
  · obtain rfl := Option.some.inj (hc.symm.trans hc')
    have hat : (atScan listenFd s e).clients k = c := by rw [hclients, Function.update_self]
    have hset : e.isSet ((atScan listenFd s e).clients k).fd = true := by
      rw [hat, Turn.isSet, if_pos hin, decide_eq_true hfd]
    obtain ⟨hlive, hheld, -⟩ := htouches.same k _ (recv_mem_turn hready hset)
    have hcomes : (atScan listenFd s e).held k = some s.accepted := by
      have hlive' : Live (atScan listenFd s e).clients k := by
        rw [Live, hat]
        exact ne_invalidFd hin.1
      rw [held, if_pos hlive', hconns, if_pos rfl]
    rw [hcomes, held, if_pos hlive] at hheld
    exact absurd (Option.some.inj hheld) (Nat.ne_of_gt (hnumbered k hlive))

/-- A turn touches what it may touch if and only if all descriptors fit into a set and no
slot that is scanned is empty. -/
theorem touches_iff (hnumbered : Numbered s) (hpossible : Possible listenFd s e) :
    Touches listenFd s e ↔ AllInSet listenFd s e := by
  constructor
  · intro htouches
    have hlisten : InSet listenFd :=
      htouches.inSet _ (mem_turn.mpr (.inl (mem_watched.mpr (.inl rfl))))
    have hwatched : ∀ i, Live s.clients i → InSet (s.clients i).fd := fun i hlive =>
      htouches.inSet _ (mem_turn.mpr (.inl (mem_watched.mpr (.inr ⟨i, hlive, rfl⟩))))
    have hscanned : e.ready.isSome → ∀ i, InSet ((atScan listenFd s e).clients i).fd :=
      fun hready i => htouches.inSet _ (mem_turn.mpr (.inr ⟨hready, .inr ⟨i, rfl⟩⟩))
    refine ⟨hlisten, hwatched, fun hready => ?_, fun c hc hslot => ?_⟩
    · exact ((scanned_iff hpossible hlisten hwatched).mp (hscanned hready)).1
    · have hready : e.ready.isSome := by
        have hset := (accepted_of_newClient hc).1
        cases hr : e.ready with
        | none =>
          rw [hr] at hset
          cases hset
        | some _ => rfl
      have hin := ((scanned_iff hpossible hlisten hwatched).mp (hscanned hready)).2 c hc hslot
      exact ⟨hin, not_reported hnumbered hpossible htouches hlisten hc hslot hin⟩
  · intro hall
    have hscanned : e.ready.isSome → ∀ i, InSet ((atScan listenFd s e).clients i).fd :=
      fun hready => (scanned_iff hpossible hall.listen hall.watched).mpr
        ⟨hall.filled hready, fun c hc hslot => (hall.accepted c hc hslot).1⟩
    refine ⟨fun fd hfd => ?_, fun i conn hrecv => ?_⟩
    · rcases mem_turn.mp hfd with hwatched | ⟨hready, rfl | ⟨i, rfl⟩⟩
      · rcases mem_watched.mp hwatched with rfl | ⟨i, hlive, rfl⟩
        · exact hall.listen
        · exact hall.watched i hlive
      · exact hall.listen
      · exact hscanned hready i
    · obtain ⟨hready, rfl, hset⟩ := recv_turn hrecv
      have hin := hscanned hready i
      rw [Turn.isSet, if_pos hin, decide_eq_true_iff] at hset
      obtain ⟨hlive, hheld, hfd⟩ := atScan_same hpossible hall hset (ne_invalidFd hin.1)
      rw [hfd]
      exact ⟨hlive, hheld, hset⟩

end Turns

/-! ## Runs -/

theorem numbered_run {listenFd : Int} {turns : List Turn} {s : SocketLoop}
    (hrun : Transition.run (step listenFd) init turns = some s) : Numbered s :=
  Transition.run_invariant Numbered.step (fun _ hlive => (hlive rfl).elim) hrun

/-- After any turns, whatever the system calls of the next one come to: only valid
descriptors are touched and only readable connections are read if and only if all
descriptors fit into a set and `select` reports nothing while a slot stays empty. -/
theorem touches_iff_allInSet {listenFd : Int} {turns : List Turn} {s : SocketLoop}
    (hrun : Transition.run (step listenFd) init turns = some s) {e : Turn}
    (hpossible : Possible listenFd s e) : Touches listenFd s e ↔ AllInSet listenFd s e :=
  touches_iff (numbered_run hrun) hpossible

/-- A turn in which a connection comes. -/
def comes (c : PwrClient) : Turn := ⟨[], some [3], fun _ => false, some c, fun _ => false⟩

/-- A turn in which a connection can be read. -/
def readable (fd : Int) : Turn := ⟨[], some [fd], fun _ => false, none, fun _ => false⟩

theorem touches_iff_allInSet_full :
    ∃ s, Transition.run (step 3) init [comes ⟨4, 100⟩, comes ⟨5, 200⟩, comes ⟨6, 300⟩] = some s ∧
      .recv 1 (some 1) ∈ (turn 3 s (readable 5)).1 ∧ Touches 3 s (readable 5) := by
  refine ⟨_, rfl, by decide +kernel, ?_⟩
  refine (@touches_iff_allInSet 3 [comes ⟨4, 100⟩, comes ⟨5, 200⟩, comes ⟨6, 300⟩] _ rfl
    (readable 5) (by decide +kernel)).mpr ⟨by decide, ?_, ?_, ?_⟩ <;> decide +kernel

/-- The first client connects, and `FD_ISSET` is asked about the empty slots. -/
theorem firstClient_touches_empty :
    ∃ turns s e, Transition.run (step 3) init turns = some s ∧ Possible 3 s e ∧
      .fdIsset (-1) ∈ (turn 3 s e).1 ∧ ¬ Touches 3 s e := by
  have hmem : .fdIsset (-1) ∈ (turn 3 init (comes ⟨4, 100⟩)).1 := by decide +kernel
  refine ⟨[], init, comes ⟨4, 100⟩, rfl, by decide +kernel, hmem, fun htouches => ?_⟩
  exact absurd (htouches.inSet (-1) (.inr hmem)).1 (by decide)

/-! ## The turns are those of the server -/

theorem dropAll_append (clients : ClientTable) (l l' : List (Option (Fin maxClientNum))) :
    dropAll clients (l ++ l') = dropAll (dropAll clients l) l' := List.foldl_append

/-- Some slots are freed by `CleanClientResource`. -/
def Drops (srv srv' : Server) : Prop :=
  ∃ dropped, srv'.pwrClients = dropAll srv.pwrClients dropped

theorem Drops.of_eq {srv srv' : Server} (h : srv'.pwrClients = srv.pwrClients) : Drops srv srv' :=
  ⟨[], h⟩

theorem Drops.trans {a b c : Server} : Drops a b → Drops b c → Drops a c := by
  rintro ⟨l, hl⟩ ⟨l', hl'⟩
  exact ⟨l ++ l', by rw [hl', hl, dropAll_append]⟩

/-- `ProcessSendMsgToClient` does nothing to the table but free slots. -/
theorem drops_processSendMsgToClient {a b : Server × Outgoing}
    (h : Server.processSendMsgToClient a = .ok b) : Drops a.1 b.1 :=
  Threads.processSendMsgToClient_ok (R := Drops) (fun _ => .of_eq rfl) Drops.trans
    (fun _ => .of_eq rfl) (fun _ idx => ⟨[idx], rfl⟩) h

/-- `ProcessRecvMsgFromClient` does nothing to the table, or frees the slot it reads. -/
theorem mayLose_processRecvMsgFromClient {srv srv' : Server} {i : Fin maxClientNum}
    {mem : RecvAlloc} {conn conn' : Conn}
    (h : srv.processRecvMsgFromClient i mem conn = .ok (srv', conn')) :
    srv'.pwrClients = srv.pwrClients ∨ srv'.pwrClients = dropAll srv.pwrClients [some i] := by
  cases Threads.receives_processRecvMsgFromClient h with
  | dropped => exact .inl rfl
  | lost => exact .inr rfl
  | queued msg _ _ hadd =>
    rw [Server.addToRecvBuff_ok hadd]
    exact .inl rfl

end SocketLoop

end PowerApi
