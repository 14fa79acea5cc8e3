import PowerApi.ClientTable
import PowerApi.Transition

/-!
# The descriptor of the client library (`sockclient.c`)

`g_sockFd` is written in `CreateConnection`, in `ReadMsg` when `recv` fails or finds the
connection closed, and in `FiniSockClient`. (`WriteMsg` would write it too, but its
`sendLen` is a `size_t`, which is not less than 0.) `CreateConnection` is called by
`PWR_Register`, and by `RunSocketProcess` when it has found `INVALID_FD` and slept.

`SocketFd` is the descriptor and those of `CreateConnection` that are open, with the place
of every thread that runs `RunSocketProcess`, and of the call of the application, which
calls `PWR_Register` and `PWR_UnRegister` one after the other. A second `PWR_Register`
starts a second thread and forgets the first.

Two things lose a descriptor: `ReadMsg` does not close it when the server has closed the
connection, and `PWR_Register` does not look whether it has one.
-/

namespace PowerApi

/-- A thread in `RunSocketProcess`. -/
inductive LoopPc where
  /-- `while (g_sockThread.keepRunning)` -/
  | head
  /-- it has found `INVALID_FD`: `sleep` and `CreateConnection` -/
  | sleeping
  /-- it has found a descriptor: `select` and `RecvMsgFromSocket` -/
  | polling
  /-- `recv` has failed: `close(g_sockFd)` -/
  | failed
  /-- `g_sockFd = INVALID_FD` -/
  | forgetting
  | exited
  deriving DecidableEq

/-- The call of the application. -/
inductive ApiPc where
  | idle
  /-- `CreateConnection` in `InitSockClient` -/
  | connecting
  /-- `CreateThread` in `InitSockClient` -/
  | threading
  /-- `FiniThreadInfo` in `FiniSockClient` -/
  | finishing
  /-- `pthread_join` -/
  | joining
  /-- `close(g_sockFd)` in `FiniSockClient` -/
  | closing
  /-- `g_sockFd = INVALID_FD` in `FiniSockClient` -/
  | clearing
  deriving DecidableEq

/-- What the `recv` calls of a `RecvMsgFromSocket` come to. -/
inductive Received where
  /-- a message, or nothing to be read -/
  | data
  | error
  | closed
  deriving DecidableEq

/-- `g_sockFd` and the descriptors that `CreateConnection` has delivered. -/
structure SockFds where
  sockFd : Int
  /-- those that are open -/
  opened : Finset Int
  /-- those that were closed while they were not open -/
  stray : List Int

/-- `g_sockFd` and who writes it. -/
structure SocketFd extends SockFds where
  /-- `g_sockThread` -/
  keepRunning : Bool
  created : Bool
  tid : ℕ
  /-- how many threads have been created -/
  started : ℕ
  threads : ℕ → LoopPc
  api : ApiPc

namespace SockFds

variable (s : SockFds)

/-- `close(g_sockFd)`. -/
def close : SockFds :=
  if s.sockFd = invalidFd then s
  else if s.sockFd ∈ s.opened then { s with opened := s.opened.erase s.sockFd }
  else { s with stray := s.stray ++ [s.sockFd] }

/-- `g_sockFd = INVALID_FD`. -/
def forget : SockFds := { s with sockFd := invalidFd }

/-- `CreateConnection`, which closes a descriptor that it does not hand over. -/
def createConnection (res : Option Int) : SockFds :=
  match res with
  | none => s
  | some fd => { s with sockFd := fd, opened := insert fd s.opened }

/-- `socket` gives a descriptor that is not open. -/
def Fresh (res : Option Int) : Prop := ∀ fd ∈ res, 0 ≤ fd ∧ fd ∉ s.opened

instance (res : Option Int) : Decidable (s.Fresh res) :=
  inferInstanceAs (Decidable (∀ fd ∈ res, 0 ≤ fd ∧ fd ∉ s.opened))

/-- Nothing is open but what is in `g_sockFd`, and nothing has been closed twice. -/
structure Sound : Prop where
  only : ∀ fd ∈ s.opened, fd = s.sockFd
  valid : invalidFd ∉ s.opened
  once : s.stray = []

variable {s}

theorem Sound.opened_eq (h : s.Sound) (hout : s.sockFd ∉ s.opened) : s.opened = ∅ := by
  apply Finset.eq_empty_of_forall_notMem
  intro fd hfd
  exact hout (h.only fd hfd ▸ hfd)

theorem Sound.close (h : s.Sound) (hcareful : s.sockFd = invalidFd ∨ s.sockFd ∈ s.opened) :
    s.close.Sound ∧ s.close.sockFd ∉ s.close.opened := by
  rw [SockFds.close]
  by_cases hfd : s.sockFd = invalidFd
  · rw [if_pos hfd]
    exact ⟨h, hfd ▸ h.valid⟩
  · rw [if_neg hfd, if_pos (hcareful.resolve_left hfd)]
    refine ⟨⟨fun fd hmem => ?_, fun hmem => ?_, h.once⟩, Finset.notMem_erase _ _⟩
    · exact h.only fd (Finset.mem_of_mem_erase hmem)
    · exact h.valid (Finset.mem_of_mem_erase hmem)

/-- What is not open is closed a second time. -/
theorem not_sound_close (hcareful : ¬ (s.sockFd = invalidFd ∨ s.sockFd ∈ s.opened)) :
    ¬ s.close.Sound := by
  obtain ⟨hfd, hout⟩ := not_or.mp hcareful
  intro h
  have honce := h.once
  rw [SockFds.close, if_neg hfd, if_neg hout] at honce
  exact List.append_ne_nil_of_right_ne_nil _ (List.cons_ne_nil _ _) honce

/-- The descriptor is forgotten, or lost if it is open. -/
theorem Sound.forget_iff (h : s.Sound) : s.forget.Sound ↔ s.sockFd ∉ s.opened := by
  constructor
  · intro hforget hmem
    have hsame : s.sockFd = invalidFd := hforget.only _ hmem
    exact h.valid (hsame ▸ hmem)
  · intro hout
    have hempty := h.opened_eq hout
    refine ⟨fun fd hmem => ?_, h.valid, h.once⟩
    rw [SockFds.forget, hempty] at hmem
    exact absurd hmem (Finset.notMem_empty fd)

/-- The descriptor is replaced by a new one, and lost if it is open. -/
theorem Sound.createConnection_iff (h : s.Sound) {res : Option Int} (hfresh : s.Fresh res) :
    (s.createConnection res).Sound ↔ (res.isSome → s.sockFd ∉ s.opened) := by
  cases res with
  | none => exact iff_of_true h nofun
  | some fd =>
    obtain ⟨hpos, hout⟩ := hfresh fd rfl
    constructor
    · intro hnew _ hmem
      have hsame : s.sockFd = fd := hnew.only _ (Finset.mem_insert_of_mem hmem)
      exact hout (hsame ▸ hmem)
    · intro hcareful
      have hempty := h.opened_eq (hcareful rfl)
      have hopened : (s.createConnection (some fd)).opened = {fd} := by
        rw [createConnection, hempty]
        rfl
      refine ⟨fun fd' hmem => ?_, fun hmem => ?_, h.once⟩
      · rw [hopened] at hmem
        exact Finset.mem_singleton.mp hmem
      · rw [hopened, Finset.mem_singleton] at hmem
        rw [← hmem] at hpos
        exact absurd hpos (by decide)

end SockFds

namespace SocketFd

/-- A step of the application or of a thread. -/
inductive Event where
  | register
  | unregister
  /-- `CreateConnection`, with the descriptor it got -/
  | connect (res : Option Int)
  | createThread (ok : Bool)
  | finiThreadInfo
  | join
  | close
  | clear
  | loop (i : ℕ)
  | reconnect (i : ℕ) (res : Option Int)
  | receive (i : ℕ) (r : Received)
  | closeFailed (i : ℕ)
  | forget (i : ℕ)

/-- Before `PWR_Register`. -/
def init : SocketFd where
  sockFd := invalidFd
  opened := ∅
  stray := []
  keepRunning := false
  created := false
  tid := 0
  started := 0
  threads := fun _ => .exited
  api := .idle

/-- The thread goes on to `pc`. -/
def setThread (s : SocketFd) (i : ℕ) (pc : LoopPc) : SocketFd :=
  { s with threads := Function.update s.threads i pc }

/-- Where the test of the loop, and the one for `INVALID_FD`, lead. -/
def loopPc (s : SocketFd) : LoopPc :=
  if s.keepRunning = false then .exited else if s.sockFd = invalidFd then .sleeping else .polling

/-- Where `RecvMsgFromSocket` leads. -/
def receivePc : Received → LoopPc
  | .data => .head
  | .error => .failed
  | .closed => .forgetting

/-- One step. -/
def step (s : SocketFd) : Event → Option SocketFd
  | .register =>
    if s.api = .idle then
      some { s with keepRunning := true, created := false, tid := 0, api := .connecting }
    else none
  | .unregister => if s.api = .idle then some { s with api := .finishing } else none
  | .connect res =>
    if s.api = .connecting ∧ s.Fresh res then
      some { s with
        toSockFds := s.createConnection res
        api := if res.isSome then .threading else .finishing }
    else none
  | .createThread ok =>
    if s.api = .threading then
      some (if ok then
        { s.setThread s.started .head with
          keepRunning := true, created := true, tid := s.started, started := s.started + 1
          api := .idle }
      else { s with keepRunning := true, api := .finishing })
    else none
  | .finiThreadInfo =>
    if s.api = .finishing then
      some { s with keepRunning := false, api := if s.created then .joining else .closing }
    else none
  | .join =>
    if s.api = .joining ∧ s.threads s.tid = .exited then
      some { s with created := false, api := .closing }
    else none
  | .close =>
    if s.api = .closing then some { s with toSockFds := s.toSockFds.close, api := .clearing }
    else none
  | .clear =>
    if s.api = .clearing then some { s with toSockFds := s.toSockFds.forget, api := .idle }
    else none
  | .loop i => if s.threads i = .head then some (s.setThread i s.loopPc) else none
  | .reconnect i res =>
    if s.threads i = .sleeping ∧ s.Fresh res then
      some { s.setThread i .head with toSockFds := s.createConnection res }
    else none
  | .receive i r => if s.threads i = .polling then some (s.setThread i (receivePc r)) else none
  | .closeFailed i =>
    if s.threads i = .failed then
      some { s.setThread i .forgetting with toSockFds := s.toSockFds.close }
    else none
  | .forget i =>
    if s.threads i = .forgetting then
      some { s.setThread i .head with toSockFds := s.toSockFds.forget }
    else none

/-- Somebody who has closed the descriptor, or has seen it closed, forgets it next. -/
def Forgetting (s : SocketFd) : Prop := s.api = .clearing ∨ ∃ i, s.threads i = .forgetting

/-- The only descriptor that is open is the one in `g_sockFd`, none if that is `INVALID_FD`,
and none has been closed twice. -/
structure Kept (s : SocketFd) : Prop extends s.toSockFds.Sound where
  held : s.sockFd = invalidFd ∨ s.sockFd ∈ s.opened ∨ s.Forgetting

/-- `g_sockFd` is overwritten when what is in it is not open, and closed when it is open or
`INVALID_FD`. -/
def Careful (s : SocketFd) : Event → Prop
  | .connect res | .reconnect _ res => res.isSome → s.sockFd ∉ s.opened
  | .clear | .forget _ => s.sockFd ∉ s.opened
  | .close | .closeFailed _ => s.sockFd = invalidFd ∨ s.sockFd ∈ s.opened
  | _ => True

/-- `PWR_Register` is not called while a thread of an earlier call runs, and the server does
not close the connection. -/
def Proper (s : SocketFd) : Event → Prop
  | .register => ∀ i < s.started, s.threads i = .exited
  | .receive _ r => r ≠ .closed
  | _ => True

/-! ## The steps -/

/-- What the steps do, one case for each event, two for `createThread`. -/
inductive Move (s : SocketFd) : Event → SocketFd → Prop where
  | register (hapi : s.api = .idle) :
    Move s .register { s with keepRunning := true, created := false, tid := 0, api := .connecting }
  | unregister (hapi : s.api = .idle) : Move s .unregister { s with api := .finishing }
  | connect (res : Option Int) (hapi : s.api = .connecting) (hfresh : s.Fresh res) :
    Move s (.connect res) { s with
      toSockFds := s.createConnection res
      api := if res.isSome then .threading else .finishing }
  | thread (hapi : s.api = .threading) :
    Move s (.createThread true) { s.setThread s.started .head with
      keepRunning := true, created := true, tid := s.started, started := s.started + 1
      api := .idle }
  | noThread (hapi : s.api = .threading) :
    Move s (.createThread false) { s with keepRunning := true, api := .finishing }
  | finiThreadInfo (hapi : s.api = .finishing) :
    Move s .finiThreadInfo { s with
      keepRunning := false, api := if s.created then .joining else .closing }
  | join (hapi : s.api = .joining) (hexited : s.threads s.tid = .exited) :
    Move s .join { s with created := false, api := .closing }
  | close (hapi : s.api = .closing) :
    Move s .close { s with toSockFds := s.toSockFds.close, api := .clearing }
  | clear (hapi : s.api = .clearing) :
    Move s .clear { s with toSockFds := s.toSockFds.forget, api := .idle }
  | loop (i : ℕ) (hpc : s.threads i = .head) : Move s (.loop i) (s.setThread i s.loopPc)
  | reconnect (i : ℕ) (res : Option Int) (hpc : s.threads i = .sleeping) (hfresh : s.Fresh res) :
    Move s (.reconnect i res) { s.setThread i .head with toSockFds := s.createConnection res }
  | receive (i : ℕ) (r : Received) (hpc : s.threads i = .polling) :
    Move s (.receive i r) (s.setThread i (receivePc r))
  | closeFailed (i : ℕ) (hpc : s.threads i = .failed) :
    Move s (.closeFailed i) { s.setThread i .forgetting with toSockFds := s.toSockFds.close }
  | forget (i : ℕ) (hpc : s.threads i = .forgetting) :
    Move s (.forget i) { s.setThread i .head with toSockFds := s.toSockFds.forget }

variable {s s' : SocketFd} {e : Event}

theorem move_of_step (h : step s e = some s') : Move s e s' := by
  cases e with
  | createThread ok =>
    obtain ⟨hapi, h⟩ := Option.ite_none_right_eq_some.mp h
    obtain rfl := Option.some.inj h
    cases ok with
    | true => exact .thread hapi
    | false => exact .noThread hapi
  | connect res | join | reconnect i res =>
    obtain ⟨⟨h₁, h₂⟩, h⟩ := Option.ite_none_right_eq_some.mp h
    obtain rfl := Option.some.inj h
    first | exact .connect _ h₁ h₂ | exact .join h₁ h₂ | exact .reconnect _ _ h₁ h₂
  | register | unregister | finiThreadInfo | close | clear =>
    obtain ⟨hapi, h⟩ := Option.ite_none_right_eq_some.mp h
    obtain rfl := Option.some.inj h
    first
      | exact .register hapi | exact .unregister hapi | exact .finiThreadInfo hapi
      | exact .close hapi | exact .clear hapi
  | loop i | receive i r | closeFailed i | forget i =>
    obtain ⟨hpc, h⟩ := Option.ite_none_right_eq_some.mp h
    obtain rfl := Option.some.inj h
    first
      | exact .loop _ hpc | exact .receive _ _ hpc | exact .closeFailed _ hpc
      | exact .forget _ hpc

/-- There are no threads but those that have been created. -/
def Numbered (s : SocketFd) : Prop := ∀ i, s.started ≤ i → s.threads i = .exited

theorem Numbered.setThread (h : s.Numbered) {i : ℕ} {pc pc' : LoopPc} (hpc : s.threads i = pc)
    (hrunning : pc ≠ .exited) : (s.setThread i pc').Numbered := by
  intro j hj
  have hne : j ≠ i := by
    rintro rfl
    exact hrunning (hpc.symm.trans (h j hj))
  exact (Function.update_of_ne hne ..).trans (h j hj)

theorem Numbered.step (h : s.Numbered) (hs : step s e = some s') : s'.Numbered := by
  cases move_of_step hs with
  | thread =>
    intro i hi
    have hne : i ≠ s.started := Nat.ne_of_gt hi
    exact (Function.update_of_ne hne ..).trans (h i (Nat.le_of_succ_le hi))
  | loop i hpc | reconnect i res hpc | receive i r hpc | closeFailed i hpc | forget i hpc =>
    exact h.setThread hpc nofun
  | _ => exact h

/-! ## What a step does to the descriptors -/

theorem forgetting_setThread (h : s.Forgetting) {i : ℕ} {pc pc' : LoopPc} (hpc : s.threads i = pc)
    (hne : pc ≠ .forgetting) : (s.setThread i pc').Forgetting := by
  rcases h with hapi | ⟨j, hj⟩
  · exact .inl hapi
  · have hji : j ≠ i := by
      rintro rfl
      exact hne (hpc.symm.trans hj)
    exact .inr ⟨j, (Function.update_of_ne hji ..).trans hj⟩

/-- Only who forgets the descriptor is done with it. -/
theorem forgetting_step (hnum : s.Numbered) (hs : step s e = some s') (h : s.Forgetting)
    (hclear : e ≠ .clear) (hforget : ∀ i, e ≠ .forget i) : s'.Forgetting := by
  have hother : ∀ {pc}, s.api = pc → pc ≠ .clearing → ∃ i, s.threads i = .forgetting :=
    fun hapi hne => h.resolve_left fun heq => hne (hapi.symm.trans heq)
  cases move_of_step hs with
  | clear => exact absurd rfl hclear
  | forget i => exact absurd rfl (hforget i)
  | close => exact .inl rfl
  | closeFailed i hpc => exact .inr ⟨i, Function.update_self ..⟩
  | register hapi | unregister hapi | connect _ hapi | noThread hapi | finiThreadInfo hapi
  | join hapi => exact .inr (hother hapi nofun)
  | thread hapi =>
    obtain ⟨i, hi⟩ := hother hapi nofun
    have hne : i ≠ s.started := by
      rintro rfl
      cases (hnum _ le_rfl).symm.trans hi
    exact .inr ⟨i, (Function.update_of_ne hne ..).trans hi⟩
  | loop i hpc | receive i _ hpc => exact forgetting_setThread h hpc nofun
  | reconnect i _ hpc => exact forgetting_setThread (s := s) h hpc nofun

theorem kept_iff (hheld : s.sockFd = invalidFd ∨ s.sockFd ∈ s.opened ∨ s.Forgetting) :
    s.Kept ↔ s.toSockFds.Sound := ⟨Kept.toSound, fun h => ⟨h, hheld⟩⟩

/-- A step keeps the descriptor if and only if it is careful. -/
theorem Kept.step_iff (h : s.Kept) (hnum : s.Numbered) (hs : step s e = some s') :
    s'.Kept ↔ s.Careful e := by
  have hforgetting := fun hf => forgetting_step hnum hs hf
  have hquiet : s'.toSockFds = s.toSockFds → e ≠ .clear → (∀ i, e ≠ .forget i) → s'.Kept := by
    intro hfds hclear hforget
    refine ⟨hfds ▸ h.toSound, ?_⟩
    rw [hfds]
    exact h.held.imp_right (Or.imp_right fun hf => hforgetting hf hclear hforget)
  have hnew : ∀ res, s'.toSockFds = s.createConnection res → e ≠ .clear → (∀ i, e ≠ .forget i) →
      s'.sockFd = invalidFd ∨ s'.sockFd ∈ s'.opened ∨ s'.Forgetting := by
    intro res hfds hclear hforget
    cases res with
    | none =>
      rw [hfds]
      exact h.held.imp_right (Or.imp_right fun hf => hforgetting hf hclear hforget)
    | some fd =>
      rw [hfds]
      exact .inr (.inl (Finset.mem_insert_self ..))
  cases move_of_step hs with
  | register | unregister | thread | noThread | finiThreadInfo | join | loop =>
    exact iff_of_true (hquiet rfl nofun (fun _ he => nomatch he)) trivial
  | receive => exact iff_of_true (hquiet rfl nofun (fun _ he => nomatch he)) trivial
  | connect res hapi hfresh =>
    rw [kept_iff (hnew res rfl nofun fun _ he => nomatch he)]
    exact h.createConnection_iff hfresh
  | reconnect i res hpc hfresh =>
    rw [kept_iff (hnew res rfl nofun fun _ he => nomatch he)]
    exact h.createConnection_iff hfresh
  | close hapi =>
    rw [kept_iff (.inr (.inr (.inl rfl)))]
    exact ⟨fun hsound => by_contra fun hnot => SockFds.not_sound_close hnot hsound,
      fun hcareful => (h.close hcareful).1⟩
  | closeFailed i hpc =>
    rw [kept_iff (.inr (.inr (.inr ⟨i, Function.update_self ..⟩)))]
    exact ⟨fun hsound => by_contra fun hnot => SockFds.not_sound_close hnot hsound,
      fun hcareful => (h.close hcareful).1⟩
  | clear hapi =>
    rw [kept_iff (.inl rfl)]
    exact h.forget_iff
  | forget i hpc =>
    rw [kept_iff (.inl rfl)]
    exact h.forget_iff

/-! ## One writer at a time -/

/-- At most one thread runs, which is the one in `g_sockThread`, and nobody else writes the
descriptor meanwhile. -/
structure Alone (s : SocketFd) : Prop where
  solo : ∀ i, s.threads i ≠ .exited → i = s.tid ∧ s.created = true
  busy : s.created = true → s.api = .idle ∨ s.api = .finishing ∨ s.api = .joining
  idle : s.api = .idle → s.created = true ∧ s.threads s.tid ≠ .exited ∧ s.keepRunning = true ∨
    s.created = false ∧ s.sockFd = invalidFd
  connecting : s.api = .connecting → s.sockFd = invalidFd
  clearing : s.api = .clearing → s.sockFd ∉ s.opened
  sleeping : ∀ i, s.threads i = .sleeping → s.sockFd = invalidFd
  forgetting : ∀ i, s.threads i = .forgetting → s.sockFd ∉ s.opened

theorem alone_init : init.Alone :=
  ⟨fun _ h => absurd rfl h, nofun, fun _ => .inr ⟨rfl, rfl⟩, fun _ => rfl, nofun, nofun, nofun⟩

theorem kept_init : init.Kept :=
  ⟨⟨fun _ h => absurd h (Finset.notMem_empty _), Finset.notMem_empty _, rfl⟩, .inl rfl⟩

theorem Alone.created (h : s.Alone) {i : ℕ} {pc : LoopPc} (hpc : s.threads i = pc)
    (hrunning : pc ≠ .exited) : i = s.tid ∧ s.created = true :=
  h.solo i fun heq => hrunning (hpc.symm.trans heq)

/-- The application is in a place where no thread runs. -/
theorem Alone.exited (h : s.Alone) {pc : ApiPc} (hapi : s.api = pc)
    (hpc : pc ≠ .idle ∧ pc ≠ .finishing ∧ pc ≠ .joining) (i : ℕ) : s.threads i = .exited := by
  by_contra hrunning
  rcases h.busy (h.solo i hrunning).2 with heq | heq | heq
  · exact hpc.1 (hapi.symm.trans heq)
  · exact hpc.2.1 (hapi.symm.trans heq)
  · exact hpc.2.2 (hapi.symm.trans heq)

theorem Alone.not_created (h : s.Alone) {pc : ApiPc} (hapi : s.api = pc)
    (hpc : pc ≠ .idle ∧ pc ≠ .finishing ∧ pc ≠ .joining) : s.created = false := by
  cases hcreated : s.created with
  | false => rfl
  | true =>
    rcases h.busy hcreated with heq | heq | heq
    · exact absurd (hapi.symm.trans heq) hpc.1
    · exact absurd (hapi.symm.trans heq) hpc.2.1
    · exact absurd (hapi.symm.trans heq) hpc.2.2

/-- A thread goes on, and writes the descriptor. -/
theorem Alone.thread (h : s.Alone) {i : ℕ} {pc pc' : LoopPc} (hpc : s.threads i = pc)
    (hrunning : pc ≠ .exited) (fds : SockFds) (hexit : pc' = .exited → s.keepRunning = false)
    (hsleep : pc' = .sleeping → fds.sockFd = invalidFd)
    (hforget : pc' = .forgetting → fds.sockFd ∉ fds.opened) :
    Alone { s.setThread i pc' with toSockFds := fds } := by
  obtain ⟨rfl, hcreated⟩ := h.created hpc hrunning
  have hself : (s.setThread s.tid pc').threads s.tid = pc' := Function.update_self ..
  have hother : ∀ j, j ≠ s.tid → (s.setThread s.tid pc').threads j = .exited := by
    intro j hj
    refine (Function.update_of_ne hj ..).trans ?_
    by_contra hrun
    exact hj (h.solo j hrun).1
  have hapi : ∀ {pc}, s.api = pc → ¬ (pc ≠ .idle ∧ pc ≠ .finishing ∧ pc ≠ .joining) :=
    fun hapi hne => hrunning (hpc.symm.trans (h.exited hapi hne _))
  refine ⟨fun j hj => ⟨?_, hcreated⟩, h.busy, fun hidle => .inl ⟨hcreated, ?_⟩, fun heq => ?_,
    fun heq => ?_, fun j hj => ?_, fun j hj => ?_⟩
  · by_contra hne
    exact hj (hother j hne)
  · rcases h.idle hidle with ⟨-, -, hkeep⟩ | ⟨hno, -⟩
    · refine ⟨fun heq => ?_, hkeep⟩
      cases (hexit (hself.symm.trans heq)).symm.trans hkeep
    · cases hcreated.symm.trans hno
  · exact absurd ⟨nofun, nofun, nofun⟩ (hapi heq)
  · exact absurd ⟨nofun, nofun, nofun⟩ (hapi heq)
  · by_cases hji : j = s.tid
    · exact hsleep (hself.symm.trans (hji ▸ hj))
    · cases (hother j hji).symm.trans hj
  · by_cases hji : j = s.tid
    · exact hforget (hself.symm.trans (hji ▸ hj))
    · cases (hother j hji).symm.trans hj

/-- The application goes on while no thread runs. -/
theorem alone_of_exited (hexited : ∀ i, s.threads i = .exited) (hcreated : s.created = false)
    (hidle : s.api = .idle → s.sockFd = invalidFd)
    (hconnecting : s.api = .connecting → s.sockFd = invalidFd)
    (hclearing : s.api = .clearing → s.sockFd ∉ s.opened) : s.Alone := by
  refine ⟨fun i hi => absurd (hexited i) hi, fun h => ?_, fun h => .inr ⟨hcreated, hidle h⟩,
    hconnecting, hclearing, fun i hi => ?_, fun i hi => ?_⟩
  · cases hcreated.symm.trans h
  · cases (hexited i).symm.trans hi
  · cases (hexited i).symm.trans hi

theorem Alone.careful (h : s.Alone) (hkept : s.Kept) (hs : step s e = some s') : s.Careful e := by
  cases move_of_step hs with
  | connect res hapi => exact fun _ => h.connecting hapi ▸ hkept.valid
  | reconnect i res hpc => exact fun _ => h.sleeping i hpc ▸ hkept.valid
  | clear hapi => exact h.clearing hapi
  | forget i hpc => exact h.forgetting i hpc
  | close hapi =>
    refine hkept.held.imp_right fun hheld => hheld.resolve_right ?_
    rintro (heq | ⟨i, hi⟩)
    · cases hapi.symm.trans heq
    · cases (h.exited hapi ⟨nofun, nofun, nofun⟩ i).symm.trans hi
  | closeFailed i hpc =>
    obtain ⟨rfl, hcreated⟩ := h.created hpc nofun
    refine hkept.held.imp_right fun hheld => hheld.resolve_right ?_
    rintro (heq | ⟨j, hj⟩)
    · cases hpc.symm.trans (h.exited heq ⟨nofun, nofun, nofun⟩ s.tid)
    · obtain ⟨rfl, -⟩ := h.created hj nofun
      cases hpc.symm.trans hj
  | _ => trivial

theorem Alone.step (h : s.Alone) (hnum : s.Numbered) (hkept : s.Kept)
    (hs : SocketFd.step s e = some s') (hproper : s.Proper e) : s'.Alone := by
  have hcareful := h.careful hkept hs
  cases move_of_step hs with
  | register hapi =>
    have hexited : ∀ i, s.threads i = .exited := fun i =>
      (Nat.lt_or_ge i s.started).elim (hproper i) (hnum i)
    have hfd : s.sockFd = invalidFd := by
      rcases h.idle hapi with ⟨-, hrunning, -⟩ | ⟨-, hfd⟩
      · exact absurd (hexited _) hrunning
      · exact hfd
    exact alone_of_exited hexited rfl (fun _ => hfd) (fun _ => hfd) nofun
  | unregister hapi =>
    exact ⟨h.solo, fun _ => .inr (.inl rfl), nofun, nofun, nofun, h.sleeping, h.forgetting⟩
  | connect res hapi =>
    apply alone_of_exited
    · exact h.exited hapi ⟨nofun, nofun, nofun⟩
    · exact h.not_created hapi ⟨nofun, nofun, nofun⟩
    all_goals cases res <;> exact nofun
  | thread hapi =>
    have hexited := h.exited hapi ⟨nofun, nofun, nofun⟩
    have hself : Function.update s.threads s.started .head s.started = .head :=
      Function.update_self ..
    have hother : ∀ i, i ≠ s.started → Function.update s.threads s.started .head i = .exited :=
      fun i hi => (Function.update_of_ne hi ..).trans (hexited i)
    refine ⟨fun i hi => ⟨?_, rfl⟩, fun _ => .inl rfl, fun _ => .inl ⟨rfl, fun heq => ?_, rfl⟩,
      nofun, nofun, fun i hi => ?_, fun i hi => ?_⟩
    · by_contra hne
      exact hi (hother i hne)
    · cases hself.symm.trans heq
    · by_cases hstarted : i = s.started
      · cases hself.symm.trans (hstarted ▸ hi)
      · cases (hother i hstarted).symm.trans hi
    · by_cases hstarted : i = s.started
      · cases hself.symm.trans (hstarted ▸ hi)
      · cases (hother i hstarted).symm.trans hi
  | noThread hapi =>
    apply alone_of_exited
    · exact h.exited hapi ⟨nofun, nofun, nofun⟩
    · exact h.not_created hapi ⟨nofun, nofun, nofun⟩
    all_goals exact nofun
  | finiThreadInfo hapi =>
    by_cases hcreated : s.created = true
    · have hjoining : (if s.created then ApiPc.joining else ApiPc.closing) = .joining :=
        if_pos hcreated
      exact ⟨h.solo, fun _ => .inr (.inr hjoining), fun heq => (nomatch hjoining.symm.trans heq),
        fun heq => (nomatch hjoining.symm.trans heq), fun heq => (nomatch hjoining.symm.trans heq),
        h.sleeping, h.forgetting⟩
    · have hclosing : (if s.created then ApiPc.joining else ApiPc.closing) = .closing :=
        if_neg hcreated
      apply alone_of_exited
      · intro i
        by_contra hrunning
        exact hcreated (h.solo i hrunning).2
      · exact Bool.eq_false_of_not_eq_true hcreated
      all_goals exact fun heq => nomatch hclosing.symm.trans heq
  | join hapi hexited =>
    apply alone_of_exited
    · intro i
      by_contra hrunning
      exact hrunning ((h.solo i hrunning).1 ▸ hexited)
    · rfl
    all_goals exact nofun
  | close hapi =>
    apply alone_of_exited
    · exact h.exited hapi ⟨nofun, nofun, nofun⟩
    · exact h.not_created hapi ⟨nofun, nofun, nofun⟩
    · exact nofun
    · exact nofun
    · exact fun _ => (hkept.close hcareful).2
  | clear hapi =>
    apply alone_of_exited
    · exact h.exited hapi ⟨nofun, nofun, nofun⟩
    · exact h.not_created hapi ⟨nofun, nofun, nofun⟩
    · exact fun _ => rfl
    · exact nofun
    · exact nofun
  | loop i hpc =>
    refine h.thread hpc nofun s.toSockFds ?_ ?_ ?_ <;> rw [loopPc]
    · split
      · exact fun _ => ‹_›
      · split <;> exact nofun
    · split
      · exact nofun
      · split
        · exact fun _ => ‹_›
        · exact nofun
    · split
      · exact nofun
      · split <;> exact nofun
  | reconnect i res hpc => exact h.thread hpc nofun _ nofun nofun nofun
  | receive i r hpc =>
    cases r with
    | data => exact h.thread hpc nofun s.toSockFds nofun nofun nofun
    | error => exact h.thread hpc nofun s.toSockFds nofun nofun nofun
    | closed => exact absurd rfl hproper
  | closeFailed i hpc =>
    exact h.thread hpc nofun _ nofun nofun fun _ => (hkept.close hcareful).2
  | forget i hpc => exact h.thread hpc nofun _ nofun nofun nofun

/-! ## Runs -/

theorem numbered_init : init.Numbered := fun _ _ => rfl

/-- What happens properly is careful at every step. -/
theorem careful_of_proper {events : List Event}
    (h : Transition.Along step (fun s e _ => s.Proper e) init events) :
    Transition.Along step (fun s e _ => s.Careful e) init events := by
  refine Transition.Along.of_invariant (I := fun s => s.Numbered ∧ s.Alone ∧ s.Kept) ?_
    ⟨numbered_init, alone_init, kept_init⟩ h
  intro s e s' ⟨hnum, halone, hkept⟩ hs hproper
  have hcareful := halone.careful hkept hs
  exact ⟨⟨hnum.step hs, halone.step hnum hkept hs hproper, (hkept.step_iff hnum hs).mpr hcareful⟩,
    hcareful⟩

theorem along_kept_iff {events : List Event} :
    Transition.Along step (fun _ _ s' => s'.Kept) init events ↔
      Transition.Along step (fun s e _ => s.Careful e) init events :=
  Transition.along_iff (fun hnum hs => hnum.step hs) (fun hnum hkept hs => hkept.step_iff hnum hs)
    numbered_init kept_init

/-- Whatever happens in which order: the descriptor is kept at every moment if and only if
every step is careful, and every step is if `PWR_Register` is not called while a thread of
an earlier call runs and the server never closes the connection. -/
theorem descriptor_kept (events : List Event) :
    (Transition.Along step (fun _ _ s' => s'.Kept) init events ↔
      Transition.Along step (fun s e _ => s.Careful e) init events) ∧
    (Transition.Along step (fun s e _ => s.Proper e) init events →
      Transition.Along step (fun _ _ s' => s'.Kept) init events) :=
  ⟨along_kept_iff, fun h => along_kept_iff.mpr (careful_of_proper h)⟩

instance (s : SocketFd) (e : Event) : Decidable (s.Proper e) := by
  unfold Proper
  split <;> infer_instance

/-- The connection is lost to an error and comes again, and the application unregisters. -/
def comesAgain : List Event :=
  [.register, .connect (some 3), .createThread true, .loop 0, .receive 0 .data, .loop 0,
    .receive 0 .error, .closeFailed 0, .forget 0, .loop 0, .reconnect 0 none, .loop 0,
    .reconnect 0 (some 3), .unregister, .finiThreadInfo, .loop 0, .join, .close, .clear]

theorem descriptor_kept_comesAgain :
    Transition.Along step (fun _ _ s' => s'.Kept) init comesAgain :=
  (descriptor_kept comesAgain).2 (by decide +kernel)

/-- The server closes the connection, and the descriptor stays open. -/
theorem serverCloses_loses :
    ∃ s, Transition.run step init [.register, .connect (some 3), .createThread true, .loop 0,
        .receive 0 .closed, .forget 0] = some s ∧
      s.sockFd = invalidFd ∧ s.opened = {3} ∧ ¬ s.Kept :=
  ⟨_, rfl, rfl, rfl, fun h => absurd (h.only 3 (Finset.mem_singleton_self 3)) (by decide)⟩

/-- The application registers twice and unregisters, and the first descriptor stays open. -/
theorem registersTwice_loses :
    ∃ s, Transition.run step init [.register, .connect (some 3), .createThread true, .register,
        .connect (some 4), .createThread true, .unregister, .finiThreadInfo, .loop 0, .loop 1,
        .join, .close, .clear] = some s ∧
      s.sockFd = invalidFd ∧ s.opened = {3} ∧ ¬ s.Kept := by
  refine ⟨_, rfl, rfl, by decide +kernel, fun h => ?_⟩
  exact absurd (h.only 3 (by decide +kernel)) (by decide)

end SocketFd

end PowerApi
