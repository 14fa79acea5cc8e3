import PowerApi.Slots
import PowerApi.Msg

/-!
# The client table (`pwrclient.h`, `pwrclient.c`)

`g_pwrClients` has three slots, each a connection descriptor and the system id
of the process behind it. An `int` field is kept by its bits (`sysId`, which is
compared with 32-bit unsigned ids) or as an integer (`fd`). An index or
`INVALID_INDEX` is an `Option`. Functions that `close` descriptors return which.
-/

namespace PowerApi

/-- `MAX_CLIENT_NUM`. -/
abbrev maxClientNum : ℕ := 3

instance instNeZeroMaxClientNum : NeZero maxClientNum := ⟨by decide⟩

/-- `INVALID_FD`. -/
def invalidFd : Int := -1

/-- `INVALID_INDEX` as a system id, the mark of a slot never used or deleted. -/
def invalidSysId : UInt32 := 0xFFFFFFFF

/-- `PwrClient`. -/
structure PwrClient where
  fd : Int
  sysId : UInt32
  deriving DecidableEq, Repr

/-- What a slot holds when no client does. -/
def PwrClient.none : PwrClient := ⟨invalidFd, invalidSysId⟩

/-- `PwrClient clients[MAX_CLIENT_NUM]`. -/
abbrev ClientTable : Type := Fin maxClientNum → PwrClient

namespace ClientTable

/-- `FindAvailableSlot`. -/
def findAvailableSlot (clients : ClientTable) : Option (Fin maxClientNum) :=
  Slots.first fun i => (clients i).fd = invalidFd

/-- `GetClientIdx`. -/
def getClientIdx (clients : ClientTable) (newClient : PwrClient) : Option (Fin maxClientNum) :=
  Slots.first fun i => (clients i).sysId = newClient.sysId

/-- `InitPwrClient`. -/
def initPwrClient : ClientTable := fun _ => .none

/-- `AddToClientList`, with the descriptors it closes. -/
def addToClientList (clients : ClientTable) (newClient : PwrClient) :
    RtnCode × ClientTable × List Int :=
  if newClient.fd = invalidFd then (.errInvalideParam, clients, [])
  else
    match getClientIdx clients newClient with
    | some existIdx => -- reconnect scenario, update the fd
      (.success,
        Function.update clients existIdx { clients existIdx with fd := newClient.fd },
        [(clients existIdx).fd])
    | none =>
      match findAvailableSlot clients with
      | none => (.errOverMaxConnection, clients, [])
      | some index => (.success, Function.update clients index newClient, [])

/-- `DeleteFromClientList`, with the descriptors it closes. -/
def deleteFromClientList (clients : ClientTable) (idx : Option (Fin maxClientNum)) :
    RtnCode × ClientTable × List Int :=
  match idx with
  | none => (.errInvalideParam, clients, [])
  | some i => (.success, Function.update clients i .none, [(clients i).fd])

/-- The body of the loop of `CloseAllConnections`, with the descriptors closed so far. -/
def closeSlot (a : ClientTable × List Int) (i : Fin maxClientNum) : ClientTable × List Int :=
  if (a.1 i).fd = invalidFd then a
  else (Function.update a.1 i .none, a.2 ++ [(a.1 i).fd])

/-- `CloseAllConnections`, with the descriptors it closes. -/
def closeAllConnections (clients : ClientTable) : ClientTable × List Int :=
  (List.finRange maxClientNum).foldl closeSlot (clients, [])

/-- `GetFdBySysId`. -/
def getFdBySysId (clients : ClientTable) (sysId : UInt32) : Int :=
  match Slots.first fun i => (clients i).sysId = sysId with
  | some i => (clients i).fd
  | none => invalidFd

/-- `GetIdxByFd`. -/
def getIdxByFd (clients : ClientTable) (fd : Int) : Option (Fin maxClientNum) :=
  Slots.first fun i => (clients i).fd = fd

/-- Some connection is registered under this system id. -/
def Connected (clients : ClientTable) (sysId : UInt32) : Prop :=
  ∃ i, (clients i).fd ≠ invalidFd ∧ (clients i).sysId = sysId

instance (clients : ClientTable) (sysId : UInt32) : Decidable (Connected clients sysId) := by
  unfold Connected
  infer_instance

/-- What `AddToClientList` does with a connection: it takes over the slot of its id, or a
free slot, or the table is full. -/
theorem addToClientList_cases (clients : ClientTable) {newClient : PwrClient}
    (hfd : newClient.fd ≠ invalidFd) :
    (∃ i, (clients i).sysId = newClient.sysId ∧ addToClientList clients newClient =
        (.success, Function.update clients i newClient, [(clients i).fd])) ∨
      (∀ i, (clients i).sysId ≠ newClient.sysId) ∧
        ((∃ i, (clients i).fd = invalidFd ∧ addToClientList clients newClient =
            (.success, Function.update clients i newClient, [])) ∨
          (∀ i, (clients i).fd ≠ invalidFd) ∧ addToClientList clients newClient =
            (.errOverMaxConnection, clients, [])) := by
  rw [addToClientList, if_neg hfd]
  unfold getClientIdx findAvailableSlot
  cases hexist : Slots.first fun i => (clients i).sysId = newClient.sysId with
  | some i =>
    have hsame := Slots.first_spec hexist
    have hslot : (⟨newClient.fd, (clients i).sysId⟩ : PwrClient) = newClient := by rw [hsame]
    dsimp only
    rw [hslot]
    exact .inl ⟨i, hsame, rfl⟩
  | none =>
    refine .inr ⟨Slots.first_eq_none.mp hexist, ?_⟩
    cases hslot : Slots.first fun i => (clients i).fd = invalidFd with
    | none => exact .inr ⟨Slots.first_eq_none.mp hslot, rfl⟩
    | some i => exact .inl ⟨i, Slots.first_spec hslot, rfl⟩

/-- Registering a connection disconnects nobody: an id is connected afterwards
if it was, or if it is the new one and the table took it. -/
theorem connected_addToClientList {clients : ClientTable} {newClient : PwrClient} {sysId : UInt32}
    (h : Connected clients sysId) : Connected (addToClientList clients newClient).2.1 sysId := by
  by_cases hnew : newClient.fd = invalidFd
  · rw [addToClientList, if_pos hnew]
    exact h
  obtain ⟨i, hfd, hid⟩ := h
  rcases addToClientList_cases clients hnew with
    ⟨j, hsame, heq⟩ | ⟨-, ⟨j, hfree, heq⟩ | ⟨-, heq⟩⟩ <;> rw [heq]
  · by_cases hij : i = j
    · subst hij
      exact ⟨i, by simpa using hnew, by simpa [← hsame] using hid⟩
    · exact ⟨i, by simpa [hij] using hfd, by simpa [hij] using hid⟩
  · have hij : i ≠ j := by
      rintro rfl
      exact hfd hfree
    exact ⟨i, by simpa [hij] using hfd, by simpa [hij] using hid⟩
  · exact ⟨i, hfd, hid⟩

/-- Deleting a slot disconnects no other slot's client. -/
theorem connected_deleteFromClientList {clients : ClientTable} {i : Fin maxClientNum}
    {sysId : UInt32} (h : Connected clients sysId) (hne : sysId ≠ (clients i).sysId) :
    Connected (deleteFromClientList clients (some i)).2.1 sysId := by
  obtain ⟨j, hfd, hid⟩ := h
  have hji : j ≠ i := by
    rintro rfl
    exact hne hid.symm
  exact ⟨j, by simpa [deleteFromClientList, hji] using hfd,
    by simpa [deleteFromClientList, hji] using hid⟩

end ClientTable

end PowerApi
