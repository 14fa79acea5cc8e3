import PowerApi.CStrings
import PowerApi.Connections

/-!
# Who connects (`server.c`, `sockclient.c`)

A client is known by its process id, which the server takes from the path that the
client's socket is bound to: `AcceptConnection` skips as many bytes of the path as
`CLIENT_ADDR` has, copies at most 19 of those behind it and hands them to `atoi`. It does
not look at what it skips, nor whether there is a number.

`accept` delivers the path of a socket that is bound to one with a zero byte behind it, as
far as `sun_path` has room. Of a socket that is not bound it delivers nothing, and
`sun_path` is what the stack held.
-/

namespace PowerApi

open ClientTable

/-- `sizeof(sun_path)`. -/
def sunPathSize : ℕ := 108

/-- `CLIENT_ADDR`. -/
def clientAddr : Bytes := text "pwrclient.sock."

/-- `MAX_SYSID_LEN`. -/
def maxSysIdLen : ℕ := 20

/-- The address of a peer. -/
inductive PeerAddr where
  | unbound
  | path (p : Bytes) (hfits : p.length ≤ sunPathSize) (hbytes : ∀ c ∈ p, c ≠ 0)
  /-- a name behind a zero byte, which is no path -/
  | abstract (name : Bytes) (hfits : name.length < sunPathSize)

namespace PeerAddr

/-- The path the peer is bound to. -/
def pathOf : PeerAddr → Bytes
  | path p _ _ => p
  | _ => []

/-- What `accept` stores to `sun_path`. -/
def delivered : PeerAddr → Bytes
  | unbound => []
  | path p _ _ => (p ++ [0]).take sunPathSize
  | abstract name _ => 0 :: name

/-- `sun_path` after `accept`, which the stack held `stale` in. -/
def sunPath (peer : PeerAddr) (stale : Bytes) : Bytes :=
  peer.delivered ++ stale.drop peer.delivered.length

end PeerAddr

/-- The system id that `AcceptConnection` reads off a `sun_path`. -/
def sysIdOf (sunPath : Bytes) : UInt32 :=
  let strSysId := cString ((sunPath.drop clientAddr.length).take (maxSysIdLen - 1))
  UInt32.ofInt (atoi strSysId)

/-- `AcceptConnection`, for the descriptor and the address that `accept` gives, with the
descriptors it closes. -/
def acceptConnection (clients : ClientTable) (newClientFd : Int) (peer : PeerAddr)
    (stale : Bytes) : ClientTable × List Int :=
  if newClientFd < 0 then (clients, [])
  else
    let client : PwrClient := ⟨newClientFd, sysIdOf (peer.sunPath stale)⟩
    let (ret, clients, closed) := addToClientList clients client
    if ret ≠ .success then (clients, closed ++ [newClientFd]) else (clients, closed)

/-- The path that `CreateConnection` binds to: `strncpy` and `strncat`. -/
def createConnectionPath (pid : Int) : Bytes :=
  clientAddr.take (sunPathSize - 1) ++
    (decimal pid).take (sunPathSize - clientAddr.length - 1)

/-! ## The number in a path -/

/-- The digits behind `CLIENT_ADDR`, if that is what the path consists of. -/
def digitsBehind (path : Bytes) : Option Bytes :=
  let digits := path.drop clientAddr.length
  if clientAddr <+: path ∧ digits ≠ [] ∧ ∀ c ∈ digits, isDigit c = true then some digits else none

/-- The path is `CLIENT_ADDR` and the number, which is a process id. -/
def Encodes (path : Bytes) (n : ℕ) : Prop :=
  ∃ digits ∈ digitsBehind path, digitsValue digits = n ∧ 0 < n ∧ n < 2 ^ 31

/-- The path encodes a number, in no more digits than are copied. -/
def Readable (path : Bytes) : Prop :=
  ∃ digits ∈ digitsBehind path, digits.length < maxSysIdLen ∧
    0 < digitsValue digits ∧ digitsValue digits < 2 ^ 31

instance (path : Bytes) : Decidable (Readable path) := by
  unfold Readable
  infer_instance

theorem digitsBehind_eq_some {path digits : Bytes} :
    digitsBehind path = some digits ↔
      path = clientAddr ++ digits ∧ digits ≠ [] ∧ ∀ c ∈ digits, isDigit c = true := by
  unfold digitsBehind
  constructor
  · intro h
    obtain ⟨⟨⟨rest, rfl⟩, hrest⟩, heq⟩ := Option.ite_none_right_eq_some.mp h
    rw [List.drop_left] at hrest heq
    obtain rfl := Option.some.inj heq
    exact ⟨rfl, hrest⟩
  · rintro ⟨rfl, hdigits⟩
    rw [List.drop_left, if_pos ⟨List.prefix_append .., hdigits⟩]

theorem clientAddr_eq : clientAddr =
    [112, 119, 114, 99, 108, 105, 101, 110, 116, 46, 115, 111, 99, 107, 46] := by
  rw [clientAddr, text_eq]
  rfl

theorem length_clientAddr : clientAddr.length = 15 := by rw [clientAddr_eq]; rfl

theorem Encodes.inj {path : Bytes} {n n' : ℕ} (h : Encodes path n) (h' : Encodes path n') :
    n = n' := by
  obtain ⟨digits, hdigits, rfl, -⟩ := h
  obtain ⟨digits', hdigits', rfl, -⟩ := h'
  rw [Option.some.inj (hdigits.symm.trans hdigits')]

/-- What is copied of a string of digits with a zero byte behind it, if it is not too long. -/
theorem cString_take {digits rest : Bytes} {k : ℕ} (hdigits : ∀ c ∈ digits, c ≠ 0)
    (hrest : k ≤ digits.length ∨ ∃ bs, rest = 0 :: bs) :
    cString ((digits ++ rest).take k) = digits.take k := by
  have htake : ∀ c ∈ digits.take k, c ≠ 0 := fun c hc => hdigits c (List.mem_of_mem_take hc)
  by_cases hk : k ≤ digits.length
  · rw [List.take_append_of_le_length hk, cString_of_ne htake]
  · obtain ⟨bs, rfl⟩ := hrest.resolve_left hk
    obtain ⟨j, hj⟩ : ∃ j, k - digits.length = j + 1 := ⟨k - digits.length - 1, by omega⟩
    rw [List.take_append, hj, List.take_succ_cons, cString_append_zero htake]

/-- Of a path of `CLIENT_ADDR` and digits, the first 19 digits are read. -/
theorem sysIdOf_digits {peer : PeerAddr} {digits stale : Bytes}
    (h : digitsBehind peer.pathOf = some digits) :
    sysIdOf (peer.sunPath stale) = UInt32.ofInt (atoi (digits.take (maxSysIdLen - 1))) := by
  obtain ⟨hpath, hne, hdigits⟩ := digitsBehind_eq_some.mp h
  have hlen := length_clientAddr
  cases peer with
  | unbound => exact absurd (List.append_eq_nil_iff.mp hpath.symm).2 hne
  | abstract name hfits => exact absurd (List.append_eq_nil_iff.mp hpath.symm).2 hne
  | path p hfits hbytes =>
    obtain rfl : p = clientAddr ++ digits := hpath
    have hsun : ∃ rest, (maxSysIdLen - 1 ≤ digits.length ∨ ∃ bs, rest = 0 :: bs) ∧
        (PeerAddr.path (clientAddr ++ digits) hfits hbytes).sunPath stale =
          clientAddr ++ (digits ++ rest) := by
      rw [PeerAddr.sunPath, PeerAddr.delivered]
      rcases Nat.lt_or_eq_of_le hfits with hlt | hfull
      · rw [List.take_of_length_le (by simpa [Nat.add_assoc] using Nat.succ_le_of_lt hlt)]
        exact ⟨0 :: stale.drop (clientAddr ++ digits ++ [0]).length, .inr ⟨_, rfl⟩, by simp⟩
      · -- no room for the zero byte
        rw [List.take_append_of_le_length hfull.ge, List.take_of_length_le hfull.le]
        refine ⟨stale.drop (clientAddr ++ digits).length, .inl ?_, by simp⟩
        rw [List.length_append, hlen] at hfull
        have : maxSysIdLen - 1 + 15 ≤ sunPathSize := by decide
        omega
    obtain ⟨rest, hrest, heq⟩ := hsun
    rw [sysIdOf, heq, List.drop_left,
      cString_take (fun c hc => ne_zero_of_isDigit (hdigits c hc)) hrest]

theorem toNat_ofInt_natCast (n : ℕ) : (UInt32.ofInt n).toNat = n % 2 ^ 32 := by
  rw [UInt32.ofInt, UInt32.toNat_ofNat']
  omega

/-- The system id is the number in the path. -/
theorem sysIdOf_of_readable {peer : PeerAddr} {digits stale : Bytes}
    (h : digitsBehind peer.pathOf = some digits) (hlen : digits.length < maxSysIdLen)
    (hlt : digitsValue digits < 2 ^ 31) :
    sysIdOf (peer.sunPath stale) = UInt32.ofNat (digitsValue digits) := by
  obtain ⟨-, -, hdigits⟩ := digitsBehind_eq_some.mp h
  rw [sysIdOf_digits h, List.take_of_length_le (Nat.le_sub_one_of_lt hlen),
    atoi_digits hdigits hlt]
  refine UInt32.toNat_inj.mp ?_
  rw [toNat_ofInt_natCast, UInt32.toNat_ofNat']

/-- If some digits are left out, it is not. -/
theorem length_lt_of_sysIdOf {peer : PeerAddr} {digits stale : Bytes}
    (h : digitsBehind peer.pathOf = some digits) (hpos : 0 < digitsValue digits)
    (hlt : digitsValue digits < 2 ^ 31)
    (heq : sysIdOf (peer.sunPath stale) = UInt32.ofNat (digitsValue digits)) :
    digits.length < maxSysIdLen := by
  obtain ⟨-, -, hdigits⟩ := digitsBehind_eq_some.mp h
  have hread := @sysIdOf_digits _ _ stale h
  have hdigits : ∀ c ∈ digits.take (maxSysIdLen - 1), isDigit c = true := fun c hc =>
    hdigits c (List.mem_of_mem_take hc)
  have hsplit := digitsValue_append (digits.take (maxSysIdLen - 1)) (digits.drop (maxSysIdLen - 1))
  rw [List.take_append_drop] at hsplit
  by_contra hlong
  have hpow : 10 ≤ 10 ^ (digits.drop (maxSysIdLen - 1)).length := by
    refine Nat.le_self_pow (Nat.sub_ne_zero_of_lt ?_) 10 |>.trans_eq (by rw [List.length_drop])
    exact Nat.lt_of_lt_of_le (by decide) (not_lt.mp hlong)
  generalize digits.take (maxSysIdLen - 1) = front at hread hdigits hsplit
  -- a digit that is left out makes the number at least ten times as large
  have hten : digitsValue front * 10 ≤ digitsValue digits := by
    rw [hsplit]
    exact (Nat.mul_le_mul_left _ hpow).trans (Nat.le_add_right ..)
  rw [hread, atoi_digits hdigits (by omega)] at heq
  have hnat := congrArg UInt32.toNat heq
  rw [toNat_ofInt_natCast, UInt32.toNat_ofNat', Nat.mod_eq_of_lt (by omega),
    Nat.mod_eq_of_lt (by omega)] at hnat
  omega

/-! ## One connection -/

/-- Neither is a slot free nor is the id registered, so that the table is full for it. -/
def Refuses (clients : ClientTable) (sysId : UInt32) : Prop :=
  ∀ i, (clients i).fd ≠ invalidFd ∧ (clients i).sysId ≠ sysId

instance (clients : ClientTable) (sysId : UInt32) : Decidable (Refuses clients sysId) := by
  unfold Refuses
  infer_instance

/-- The connection is in the table under the number in the peer's path, or not at all: then
the table is as it was, and the connection has been closed. -/
structure Identified (clients clients' : ClientTable) (closed : List Int) (fd : Int)
    (peer : PeerAddr) : Prop where
  number : ∀ i, (clients' i).fd = fd →
    ∃ n, Encodes peer.pathOf n ∧ (clients' i).sysId = UInt32.ofNat n
  refused : (∀ i, (clients' i).fd ≠ fd) → clients' = clients ∧ fd ∈ closed

/-- A table refuses a connection, or one of its slots gets it. -/
theorem addToClientList_slots (clients : ClientTable) {c : PwrClient} (hfd : c.fd ≠ invalidFd) :
    Refuses clients c.sysId ∧
        addToClientList clients c = (.errOverMaxConnection, clients, []) ∨
      ¬ Refuses clients c.sysId ∧ ∃ i closed,
        addToClientList clients c = (.success, Function.update clients i c, closed) ∧
        (Connections.Live clients i → (clients i).sysId = c.sysId) := by
  rcases addToClientList_cases clients hfd with
    ⟨i, hsame, heq⟩ | ⟨hother, ⟨i, hfree, heq⟩ | ⟨hfull, heq⟩⟩ <;> rw [heq]
  · exact .inr ⟨fun hfull => (hfull i).2 hsame, i, _, rfl, fun _ => hsame⟩
  · exact .inr ⟨fun hfull => (hfull i).1 hfree, i, _, rfl, fun hlive => absurd hfree hlive⟩
  · exact .inl ⟨fun i => ⟨hfull i, hother i⟩, rfl⟩

theorem acceptConnection_cases (clients : ClientTable) (fd : ℕ) (peer : PeerAddr)
    (stale : Bytes) :
    Refuses clients (sysIdOf (peer.sunPath stale)) ∧
        acceptConnection clients fd peer stale = (clients, [(fd : Int)]) ∨
      ¬ Refuses clients (sysIdOf (peer.sunPath stale)) ∧ ∃ i closed,
        acceptConnection clients fd peer stale =
          (Function.update clients i ⟨fd, sysIdOf (peer.sunPath stale)⟩, closed) ∧
        (Connections.Live clients i → (clients i).sysId = sysIdOf (peer.sunPath stale)) := by
  rw [acceptConnection, if_neg (by omega)]
  dsimp only
  rcases addToClientList_slots clients (c := ⟨fd, sysIdOf (peer.sunPath stale)⟩)
    (Connections.ne_invalidFd (Int.natCast_nonneg fd)) with ⟨hfull, heq⟩ | ⟨hfull, i, closed, heq, hi⟩
  · exact .inl ⟨hfull, by rw [heq]; rfl⟩
  · exact .inr ⟨hfull, i, closed, by rw [heq]; rfl, hi⟩

/-- The number in a path is the id that is read off it exactly if the path is readable. -/
theorem encodes_sysIdOf_iff {peer : PeerAddr} {stale : Bytes} :
    (∃ n, Encodes peer.pathOf n ∧ sysIdOf (peer.sunPath stale) = UInt32.ofNat n) ↔
      Readable peer.pathOf := by
  constructor
  · rintro ⟨n, ⟨digits, hdigits, rfl, hpos, hlt⟩, heq⟩
    exact ⟨digits, hdigits, length_lt_of_sysIdOf hdigits hpos hlt heq, hpos, hlt⟩
  · rintro ⟨digits, hdigits, hlen, hpos, hlt⟩
    exact ⟨_, ⟨digits, hdigits, rfl, hpos, hlt⟩, sysIdOf_of_readable hdigits hlen hlt⟩

theorem identified_iff {clients : ClientTable} {fd : ℕ} (peer : PeerAddr) (stale : Bytes)
    (hfresh : ∀ i, (clients i).fd ≠ fd) :
    Identified clients (acceptConnection clients fd peer stale).1
        (acceptConnection clients fd peer stale).2 fd peer ↔
      Refuses clients (sysIdOf (peer.sunPath stale)) ∨ Readable peer.pathOf := by
  rcases acceptConnection_cases clients fd peer stale with ⟨hfull, heq⟩ | ⟨hfull, i, closed, heq, -⟩
  · rw [heq]
    exact iff_of_true ⟨fun i hi => absurd hi (hfresh i), fun _ => ⟨rfl, List.mem_cons_self⟩⟩
      (.inl hfull)
  · rw [heq, or_iff_right hfull, ← @encodes_sysIdOf_iff peer stale]
    constructor
    · intro h
      simpa using h.number i (by simp)
    · intro h
      refine ⟨fun j hj => ?_, fun h => absurd (by simp) (h i)⟩
      by_cases hji : j = i
      · subst hji
        simpa using h
      · simp only [Function.update_of_ne hji] at hj
        exact absurd hj (hfresh j)

/-! ## Runs -/

/-- The table, and the peer behind each descriptor. -/
structure Peers where
  clients : ClientTable
  peerOf : Int → Option PeerAddr

namespace Peers

/-- What happens to the table. -/
inductive Event where
  | accept (fd : ℕ) (peer : PeerAddr) (stale : Bytes)
  | delete (idx : Option (Fin maxClientNum))
  | closeAll

def init : Peers := ⟨initPwrClient, fun _ => none⟩

/-- One call; `accept` delivers a descriptor that is not in the table. -/
def step (s : Peers) : Event → Option Peers
  | .accept fd peer stale =>
    if ∀ i, (s.clients i).fd ≠ fd then
      some ⟨(acceptConnection s.clients fd peer stale).1, Function.update s.peerOf fd (some peer)⟩
    else none
  | .delete idx => some { s with clients := (deleteFromClientList s.clients idx).2.1 }
  | .closeAll => some { s with clients := (closeAllConnections s.clients).1 }

/-- Who connects is refused, or has a readable path. -/
def Readably (s : Peers) : Event → Prop
  | .accept _ peer stale =>
    Refuses s.clients (sysIdOf (peer.sunPath stale)) ∨ Readable peer.pathOf
  | _ => True

instance (s : Peers) (e : Event) : Decidable (s.Readably e) := by
  unfold Readably
  split <;> infer_instance

/-- The peer of every connection has a path that encodes the id it is registered under. -/
def Known (s : Peers) : Prop :=
  ∀ i, Connections.Live s.clients i → ∃ peer n, s.peerOf (s.clients i).fd = some peer ∧
    Encodes peer.pathOf n ∧ (s.clients i).sysId = UInt32.ofNat n

/-- Whoever has the slot after the step has the number of whoever had it before. -/
def KeepsNumbers (s s' : Peers) : Prop :=
  ∀ i, Connections.Live s.clients i → Connections.Live s'.clients i →
    (s'.clients i).sysId = (s.clients i).sysId

variable {s s' : Peers} {e : Event}

/-- A step that only empties slots. -/
theorem Known.of_emptied (h : s.Known) (hpeerOf : s'.peerOf = s.peerOf)
    (hclients : ∀ i, Connections.Live s'.clients i → s'.clients i = s.clients i) :
    s'.Known ∧ KeepsNumbers s s' := by
  refine ⟨fun i hlive => ?_, fun i _ hlive => by rw [hclients i hlive]⟩
  rw [hpeerOf, hclients i hlive]
  exact h i (by rw [Connections.Live, ← hclients i hlive]; exact hlive)

theorem Known.accept (h : s.Known) {fd : ℕ} {peer : PeerAddr} {stale : Bytes}
    (hfresh : ∀ i, (s.clients i).fd ≠ fd)
    (hread : Refuses s.clients (sysIdOf (peer.sunPath stale)) ∨ Readable peer.pathOf) :
    Known ⟨(acceptConnection s.clients fd peer stale).1, Function.update s.peerOf fd (some peer)⟩ ∧
      KeepsNumbers s
        ⟨(acceptConnection s.clients fd peer stale).1, Function.update s.peerOf fd (some peer)⟩ := by
  have hold : ∀ i, Connections.Live s.clients i → ∃ p n,
      Function.update s.peerOf fd (some peer) (s.clients i).fd = some p ∧
        Encodes p.pathOf n ∧ (s.clients i).sysId = UInt32.ofNat n := by
    intro i hlive
    rw [Function.update_of_ne (hfresh i)]
    exact h i hlive
  rcases acceptConnection_cases s.clients fd peer stale with
    ⟨-, heq⟩ | ⟨hfull, i, closed, heq, hi⟩
  · rw [heq]
    exact ⟨hold, fun _ _ _ => rfl⟩
  · rw [heq]
    refine ⟨fun j hlive => ?_, fun j hlive _ => ?_⟩ <;> by_cases hji : j = i
    · subst hji
      obtain ⟨n, hn⟩ := encodes_sysIdOf_iff.mpr (hread.resolve_left hfull)
      exact ⟨peer, n, by simp, hn.1, by simpa using hn.2⟩
    · simp only [Connections.Live, Function.update_of_ne hji] at hlive ⊢
      exact hold j hlive
    · subst hji
      simpa using (hi hlive).symm
    · simp [hji]

theorem Known.step (h : s.Known) (hs : Peers.step s e = some s') (hread : s.Readably e) :
    s'.Known ∧ KeepsNumbers s s' := by
  cases e with
  | accept fd peer stale =>
    obtain ⟨hfresh, hs⟩ := Option.ite_none_right_eq_some.mp hs
    obtain rfl := Option.some.inj hs
    exact h.accept hfresh hread
  | delete idx =>
    obtain rfl := Option.some.inj hs
    refine h.of_emptied rfl fun i hlive => ?_
    cases idx with
    | none => rfl
    | some j =>
      refine Function.update_of_ne ?_ ..
      rintro rfl
      simp [Connections.Live, deleteFromClientList, PwrClient.none] at hlive
  | closeAll =>
    obtain rfl := Option.some.inj hs
    refine h.of_emptied rfl fun i hlive => ?_
    have hclose : (closeAllConnections s.clients).1 i =
        if Connections.Live s.clients i then .none else s.clients i := by
      rw [closeAllConnections, Connections.foldl_closeAll _ _ (List.nodup_finRange _)]
      simp [List.mem_finRange]
    dsimp only [Connections.Live] at hlive ⊢
    rw [hclose] at hlive ⊢
    split at hlive
    · exact absurd rfl hlive
    · next hfree => rw [if_neg hfree]

/-- No connection is registered under an id that marks something free, and a slot is never
handed from one peer to another with a different number. -/
structure Apart (s s' : Peers) : Prop where
  valid : ∀ i, Connections.Live s'.clients i →
    (s'.clients i).sysId ≠ 0 ∧ (s'.clients i).sysId ≠ invalidSysId
  numbers : ∀ i, Connections.Live s.clients i → Connections.Live s'.clients i →
    ∀ peer peer' n n', s.peerOf (s.clients i).fd = some peer →
      s'.peerOf (s'.clients i).fd = some peer' → Encodes peer.pathOf n → Encodes peer'.pathOf n' →
      n = n'

/-- The number of a peer that is registered. -/
theorem Known.sysId_eq (h : s.Known) {i : Fin maxClientNum} (hlive : Connections.Live s.clients i)
    {peer : PeerAddr} {n : ℕ} (hpeer : s.peerOf (s.clients i).fd = some peer)
    (hn : Encodes peer.pathOf n) : n < 2 ^ 31 ∧ (s.clients i).sysId.toNat = n := by
  obtain ⟨peer', n', hpeer', hn', hid⟩ := h i hlive
  obtain rfl := Option.some.inj (hpeer.symm.trans hpeer')
  obtain rfl := hn.inj hn'
  obtain ⟨-, -, -, -, hlt⟩ := hn
  refine ⟨hlt, ?_⟩
  rw [hid, UInt32.toNat_ofNat', Nat.mod_eq_of_lt (by omega)]

theorem Known.apart (h : s.Known) (h' : s'.Known) (hkeeps : KeepsNumbers s s') : Apart s s' := by
  refine ⟨fun i hlive => ?_, fun i hlive hlive' peer peer' n n' hpeer hpeer' hn hn' => ?_⟩
  · obtain ⟨peer, n, hpeer, hn, -⟩ := h' i hlive
    obtain ⟨hlt, hid⟩ := h'.sysId_eq hlive hpeer hn
    obtain ⟨-, -, -, hpos, -⟩ := hn
    refine ⟨fun heq => ?_, fun heq => ?_⟩ <;> rw [heq] at hid
    · exact hpos.ne hid
    · have hmax : invalidSysId.toNat = 2 ^ 32 - 1 := rfl
      omega
  · rw [← (h.sysId_eq hlive hpeer hn).2, ← (h'.sysId_eq hlive' hpeer' hn').2, hkeeps i hlive hlive']

/-- The path of a client's own making is readable, and has its process id in it. -/
theorem readable_createConnectionPath {pid : ℕ} (hpos : 0 < pid) (hlt : pid < 2 ^ 31) :
    ∃ peer : PeerAddr, peer.pathOf = createConnectionPath pid ∧ Readable peer.pathOf ∧
      ∀ stale, sysIdOf (peer.sunPath stale) = UInt32.ofNat pid := by
  obtain ⟨hdigits, hvalue⟩ := decimal_digits pid
  have hlen : (decimal pid).length ≤ 10 := length_decimal_le (by decide) (by omega)
  have hpath : createConnectionPath pid = clientAddr ++ decimal pid := by
    rw [createConnectionPath, List.take_of_length_le (by rw [length_clientAddr]; decide),
      List.take_of_length_le]
    rw [length_clientAddr]
    exact hlen.trans (by decide)
  have hne : decimal (pid : Int) ≠ [] := fun hnil => by
    rw [hnil] at hvalue
    exact hpos.ne hvalue
  have hsome : digitsBehind (createConnectionPath pid) = some (decimal pid) :=
    digitsBehind_eq_some.mpr ⟨hpath, hne, hdigits⟩
  have hbytes : ∀ c ∈ createConnectionPath pid, c ≠ 0 := by
    rw [hpath]
    intro c hc
    rcases List.mem_append.mp hc with hc | hc
    · have hall : ∀ c ∈ clientAddr, c ≠ 0 := by simp [clientAddr_eq]
      exact hall c hc
    · exact ne_zero_of_isDigit (hdigits c hc)
  have hfits : (createConnectionPath pid).length ≤ sunPathSize := by
    rw [hpath, List.length_append, length_clientAddr]
    exact (Nat.add_le_add_left hlen 15).trans (by decide)
  have hshort : (decimal (pid : Int)).length < maxSysIdLen := hlen.trans_lt (by decide)
  refine ⟨.path (createConnectionPath pid) hfits hbytes, rfl, ?_, fun stale => ?_⟩
  · exact ⟨_, hsome, hshort, by omega, by omega⟩
  · rw [@sysIdOf_of_readable (.path _ hfits hbytes) _ stale hsome hshort (by omega), hvalue]

/-- **Who a peer is.** A connection is registered under the positive number in its peer's
path, or refused, exactly if the table is full for the id that is read or the path is
readable. In a run in which that is so of every connection, whoever is registered under an
id has it in its path, and no slot is shared by different numbers. And the paths that the
client library makes are readable. -/
theorem peers_identified (clients : ClientTable) (fd : ℕ) (peer : PeerAddr) (stale : Bytes)
    (hfresh : ∀ i, (clients i).fd ≠ fd) (events : List Event) (pid : ℕ) (hpos : 0 < pid)
    (hlt : pid < 2 ^ 31) :
    (Identified clients (acceptConnection clients fd peer stale).1
        (acceptConnection clients fd peer stale).2 fd peer ↔
      Refuses clients (sysIdOf (peer.sunPath stale)) ∨ Readable peer.pathOf) ∧
    (Transition.Along Peers.step (fun s e _ => s.Readably e) init events →
      Transition.Along Peers.step (fun s _ s' => s'.Known ∧ Apart s s') init events) ∧
    ∃ own : PeerAddr, own.pathOf = createConnectionPath pid ∧ Readable own.pathOf ∧
      ∀ stale, sysIdOf (own.sunPath stale) = UInt32.ofNat pid := by
  refine ⟨identified_iff peer stale hfresh, fun hread => ?_, readable_createConnectionPath hpos hlt⟩
  have hinit : init.Known := fun i hlive => absurd rfl hlive
  refine Transition.Along.of_invariant (I := Known) (fun h hs hr => ?_) hinit hread
  obtain ⟨h', hkeeps⟩ := h.step hs hr
  exact ⟨h', h', h.apart h' hkeeps⟩

/-- The socket of the process 100. -/
def peer100 : PeerAddr :=
  .path (clientAddr ++ [49, 48, 48]) (by decide +kernel) (by decide +kernel)

/-- It comes twice and then goes. -/
def twice100 : List Event := [.accept 7 peer100 [], .accept 8 peer100 [], .delete (some 0)]

theorem peers_identified_100 :
    (Identified initPwrClient (acceptConnection initPwrClient (7 : ℕ) peer100 []).1
        (acceptConnection initPwrClient (7 : ℕ) peer100 []).2 (7 : ℕ) peer100 ↔
      Refuses initPwrClient (sysIdOf (peer100.sunPath [])) ∨ Readable peer100.pathOf) ∧
    Transition.Along Peers.step (fun s _ s' => s'.Known ∧ Apart s s') init twice100 ∧
    ∃ own : PeerAddr, own.pathOf = createConnectionPath (100 : ℕ) ∧ Readable own.pathOf ∧
      ∀ stale, sysIdOf (own.sunPath stale) = UInt32.ofNat 100 := by
  obtain ⟨hone, hruns, hown⟩ :=
    peers_identified initPwrClient 7 peer100 [] (by decide) twice100 100 (by decide) (by decide)
  exact ⟨hone, hruns (by decide +kernel), hown⟩

/-- The process 100 is connected. -/
def connected100 : ClientTable := fun i => if i = 0 then ⟨7, 100⟩ else .none

/-- The path of the process 100 is still on the stack. -/
def stale100 : Bytes := clientAddr ++ [49, 48, 48, 0]

/-- Then a peer that is bound to nothing takes its place. -/
theorem unbound_identified_100 :
    ¬ Identified connected100 (acceptConnection connected100 8 .unbound stale100).1
      (acceptConnection connected100 8 .unbound stale100).2 8 .unbound := by
  intro h
  obtain ⟨n, ⟨digits, hdigits, -⟩, -⟩ := h.number 0 (by decide +kernel)
  obtain ⟨hpath, hne, -⟩ := digitsBehind_eq_some.mp hdigits
  exact hne (List.append_eq_nil_iff.mp hpath.symm).2

end Peers

end PowerApi
