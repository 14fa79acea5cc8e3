import PowerApi.Receive
import PowerApi.ClientSocket

/-!
# Whose pointer is released (`server.c`, `sockclient.c`)

A struct that has just been read carries a pointer of the peer's, or what its memory
held before. Both receive functions replace it, by NULL or by the payload buffer they
have allocated, but only at their ends: all exits before release the message as it
came. An exit frees a pointer of this process, or NULL, exactly if the condition
`ReleasesOwn` on the memory and the bytes that arrive holds.

The pointer that a message has is told apart by its kind, and `free` faults on one that
this process did not allocate, so that the fault `wildFree` says what was released.
-/

namespace PowerApi

open Bytes

/-- Nothing was freed that is not this process's own. -/
def FreesOwn {α : Type} (res : Except Fault α) : Prop := res ≠ .error .wildFree

@[simp] theorem freesOwn_ok {α : Type} (a : α) : FreesOwn (.ok a : Except Fault α) := nofun

/-- Releasing a message that was read frees what the struct holds. -/
theorem freesOwn_release {α : Type} {m : PwrMsg} (hm : ∃ bs, m = PwrMsg.ofStruct bs)
    {res : Except Fault α} (hres : FreesOwn res) :
    FreesOwn ((releasePwrMsg m).bind fun _ => res) ↔ m.data = .null := by
  obtain ⟨bs, rfl⟩ := hm
  rw [releasePwrMsg, PwrMsg.ofStruct]
  dsimp only
  unfold DataPtr.ofAddr
  split
  · exact iff_of_true hres rfl
  · exact iff_of_false (fun h => h rfl) (by rintro ⟨⟩)

/-- The message gets no payload; or there is memory for it, and it arrives, or has a
length that is not an `int`. -/
def GetsPayload (content : UInt64) (s : Bytes) : Prop :=
  (Server.incoming s).head.dataLen = 0 ∨
    content ≠ 0 ∧ (2 ^ 31 ≤ (Server.incoming s).head.dataLen.toNat ∨
      Server.frameLength s ≤ s.length)

/-! ## The server -/

namespace Server

/-- There is no message to release, or the pointer that has arrived is NULL, or a whole
request has arrived and gets its payload. -/
def ReleasesOwn (mem : RecvAlloc) (s : Bytes) : Prop :=
  mem.msgOk = false ∨
    (PwrMsg.ofStruct (Conn.zeroFilled sizeofPwrMsg (s.take sizeofPwrMsg))).data = .null ∨
    sizeofPwrMsg ≤ s.length ∧ (incoming s).head.msgType = MsgType.mtReq.code ∧
      GetsPayload mem.content s

variable {srv : Server} {clientIdx : Fin maxClientNum} {mem : RecvAlloc} {conn : Conn}

/-- The pointer of a struct that is there. -/
theorem incoming_eq {s : Bytes} (hlen : sizeofPwrMsg ≤ s.length) :
    PwrMsg.ofStruct (Conn.zeroFilled sizeofPwrMsg (s.take sizeofPwrMsg)) = incoming s := by
  rw [Conn.zeroFilled_of_length (by simpa using hlen)]
  rfl

theorem freesOwn_recvContent (hwf : srv.WF)
    {s : Bytes} (hlen : sizeofPwrMsg ≤ s.length)
    (hconn : Conn.stream false conn = s.drop sizeofPwrMsg) :
    FreesOwn (srv.recvContent clientIdx mem (incoming s) conn) ↔
      (incoming s).data = .null ∨ GetsPayload mem.content s := by
  have hlength : (Conn.stream false conn).length = s.length - sizeofPwrMsg := by
    rw [hconn, List.length_drop]
  unfold GetsPayload
  by_cases hdata : (incoming s).head.dataLen = 0
  · rw [recvContent_noData hwf hdata]
    exact iff_of_true (freesOwn_ok _) (.inr (.inl hdata))
  by_cases hcontent : mem.content = 0
  · rw [recvContent_noContent hdata hcontent,
      freesOwn_release (m := incoming s) ⟨_, rfl⟩ (freesOwn_ok _)]
    exact ⟨.inl, fun h => h.resolve_right (by simp [hdata, hcontent])⟩
  by_cases hint : (incoming s).head.dataLen.toNat < 2 ^ 31
  · by_cases hshort : (Conn.stream false conn).length < (incoming s).head.dataLen.toNat
    · obtain ⟨conn', heq⟩ := @recvContent_short srv clientIdx mem conn _ hdata hcontent hint hshort
      have hframe : ¬ frameLength s ≤ s.length := by
        rw [frameLength]
        omega
      rw [heq, freesOwn_release (m := incoming s) ⟨_, rfl⟩ (freesOwn_ok _)]
      refine ⟨.inl, fun h => h.resolve_right ?_⟩
      rintro (h0 | ⟨-, hbig | hwhole⟩)
      · exact hdata h0
      · omega
      · exact hframe hwhole
    · obtain ⟨conn', -, heq⟩ :=
        @recvContent_full srv clientIdx mem conn _ hdata hcontent hint hwf (not_lt.mp hshort)
      have hframe : frameLength s ≤ s.length := by
        rw [frameLength]
        omega
      rw [heq]
      exact iff_of_true (freesOwn_ok _) (.inr (.inr ⟨hcontent, .inr hframe⟩))
  · rw [recvContent_negative hdata hcontent hint]
    exact iff_of_true (by rintro ⟨⟩) (.inr (.inr ⟨hcontent, .inl (not_lt.mp hint)⟩))

/-- A message that is not a request is released as it came. -/
theorem freesOwn_notReq (hmem : mem.msgOk = true)
    (hlen : sizeofPwrMsg ≤ (Conn.stream false conn).length)
    (htype : (incoming (Conn.stream false conn)).head.msgType ≠ MsgType.mtReq.code) :
    FreesOwn (srv.processRecvMsgFromClient clientIdx mem conn) ↔
      (incoming (Conn.stream false conn)).data = .null := by
  obtain ⟨conn', heq, -⟩ := readMsg_full srv clientIdx hlen
  rw [incoming] at htype ⊢
  rw [processRecvMsgFromClient, if_neg (by simp [hmem]), heq]
  dsimp only [bind, Except.bind]
  rw [if_neg (by simp), if_pos htype]
  have hfault : FreesOwn (.error .nullDeref : Except Fault (Server × Conn)) := by rintro ⟨⟩
  exact freesOwn_release ⟨_, rfl⟩ hfault

theorem freesOwn_processRecv (hwf : srv.WF) :
    FreesOwn (srv.processRecvMsgFromClient clientIdx mem conn) ↔
      ReleasesOwn mem (Conn.stream false conn) := by
  unfold ReleasesOwn
  cases hmem : mem.msgOk with
  | false =>
    rw [processRecv_noMsg hmem]
    exact iff_of_true (freesOwn_ok _) (.inl rfl)
  | true =>
    rw [or_iff_right (by simp)]
    by_cases hlen : (Conn.stream false conn).length < sizeofPwrMsg
    · obtain ⟨conn', heq⟩ := @processRecv_shortStruct srv clientIdx mem conn hmem hlen
      rw [heq, freesOwn_release ⟨_, rfl⟩ (freesOwn_ok _), List.take_of_length_le hlen.le,
        or_iff_left fun h => absurd h.1 (not_le.mpr hlen)]
    have hlen := not_lt.mp hlen
    rw [incoming_eq hlen, and_iff_right hlen]
    by_cases htype : (incoming (Conn.stream false conn)).head.msgType = MsgType.mtReq.code
    · obtain ⟨conn', hconn', heq⟩ := @processRecv_req srv clientIdx mem conn hmem hlen htype
      rw [heq, and_iff_right htype]
      exact freesOwn_recvContent hwf hlen hconn'
    · rw [freesOwn_notReq hmem hlen htype, or_iff_left fun h => htype h.1]

end Server

/-! ## The client library -/

namespace ClientSock

/-- There is no message to release, or the pointer that its memory holds after the read
is NULL, or a whole message has arrived and gets its payload. -/
def ReleasesOwn (mem : ClientAlloc) (s : Bytes) : Prop :=
  mem.msgOk = false ∨
    (PwrMsg.ofStruct (s.take sizeofPwrMsg ++
      (mem.msgStale.drop (s.take sizeofPwrMsg).length).take
        (sizeofPwrMsg - (s.take sizeofPwrMsg).length))).data = .null ∨
    sizeofPwrMsg ≤ s.length ∧ GetsPayload mem.content s

variable {c : ClientSock} {mem : ClientAlloc} {conn : Conn}

theorem freesOwn_recvMsg :
    FreesOwn (c.recvMsgFromSocket mem conn) ↔ ReleasesOwn mem (Conn.stream false conn) := by
  unfold ReleasesOwn recvMsgFromSocket
  generalize hs : Conn.stream false conn = s
  cases hmem : mem.msgOk with
  | false => exact iff_of_true (freesOwn_ok _) (.inl rfl)
  | true =>
    rw [or_iff_right (by simp), if_neg (by simp)]
    by_cases hlen : s.length < sizeofPwrMsg
    · obtain ⟨ret, conn', hret, heq⟩ := c.readMsg_short mem.msgStale (hs ▸ hlen)
      rw [heq, hs, List.take_of_length_le hlen.le,
        or_iff_left fun h => absurd h.1 (not_le.mpr hlen)]
      dsimp only
      rw [if_pos hret]
      exact freesOwn_release ⟨_, rfl⟩ (freesOwn_ok _)
    have hlen := not_lt.mp hlen
    obtain ⟨conn', heq, hconn'⟩ := c.readMsg_full mem.msgStale (hs ▸ hlen)
    have hstruct : (s.take sizeofPwrMsg ++ (mem.msgStale.drop (s.take sizeofPwrMsg).length).take
        (sizeofPwrMsg - (s.take sizeofPwrMsg).length)) = s.take sizeofPwrMsg := by
      rw [List.length_take, Nat.min_eq_left hlen, Nat.sub_self, List.take_zero, List.append_nil]
    rw [hs] at hconn'
    have hmsg : PwrMsg.ofStruct (s.take sizeofPwrMsg) = Server.incoming s := rfl
    rw [heq, hs, hstruct, and_iff_right hlen, GetsPayload]
    dsimp only
    rw [if_neg (by simp), hmsg]
    by_cases hdata : (Server.incoming s).head.dataLen = 0
    · rw [if_neg (not_not.mpr hdata)]
      exact iff_of_true (freesOwn_ok _) (.inr (.inl hdata))
    rw [if_pos hdata, or_iff_right (a := (Server.incoming s).head.dataLen = 0) hdata]
    by_cases hcontent : mem.content = 0
    · rw [if_pos hcontent, or_iff_left fun h => h.1 hcontent]
      exact freesOwn_release ⟨_, rfl⟩ (freesOwn_ok _)
    rw [if_neg hcontent, and_iff_right hcontent]
    by_cases hint : (Server.incoming s).head.dataLen.toNat < 2 ^ 31
    · rw [intArg_of_lt hint, or_iff_right (not_le.mpr hint)]
      have hframe : Server.frameLength s ≤ s.length ↔
          (Server.incoming s).head.dataLen.toNat ≤ (Conn.stream false conn').length := by
        rw [hconn', List.length_drop, Server.frameLength]
        omega
      rw [hframe]
      by_cases hshort : (Conn.stream false conn').length < (Server.incoming s).head.dataLen.toNat
      · obtain ⟨ret, conn'', hret, heq'⟩ := c.readMsg_short mem.contentStale hshort
        rw [heq', or_iff_left (not_le.mpr hshort)]
        dsimp only
        rw [if_pos hret]
        exact freesOwn_release ⟨_, rfl⟩ (freesOwn_ok _)
      · obtain ⟨conn'', heq', -⟩ := c.readMsg_full mem.contentStale (not_lt.mp hshort)
        rw [heq']
        exact iff_of_true (freesOwn_ok _) (.inr (not_lt.mp hshort))
    · obtain ⟨bs, heq'⟩ := @readMsg_negative c _ mem.contentStale conn' (intArg_neg hint)
      rw [heq']
      exact iff_of_true (freesOwn_ok _) (.inr (.inl (not_lt.mp hint)))

end ClientSock

/-! ## Both -/

/-- Whatever bytes arrive and wherever they end, the two receive functions free nothing
but what is this process's own exactly if `ReleasesOwn` holds of memory and bytes. -/
theorem pointer_of_peer_released (srv : ServerState) (clientIdx : Fin maxClientNum)
    (mem : RecvAlloc) (c : ClientSock) (cmem : ClientAlloc) (conn : Conn) :
    (FreesOwn (srv.1.processRecvMsgFromClient clientIdx mem conn) ↔
      Server.ReleasesOwn mem (Conn.stream false conn)) ∧
    (FreesOwn (c.recvMsgFromSocket cmem conn) ↔
      ClientSock.ReleasesOwn cmem (Conn.stream false conn)) :=
  ⟨Server.freesOwn_processRecv srv.2, ClientSock.freesOwn_recvMsg⟩

/-- The struct of a request with one byte of payload and a pointer of the peer's, and then
the end of the connection. -/
def peerPointer : Conn :=
  [.data 1 ([0, 0, 0, 0, 1] ++ List.replicate 14 0 ++ 1 :: List.replicate 11 0 ++
    List.replicate 8 65), .closed]

/-- Both functions free the pointer. -/
theorem peerPointer_released :
    ¬ FreesOwn (Server.oneClient.1.processRecvMsgFromClient 0 ⟨true, 4096⟩ peerPointer) ∧
    ¬ FreesOwn (ClientSock.recvMsgFromSocket ⟨10, initPwrMsgBuffer⟩
      ⟨true, List.replicate 40 0, 4096, [0]⟩ peerPointer) :=
  ⟨fun h => h rfl, fun h => h rfl⟩

end PowerApi
