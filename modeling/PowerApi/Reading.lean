import PowerApi.Receive
import PowerApi.Writing

/-!
# Reading what the header announces (`server.c`, `sockclient.c`)

The receive path of each side reads a struct and then as many bytes as its `dataLen`
says, or it gives the connection up. `ReadsExactly` asks for that of one call. It does not
come out so where the length is negative as the `int` that `ReadMsg` takes (the server
clears memory it does not have, the client reads nothing and is content), where there is no
memory for the payload, which then stays in the stream, and where a message is released
whose pointer came over the wire.

`Server.Retries` asks of the server's `ReadMsg` that a transient failure makes no
difference. Since the function compares −1 with the `errno` values, every failure ends it.
-/

namespace Conn

/-- A failure for which `recv` is to be called again. -/
def RecvEvent.again (again : Int → Bool) : RecvEvent → Bool
  | .fail errno => again errno
  | _ => false

/-- A connection without these failures. -/
def quiet (again : Int → Bool) (c : List RecvEvent) : List RecvEvent :=
  c.filter fun e => !e.again again

/-- No such failure comes before `n` bytes are there or the connection is lost. -/
def Undisturbed (again : Int → Bool) : ℕ → List RecvEvent → Prop
  | 0, _ => True
  | _ + 1, [] => True
  | n + 1, .data _ bs :: c => Undisturbed again (n - bs.length) c
  | _ + 1, .fail errno :: _ => again errno = false
  | _ + 1, .closed :: _ => True

section Undisturbed

variable {again : Int → Bool} {n : ℕ} {c : List RecvEvent}

theorem undisturbed_zero : Undisturbed again 0 c := by
  cases c <;> exact trivial

theorem quiet_data {b : UInt8} {bs : List UInt8} :
    quiet again (.data b bs :: c) = .data b bs :: quiet again c :=
  List.filter_cons_of_pos rfl

theorem quiet_closed : quiet again (.closed :: c) = .closed :: quiet again c :=
  List.filter_cons_of_pos rfl

theorem quiet_fail {errno : Int} (h : again errno = false) :
    quiet again (.fail errno :: c) = .fail errno :: quiet again c :=
  List.filter_cons_of_pos (by rw [RecvEvent.again, h]; rfl)

theorem quiet_again {errno : Int} (h : again errno = true) :
    quiet again (.fail errno :: c) = quiet again c :=
  List.filter_cons_of_neg (by rw [RecvEvent.again, h]; exact Bool.false_ne_true)

/-- An undisturbed loop does the same without the failures. -/
theorem readLoop_quiet (h : Undisturbed again n c) :
    readLoop false n (quiet again c) = ((readLoop false n c).1, (readLoop false n c).2.1,
      quiet again (readLoop false n c).2.2) := by
  fun_induction readLoop false n c with
  | case1 c => rw [readLoop]
  | case2 n => rfl
  | case3 n b bs c hdrop fin got c' hrest ih =>
    rw [Undisturbed] at h
    rw [quiet_data, readLoop, hdrop]
    dsimp only
    rw [ih h, hrest]
  | case4 n b bs c b' bs' hdrop =>
    rw [quiet_data, readLoop, hdrop, quiet_data]
  | case5 n errno c hretry ih => cases hretry
  | case6 n errno c hretry =>
    rw [quiet_fail h, readLoop, if_neg Bool.false_ne_true]
  | case7 n c => rw [quiet_closed, readLoop]

/-- A loop that fails has used up an event. -/
theorem length_of_failed {got : List UInt8} {c' : List RecvEvent}
    (h : readLoop false n c = (.failed, got, c')) : c'.length < c.length := by
  fun_induction readLoop false n c generalizing got with
  | case1 c => cases h
  | case2 n => cases h
  | case3 n b bs c hdrop fin got' c'' hrest ih =>
    cases h
    exact (ih hrest).trans (Nat.lt_succ_self _)
  | case4 n b bs c b' bs' hdrop => cases h
  | case5 n errno c hretry ih => cases hretry
  | case6 n errno c hretry =>
    cases h
    exact Nat.lt_succ_self _
  | case7 n c => cases h

/-- A disturbed loop fails, where without the failures it would have gone on. -/
theorem readLoop_disturbed (h : ¬ Undisturbed again n c) :
    ∃ got c', readLoop false n c = (.failed, got, c') ∧
      ∀ got', readLoop false n (quiet again c) ≠ (.failed, got', quiet again c') := by
  fun_induction readLoop false n c with
  | case1 c => exact absurd undisturbed_zero h
  | case2 n => exact absurd trivial h
  | case3 n b bs c hdrop fin got c' hrest ih =>
    rw [Undisturbed] at h
    obtain ⟨got', c'', heq, hne⟩ := ih h
    rw [hrest] at heq
    cases heq
    refine ⟨_, _, rfl, fun got' heq => ?_⟩
    rw [quiet_data, readLoop, hdrop] at heq
    cases hloop : readLoop false (n - bs.length) (quiet again c) with
    | mk fin r =>
      rw [hloop] at heq
      obtain ⟨rfl, hr⟩ := Prod.mk.inj heq
      have hrest : r.2 = quiet again c' := (Prod.mk.inj hr).2
      exact hne r.1 (hloop.trans (by rw [← hrest]))
  | case4 n b bs c b' bs' hdrop =>
    refine absurd ?_ h
    have hlen : n - bs.length = 0 := by
      by_contra hlt
      rw [List.drop_eq_nil_of_le (by omega)] at hdrop
      cases hdrop
    rw [Undisturbed, hlen]
    exact undisturbed_zero
  | case5 n errno c hretry ih => cases hretry
  | case6 n errno c hretry =>
    have hagain : again errno = true := by
      rw [Undisturbed] at h
      simpa using h
    refine ⟨[], c, rfl, fun got' heq => ?_⟩
    rw [quiet_again hagain] at heq
    exact Nat.lt_irrefl _ (length_of_failed heq)
  | case7 n c => exact absurd trivial h

end Undisturbed

end Conn

namespace PowerApi

/-! ## One call of a receive path -/

/-- The connection is behind the message that was next: behind its struct and as many
bytes as the struct says. -/
def PassedFrame (conn conn' : Conn) : Prop :=
  let s := Conn.stream false conn
  Server.frameLength s ≤ s.length ∧ Conn.stream false conn' = s.drop (Server.frameLength s)

/-- The connection is behind the struct only. -/
theorem not_passedFrame {conn conn' : Conn}
    (hdata : (Server.incoming (Conn.stream false conn)).head.dataLen ≠ 0)
    (hconn' : Conn.stream false conn' = (Conn.stream false conn).drop sizeofPwrMsg) :
    ¬ PassedFrame conn conn' := by
  rintro ⟨hframe, hpast⟩
  have hpos : (Server.incoming (Conn.stream false conn)).head.dataLen.toNat ≠ 0 :=
    fun h => hdata (UInt32.toNat_inj.mp h)
  have hlen := congrArg List.length (hconn'.symm.trans hpast)
  rw [List.length_drop, List.length_drop] at hlen
  rw [Server.frameLength] at hframe hlen
  omega

/-- Something of the connection has been read. -/
theorem ne_of_stream_drop {conn conn' : Conn}
    (hlen : sizeofPwrMsg ≤ (Conn.stream false conn).length)
    (hconn' : Conn.stream false conn' = (Conn.stream false conn).drop sizeofPwrMsg) :
    conn' ≠ conn := by
  rintro rfl
  have h40 : 0 < sizeofPwrMsg := by decide
  have hsame := congrArg List.length hconn'
  rw [List.length_drop] at hsame
  omega

/-- Of a struct that came over the wire, only a NULL pointer can be released. -/
theorem release_ofStruct_bind {α : Type} {bs : Bytes} {x : Except Fault α} {y : α}
    (h : (releasePwrMsg (PwrMsg.ofStruct bs)).bind (fun _ => x) = .ok y) :
    (PwrMsg.ofStruct bs).data = .null ∧ x = .ok y := by
  rw [releasePwrMsg, PwrMsg.ofStruct] at h
  rw [PwrMsg.ofStruct]
  dsimp only at h ⊢
  unfold DataPtr.ofAddr at h ⊢
  split at h <;> rename_i haddr
  · exact ⟨if_pos haddr, h⟩
  · cases h

namespace Server

/-- A call of `ProcessRecvMsgFromClient` has read nothing, or one message, or the
connection is given up. -/
def ReadsExactly (clientIdx : Fin maxClientNum) (conn : Conn)
    (res : Except Fault (Server × Conn)) : Prop :=
  ∃ srv' conn', res = .ok (srv', conn') ∧
    (conn' = conn ∨ PassedFrame conn conn' ∨ (srv'.pwrClients clientIdx).fd = invalidFd)

section Exact

variable {srv : Server} {clientIdx : Fin maxClientNum} {mem : RecvAlloc} {conn : Conn}

/-- What is behind the struct of a request is read only if it is right to. -/
theorem right_of_recvContent (hidx : (srv.pwrClients clientIdx).fd ≠ invalidFd)
    (hlen : sizeofPwrMsg ≤ (Conn.stream false conn).length) {conn' : Conn}
    (hconn' : Conn.stream false conn' = (Conn.stream false conn).drop sizeofPwrMsg)
    (hdata : (incoming (Conn.stream false conn)).head.dataLen ≠ 0)
    (h : ReadsExactly clientIdx conn
      (srv.recvContent clientIdx mem (incoming (Conn.stream false conn)) conn')) :
    mem.content ≠ 0 ∧ (incoming (Conn.stream false conn)).head.dataLen.toNat < 2 ^ 31 ∧
      (frameLength (Conn.stream false conn) ≤ (Conn.stream false conn).length ∨
        (incoming (Conn.stream false conn)).data = .null) := by
  obtain ⟨srv', conn'', hres, hcase⟩ := h
  by_cases hcontent : mem.content = 0
  · -- the payload is still in the stream
    rw [recvContent_noContent hdata hcontent] at hres
    obtain ⟨-, hres⟩ := release_ofStruct_bind hres
    obtain ⟨rfl, rfl⟩ := Prod.mk.inj (Except.ok.inj hres)
    obtain hsame | hframe | hgone := hcase
    · exact absurd hsame (ne_of_stream_drop hlen hconn')
    · exact absurd hframe (not_passedFrame hdata hconn')
    · exact absurd hgone hidx
  refine ⟨hcontent, ?_⟩
  by_cases hint : (incoming (Conn.stream false conn)).head.dataLen.toNat < 2 ^ 31
  · refine ⟨hint, or_iff_not_imp_left.mpr fun hframe => ?_⟩
    have hshort : (Conn.stream false conn').length <
        (incoming (Conn.stream false conn)).head.dataLen.toNat := by
      rw [hconn', List.length_drop]
      rw [frameLength] at hframe
      omega
    obtain ⟨conn₂, heq⟩ := @recvContent_short srv clientIdx mem conn' _ hdata hcontent hint hshort
    exact (release_ofStruct_bind (heq.symm.trans hres)).1
  · rw [recvContent_negative hdata hcontent hint] at hres
    cases hres

theorem readsExactly_iff (hwf : srv.WF) (hidx : (srv.pwrClients clientIdx).fd ≠ invalidFd) :
    ReadsExactly clientIdx conn (srv.processRecvMsgFromClient clientIdx mem conn) ↔
      mem.msgOk = false ∨ ReceivesRight mem (Conn.stream false conn) := by
  constructor
  · intro h
    by_cases hmem : mem.msgOk = false
    · exact .inl hmem
    have hmem : mem.msgOk = true := Bool.eq_true_of_not_eq_false hmem
    refine .inr ⟨hmem, ?_⟩
    by_cases hlen : (Conn.stream false conn).length < sizeofPwrMsg
    · rw [if_pos hlen]
      obtain ⟨conn', heq⟩ := @processRecv_shortStruct srv clientIdx mem conn hmem hlen
      obtain ⟨srv', conn'', hres, -⟩ := h
      exact (release_ofStruct_bind (heq.symm.trans hres)).1
    rw [if_neg hlen]
    by_cases htype : (incoming (Conn.stream false conn)).head.msgType = MsgType.mtReq.code
    · refine ⟨htype, or_iff_not_imp_left.mpr fun hdata => ?_⟩
      obtain ⟨conn', hconn', heq⟩ :=
        @processRecv_req srv clientIdx mem conn hmem (not_lt.mp hlen) htype
      rw [heq] at h
      exact right_of_recvContent hidx (not_lt.mp hlen) hconn' hdata h
    · obtain ⟨f, hf⟩ := @processRecv_notReq srv clientIdx mem conn hmem (not_lt.mp hlen) htype
      obtain ⟨srv', conn', hres, -⟩ := h
      rw [hf] at hres
      cases hres
  · rintro (hmem | hright)
    · exact ⟨srv, conn, processRecv_noMsg hmem, .inl rfl⟩
    · obtain ⟨srv', conn', hres, hcase⟩ := (received_iff hwf hidx).mpr hright
      refine ⟨srv', conn', hres, .inr ?_⟩
      obtain ⟨hframe, hpast, -⟩ | ⟨p, hclean⟩ := hcase
      · exact .inl ⟨hframe, hpast⟩
      · rw [hclean]
        exact .inr (cleanClientResource_fd srv p clientIdx)

end Exact

/-- `ReadMsg` does the same as without the transient failures. -/
def Retries (srv : Server) (len : Int) (conn : Conn) (idx : Fin maxClientNum) : Prop :=
  ∃ ret buf srv' conn', srv.readMsg len conn idx = .ok (ret, buf, srv', conn') ∧
    srv.readMsg len (Conn.quiet transient conn) idx =
      .ok (ret, buf, srv', Conn.quiet transient conn')

/-- What becomes of the server at the end of a `ReadMsg`. -/
def readEnd (srv : Server) (idx : Fin maxClientNum) : Conn.ReadEnd → RtnCode × Server
  | .full => (.success, srv)
  | .failed => (.errSysException, srv.cleanClientResource (srv.pwrClients 0) idx)
  | .closed => (.errDisconnected, srv.cleanClientResource (srv.pwrClients 0) idx)

theorem readMsg_eq {srv : Server} {len : Int} {conn : Conn} {idx : Fin maxClientNum}
    (hlen : 0 ≤ len) {fin : Conn.ReadEnd} {got : Bytes} {conn' : Conn}
    (h : Conn.readLoop false len.toNat conn = (fin, got, conn')) :
    srv.readMsg len conn idx = .ok ((srv.readEnd idx fin).1, Conn.zeroFilled len.toNat got,
      (srv.readEnd idx fin).2, conn') := by
  rw [readMsg, if_neg (not_lt.mpr hlen), recvAgain_fail, h]
  cases fin <;> rfl

/-- `ReadMsg` gets through the transient failures if there are none before it is done. -/
theorem retries_iff {srv : Server} {len : Int} {conn : Conn} {idx : Fin maxClientNum} :
    srv.Retries len conn idx ↔ 0 ≤ len ∧ Conn.Undisturbed transient len.toNat conn := by
  constructor
  · rintro ⟨ret, buf, srv', conn', heq, hquiet⟩
    have hlen : 0 ≤ len := by
      by_contra hneg
      rw [readMsg, if_pos (not_le.mp hneg)] at heq
      cases heq
    refine ⟨hlen, ?_⟩
    by_contra hdist
    obtain ⟨got, c', hloop, hne⟩ := Conn.readLoop_disturbed hdist
    obtain ⟨rfl, -, -, rfl⟩ : _ ∧ _ ∧ _ ∧ c' = conn' := by
      simpa using (readMsg_eq hlen hloop).symm.trans heq
    cases hloop' : Conn.readLoop false len.toNat (Conn.quiet transient conn) with
    | mk fin r =>
      have hret := (readMsg_eq hlen hloop').symm.trans hquiet
      have hcode : (srv.readEnd idx fin).1 = (srv.readEnd idx .failed).1 :=
        (Prod.mk.inj (Except.ok.inj hret)).1
      have hrest : r.2 = Conn.quiet transient c' :=
        (Prod.mk.inj (Prod.mk.inj (Prod.mk.inj (Except.ok.inj hret)).2).2).2
      cases fin with
      | full => cases hcode
      | closed => cases hcode
      | failed => exact hne r.1 (hloop'.trans (by rw [← hrest]))
  · rintro ⟨hlen, hund⟩
    exact ⟨_, _, _, _, readMsg_eq hlen rfl, readMsg_eq hlen (Conn.readLoop_quiet hund)⟩

end Server

namespace ClientSock

/-- A call of `RecvMsgFromSocket` has read nothing, or one message, or the connection is
given up. -/
def ReadsExactly (conn : Conn) (res : Except Fault (Option Delivery × ClientSock × Conn)) : Prop :=
  ∃ out c' conn', res = .ok (out, c', conn') ∧
    (conn' = conn ∨ PassedFrame conn conn' ∨ c'.sockFd = invalidFd)

/-- The condition under which it is so, once there is memory for the struct. What a struct
that is cut off lacks is what the memory held before. -/
def ReceivesRight (mem : ClientAlloc) (s : Bytes) : Prop :=
  if s.length < sizeofPwrMsg then
    (PwrMsg.ofStruct (s ++ (mem.msgStale.drop s.length).take (sizeofPwrMsg - s.length))).data = .null
  else
    (Server.incoming s).head.dataLen = 0 ∨
      mem.content ≠ 0 ∧ (Server.incoming s).head.dataLen.toNat < 2 ^ 31 ∧
        (Server.frameLength s ≤ s.length ∨ (Server.incoming s).data = .null)

section Exact

variable {c : ClientSock} {mem : ClientAlloc} {conn : Conn}

/-- The connection ends within the struct. -/
theorem recvMsg_shortStruct (hmem : mem.msgOk = true)
    (hlen : (Conn.stream false conn).length < sizeofPwrMsg) :
    ∃ conn', c.recvMsgFromSocket mem conn = (releasePwrMsg (PwrMsg.ofStruct
        (Conn.stream false conn ++ (mem.msgStale.drop (Conn.stream false conn).length).take
          (sizeofPwrMsg - (Conn.stream false conn).length)))).bind
        fun _ => .ok (none, { c with sockFd := invalidFd }, conn') := by
  obtain ⟨ret, conn', hret, heq⟩ := readMsg_short c mem.msgStale hlen
  refine ⟨conn', ?_⟩
  rw [recvMsgFromSocket, if_neg (by rw [hmem]; exact Bool.noConfusion), heq]
  dsimp only
  rw [if_pos hret]
  rfl

/-- The second half of `RecvMsgFromSocket`, with the struct read. -/
def recvData (c : ClientSock) (mem : ClientAlloc) (msg : PwrMsg) (conn : Conn) :
    Except Fault (Option Delivery × ClientSock × Conn) :=
  if msg.head.dataLen ≠ 0 then
    if mem.content = 0 then (releasePwrMsg msg).bind fun _ => .ok (none, c, conn)
    else
      let (ret, content, c, conn) := c.readMsg (intArg msg.head.dataLen) mem.contentStale conn
      if ret ≠ .success then (releasePwrMsg msg).bind fun _ => .ok (none, c, conn)
      else .ok (some (.ofMsg ⟨msg.head, .heap mem.content content⟩), c, conn)
  else .ok (some (.ofMsg ⟨msg.head, .null⟩), c, conn)

theorem recvMsg_struct (hmem : mem.msgOk = true)
    (hlen : sizeofPwrMsg ≤ (Conn.stream false conn).length) :
    ∃ conn', Conn.stream false conn' = (Conn.stream false conn).drop sizeofPwrMsg ∧
      c.recvMsgFromSocket mem conn =
        c.recvData mem (Server.incoming (Conn.stream false conn)) conn' := by
  obtain ⟨conn', heq, hconn'⟩ := readMsg_full c mem.msgStale hlen
  refine ⟨conn', hconn', ?_⟩
  rw [recvMsgFromSocket, if_neg (by rw [hmem]; exact Bool.noConfusion), heq]
  dsimp only
  rw [if_neg (not_not.mpr rfl)]
  rfl

section Data

variable {conn' : Conn}
  (hconn' : Conn.stream false conn' = (Conn.stream false conn).drop sizeofPwrMsg)

include hconn'

theorem passedFrame_of_payload {conn₂ : Conn}
    (hwhole : Server.frameLength (Conn.stream false conn) ≤ (Conn.stream false conn).length)
    (hconn₂ : Conn.stream false conn₂ = (Conn.stream false conn').drop
      (Server.incoming (Conn.stream false conn)).head.dataLen.toNat) : PassedFrame conn conn₂ := by
  refine ⟨hwhole, ?_⟩
  rw [hconn₂, hconn', List.drop_drop, Server.frameLength]

variable (hlen : sizeofPwrMsg ≤ (Conn.stream false conn).length)

include hlen

/-- The bytes behind the struct are enough for the payload if the whole message is there. -/
theorem whole_iff : Server.frameLength (Conn.stream false conn) ≤ (Conn.stream false conn).length ↔
    (Server.incoming (Conn.stream false conn)).head.dataLen.toNat ≤
      (Conn.stream false conn').length := by
  rw [hconn', List.length_drop, Server.frameLength]
  omega

/-- What is behind a struct is read if it is right to. -/
theorem reads_of_right
    (h : (Server.incoming (Conn.stream false conn)).head.dataLen = 0 ∨
      mem.content ≠ 0 ∧ (Server.incoming (Conn.stream false conn)).head.dataLen.toNat < 2 ^ 31 ∧
        (Server.frameLength (Conn.stream false conn) ≤ (Conn.stream false conn).length ∨
          (Server.incoming (Conn.stream false conn)).data = .null)) :
    ReadsExactly conn (c.recvData mem (Server.incoming (Conn.stream false conn)) conn') := by
  have hwhole := whole_iff hconn' hlen
  have hpassed := @passedFrame_of_payload conn conn' hconn'
  generalize hmsg : Server.incoming (Conn.stream false conn) = msg at h hwhole hpassed ⊢
  by_cases hdata : msg.head.dataLen = 0
  · rw [recvData, if_neg (not_not.mpr hdata)]
    refine ⟨_, c, conn', rfl, .inr (.inl (hpassed (hwhole.mpr ?_) ?_))⟩
    · rw [hdata]
      exact Nat.zero_le _
    · rw [hdata]
      rfl
  obtain ⟨hcontent, hint, hcase⟩ := h.resolve_left hdata
  rw [recvData, if_pos hdata, if_neg hcontent, intArg_of_lt hint]
  by_cases hframe : Server.frameLength (Conn.stream false conn) ≤ (Conn.stream false conn).length
  · obtain ⟨conn₂, heq, hconn₂⟩ := readMsg_full c mem.contentStale (hwhole.mp hframe)
    rw [heq]
    dsimp only
    rw [if_neg (not_not.mpr rfl)]
    exact ⟨_, c, conn₂, rfl, .inr (.inl (hpassed hframe hconn₂))⟩
  · obtain ⟨ret, conn₂, hret, heq⟩ :=
      readMsg_short c mem.contentStale (not_le.mp fun hle => hframe (hwhole.mpr hle))
    rw [heq]
    dsimp only
    rw [if_pos hret, releasePwrMsg, hcase.resolve_left hframe]
    exact ⟨none, { c with sockFd := invalidFd }, conn₂, rfl, .inr (.inr rfl)⟩

/-- It is read only then. -/
theorem right_of_reads (hsock : c.sockFd ≠ invalidFd)
    (hdata : (Server.incoming (Conn.stream false conn)).head.dataLen ≠ 0)
    (h : ReadsExactly conn (c.recvData mem (Server.incoming (Conn.stream false conn)) conn')) :
    mem.content ≠ 0 ∧ (Server.incoming (Conn.stream false conn)).head.dataLen.toNat < 2 ^ 31 ∧
        (Server.frameLength (Conn.stream false conn) ≤ (Conn.stream false conn).length ∨
          (Server.incoming (Conn.stream false conn)).data = .null) := by
  obtain ⟨out, c', conn₂, hres, hcase⟩ := h
  -- with the library still connected, the call must not stop behind the struct
  have hstop : ¬ (c' = c ∧ conn₂ = conn') := by
    rintro ⟨rfl, rfl⟩
    obtain hsame | hframe | hgone := hcase
    · exact ne_of_stream_drop hlen hconn' hsame
    · exact not_passedFrame hdata hconn' hframe
    · exact hsock hgone
  rw [recvData, if_pos hdata] at hres
  by_cases hcontent : mem.content = 0
  · rw [if_pos hcontent] at hres
    cases (release_ofStruct_bind hres).2
    exact absurd ⟨rfl, rfl⟩ hstop
  rw [if_neg hcontent] at hres
  refine ⟨hcontent, ?_⟩
  by_cases hint : (Server.incoming (Conn.stream false conn)).head.dataLen.toNat < 2 ^ 31
  · refine ⟨hint, or_iff_not_imp_left.mpr fun hframe => ?_⟩
    rw [whole_iff hconn' hlen, not_le] at hframe
    obtain ⟨ret, conn₃, hret, heq⟩ := readMsg_short c mem.contentStale hframe
    rw [intArg_of_lt hint, heq] at hres
    dsimp only at hres
    rw [if_pos hret] at hres
    exact (release_ofStruct_bind hres).1
  · -- a negative length is read as no bytes
    obtain ⟨bs, heq⟩ := readMsg_negative c mem.contentStale (intArg_neg hint)
    rw [heq] at hres
    dsimp only at hres
    rw [if_neg (not_not.mpr rfl)] at hres
    cases hres
    exact absurd ⟨rfl, rfl⟩ hstop

end Data

theorem readsExactly_iff (hsock : c.sockFd ≠ invalidFd) :
    ReadsExactly conn (c.recvMsgFromSocket mem conn) ↔
      mem.msgOk = false ∨ ReceivesRight mem (Conn.stream false conn) := by
  by_cases hmem : mem.msgOk = false
  · refine iff_of_true ⟨none, c, conn, ?_, .inl rfl⟩ (.inl hmem)
    rw [recvMsgFromSocket, if_pos hmem]
  rw [or_iff_right hmem, ReceivesRight]
  have hmem : mem.msgOk = true := Bool.eq_true_of_not_eq_false hmem
  by_cases hlen : (Conn.stream false conn).length < sizeofPwrMsg
  · rw [if_pos hlen]
    obtain ⟨conn', heq⟩ := @recvMsg_shortStruct c mem conn hmem hlen
    rw [heq]
    constructor
    · rintro ⟨out, c', conn'', hres, -⟩
      exact (release_ofStruct_bind hres).1
    · intro hnull
      rw [releasePwrMsg, hnull]
      exact ⟨none, { c with sockFd := invalidFd }, conn', rfl, .inr (.inr rfl)⟩
  · rw [if_neg hlen]
    obtain ⟨conn', hconn', heq⟩ := @recvMsg_struct c mem conn hmem (not_lt.mp hlen)
    rw [heq]
    constructor
    · intro h
      exact or_iff_not_imp_left.mpr fun hdata =>
        right_of_reads hconn' (not_lt.mp hlen) hsock hdata h
    · exact reads_of_right hconn' (not_lt.mp hlen)

end Exact

end ClientSock

/-- **Reading is exact** on the server and on the client exactly under the conditions of
`ReceivesRight`, and `ReadMsg` of the server gets through transient failures exactly if
there are none. -/
theorem reads_exactly_iff (srv : ServerState) (clientIdx : Fin maxClientNum) (mem : RecvAlloc)
    (c : ClientSock) (mem' : ClientAlloc) (srv' : Server) (len : Int) (idx : Fin maxClientNum)
    (conn : Conn) (hidx : (srv.1.pwrClients clientIdx).fd ≠ invalidFd)
    (hsock : c.sockFd ≠ invalidFd) :
    (Server.ReadsExactly clientIdx conn (srv.1.processRecvMsgFromClient clientIdx mem conn) ↔
        mem.msgOk = false ∨ Server.ReceivesRight mem (Conn.stream false conn)) ∧
      (ClientSock.ReadsExactly conn (c.recvMsgFromSocket mem' conn) ↔
        mem'.msgOk = false ∨ ClientSock.ReceivesRight mem' (Conn.stream false conn)) ∧
      (srv'.Retries len conn idx ↔ 0 ≤ len ∧ Conn.Undisturbed transient len.toNat conn) :=
  ⟨Server.readsExactly_iff srv.2 hidx, ClientSock.readsExactly_iff hsock, Server.retries_iff⟩

theorem reads_exactly_iff_closed :
    (Server.ReadsExactly 0 [.closed]
        (Server.oneClient.1.processRecvMsgFromClient 0 ⟨true, 0⟩ [.closed]) ↔
      true = false ∨ Server.ReceivesRight ⟨true, 0⟩ (Conn.stream false [.closed])) ∧
    (ClientSock.ReadsExactly [.closed]
        (ClientSock.recvMsgFromSocket ⟨5, initPwrMsgBuffer⟩ ⟨true, [], 0, []⟩ [.closed]) ↔
      true = false ∨ ClientSock.ReceivesRight ⟨true, [], 0, []⟩ (Conn.stream false [.closed])) ∧
    (Server.init.Retries 40 [.closed] 0 ↔
      0 ≤ (40 : Int) ∧ Conn.Undisturbed transient (40 : Int).toNat [.closed]) :=
  reads_exactly_iff Server.oneClient 0 ⟨true, 0⟩ ⟨5, initPwrMsgBuffer⟩ ⟨true, [], 0, []⟩
    Server.init 40 0 [.closed] (by decide) (by decide)

/-- The struct of a response whose data has 2³¹ bytes. -/
def hugeResponse : Bytes := (⟨{ MsgHead.zero with dataLen := 2 ^ 31 }, .null⟩ : PwrMsg).structBytes

/-- It arrives in one piece. -/
def hugeConn : Conn := [.data hugeResponse.headI hugeResponse.tail]

/-- A signal makes the server drop a client, and the library takes the data of a response
for the next struct. -/
theorem interrupted_not_exact :
    ¬ Server.init.Retries sizeofPwrMsg [.fail eintr] 0 ∧
      ¬ ClientSock.ReadsExactly hugeConn
        (ClientSock.recvMsgFromSocket ⟨5, initPwrMsgBuffer⟩ ⟨true, [], 1, []⟩ hugeConn) := by
  constructor
  · intro h
    have hfirst : transient eintr = false := (Server.retries_iff.mp h).2
    cases hfirst
  · intro h
    obtain hmem | hright := (ClientSock.readsExactly_iff (by decide)).mp h
    · cases hmem
    · rw [ClientSock.ReceivesRight, if_neg (by decide +kernel)] at hright
      obtain hdata | ⟨-, hint, -⟩ := hright
      · exact absurd hdata (by decide +kernel)
      · exact absurd hint (by decide +kernel)

end PowerApi
