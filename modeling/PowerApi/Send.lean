import PowerApi.Server
import PowerApi.Transition

/-!
# Sending queued messages (`server.c`, `sockclient.c`)

`ProcessSendMsgToClient` and `SendMsgToSocket` are the same function for two
processes: pop up to five messages and write each, in one piece if struct and
payload fit into the 4096 bytes of a static buffer, and else buffer by buffer.
`sendMsg` is how one message is written and `Sender.process` the loop around it,
both in terms of the process's own `WriteMsg`.

`Sender.Emits` is the contract of a process that can send, and `Sender.session`
what follows from it for any sequence of `AddToBufferTail` and sending: what has
been written and what is still queued make up what was added.
-/

namespace PowerApi

/-- The sockets, from the sending end: what `send` will answer, and what each
`WriteMsg` has written to which descriptor. -/
structure Outgoing where
  sends : List Conn.SendEvent
  written : List (Int × Bytes)

namespace Outgoing

/-- The byte stream written to a descriptor. -/
def writtenTo (out : Outgoing) (fd : Int) : Bytes :=
  (out.written.filter fun w => decide (w.1 = fd)).flatMap Prod.snd

/-- One more write. -/
def write (out : Outgoing) (fd : Int) (bs : Bytes) (sends : List Conn.SendEvent) : Outgoing :=
  ⟨sends, out.written ++ [(fd, bs)]⟩

theorem writtenTo_write (out : Outgoing) (fd fd' : Int) (bs : Bytes)
    (sends : List Conn.SendEvent) :
    (out.write fd bs sends).writtenTo fd' =
      out.writtenTo fd' ++ if fd = fd' then bs else [] := by
  by_cases h : fd = fd'
  · simp [writtenTo, write, h]
  · simp [writtenTo, write, h]

end Outgoing

/-! ## One message -/

/-- `memcpy` of `n` bytes from `msg->data + off`. -/
def copyData (msg : PwrMsg) (off n : ℕ) : Except Fault Bytes :=
  if n = 0 then .ok []
  else
    match msg.data with
    | .null => .error .nullDeref
    | .wild _ => .error .overrun
    | .heap _ bs => if off + n ≤ bs.length then .ok ((bs.drop off).take n) else .error .overrun

theorem copyData_eq {msg : PwrMsg} (hmsg : msg.Holds) {off n : ℕ}
    (h : off + n ≤ msg.payload.length) :
    copyData msg off n = .ok ((msg.payload.drop off).take n) := by
  rcases msg with ⟨head, _ | ⟨a, bs⟩ | a⟩
  · have hn : n = 0 := by
      have hnil : off + n ≤ 0 := h
      omega
    rw [copyData, if_pos hn, hn, List.take_zero]
  · unfold copyData
    split
    · rename_i hn
      rw [hn, List.take_zero]
    · exact if_pos h
  · exact hmsg.elim

section SendMsg

variable {σ : Type} (write : Bytes → σ → Except Fault σ)

/-- The payload behind the first 4096 bytes, a buffer at a time. -/
def sendRest (msg : PwrMsg) (datasent leftLen : ℕ) (s : σ) : Except Fault σ :=
  if maxDataSize < leftLen then do
    let data ← copyData msg datasent maxDataSize
    let s ← write data s
    sendRest msg (datasent + maxDataSize) (leftLen - maxDataSize) s
  else do
    let data ← copyData msg datasent leftLen
    write data s
termination_by leftLen
decreasing_by
  simp only [maxDataSize] at *
  omega

/-- Write one message with `WriteMsg`, whose result is not looked at. -/
def sendMsg (msg : PwrMsg) (s : σ) : Except Fault σ := do
  let len := sizeofPwrMsg + msg.head.dataLen.toNat
  if len ≤ maxDataSize then
    let data ← copyData msg 0 msg.head.dataLen.toNat
    write (msg.structBytes ++ data) s
  else
    let data ← copyData msg 0 (maxDataSize - sizeofPwrMsg)
    let s ← write (msg.structBytes ++ data) s
    sendRest write msg (maxDataSize - sizeofPwrMsg) (len - maxDataSize) s

/-- What a write has to do: with the invariant, it appends its bytes to the streams
that they go to. -/
def Writes (I : σ → Prop) (log : σ → Int → Bytes) (fd : Int) : Prop :=
  ∀ buf s, buf.length ≤ maxDataSize → I s →
    ∃ s', write buf s = .ok s' ∧ I s' ∧
      ∀ fd', log s' fd' = log s fd' ++ if fd = fd' then buf else []

variable {write} {I : σ → Prop} {log : σ → Int → Bytes} {fd : Int}

theorem sendRest_spec (hw : Writes write I log fd) {msg : PwrMsg} (hmsg : msg.Holds)
    (datasent leftLen : ℕ) (s : σ) (hI : I s) (hlen : datasent + leftLen = msg.payload.length) :
    ∃ s', sendRest write msg datasent leftLen s = .ok s' ∧ I s' ∧
      ∀ fd', log s' fd' = log s fd' ++ if fd = fd' then msg.payload.drop datasent else [] := by
  induction leftLen using Nat.strong_induction_on generalizing datasent s with
  | _ leftLen ih =>
    rw [sendRest]
    split
    · rename_i hmore
      have hsize : 0 < maxDataSize := by decide
      obtain ⟨s₁, hs₁, hI₁, hlog₁⟩ := hw ((msg.payload.drop datasent).take maxDataSize) s
        (List.length_take_le ..) hI
      obtain ⟨s', hs', hI', hlog'⟩ := ih (leftLen - maxDataSize) (by omega)
        (datasent + maxDataSize) s₁ hI₁ (by omega)
      refine ⟨s', ?_, hI', fun fd' => ?_⟩
      · rw [copyData_eq hmsg (by omega)]
        dsimp only [bind, Except.bind]
        rw [hs₁]
        exact hs'
      · rw [hlog', hlog₁, List.append_assoc]
        split
        · rw [← List.drop_drop, List.take_append_drop]
        · rfl
    · rename_i hlast
      obtain ⟨s', hs', hI', hlog'⟩ := hw ((msg.payload.drop datasent).take leftLen) s
        ((List.length_take_le ..).trans (by omega)) hI
      refine ⟨s', ?_, hI', fun fd' => ?_⟩
      · rw [copyData_eq hmsg (by omega)]
        exact hs'
      · rw [hlog', List.take_of_length_le (by rw [List.length_drop]; omega)]

/-- A message is written as its struct bytes followed by its payload. -/
theorem sendMsg_spec (hw : Writes write I log fd) {msg : PwrMsg} (hmsg : msg.Holds) {s : σ}
    (hI : I s) :
    ∃ s', sendMsg write msg s = .ok s' ∧ I s' ∧
      ∀ fd', log s' fd' = log s fd' ++ if fd = fd' then msg.frame else [] := by
  have hstruct : msg.structBytes.length = sizeofPwrMsg := msg.length_structBytes
  have hpayload := hmsg.length_payload
  have hsize : sizeofPwrMsg ≤ maxDataSize := by decide
  unfold sendMsg
  dsimp only
  split
  · obtain ⟨s', hs', hI', hlog'⟩ := hw msg.frame s
      (by rw [PwrMsg.frame, List.length_append]; omega) hI
    refine ⟨s', ?_, hI', hlog'⟩
    rw [copyData_eq hmsg (by omega), List.drop_zero, List.take_of_length_le hpayload.le]
    exact hs'
  · obtain ⟨s₁, hs₁, hI₁, hlog₁⟩ := hw
      (msg.structBytes ++ msg.payload.take (maxDataSize - sizeofPwrMsg)) s
      (by rw [List.length_append, List.length_take]; omega) hI
    obtain ⟨s', hs', hI', hlog'⟩ := sendRest_spec hw hmsg (maxDataSize - sizeofPwrMsg)
      (sizeofPwrMsg + msg.head.dataLen.toNat - maxDataSize) s₁ hI₁ (by omega)
    refine ⟨s', ?_, hI', fun fd' => ?_⟩
    · rw [copyData_eq hmsg (by omega), List.drop_zero]
      dsimp only [bind, Except.bind]
      rw [hs₁]
      exact hs'
    · rw [hlog', hlog₁, PwrMsg.frame, List.append_assoc]
      split
      · rw [List.append_assoc, List.take_append_drop]
      · rfl

end SendMsg

/-! ## The loop over the queue -/

/-- A process that sends what is in its queue. -/
structure Sender (σ : Type) where
  queue : σ → PwrMsgBuffer PwrMsg
  setQueue : PwrMsgBuffer PwrMsg → σ → σ
  /-- what is done with one message -/
  emit : PwrMsg → σ → Except Fault σ
  /-- how many messages one call handles at most -/
  maxCount : ℕ

/-- The bytes that a list of messages amounts to on one descriptor. -/
def framesTo (dest : PwrMsg → Int) (fd : Int) (ms : List PwrMsg) : Bytes :=
  (ms.filter fun m => decide (dest m = fd)).flatMap PwrMsg.frame

theorem framesTo_append (dest : PwrMsg → Int) (fd : Int) (ms ms' : List PwrMsg) :
    framesTo dest fd (ms ++ ms') = framesTo dest fd ms ++ framesTo dest fd ms' := by
  simp [framesTo]

theorem framesTo_singleton (dest : PwrMsg → Int) (fd : Int) (m : PwrMsg) :
    framesTo dest fd [m] = if dest m = fd then m.frame else [] := by
  by_cases h : dest m = fd
  · simp [framesTo, h]
  · simp [framesTo, h]

/-- A step of a process with a send queue. -/
inductive SendOp where
  /-- `AddToBufferTail` -/
  | add (m : {m : PwrMsg // m.Holds})
  /-- one call of the send function -/
  | process

/-- The messages that are added, in order. -/
def added (ops : List SendOp) : List PwrMsg :=
  ops.filterMap fun
    | .add m => some m.1
    | .process => none

namespace Sender

variable {σ : Type} (S : Sender σ)

/-- The loop of `ProcessSendMsgToClient` and `SendMsgToSocket`. -/
def processLoop : ℕ → σ → Except Fault σ
  | 0, s => .ok s
  | n + 1, s =>
    if isEmptyBuffer (S.queue s) then .ok s
    else
      let (msg, queue) := popFromBufferHead (S.queue s)
      let s := S.setQueue queue s
      match msg with
      | none => processLoop n s
      | some msg => do
        let s ← S.emit msg s
        processLoop n s

def process (s : σ) : Except Fault σ := S.processLoop S.maxCount s

/-- What a sender has to do with one message: with the invariant, write its frame to
its destination, if it has one, and keep the rest of the queue. -/
structure Emits (I : σ → Prop) (log : σ → Int → Bytes) (dest : PwrMsg → Int) : Prop where
  queue_set : ∀ q s, S.queue (S.setQueue q s) = q
  inv_set : ∀ q s, I s → I (S.setQueue q s)
  log_set : ∀ q s, log (S.setQueue q s) = log s
  emit : ∀ (m : PwrMsg) s, m.Holds → I s →
    ∃ s', S.emit m s = .ok s' ∧ I s' ∧ S.queue s' = S.queue s ∧
      ∀ fd, fd ≠ invalidFd → log s' fd = log s fd ++ framesTo dest fd [m]

/-- One step; a message is only added while there is room for it. -/
def step (s : σ) : SendOp → Option σ
  | .add m =>
    if (S.queue s).tail + 1 = (S.queue s).head then none
    else some (S.setQueue (enqueue (S.queue s) m.1) s)
  | .process => (S.process s).toOption

variable {S} {I : σ → Prop} {log : σ → Int → Bytes} {dest : PwrMsg → Int}

/-- The loop writes some of the messages, from the head of the queue. -/
theorem Emits.processLoop (h : S.Emits I log dest) (n : ℕ) (s : σ) (hI : I s)
    (hq : ∀ m ∈ (S.queue s).toList, m.Holds) :
    ∃ s' taken, S.processLoop n s = .ok s' ∧ I s' ∧
      (S.queue s).toList = taken ++ (S.queue s').toList ∧
      ∀ fd, fd ≠ invalidFd → log s' fd = log s fd ++ framesTo dest fd taken := by
  induction n generalizing s with
  | zero => exact ⟨s, [], rfl, hI, rfl, fun fd _ => (List.append_nil _).symm⟩
  | succ n ih =>
    rw [Sender.processLoop]
    split
    · exact ⟨s, [], rfl, hI, rfl, fun fd _ => (List.append_nil _).symm⟩
    · cases hpop : popFromBufferHead (S.queue s) with
      | mk msg queue =>
        dsimp only
        cases msg with
        | none =>
          have hlist := toList_of_pop_none hpop
          obtain ⟨s', taken, heq, hI', hqueue, hlog⟩ := ih (S.setQueue queue s)
            (h.inv_set queue s hI) (by rw [h.queue_set, hlist]; exact hq)
          rw [h.queue_set, hlist] at hqueue
          refine ⟨s', taken, heq, hI', hqueue, fun fd hfd => ?_⟩
          rw [hlog fd hfd, h.log_set]
        | some msg =>
          have hlist := toList_of_pop_some hpop
          rw [hlist] at hq
          obtain ⟨s₁, heq₁, hI₁, hqueue₁, hlog₁⟩ := h.emit msg (S.setQueue queue s)
            (hq msg List.mem_cons_self) (h.inv_set queue s hI)
          rw [h.queue_set] at hqueue₁
          obtain ⟨s', taken, heq, hI', hqueue, hlog⟩ := ih s₁ hI₁ (by
            rw [hqueue₁]
            exact fun m hm => hq m (List.mem_cons_of_mem _ hm))
          refine ⟨s', msg :: taken, ?_, hI', ?_, fun fd hfd => ?_⟩
          · dsimp only [bind, Except.bind]
            rw [heq₁]
            exact heq
          · rw [hlist, ← hqueue₁, hqueue]
            rfl
          · rw [hlog fd hfd, hlog₁ fd hfd, h.log_set, List.append_assoc, ← framesTo_append]
            rfl

/-- Over any sequence of adding and sending, no send goes wrong, and what has been
written together with what is still queued is what was added. -/
theorem Emits.session (h : S.Emits I log dest) (ops : List SendOp) (s s' : σ) (hI : I s)
    (hq : ∀ m ∈ (S.queue s).toList, m.Holds) (hrun : Transition.run S.step s ops = some s') :
    (I s' ∧ ∀ m ∈ (S.queue s').toList, m.Holds) ∧
      ∀ fd, fd ≠ invalidFd →
        log s' fd ++ framesTo dest fd (S.queue s').toList =
          log s fd ++ framesTo dest fd ((S.queue s).toList ++ added ops) := by
  induction ops generalizing s with
  | nil =>
    obtain rfl := Option.some.inj hrun
    exact ⟨⟨hI, hq⟩, fun fd _ => by rw [added, List.filterMap_nil, List.append_nil]⟩
  | cons op ops ih =>
    obtain ⟨s₁, hs₁, hrest⟩ := Transition.run_cons_eq_some.mp hrun
    cases op with
    | add m =>
      dsimp only [Sender.step] at hs₁
      split at hs₁
      · cases hs₁
      · rename_i hroom
        obtain rfl := Option.some.inj hs₁
        have hlist := toList_enqueue_of_room (m := m.1) hroom
        obtain ⟨hinv, hlog⟩ := ih _ (h.inv_set _ s hI) (by
          rw [h.queue_set, hlist]
          intro x hx
          obtain hx | hx := List.mem_append.mp hx
          · exact hq x hx
          · rw [List.mem_singleton.mp hx]
            exact m.2) hrest
        refine ⟨hinv, fun fd hfd => ?_⟩
        rw [hlog fd hfd, h.log_set, h.queue_set, hlist, List.append_assoc]
        rfl
    | process =>
      obtain ⟨s₂, taken, heq, hI₂, hqueue, hlog₂⟩ := h.processLoop S.maxCount s hI hq
      have heq₂ : S.step s .process = some s₂ := by
        rw [Sender.step, Sender.process, heq]
        rfl
      obtain rfl := Option.some.inj (heq₂.symm.trans hs₁)
      rw [hqueue] at hq ⊢
      obtain ⟨hinv, hlog⟩ := ih s₂ hI₂ (fun m hm => hq m (List.mem_append_right _ hm)) hrest
      refine ⟨hinv, fun fd hfd => ?_⟩
      rw [hlog fd hfd, hlog₂ fd hfd, List.append_assoc, List.append_assoc, ← framesTo_append]
      rfl

end Sender

/-- Every `send` to come takes something. -/
def Outgoing.Accepting (out : Outgoing) : Prop :=
  ∃ ks : List ℕ, out.sends = ks.map .accept

/-! ## The server's side -/

namespace Server

/-- `WriteMsg` of the server. A connection that is closed is cleaned up after, by way
of slot 0 as in `ReadMsg`. -/
def writeMsg (buf : Bytes) (dstFd : Int) (s : Server × Outgoing) :
    Except Fault (RtnCode × Server × Outgoing) :=
  match Conn.writeLoop true buf s.2.sends (UInt64.ofNat buf.length) 0 with
  | none => .error .overrun
  | some (.done, bs, sends) => .ok (.success, s.1, s.2.write dstFd bs sends)
  | some (.zero, bs, sends) =>
    .ok (.errDisconnected,
      s.1.cleanClientResource (s.1.pwrClients 0) (s.1.pwrClients.getIdxByFd dstFd),
      s.2.write dstFd bs sends)

/-- The body of the loop of `ProcessSendMsgToClient`. -/
def sendToClient (msg : PwrMsg) (s : Server × Outgoing) : Except Fault (Server × Outgoing) :=
  let dstFd := s.1.pwrClients.getFdBySysId msg.head.sysId
  if dstFd = invalidFd then do
    releasePwrMsg msg
    return s
  else do
    let s ← sendMsg (fun buf s => (writeMsg buf dstFd s).map Prod.snd) msg s
    releasePwrMsg msg
    return s

/-- `COUNT_MAX` is 5. -/
def sender : Sender (Server × Outgoing) where
  queue s := s.1.sendBuff
  setQueue q s := ({ s.1 with sendBuff := q }, s.2)
  emit := sendToClient
  maxCount := 5

/-- `ProcessSendMsgToClient`. -/
def processSendMsgToClient (s : Server × Outgoing) : Except Fault (Server × Outgoing) :=
  sender.process s

/-- If every `send` takes something, the server writes every buffer to its descriptor. -/
theorem writes_writeMsg (srv : Server) (dstFd : Int) :
    Writes (fun buf s => (writeMsg buf dstFd s).map Prod.snd)
      (fun s => s.1 = srv ∧ s.2.Accepting) (fun s => s.2.writtenTo) dstFd := by
  rintro buf ⟨srv', out⟩ hlen ⟨rfl, ks, hks⟩
  have hsize : maxDataSize < 2 ^ 64 := by decide
  have hbuf : (UInt64.ofNat buf.length).toNat = buf.length :=
    UInt64.toNat_ofNat_of_lt' (hlen.trans_lt hsize)
  obtain ⟨ks', heq⟩ := @Conn.writeLoop_accept true buf (UInt64.ofNat buf.length) 0 ks
    (hlen.trans_lt hsize) (by rw [hbuf]; exact Nat.zero_add _)
  refine ⟨(srv', out.write dstFd buf (ks'.map .accept)), ?_, ⟨rfl, ks', rfl⟩,
    fun fd' => out.writtenTo_write ..⟩
  dsimp only [writeMsg]
  rw [hks, heq]
  rfl

/-- A server with a fixed client table sends every message to the descriptor that its
`sysId` is registered with. -/
theorem emits (clients : ClientTable) :
    sender.Emits (fun s => s.1.pwrClients = clients ∧ s.2.Accepting) (fun s => s.2.writtenTo)
      fun m => clients.getFdBySysId m.head.sysId where
  queue_set _ _ := rfl
  inv_set _ _ hI := hI
  log_set _ _ := rfl
  emit := by
    rintro m ⟨srv, out⟩ hm ⟨rfl, hacc⟩
    dsimp only [sender, sendToClient]
    split
    · rename_i hno
      refine ⟨(srv, out), by rw [releasePwrMsg_of_holds hm]; rfl, ⟨rfl, hacc⟩, rfl, fun fd hfd => ?_⟩
      rw [framesTo_singleton, if_neg (fun h => hfd (h.symm.trans hno)), List.append_nil]
    · obtain ⟨⟨srv', out'⟩, heq, ⟨rfl, hacc'⟩, hlog⟩ :=
        sendMsg_spec (writes_writeMsg srv (srv.pwrClients.getFdBySysId m.head.sysId)) hm
          (s := (srv, out)) ⟨rfl, hacc⟩
      refine ⟨(srv', out'), ?_, ⟨rfl, hacc'⟩, rfl, fun fd _ => ?_⟩
      · dsimp only [bind, Except.bind]
        rw [heq]
        dsimp only
        rw [releasePwrMsg_of_holds hm]
        rfl
      · rw [framesTo_singleton]
        exact hlog fd

end Server

end PowerApi
