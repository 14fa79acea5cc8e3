import PowerApi.ClientSocket

/-!
# The calls of `send` in `WriteMsg` (`server.c`, `sockclient.c`)

Both `WriteMsg` keep the answer of `send` in a `size_t`, in which −1 is the largest
number: the branch for a failure is never taken, the counts go back by one byte, and the
loop goes on. `sendCalls` lists the calls of `Conn.writeLoop` with the part of the buffer
that each offers.

`writes_right_iff` says for which answers a `WriteMsg` does what it is for: those in which
no call fails before all bytes are taken or, on the server, the connection is closed.
-/

namespace Conn

/-- One `send`: where in the buffer it begins, how much it offers, what it answers. -/
structure SendCall where
  wrLen : UInt64
  leftLen : UInt64
  answer : SendEvent
  deriving DecidableEq

namespace SendCall

/-- The bytes that it takes. -/
def took (c : SendCall) : ℕ :=
  match c.answer with
  | .accept k => min (k + 1) c.leftLen.toNat
  | .zero | .fail _ => 0

/-- It offers bytes of a buffer of `len` bytes only. -/
def Inside (len : ℕ) (c : SendCall) : Prop := c.wrLen.toNat + c.leftLen.toNat ≤ len

end SendCall

/-- The bytes that are taken. -/
def accepted (calls : List SendCall) : ℕ := (calls.map SendCall.took).sum

/-- Each call offers the bytes from where those taken end. -/
def InOrder : ℕ → List SendCall → Prop
  | _, [] => True
  | pos, c :: calls => c.wrLen.toNat = pos ∧ InOrder (pos + c.took) calls

/-- The calls of `writeLoop`. -/
def sendCalls (zeroStops : Bool) : List SendEvent → UInt64 → UInt64 → List SendCall
  | [], leftLen, wrLen =>
    if leftLen = 0 then [] else [⟨wrLen, leftLen, .accept leftLen.toNat⟩]
  | e :: sends, leftLen, wrLen =>
    if leftLen = 0 then []
    else
      ⟨wrLen, leftLen, e⟩ ::
        match e with
        | .accept k =>
          let sendLen := UInt64.ofNat (min (k + 1) leftLen.toNat)
          sendCalls zeroStops sends (leftLen - sendLen) (wrLen + sendLen)
        | .zero => if zeroStops then [] else sendCalls zeroStops sends leftLen wrLen
        | .fail _ => sendCalls zeroStops sends (leftLen - (-1)) (wrLen + (-1))

/-- The bytes that an answer takes if they are offered. -/
def SendEvent.takes : SendEvent → ℕ
  | .accept k => k + 1
  | .zero | .fail _ => 0

/-- No call fails before `len` bytes are taken, or before one that ends the loop. -/
def NoneFails (zeroStops : Bool) (len : ℕ) (sends : List SendEvent) : Prop :=
  ∀ pre errno post, sends = pre ++ .fail errno :: post →
    len ≤ (pre.map SendEvent.takes).sum ∨ (zeroStops = true ∧ .zero ∈ pre)

/-! ## Answers without a failure -/

section NoneFails

variable {zeroStops : Bool} {len : ℕ} {sends : List SendEvent}

theorem noneFails_nil : NoneFails zeroStops len [] := by
  intro pre errno post h
  cases pre <;> cases h

theorem noneFails_zero : NoneFails zeroStops 0 sends := fun _ _ _ _ => .inl (Nat.zero_le _)

theorem noneFails_accept {k : ℕ} :
    NoneFails zeroStops len (.accept k :: sends) ↔ NoneFails zeroStops (len - (k + 1)) sends := by
  constructor
  · rintro h pre errno post rfl
    obtain hlen | ⟨hz, hmem⟩ := h (.accept k :: pre) errno post rfl
    · rw [List.map_cons, List.sum_cons, SendEvent.takes] at hlen
      exact .inl (by omega)
    · exact .inr ⟨hz, (List.mem_cons.mp hmem).resolve_left nofun⟩
  · rintro h pre errno post heq
    cases pre with
    | nil => cases heq
    | cons e pre =>
      obtain ⟨rfl, rfl⟩ := List.cons.inj heq
      obtain hlen | ⟨hz, hmem⟩ := h pre errno post rfl
      · refine .inl ?_
        rw [List.map_cons, List.sum_cons, SendEvent.takes]
        omega
      · exact .inr ⟨hz, List.mem_cons_of_mem _ hmem⟩

theorem noneFails_closed : NoneFails true len (.zero :: sends) := by
  intro pre errno post heq
  cases pre with
  | nil => cases heq
  | cons e pre =>
    obtain ⟨rfl, -⟩ := List.cons.inj heq
    exact .inr ⟨rfl, List.mem_cons_self⟩

theorem noneFails_again : NoneFails false len (.zero :: sends) ↔ NoneFails false len sends := by
  constructor
  · rintro h pre errno post rfl
    obtain hlen | ⟨hz, -⟩ := h (.zero :: pre) errno post rfl
    · rw [List.map_cons, List.sum_cons, SendEvent.takes, Nat.zero_add] at hlen
      exact .inl hlen
    · cases hz
  · rintro h pre errno post heq
    cases pre with
    | nil => cases heq
    | cons e pre =>
      obtain ⟨rfl, rfl⟩ := List.cons.inj heq
      obtain hlen | ⟨hz, -⟩ := h pre errno post rfl
      · refine .inl ?_
        rwa [List.map_cons, List.sum_cons, SendEvent.takes, Nat.zero_add]
      · cases hz

theorem not_noneFails_fail {errno : Int} (hlen : 0 < len) :
    ¬ NoneFails zeroStops len (.fail errno :: sends) := by
  intro h
  obtain hle | ⟨-, hmem⟩ := h [] errno sends rfl
  · exact absurd hle (Nat.not_le.mpr hlen)
  · cases hmem

end NoneFails

/-! ## The run of a loop -/

section Loop

variable {zeroStops : Bool} {buf : List UInt8} {leftLen wrLen : UInt64} {sends : List SendEvent}

/-- A call that takes `n` of the bytes that are left. -/
theorem counts_of_took {n : ℕ} (hn : n ≤ leftLen.toNat)
    (hlen : wrLen.toNat + leftLen.toNat < 2 ^ 64) :
    (UInt64.ofNat n).toNat = n ∧ (leftLen - UInt64.ofNat n).toNat = leftLen.toNat - n ∧
      (wrLen + UInt64.ofNat n).toNat = wrLen.toNat + n := by
  have hnat : (UInt64.ofNat n).toNat = n :=
    UInt64.toNat_ofNat_of_lt' (hn.trans_lt leftLen.toNat_lt)
  refine ⟨hnat, ?_, ?_⟩
  · rw [UInt64.toNat_sub_of_le _ _ (by rw [UInt64.le_iff_toNat_le, hnat]; exact hn), hnat]
  · rw [UInt64.toNat_add, hnat, Nat.mod_eq_of_lt (by omega)]

theorem offered_eq (h : wrLen.toNat + leftLen.toNat = buf.length) :
    offered buf leftLen wrLen = some (buf.drop wrLen.toNat) := by
  rw [offered, if_pos h.le, List.take_of_length_le]
  rw [List.length_drop]
  omega

/-- While something is left, the next call offers it. -/
theorem sendCalls_of_left (hleft : leftLen ≠ 0) :
    ∃ answer calls,
      sendCalls zeroStops sends leftLen wrLen = ⟨wrLen, leftLen, answer⟩ :: calls := by
  cases sends with
  | nil => exact ⟨_, [], by rw [sendCalls, if_neg hleft]⟩
  | cons e sends => exact ⟨e, _, by rw [sendCalls.eq_def]; exact if_neg hleft⟩

/-- What a loop does that no failure stops or sets back. -/
structure Regular (zeroStops : Bool) (buf : List UInt8) (sends : List SendEvent)
    (leftLen wrLen : UInt64) : Prop where
  inside : ∀ c ∈ sendCalls zeroStops sends leftLen wrLen, c.Inside buf.length
  in_order : InOrder wrLen.toNat (sendCalls zeroStops sends leftLen wrLen)
  no_failure : ∀ c ∈ sendCalls zeroStops sends leftLen wrLen, ∀ errno, c.answer ≠ .fail errno
  result : ∃ fin rest,
    writeLoop zeroStops buf sends leftLen wrLen = some (fin, (buf.drop wrLen.toNat).take
      (accepted (sendCalls zeroStops sends leftLen wrLen)), rest) ∧
    (fin = .done ↔ accepted (sendCalls zeroStops sends leftLen wrLen) = leftLen.toNat) ∧
    (fin = .zero ↔
      zeroStops = true ∧ ∃ c ∈ sendCalls zeroStops sends leftLen wrLen, c.answer = .zero)

theorem regular_of_done : Regular zeroStops buf sends 0 wrLen := by
  have hcalls : sendCalls zeroStops sends 0 wrLen = [] := by
    cases sends <;> rw [sendCalls.eq_def] <;> exact if_pos rfl
  have hloop : writeLoop zeroStops buf sends 0 wrLen = some (.done, [], sends) := by
    cases sends <;> rw [writeLoop, if_pos rfl]
  constructor
  · rw [hcalls]
    exact fun _ hc => absurd hc List.not_mem_nil
  · rw [hcalls]
    trivial
  · rw [hcalls]
    exact fun _ hc => absurd hc List.not_mem_nil
  · rw [hcalls, hloop]
    exact ⟨.done, sends, rfl, iff_of_true rfl rfl,
      iff_of_false (by rintro ⟨⟩) (by rintro ⟨-, c, hc, -⟩; cases hc)⟩

/-- The last call takes all that is left. -/
theorem regular_nil (hleft : leftLen ≠ 0) (hlen : wrLen.toNat + leftLen.toNat = buf.length) :
    Regular zeroStops buf [] leftLen wrLen := by
  have hcalls : sendCalls zeroStops [] leftLen wrLen =
      [⟨wrLen, leftLen, .accept leftLen.toNat⟩] := by rw [sendCalls, if_neg hleft]
  have htook : accepted [⟨wrLen, leftLen, .accept leftLen.toNat⟩] = leftLen.toNat := by
    rw [accepted, List.map_singleton, List.sum_singleton]
    exact min_eq_right (Nat.le_succ _)
  constructor
  · rw [hcalls, List.forall_mem_singleton]
    exact hlen.le
  · rw [hcalls]
    exact ⟨rfl, trivial⟩
  · rw [hcalls, List.forall_mem_singleton]
    rintro errno ⟨⟩
  · rw [hcalls, htook, writeLoop, if_neg hleft, offered_eq hlen]
    refine ⟨.done, [], ?_, iff_of_true rfl rfl, iff_of_false (by rintro ⟨⟩) ?_⟩
    · rw [List.take_of_length_le (by rw [List.length_drop]; omega)]
      rfl
    · rintro ⟨-, c, hc, hzero⟩
      rw [List.mem_singleton.mp hc] at hzero
      cases hzero

/-- A call that takes something leaves the rest to those after it. -/
theorem regular_accept {k n : ℕ} (hleft : leftLen ≠ 0) (hn : min (k + 1) leftLen.toNat = n)
    (hlen : wrLen.toNat + leftLen.toNat = buf.length) (hbuf : buf.length < 2 ^ 64)
    (h : Regular zeroStops buf sends (leftLen - UInt64.ofNat n) (wrLen + UInt64.ofNat n)) :
    Regular zeroStops buf (.accept k :: sends) leftLen wrLen := by
  have hle : n ≤ leftLen.toNat := hn ▸ Nat.min_le_right _ _
  obtain ⟨hnat, hleft', hwr'⟩ := counts_of_took hle (hlen ▸ hbuf)
  have hcalls : sendCalls zeroStops (.accept k :: sends) leftLen wrLen = ⟨wrLen, leftLen, .accept k⟩ ::
      sendCalls zeroStops sends (leftLen - UInt64.ofNat n) (wrLen + UInt64.ofNat n) := by
    rw [sendCalls, if_neg hleft, hn]
  obtain ⟨hinside, horder, hfail, fin, rest, hloop, hdone, hzero⟩ := h
  generalize sendCalls zeroStops sends (leftLen - UInt64.ofNat n) (wrLen + UInt64.ofNat n) = calls
    at hcalls hinside horder hfail hloop hdone hzero
  have htook : accepted (⟨wrLen, leftLen, .accept k⟩ :: calls) = n + accepted calls := by
    rw [accepted, List.map_cons, List.sum_cons, ← hn]
    rfl
  constructor
  · rw [hcalls, List.forall_mem_cons]
    exact ⟨hlen.le, hinside⟩
  · rw [hcalls]
    refine ⟨rfl, ?_⟩
    have htake : SendCall.took ⟨wrLen, leftLen, .accept k⟩ = n := hn
    rw [htake, ← hwr']
    exact horder
  · rw [hcalls, List.forall_mem_cons]
    exact ⟨by rintro errno ⟨⟩, hfail⟩
  · refine ⟨fin, rest, ?_, ?_, ?_⟩
    · rw [hcalls, htook, writeLoop, if_neg hleft, offered_eq hlen, Option.bind_some]
      dsimp only
      rw [hn, hloop, hwr', hnat, Option.map_some, List.take_add, List.drop_drop]
    · rw [hdone, hcalls, htook, hleft']
      omega
    · rw [hzero, hcalls]
      refine and_congr_right fun _ => ?_
      constructor
      · rintro ⟨c, hc, hz⟩
        exact ⟨c, List.mem_cons_of_mem _ hc, hz⟩
      · rintro ⟨c, hc, hz⟩
        obtain rfl | hc := List.mem_cons.mp hc
        · cases hz
        · exact ⟨c, hc, hz⟩

/-- The server's loop ends with a closed connection. -/
theorem regular_closed (hleft : leftLen ≠ 0) (hlen : wrLen.toNat + leftLen.toNat = buf.length) :
    Regular true buf (.zero :: sends) leftLen wrLen := by
  have hcalls : sendCalls true (.zero :: sends) leftLen wrLen = [⟨wrLen, leftLen, .zero⟩] := by
    rw [sendCalls, if_neg hleft, if_pos rfl]
  have htook : accepted [⟨wrLen, leftLen, .zero⟩] = 0 := rfl
  constructor
  · rw [hcalls, List.forall_mem_singleton]
    exact hlen.le
  · rw [hcalls]
    exact ⟨rfl, trivial⟩
  · rw [hcalls, List.forall_mem_singleton]
    rintro errno ⟨⟩
  · rw [hcalls, htook, writeLoop, if_neg hleft, offered_eq hlen]
    refine ⟨.zero, sends, rfl, iff_of_false (by rintro ⟨⟩) fun h => ?_,
      iff_of_true rfl ⟨rfl, _, List.mem_singleton.mpr rfl, rfl⟩⟩
    exact hleft (UInt64.toNat_inj.mp h.symm)

/-- The client's goes on with the same bytes. -/
theorem regular_again (hleft : leftLen ≠ 0) (hlen : wrLen.toNat + leftLen.toNat = buf.length)
    (h : Regular false buf sends leftLen wrLen) :
    Regular false buf (.zero :: sends) leftLen wrLen := by
  have hcalls : sendCalls false (.zero :: sends) leftLen wrLen =
      ⟨wrLen, leftLen, .zero⟩ :: sendCalls false sends leftLen wrLen := by
    rw [sendCalls, if_neg hleft, if_neg Bool.false_ne_true]
  obtain ⟨hinside, horder, hfail, fin, rest, hloop, hdone, hzero⟩ := h
  generalize sendCalls false sends leftLen wrLen = calls
    at hcalls hinside horder hfail hloop hdone hzero
  have htook : accepted (⟨wrLen, leftLen, .zero⟩ :: calls) = accepted calls := by
    rw [accepted, List.map_cons, List.sum_cons]
    exact Nat.zero_add _
  constructor
  · rw [hcalls, List.forall_mem_cons]
    exact ⟨hlen.le, hinside⟩
  · rw [hcalls]
    exact ⟨rfl, horder⟩
  · rw [hcalls, List.forall_mem_cons]
    exact ⟨by rintro errno ⟨⟩, hfail⟩
  · rw [hcalls, htook, writeLoop, if_neg hleft, offered_eq hlen]
    refine ⟨fin, rest, hloop, hdone, hzero.trans ?_⟩
    exact iff_of_false (by rintro ⟨⟨⟩, -⟩) (by rintro ⟨⟨⟩, -⟩)

/-- The counts after a call that takes bytes: they still make up the buffer. -/
theorem counts_of_accept (hlen : wrLen.toNat + leftLen.toNat = buf.length)
    (hbuf : buf.length < 2 ^ 64) (k : ℕ) :
    let n := UInt64.ofNat (min (k + 1) leftLen.toNat)
    (leftLen - n).toNat = leftLen.toNat - (k + 1) ∧
      (wrLen + n).toNat = wrLen.toNat + min (k + 1) leftLen.toNat ∧
      (wrLen + n).toNat + (leftLen - n).toNat = buf.length := by
  obtain ⟨-, hleft', hwr'⟩ := counts_of_took (Nat.min_le_right (k + 1) leftLen.toNat) (hlen ▸ hbuf)
  dsimp only
  rw [hleft', hwr']
  omega

/-- Without a failure the loop is regular: it stops when the connection is closed. -/
theorem regular_of_noneFails (hlen : wrLen.toNat + leftLen.toNat = buf.length)
    (hbuf : buf.length < 2 ^ 64) (h : NoneFails zeroStops leftLen.toNat sends) :
    Regular zeroStops buf sends leftLen wrLen := by
  induction sends generalizing leftLen wrLen with
  | nil =>
    by_cases hleft : leftLen = 0
    · rw [hleft]
      exact regular_of_done
    · exact regular_nil hleft hlen
  | cons e sends ih =>
    by_cases hleft : leftLen = 0
    · rw [hleft]
      exact regular_of_done
    have hpos : 0 < leftLen.toNat := Nat.pos_of_ne_zero fun h0 => hleft (UInt64.toNat_inj.mp h0)
    cases e with
    | accept k =>
      rw [noneFails_accept] at h
      obtain ⟨hleft', -, hlen'⟩ := counts_of_accept hlen hbuf k
      refine regular_accept hleft rfl hlen hbuf (ih hlen' ?_)
      rw [hleft']
      exact h
    | fail errno => exact absurd h (not_noneFails_fail hpos)
    | zero =>
      cases zeroStops with
      | true => exact regular_closed hleft hlen
      | false => exact regular_again hleft hlen (ih hlen (noneFails_again.mp h))

/-- A failure sets the counts back: the next call, if there is one, offers a byte that is
taken, or one that is outside the buffer. -/
theorem not_inOrder_of_fails (hlen : wrLen.toNat + leftLen.toNat = buf.length)
    (hbuf : buf.length < 2 ^ 64) (h : ¬ NoneFails zeroStops leftLen.toNat sends)
    (horder : InOrder wrLen.toNat (sendCalls zeroStops sends leftLen wrLen)) :
    wrLen = 0 ∧ leftLen ≠ 0 ∧ accepted (sendCalls zeroStops sends leftLen wrLen) = 0 ∧
      ∃ rest, writeLoop zeroStops buf sends leftLen wrLen = some (.done, [], rest) := by
  induction sends generalizing leftLen wrLen with
  | nil => exact absurd noneFails_nil h
  | cons e sends ih =>
    have hleft : leftLen ≠ 0 := by
      rintro rfl
      exact h noneFails_zero
    cases e with
    | accept k =>
      rw [noneFails_accept] at h
      obtain ⟨hleft', hwr', hlen'⟩ := counts_of_accept hlen hbuf k
      rw [sendCalls, if_neg hleft] at horder
      -- the bytes it takes are not taken back
      have hrest := ih hlen' (by rwa [hleft']) (by rw [hwr']; exact horder.2)
      have hzero := congrArg UInt64.toNat hrest.1
      have hpos : leftLen.toNat ≠ 0 := fun h0 => hleft (UInt64.toNat_inj.mp h0)
      rw [hwr', UInt64.toNat_zero] at hzero
      omega
    | zero =>
      cases zeroStops with
      | true => exact absurd noneFails_closed h
      | false =>
        rw [sendCalls, if_neg hleft, if_neg Bool.false_ne_true] at horder ⊢
        obtain ⟨hwr, -, hacc, rest, hloop⟩ :=
          ih hlen (fun hn => h (noneFails_again.mpr hn)) horder.2
        refine ⟨hwr, hleft, ?_, rest, ?_⟩
        · rw [accepted, List.map_cons, List.sum_cons]
          exact (Nat.zero_add _).trans hacc
        · rw [writeLoop, if_neg hleft, offered_eq hlen]
          exact hloop
    | fail errno =>
      rw [sendCalls, if_neg hleft] at horder
      by_cases hnext : leftLen - (-1) = 0
      · -- the buffer has 2⁶⁴ − 1 bytes, and one more makes none
        have hnat : leftLen.toNat = 2 ^ 64 - 1 := by
          rw [UInt64.sub_eq_iff_eq_add.mp hnext]
          rfl
        have hwr : wrLen = 0 := UInt64.toNat_inj.mp (by rw [UInt64.toNat_zero]; omega)
        refine ⟨hwr, hleft, ?_, sends, ?_⟩
        · rw [sendCalls, if_neg hleft, hnext]
          cases sends <;> rw [sendCalls.eq_def] <;> rfl
        · rw [writeLoop, if_neg hleft, offered_eq hlen, hnext]
          cases sends <;> rfl
      · obtain ⟨answer, calls, hcalls⟩ :=
          @sendCalls_of_left zeroStops (leftLen - (-1)) (wrLen + (-1)) sends hnext
        rw [hcalls] at horder
        have hwr : (wrLen + (-1)).toNat = wrLen.toNat := horder.2.1
        exact absurd (UInt64.toNat_inj.mp hwr) (by simp)

end Loop

end Conn

namespace PowerApi

open Conn

/-! ## The two functions -/

/-- `errno` values for which a call is to be repeated. -/
def transient (errno : Int) : Bool := errno == eintr || errno == ewouldblock || errno == eagain

/-- A failure that is not transient. -/
def fatal : Conn.SendEvent → Bool
  | .fail errno => !transient errno
  | _ => false

theorem not_fatal {e : Conn.SendEvent} (h : ∀ errno, e ≠ .fail errno) : fatal e = false := by
  cases e with
  | fail errno => exact absurd rfl (h errno)
  | accept k => rfl
  | zero => rfl

/-- The calls of a `WriteMsg`. -/
def sendCallsOf (zeroStops : Bool) (buf : Bytes) (out : Outgoing) : List SendCall :=
  sendCalls zeroStops out.sends (UInt64.ofNat buf.length) 0

/-- The counts at the begin of a `WriteMsg`. -/
theorem start_counts {buf : Bytes} (hbuf : buf.length < 2 ^ 64) :
    (UInt64.ofNat buf.length).toNat = buf.length ∧
      (0 : UInt64).toNat + (UInt64.ofNat buf.length).toNat = buf.length := by
  have hnat : (UInt64.ofNat buf.length).toNat = buf.length := UInt64.toNat_ofNat_of_lt' hbuf
  exact ⟨hnat, by rw [hnat, UInt64.toNat_zero, Nat.zero_add]⟩

/-- A failure makes a call out of order, or a loop end with nothing taken. -/
theorem noneFails_of_inOrder {zeroStops : Bool} {buf : Bytes} {out : Outgoing}
    (hbuf : buf.length < 2 ^ 64) (horder : InOrder 0 (sendCallsOf zeroStops buf out))
    (hdone : ∀ rest, writeLoop zeroStops buf out.sends (UInt64.ofNat buf.length) 0 =
      some (.done, [], rest) → accepted (sendCallsOf zeroStops buf out) = buf.length) :
    NoneFails zeroStops buf.length out.sends := by
  obtain ⟨hnat, hlen⟩ := start_counts hbuf
  by_contra hfails
  rw [← hnat] at hfails
  obtain ⟨-, hleft, hacc, rest, hloop⟩ := not_inOrder_of_fails hlen hbuf hfails horder
  have hzero : buf.length = 0 := (hdone rest hloop).symm.trans hacc
  exact hleft (UInt64.toNat_inj.mp (hnat.trans hzero))

namespace Server

/-- What `WriteMsg` of the server is for. A closed connection is a failure as well. -/
structure WritesRight (buf : Bytes) (dstFd : Int) (s : Server × Outgoing) : Prop where
  /-- only bytes of the buffer are offered -/
  inside : ∀ c ∈ sendCallsOf true buf s.2, c.Inside buf.length
  /-- in order, without gap or repetition -/
  in_order : InOrder 0 (sendCallsOf true buf s.2)
  success : (∃ s', writeMsg buf dstFd s = .ok (.success, s')) ↔
    accepted (sendCallsOf true buf s.2) = buf.length
  /-- the peer has got the front of the buffer -/
  written : ∀ ret s', writeMsg buf dstFd s = .ok (ret, s') →
    ∃ rest, s'.2 = s.2.write dstFd (buf.take (accepted (sendCallsOf true buf s.2))) rest
  /-- an error is returned, and the slot of the connection is free -/
  failure : ∀ c ∈ sendCallsOf true buf s.2, c.answer = .zero ∨ fatal c.answer = true →
    ∃ ret s', writeMsg buf dstFd s = .ok (ret, s') ∧ ret ≠ .success ∧
      ∀ i, s.1.pwrClients.getIdxByFd dstFd = some i → s'.1.pwrClients i = .none

theorem writesRight_iff {buf : Bytes} (hbuf : buf.length < 2 ^ 64) (dstFd : Int)
    (s : Server × Outgoing) : WritesRight buf dstFd s ↔ NoneFails true buf.length s.2.sends := by
  obtain ⟨hnat, hlen⟩ := start_counts hbuf
  constructor
  · intro h
    refine noneFails_of_inOrder hbuf h.in_order fun rest hloop => h.success.mp ?_
    exact ⟨(s.1, s.2.write dstFd [] rest), by rw [writeMsg, hloop]⟩
  · intro h
    obtain ⟨hinside, horder, hfail, fin, rest, hloop, hdone, hzero⟩ :=
      regular_of_noneFails hlen hbuf (hnat.symm ▸ h)
    rw [hnat] at hdone
    rw [UInt64.toNat_zero, List.drop_zero] at hloop
    have hclosed : fin = .zero →
        writeMsg buf dstFd s = .ok (.errDisconnected,
          s.1.cleanClientResource (s.1.pwrClients 0) (s.1.pwrClients.getIdxByFd dstFd),
          s.2.write dstFd (buf.take (accepted (sendCallsOf true buf s.2))) rest) := by
      rintro rfl
      rw [writeMsg, hloop]
      rfl
    have hall : fin = .done → writeMsg buf dstFd s = .ok (.success, s.1,
        s.2.write dstFd (buf.take (accepted (sendCallsOf true buf s.2))) rest) := by
      rintro rfl
      rw [writeMsg, hloop]
      rfl
    refine ⟨hinside, horder, ?_, ?_, ?_⟩
    · refine Iff.trans ⟨?_, fun hfin => ⟨_, hall hfin⟩⟩ hdone
      rintro ⟨s', hs'⟩
      cases hfin : fin with
      | done => rfl
      | zero =>
        rw [hclosed hfin] at hs'
        cases hs'
    · intro ret s' hs'
      cases hfin : fin with
      | done =>
        rw [hall hfin] at hs'
        cases hs'
        exact ⟨rest, rfl⟩
      | zero =>
        rw [hclosed hfin] at hs'
        cases hs'
        exact ⟨rest, rfl⟩
    · intro c hc hanswer
      obtain hanswer | hfatal := hanswer
      · refine ⟨_, _, hclosed (hzero.mpr ⟨rfl, c, hc, hanswer⟩), nofun, fun i hi => ?_⟩
        rw [hi]
        exact Function.update_self ..
      · exact absurd ((not_fatal (hfail c hc)).symm.trans hfatal) nofun

end Server

namespace ClientSock

/-- What `WriteMsg` of the client library is for. -/
structure WritesRight (buf : Bytes) (s : ClientSock × Outgoing) : Prop where
  inside : ∀ c ∈ sendCallsOf false buf s.2, c.Inside buf.length
  in_order : InOrder 0 (sendCallsOf false buf s.2)
  success : (∃ s', writeMsg buf s = .ok (.success, s')) ↔
    accepted (sendCallsOf false buf s.2) = buf.length
  written : ∀ ret s', writeMsg buf s = .ok (ret, s') →
    ∃ rest, s'.2 = s.2.write s.1.sockFd (buf.take (accepted (sendCallsOf false buf s.2))) rest
  /-- an error is returned, and the library has no connection -/
  failure : ∀ c ∈ sendCallsOf false buf s.2, fatal c.answer = true →
    ∃ ret s', writeMsg buf s = .ok (ret, s') ∧ ret ≠ .success ∧ s'.1.sockFd = invalidFd

theorem writesRight_iff {buf : Bytes} (hbuf : buf.length < 2 ^ 64) (s : ClientSock × Outgoing) :
    WritesRight buf s ↔ NoneFails false buf.length s.2.sends := by
  obtain ⟨hnat, hlen⟩ := start_counts hbuf
  constructor
  · intro h
    refine noneFails_of_inOrder hbuf h.in_order fun rest hloop => h.success.mp ?_
    exact ⟨(s.1, s.2.write s.1.sockFd [] rest), by rw [writeMsg, hloop]⟩
  · intro h
    obtain ⟨hinside, horder, hfail, fin, rest, hloop, hdone, hzero⟩ :=
      regular_of_noneFails hlen hbuf (hnat.symm ▸ h)
    rw [hnat] at hdone
    rw [UInt64.toNat_zero, List.drop_zero] at hloop
    have hfin : fin = .done := by
      cases hfin : fin with
      | done => rfl
      | zero => exact nomatch (hzero.mp hfin).1
    have hall : writeMsg buf s = .ok (.success, s.1,
        s.2.write s.1.sockFd (buf.take (accepted (sendCallsOf false buf s.2))) rest) := by
      rw [writeMsg, hloop]
      rfl
    refine ⟨hinside, horder, iff_of_true ⟨_, hall⟩ (hdone.mp hfin), ?_, ?_⟩
    · intro ret s' hs'
      rw [hall] at hs'
      cases hs'
      exact ⟨rest, rfl⟩
    · intro c hc hfatal
      exact absurd ((not_fatal (hfail c hc)).symm.trans hfatal) nofun

end ClientSock

/-- **Sending is right** exactly if no `send` fails before all of the buffer is taken or,
on the server, the connection is closed. -/
theorem writes_right_iff {buf : Bytes} (hbuf : buf.length < 2 ^ 64) :
    (∀ (dstFd : Int) (s : Server × Outgoing),
        Server.WritesRight buf dstFd s ↔ NoneFails true buf.length s.2.sends) ∧
      ∀ s : ClientSock × Outgoing,
        ClientSock.WritesRight buf s ↔ NoneFails false buf.length s.2.sends :=
  ⟨Server.writesRight_iff hbuf, ClientSock.writesRight_iff hbuf⟩

theorem writes_right_iff_two :
    (∀ (dstFd : Int) (s : Server × Outgoing),
        Server.WritesRight [1, 2] dstFd s ↔ NoneFails true 2 s.2.sends) ∧
      ∀ s : ClientSock × Outgoing,
        ClientSock.WritesRight [1, 2] s ↔ NoneFails false 2 s.2.sends :=
  writes_right_iff (by decide)

/-- Of two bytes `send` takes one, and fails with `EPIPE`. -/
def brokenPipe : Outgoing := ⟨[.accept 0, .fail 32], []⟩

/-- The byte is sent once more, and `WriteMsg` reports success. -/
theorem brokenPipe_not_right :
    (∃ out, Server.writeMsg [1, 2] 5 (Server.init, brokenPipe) = .ok (.success, Server.init, out) ∧
        out.written = [(5, [1, 1, 2])]) ∧
      ¬ Server.WritesRight [1, 2] 5 (Server.init, brokenPipe) ∧
      ¬ ClientSock.WritesRight [1, 2] (⟨5, initPwrMsgBuffer⟩, brokenPipe) := by
  have hfails : ∀ zeroStops, ¬ NoneFails zeroStops 2 brokenPipe.sends := by
    intro zeroStops h
    exact not_noneFails_fail Nat.one_pos (noneFails_accept.mp h)
  refine ⟨⟨_, rfl, rfl⟩, fun h => ?_, fun h => ?_⟩
  · exact hfails true ((Server.writesRight_iff (by decide) 5 _).mp h)
  · exact hfails false ((ClientSock.writesRight_iff (by decide) _).mp h)

end PowerApi
