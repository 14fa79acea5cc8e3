import Mathlib

/-!
# Byte streams over a stream socket

A connected stream socket, as its two users see it. To the reader it is a list
of events: chunks of bytes as they arrive (never empty, since a `recv` that
returns 0 says that the peer has closed), and failures. To the writer it is a
list of answers to `send`. How the kernel cuts the stream into chunks and how
much of a buffer it takes at a time is not the program's choice, so every
statement is for any list of events.

`readLoop` is the loop that programs put around `recv` to fill a buffer. Its
specification is in terms of `stream`, the bytes that arrive before the
connection ends: it gets the first `n` of them, or all of them and an error.

`writeLoop` is the loop around `send` that keeps its counts in unsigned 64-bit
words. When every call takes something it writes the buffer, once and in order.
-/

namespace Conn

/-- What one `recv` finds. -/
inductive RecvEvent where
  /-- a chunk has arrived -/
  | data (b : UInt8) (bs : List UInt8)
  /-- the call returns −1, with this `errno` -/
  | fail (errno : Int)
  /-- the call returns 0 -/
  | closed
  deriving DecidableEq, Repr

/-- The bytes that a reader which repeats failed calls (or not) can get. -/
def stream (retry : Bool) : List RecvEvent → List UInt8
  | .data b bs :: c => b :: bs ++ stream retry c
  | .fail _ :: c => if retry then stream retry c else []
  | .closed :: _ => []
  | [] => []

/-- How a read loop ended. -/
inductive ReadEnd where
  | full
  | failed
  | closed
  deriving DecidableEq, Repr

/-- Call `recv` until `n` bytes are there: how it ended, the bytes received, and
what is left of the connection. A chunk longer than the buffer stays in part. -/
def readLoop (retry : Bool) : ℕ → List RecvEvent → ReadEnd × List UInt8 × List RecvEvent
  | 0, c => (.full, [], c)
  | _ + 1, [] => (.closed, [], [])
  | n + 1, .data b bs :: c =>
    match bs.drop n with
    | [] =>
      let (fin, got, c') := readLoop retry (n - bs.length) c
      (fin, b :: bs ++ got, c')
    | b' :: bs' => (.full, b :: bs.take n, .data b' bs' :: c)
  | n + 1, .fail _ :: c => if retry then readLoop retry (n + 1) c else (.failed, [], c)
  | _ + 1, .closed :: c => (.closed, [], .closed :: c)

/-- The read loop gets the next `n` bytes of the stream and leaves the rest. -/
theorem readLoop_full {retry : Bool} {n : ℕ} {c : List RecvEvent}
    (h : n ≤ (stream retry c).length) :
    ∃ c', readLoop retry n c = (.full, (stream retry c).take n, c') ∧
      stream retry c' = (stream retry c).drop n := by
  fun_induction readLoop retry n c with
  | case1 c => exact ⟨c, by simp, by simp⟩
  | case2 n => exact absurd h (by simp [stream])
  | case3 n b bs c hdrop fin got c' hrest ih =>
    have hlen : bs.length ≤ n := List.drop_eq_nil_iff.mp hdrop
    have hn : n - bs.length ≤ (stream retry c).length := by
      simp only [stream, List.cons_append, List.length_cons, List.length_append] at h
      omega
    obtain ⟨c'', heq, hc''⟩ := ih hn
    obtain ⟨rfl, rfl, rfl⟩ : fin = .full ∧ got = (stream retry c).take (n - bs.length) ∧ c' = c'' := by
      rw [hrest] at heq
      simpa using heq
    refine ⟨c', ?_, ?_⟩
    · simp [stream, List.take_append, List.take_of_length_le hlen]
    · rw [hc'']
      simp [stream, List.drop_append, hdrop]
  | case4 n b bs c b' bs' hdrop =>
    have hlen : n < bs.length := by
      by_contra hle
      rw [List.drop_eq_nil_of_le (by omega)] at hdrop
      cases hdrop
    refine ⟨.data b' bs' :: c, ?_, ?_⟩
    · simp [stream, List.take_append_of_le_length (Nat.le_of_lt hlen)]
    · simp [stream, List.drop_append_of_le_length (Nat.le_of_lt hlen), hdrop]
  | case5 n errno c hretry ih =>
    have hstream : stream retry (.fail errno :: c) = stream retry c := if_pos hretry
    rw [hstream] at h ⊢
    exact ih h
  | case6 n errno c hretry => exact absurd h (by simp [stream, hretry])
  | case7 n c => exact absurd h (by simp [stream])

/-- If the stream is too short the loop gets all of it, and an error. -/
theorem readLoop_short {retry : Bool} {n : ℕ} {c : List RecvEvent}
    (h : (stream retry c).length < n) :
    ∃ fin c', fin ≠ .full ∧ readLoop retry n c = (fin, stream retry c, c') := by
  fun_induction readLoop retry n c with
  | case1 c => exact absurd h (by simp)
  | case2 n => exact ⟨.closed, [], nofun, rfl⟩
  | case3 n b bs c hdrop fin got c' hrest ih =>
    have hn : (stream retry c).length < n - bs.length := by
      simp only [stream, List.cons_append, List.length_cons, List.length_append] at h
      omega
    obtain ⟨fin', c'', hfin, heq⟩ := ih hn
    rw [hrest] at heq
    obtain ⟨rfl, rfl, rfl⟩ : fin = fin' ∧ got = stream retry c ∧ c' = c'' := by simpa using heq
    exact ⟨fin, c', hfin, rfl⟩
  | case4 n b bs c b' bs' hdrop =>
    have hlen : n < bs.length := by
      by_contra hle
      rw [List.drop_eq_nil_of_le (by omega)] at hdrop
      cases hdrop
    simp only [stream, List.cons_append, List.length_cons, List.length_append] at h
    omega
  | case5 n errno c hretry ih =>
    have hstream : stream retry (.fail errno :: c) = stream retry c := if_pos hretry
    rw [hstream] at h ⊢
    exact ih h
  | case6 n errno c hretry => exact ⟨.failed, c, nofun, by simp [stream, hretry]⟩
  | case7 n c => exact ⟨.closed, _, nofun, rfl⟩

/-- The `n` bytes of a buffer that was zeroed before the loop. -/
def zeroFilled (n : ℕ) (got : List UInt8) : List UInt8 :=
  got ++ List.replicate (n - got.length) 0

theorem zeroFilled_of_length {n : ℕ} {got : List UInt8} (h : got.length = n) :
    zeroFilled n got = got := by
  simp [zeroFilled, h]

/-! ## Writing -/

/-- What one `send` answers. -/
inductive SendEvent where
  /-- it takes `k + 1` bytes, or all if fewer are offered -/
  | accept (k : ℕ)
  | zero
  /-- the call returns −1, with this `errno` -/
  | fail (errno : Int)
  deriving DecidableEq, Repr

inductive WriteEnd where
  | done
  | zero
  deriving DecidableEq, Repr

/-- The memory that a `send` is offered; `none` if it lies outside the buffer. -/
def offered (buf : List UInt8) (leftLen wrLen : UInt64) : Option (List UInt8) :=
  if wrLen.toNat + leftLen.toNat ≤ buf.length then
    some ((buf.drop wrLen.toNat).take leftLen.toNat)
  else none

/-- Call `send` until nothing of the buffer is left: how it ended, the bytes taken,
and the answers not used. The answer −1 is not noticed and counted as 2^64 − 1
bytes. `none` is a call with memory outside the buffer. With no answers left
`send` takes everything. -/
def writeLoop (zeroStops : Bool) (buf : List UInt8) :
    List SendEvent → UInt64 → UInt64 → Option (WriteEnd × List UInt8 × List SendEvent)
  | [], leftLen, wrLen =>
    if leftLen = 0 then some (.done, [], [])
    else (offered buf leftLen wrLen).map fun bs => (.done, bs, [])
  | e :: sends, leftLen, wrLen =>
    if leftLen = 0 then some (.done, [], e :: sends)
    else
      (offered buf leftLen wrLen).bind fun bs =>
        match e with
        | .accept k =>
          let sendLen := UInt64.ofNat (min (k + 1) leftLen.toNat)
          (writeLoop zeroStops buf sends (leftLen - sendLen) (wrLen + sendLen)).map
            fun r => (r.1, bs.take sendLen.toNat ++ r.2.1, r.2.2)
        | .zero =>
          if zeroStops then some (.zero, [], sends)
          else writeLoop zeroStops buf sends leftLen wrLen
        | .fail _ => writeLoop zeroStops buf sends (leftLen - (-1)) (wrLen + (-1))

/-- If every `send` takes something, all that is left of the buffer is written. -/
theorem writeLoop_accept {zeroStops : Bool} {buf : List UInt8} {leftLen wrLen : UInt64}
    (ks : List ℕ) (hbuf : buf.length < 2 ^ 64) (h : wrLen.toNat + leftLen.toNat = buf.length) :
    ∃ ks' : List ℕ, writeLoop zeroStops buf (ks.map .accept) leftLen wrLen =
      some (.done, buf.drop wrLen.toNat, ks'.map .accept) := by
  have hoff : ∀ {left wr : UInt64}, wr.toNat + left.toNat = buf.length →
      offered buf left wr = some (buf.drop wr.toNat) := by
    intro left wr hlen
    rw [offered, if_pos (Nat.le_of_eq hlen), List.take_of_length_le]
    rw [List.length_drop]
    omega
  have hnil : ∀ {left wr : UInt64}, wr.toNat + left.toNat = buf.length → left = 0 →
      buf.drop wr.toNat = [] := by
    rintro left wr hlen rfl
    exact List.drop_eq_nil_of_le (Nat.le_of_eq hlen.symm)
  induction ks generalizing leftLen wrLen with
  | nil =>
    refine ⟨[], ?_⟩
    rw [List.map_nil, writeLoop]
    split
    · rename_i h0
      rw [hnil h h0]
    · rw [hoff h]
      rfl
  | cons k ks ih =>
    rw [List.map_cons, writeLoop]
    split
    · rename_i h0
      exact ⟨k :: ks, by rw [hnil h h0, List.map_cons]⟩
    · rw [hoff h, Option.bind_some]
      dsimp only
      have hmin : min (k + 1) leftLen.toNat ≤ leftLen.toNat := Nat.min_le_right ..
      generalize min (k + 1) leftLen.toNat = n at hmin ⊢
      have hn : (UInt64.ofNat n).toNat = n :=
        UInt64.toNat_ofNat_of_lt' (Nat.lt_of_le_of_lt hmin leftLen.toNat_lt)
      have hleft : (leftLen - UInt64.ofNat n).toNat = leftLen.toNat - n := by
        rw [UInt64.toNat_sub_of_le _ _ (by rw [UInt64.le_iff_toNat_le, hn]; exact hmin), hn]
      have hwr : (wrLen + UInt64.ofNat n).toNat = wrLen.toNat + n := by
        rw [UInt64.toNat_add, hn, Nat.mod_eq_of_lt (by omega)]
      obtain ⟨ks', heq⟩ := @ih (leftLen - UInt64.ofNat n)
        (wrLen + UInt64.ofNat n) (by omega)
      refine ⟨ks', ?_⟩
      rw [heq, hwr, hn]
      simp only [Option.map_some, Option.some.injEq, Prod.mk.injEq, true_and, and_true]
      rw [← List.drop_drop, List.take_append_drop]

end Conn
