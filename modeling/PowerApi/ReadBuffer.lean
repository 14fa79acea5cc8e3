import PowerApi.CpuReaders

/-!
# A read buffer that is used again (`ReadFile`)

`ReadFile` puts the bytes of a file at the front of a buffer and puts no end behind
them; then it takes the newlines out of the string that is there. In a buffer that was
clear this is the line of the file. In one that has been used the rest of the longer
line before comes after it: `leftOver`.
-/

namespace PowerApi

/-- Text of one line. -/
def Plain (s : Bytes) : Prop := ∀ c ∈ s, c ≠ 0 ∧ c ≠ 10

instance (s : Bytes) : Decidable (Plain s) := inferInstanceAs (Decidable (∀ c ∈ s, _))

/-- A buffer that holds a string, and zeros behind it. -/
def padded (size : ℕ) (s : Bytes) : Bytes := s ++ List.replicate (size - s.length) 0

/-- What the buffer holds after a line `t` has been read over the string `s`. -/
def leftOver (s t : Bytes) : Bytes := t ++ s.drop (t.length + 1)

section Plain

variable {s t : Bytes}

/-- An empty string is plain. -/
theorem plain_nil : Plain [] := fun _ hc => absurd hc List.not_mem_nil

/-- What is left in the buffer is plain if both texts are. -/
theorem Plain.leftOver (hs : Plain s) (ht : Plain t) : Plain (leftOver s t) := by
  intro c hc
  rcases List.mem_append.mp hc with hmem | hmem
  · exact ht c hmem
  · exact hs c (List.mem_of_mem_drop hmem)

/-- There is nothing to take out of a plain text. -/
theorem Plain.filter_ne (hs : Plain s) : s.filter (· ≠ 10) = s :=
  List.filter_eq_self.mpr fun c hc => decide_eq_true (hs c hc).2

/-- A line that is at most one byte shorter than the string before hides it. -/
theorem leftOver_eq_self (h : s.length ≤ t.length + 1) : leftOver s t = t := by
  rw [leftOver, List.drop_eq_nil_of_le h, List.append_nil]

/-- What is left in the buffer has room there, with its end. -/
theorem length_leftOver_lt {size : ℕ} (hs : s.length < size) (ht : t.length + 1 < size) :
    (leftOver s t).length < size := by
  rw [leftOver, List.length_append, List.length_drop]
  omega

end Plain

/-- The buffer before it is read to. -/
theorem padded_nil (size : ℕ) : padded size [] = List.replicate size 0 := rfl

/-- A string ends where the zeros begin. -/
theorem cString_append_replicate {s : Bytes} (hs : ∀ c ∈ s, c ≠ 0) (n : ℕ) :
    cString (s ++ List.replicate n 0) = s := by
  cases n with
  | zero => rw [List.replicate_zero, List.append_nil, cString_of_ne hs]
  | succ n => rw [List.replicate_succ, cString_append_zero hs]

/-- The string in a buffer that holds a plain text. -/
theorem cString_padded {s : Bytes} (hs : Plain s) (size : ℕ) : cString (padded size s) = s :=
  cString_append_replicate (fun c hc => (hs c hc).1) _

/-- **A line read over another one.** -/
theorem readFile_padded {host : Host} {path s t : Bytes} {size : ℕ}
    (hfile : host.file path = some (t ++ [10])) (hs : Plain s) (ht : Plain t)
    (hslen : s.length < size) (htlen : t.length + 1 < size) :
    readFile host path (padded size s) size = some (padded size (leftOver s t)) := by
  have hgot : (t ++ [10]).take (size - 1) = t ++ [10] :=
    List.take_of_length_le (by rw [List.length_append, List.length_singleton]; omega)
  -- the buffer behind the bytes of the file
  have hrest : (padded size s).drop (t ++ [10]).length =
      s.drop (t.length + 1) ++ List.replicate (size - max s.length (t.length + 1)) 0 := by
    rw [padded, List.length_append, List.length_singleton, List.drop_append, List.drop_replicate]
    congr 2
    omega
  have hline : ∀ c ∈ t ++ 10 :: s.drop (t.length + 1), c ≠ 0 := by
    intro c hc
    rcases List.mem_append.mp hc with hmem | hmem
    · exact (ht c hmem).1
    · rcases List.mem_cons.mp hmem with rfl | hmem
      · decide
      · exact (hs c (List.mem_of_mem_drop hmem)).1
  have hstr : (t ++ 10 :: s.drop (t.length + 1)).filter (· ≠ 10) = leftOver s t := by
    rw [List.filter_append, ht.filter_ne, List.filter_cons_of_neg (by decide), leftOver,
      Plain.filter_ne fun c hc => hs c (List.mem_of_mem_drop hc)]
  have hbuf : t ++ [10] ++ (padded size s).drop (t ++ [10]).length =
      t ++ 10 :: s.drop (t.length + 1) ++
        List.replicate (size - max s.length (t.length + 1)) 0 := by
    rw [hrest]
    simp
  have hlen : (t ++ 10 :: s.drop (t.length + 1)).length = (leftOver s t).length + 1 := by
    rw [leftOver, List.length_append, List.length_append, List.length_cons]
    omega
  rw [readFile, hfile]
  dsimp only
  rw [hgot, if_neg (by simp), hbuf, deleteChar, cString_append_replicate hline, hstr, putString,
    ← hlen, List.drop_left]
  -- one more zero where the newline was
  rw [padded, ← List.replicate_succ, Option.some_inj]
  congr 2
  rw [leftOver, List.length_append, List.length_drop]
  omega

end PowerApi
