import PowerApi.Msg

/-!
# C strings

Strings as the C library has them: bytes up to a zero byte. `atoi` is that of glibc,
`strtol` cut down to an `int`; a number with more digits than a `long` has room for
becomes the nearest `long`. `atoi_decimal_int` is the round trip through `%d`.
-/

namespace PowerApi

/-- A string constant of the source. -/
def text (s : String) : Bytes := s.toUTF8.toList

/-- A number printed with `%d`. -/
def decimal (n : Int) : Bytes := text (toString n)

/-- The C string that starts at the front of some memory. -/
def cString (mem : Bytes) : Bytes := mem.takeWhile (· ≠ 0)

/-- The result of 32-bit arithmetic on `int`s. -/
def wrapInt (n : Int) : Int := n.bmod (2 ^ 32)

/-- `isspace`. -/
def isSpace (c : UInt8) : Bool := c = 32 ∨ (9 ≤ c ∧ c ≤ 13)

/-- `isdigit`. -/
def isDigit (c : UInt8) : Bool := 48 ≤ c ∧ c ≤ 57

/-- The number that a string of digits spells. -/
def digitsValue (digits : Bytes) : ℕ := digits.foldl (fun n c => n * 10 + (c.toNat - 48)) 0

/-- Whether a minus sign stands in front, and what is behind the sign. -/
def sign : Bytes → Bool × Bytes
  | 45 :: rest => (true, rest)
  | 43 :: rest => (false, rest)
  | str => (false, str)

/-- `strtol` in base 10: white space, a sign, digits. -/
def strtol (str : Bytes) : Int :=
  let (neg, str) := sign (str.dropWhile isSpace)
  let value : Int := digitsValue (str.takeWhile isDigit)
  max (-2 ^ 63) (min (2 ^ 63 - 1) (if neg then -value else value))

/-- `atoi`. -/
def atoi (str : Bytes) : Int := wrapInt (strtol str)

/-! ## The bytes of a string -/

theorem toList_loop (bs : ByteArray) (i : ℕ) (r : List UInt8) :
    ByteArray.toList.loop bs i r = r.reverse ++ bs.data.toList.drop i := by
  fun_induction ByteArray.toList.loop bs i r with
  | case1 i r h ih =>
    have hi : i < bs.data.toList.length := h
    rw [ih, List.reverse_cons, List.append_assoc, List.singleton_append,
      List.drop_eq_getElem_cons hi]
    congr 2
    simp [ByteArray.get!, h]
  | case2 i r h =>
    have hi : bs.data.toList.length ≤ i := not_lt.mp h
    rw [List.drop_eq_nil_of_le hi, List.append_nil]

theorem text_eq (s : String) : text s = s.toByteArray.data.toList := by
  rw [text, ByteArray.toList, toList_loop]
  rfl

theorem text_append (s t : String) : text (s ++ t) = text s ++ text t := by
  rw [text_eq, text_eq, text_eq, String.toByteArray_append]
  simp

theorem text_ofList (l : List Char) : text (String.ofList l) = l.flatMap String.utf8EncodeChar := by
  rw [text_eq, String.toByteArray_ofList, List.utf8Encode, List.toList_data_toByteArray]

/-- A C string ends before the first zero byte. -/
theorem cString_append_zero {str rest : Bytes} (h : ∀ c ∈ str, c ≠ 0) :
    cString (str ++ 0 :: rest) = str := by
  rw [cString, List.takeWhile_append_of_pos (by simpa using h), List.takeWhile_cons_of_neg (by simp),
    List.append_nil]

theorem cString_of_ne {str : Bytes} (h : ∀ c ∈ str, c ≠ 0) : cString str = str :=
  List.takeWhile_eq_self_iff.mpr (by simpa using h)

theorem ne_zero_of_mem_cString {mem : Bytes} {c : UInt8} (h : c ∈ cString mem) : c ≠ 0 := by
  simpa using List.mem_takeWhile_imp h

/-- Memory with a zero byte in it begins with a C string and its end. -/
theorem exists_cString {mem : Bytes} (h : 0 ∈ mem) : ∃ rest, mem = cString mem ++ 0 :: rest := by
  induction mem with
  | nil => cases h
  | cons c mem ih =>
    by_cases hc : c = 0
    · subst hc
      exact ⟨mem, rfl⟩
    · obtain ⟨rest, hrest⟩ := ih (List.mem_of_ne_of_mem (Ne.symm hc) h)
      have hcons : cString (c :: mem) = c :: cString mem := List.takeWhile_cons_of_pos (by simpa using hc)
      exact ⟨rest, by rw [hcons, List.cons_append, ← hrest]⟩

/-- A C string that ends inside a block of memory is the same whatever is behind. -/
theorem cString_append {mem : Bytes} (h : 0 ∈ mem) (rest : Bytes) :
    cString (mem ++ rest) = cString mem := by
  obtain ⟨tail, htail⟩ := exists_cString h
  rw [htail, List.append_assoc, List.cons_append, ← htail]
  rw [cString_append_zero fun c => ne_zero_of_mem_cString]

/-- It ends inside the block if and only if a zero byte is in there. -/
theorem length_cString_lt {mem rest : Bytes} :
    (cString (mem ++ rest)).length < mem.length ↔ 0 ∈ mem := by
  constructor
  · intro hlt
    by_contra hnot
    have hall : ∀ c ∈ mem, decide (c ≠ 0) = true := fun c hc =>
      decide_eq_true fun h0 => hnot (h0 ▸ hc)
    rw [cString, List.takeWhile_append_of_pos hall, List.length_append] at hlt
    omega
  · intro h
    obtain ⟨tail, htail⟩ := exists_cString h
    have hlen := congrArg List.length htail
    rw [List.length_append, List.length_cons] at hlen
    rw [cString_append h]
    omega

/-! ## Strings of digits -/

theorem isDigit_iff {c : UInt8} : isDigit c = true ↔ 48 ≤ c.toNat ∧ c.toNat ≤ 57 := by
  rw [isDigit, decide_eq_true_iff, UInt8.le_iff_toNat_le, UInt8.le_iff_toNat_le]
  rfl

theorem ne_zero_of_isDigit {c : UInt8} (h : isDigit c = true) : c ≠ 0 := by
  rintro rfl
  exact absurd h (by decide)

theorem digitsValue_concat (a : Bytes) (c : UInt8) :
    digitsValue (a ++ [c]) = digitsValue a * 10 + (c.toNat - 48) := by
  rw [digitsValue, List.foldl_append]
  rfl

theorem digitsValue_append (a b : Bytes) :
    digitsValue (a ++ b) = digitsValue a * 10 ^ b.length + digitsValue b := by
  induction b using List.reverseRecOn with
  | nil => simp [digitsValue]
  | append_singleton b c ih =>
    rw [← List.append_assoc, digitsValue_concat, ih, digitsValue_concat, List.length_append,
      List.length_singleton, pow_succ]
    ring

/-- A string of digits has no sign in front. -/
theorem sign_digits {digits : Bytes} (hdigits : ∀ c ∈ digits, isDigit c = true) :
    sign digits = (false, digits) := by
  unfold sign
  split
  · exact absurd (hdigits 45 List.mem_cons_self) (by decide)
  · exact absurd (hdigits 43 List.mem_cons_self) (by decide)
  · rfl

/-- Nor white space. -/
theorem dropWhile_digits {digits : Bytes} (hdigits : ∀ c ∈ digits, isDigit c = true) :
    digits.dropWhile isSpace = digits := by
  cases digits with
  | nil => rfl
  | cons c cs =>
    have hc := isDigit_iff.mp (hdigits c List.mem_cons_self)
    refine List.dropWhile_cons_of_neg ?_
    rw [isSpace, decide_eq_true_iff, ← UInt8.toNat_inj, UInt8.le_iff_toNat_le,
      UInt8.le_iff_toNat_le]
    simp
    omega

theorem strtol_digits {digits : Bytes} (hdigits : ∀ c ∈ digits, isDigit c = true) :
    strtol digits = min (2 ^ 63 - 1) (digitsValue digits : Int) := by
  have htake : digits.takeWhile isDigit = digits := List.takeWhile_eq_self_iff.mpr hdigits
  rw [strtol, dropWhile_digits hdigits, sign_digits hdigits]
  dsimp only
  rw [htake, if_neg (by simp)]
  omega

/-- A number that is an `int` is read as it is. -/
theorem atoi_digits {digits : Bytes} (hdigits : ∀ c ∈ digits, isDigit c = true)
    (hlt : digitsValue digits < 2 ^ 31) : atoi digits = digitsValue digits := by
  rw [atoi, strtol_digits hdigits, wrapInt, min_eq_right (by omega)]
  exact Int.bmod_eq_of_le (by omega) (by omega)

/-! ## Numbers printed with `%d` -/

theorem toNat_of_isDigit {c : Char} (h : c.isDigit = true) : 48 ≤ c.toNat ∧ c.toNat ≤ 57 := by
  simpa [Char.isDigit, UInt32.le_iff_toNat_le] using h

theorem decimal_natCast (n : ℕ) :
    decimal n = (Nat.toDigits 10 n).map fun c => UInt8.ofNat c.toNat := by
  have htext : decimal n = text (String.ofList (Nat.toDigits 10 n)) := rfl
  rw [htext, text_ofList]
  have hdigit : ∀ c ∈ Nat.toDigits 10 n, c.isDigit = true := fun c hc =>
    Nat.isDigit_of_mem_toDigits (by decide) (by decide) hc
  generalize Nat.toDigits 10 n = l at hdigit
  induction l with
  | nil => rfl
  | cons c l ih =>
    rw [List.flatMap_cons, List.map_cons, ih fun d hd => hdigit d (List.mem_cons_of_mem _ hd)]
    have hc := toNat_of_isDigit (hdigit c List.mem_cons_self)
    have hsize : c.utf8Size = 1 := Char.utf8Size_eq_one_iff.mpr (UInt32.le_iff_toNat_le.mpr (by
      have : c.val.toNat = c.toNat := rfl
      simp
      omega))
    rw [String.utf8EncodeChar_eq_singleton hsize]
    rfl

/-- The digits of a number are digits, and spell it. -/
theorem decimal_digits (n : ℕ) :
    (∀ c ∈ decimal n, isDigit c = true) ∧ digitsValue (decimal n) = n := by
  rw [decimal_natCast]
  have hdigit : ∀ c ∈ Nat.toDigits 10 n, c.isDigit = true := fun c hc =>
    Nat.isDigit_of_mem_toDigits (by decide) (by decide) hc
  constructor
  · intro b hb
    obtain ⟨c, hc, rfl⟩ := List.mem_map.mp hb
    have := toNat_of_isDigit (hdigit c hc)
    rw [isDigit_iff, UInt8.toNat_ofNat_of_lt' (this.2.trans_lt (by decide))]
    exact this
  · have hvalue : digitsValue ((Nat.toDigits 10 n).map fun c => UInt8.ofNat c.toNat) =
        Nat.ofDigitChars 10 (Nat.toDigits 10 n) 0 := by
      rw [digitsValue, List.foldl_map, Nat.ofDigitChars_eq_foldl]
      refine List.foldl_ext _ _ 0 fun k c hc => ?_
      have := toNat_of_isDigit (hdigit c hc)
      rw [UInt8.toNat_ofNat_of_lt' (this.2.trans_lt (by decide)), mul_comm]
      rfl
    rw [hvalue, Nat.ofDigitChars_ten_toDigits]

theorem length_decimal_le {n k : ℕ} (hk : 0 < k) (h : n < 10 ^ k) :
    (decimal n).length ≤ k := by
  rw [decimal_natCast, List.length_map]
  exact (Nat.length_toDigits_le_iff (by decide) hk).mpr h

/-! ## Numbers with a sign -/

theorem text_minus : text "-" = [45] := by decide +kernel

theorem decimal_neg {n : ℕ} (hn : 0 < n) : decimal (-(n : Int)) = 45 :: decimal n := by
  obtain ⟨k, rfl⟩ := Nat.exists_eq_add_of_lt hn
  have hneg : (-((0 + k + 1 : ℕ) : Int)) = Int.negSucc k := by omega
  have htext : decimal (Int.negSucc k) = text ("-" ++ toString (k + 1)) := rfl
  rw [hneg, htext, text_append, text_minus, Nat.zero_add]
  rfl

theorem digitsValue_lt {digits : Bytes} (h : ∀ c ∈ digits, isDigit c = true) :
    digitsValue digits < 10 ^ digits.length := by
  induction digits using List.reverseRecOn with
  | nil => decide
  | append_singleton a c ih =>
    have ha := ih fun d hd => h d (List.mem_append_left _ hd)
    have hc := isDigit_iff.mp (h c (List.mem_append_right a List.mem_cons_self))
    rw [digitsValue_concat, List.length_append, List.length_singleton, pow_succ]
    omega

/-- A minus sign and digits behind it. -/
theorem strtol_minus {digits : Bytes} (h : ∀ c ∈ digits, isDigit c = true) :
    strtol (45 :: digits) = max (-2 ^ 63) (-(digitsValue digits : Int)) := by
  have htake : digits.takeWhile isDigit = digits := List.takeWhile_eq_self_iff.mpr h
  rw [strtol, List.dropWhile_cons_of_neg (by decide), sign]
  dsimp only
  rw [htake, if_pos rfl]
  omega

/-- The digits of a number that is not negative, or the digits behind the sign. -/
theorem decimal_cases (z : Int) :
    (0 ≤ z ∧ decimal z = decimal z.natAbs) ∨ (z < 0 ∧ decimal z = 45 :: decimal z.natAbs) := by
  rcases lt_or_ge z 0 with hneg | hpos
  · refine .inr ⟨hneg, ?_⟩
    rw [← decimal_neg (Int.natAbs_pos.mpr hneg.ne)]
    congr 1
    omega
  · refine .inl ⟨hpos, ?_⟩
    congr 1
    omega

theorem wrapInt_bounds (n : Int) : -2 ^ 31 ≤ wrapInt n ∧ wrapInt n < 2 ^ 31 := by
  have hlo : -(((2 ^ 32 : ℕ) : Int) / 2) ≤ wrapInt n := Int.le_bmod (by decide)
  have hhi : wrapInt n < (((2 ^ 32 : ℕ) : Int) + 1) / 2 := Int.bmod_lt (by decide)
  constructor <;> omega

theorem wrapInt_of_int {n : Int} (hlo : -2 ^ 31 ≤ n) (hhi : n < 2 ^ 31) : wrapInt n = n :=
  Int.bmod_eq_of_le (by omega) (by omega)

/-- **Every `int` is read as it was printed.** -/
theorem atoi_decimal_int {z : Int} (hlo : -2 ^ 31 ≤ z) (hhi : z < 2 ^ 31) :
    atoi (decimal z) = z := by
  obtain ⟨hdigits, hvalue⟩ := decimal_digits z.natAbs
  obtain ⟨hpos, hdec⟩ | ⟨hneg, hdec⟩ := decimal_cases z
  · rw [hdec, atoi_digits hdigits (by omega), hvalue]
    omega
  · rw [hdec, atoi, strtol_minus hdigits, hvalue, max_eq_right (by omega), wrapInt,
      Int.bmod_eq_of_le (by omega) (by omega)]
    omega

/-- What `%d` prints is no white space and does not end a string. -/
theorem ne_of_mem_decimal {z : Int} {c : UInt8} (h : c ∈ decimal z) : c ≠ 0 ∧ c ≠ 10 := by
  have hdigit : ∀ d, isDigit d = true → d ≠ 0 ∧ d ≠ 10 := by
    rintro d hd
    constructor
    · exact ne_zero_of_isDigit hd
    · rintro rfl
      exact absurd hd (by decide)
  obtain ⟨-, hdec⟩ | ⟨-, hdec⟩ := decimal_cases z
  · exact hdigit c ((decimal_digits _).1 c (hdec ▸ h))
  · rcases List.mem_cons.mp (hdec ▸ h) with rfl | hmem
    · decide
    · exact hdigit c ((decimal_digits _).1 c hmem)

/-- An `int` is printed with at most 11 characters. -/
theorem length_decimal_int {z : Int} (hlo : -2 ^ 31 ≤ z) (hhi : z < 2 ^ 31) :
    (decimal z).length ≤ 11 := by
  have hlen : (decimal z.natAbs).length ≤ 10 := length_decimal_le (by decide) (by omega)
  obtain ⟨-, hdec⟩ | ⟨-, hdec⟩ := decimal_cases z
  · rw [hdec]
    omega
  · rw [hdec, List.length_cons]
    omega

end PowerApi
