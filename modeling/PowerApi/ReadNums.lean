import PowerApi.CpuReaders
import PowerApi.Fields

/-!
# `ReadNums` (`utils.c`)

A scanner for numbers between separators. It takes the number of conversions that `sscanf`
returns for a failure where a separator follows a number, and only a negative one for a
failure at the end. So it reads at most one number, the last thing in front of the
first character that is neither digit nor separator (`reads_nums_iff`).
-/

namespace PowerApi

open MemoryBlock Fields

/-- `sscanf` with `%lu`: the number of conversions, or `EOF`, and the number. -/
def sscanfLu (str : Bytes) : Int × Option UInt64 :=
  let str := str.dropWhile isSpace
  if str = [] then (-1, none)
  else if (sign str).2.takeWhile isDigit = [] then (0, none)
  else (1, some (strtoul str 10))

/-- What is assigned to `dts[readCnt]`. -/
def numWrite (readCnt : ℕ) (num : Option UInt64) : List (Write UInt64) :=
  num.toList.map fun num => ⟨readCnt, [num]⟩

/-- The loop of `ReadNums`, with what is left of the string from `readPos` and from `numStart`
on: the last values of `readPos`, `numStart` and `readCnt`, if it does not return NULL, and what
it assigns in `dts`. -/
def readNumsLoop (sep : Bytes) (maxCnt arrLen : Int) :
    (readPos : Bytes) → (numStart : Option Bytes) → (readCnt : ℕ) →
      Option (Bytes × Option Bytes × ℕ) × List (Write UInt64)
  | [], numStart, readCnt => (some ([], numStart, readCnt), [])
  | c :: rest, numStart, readCnt =>
    if isDigit c then
      readNumsLoop sep maxCnt arrLen rest (numStart <|> some (c :: rest)) readCnt
    else if sep.contains c then
      match numStart with
      | none => readNumsLoop sep maxCnt arrLen rest none readCnt
      | some str =>
        -- read this num
        let (ret, num) := sscanfLu str
        if ret ≠ 0 then (none, numWrite readCnt num)
        else
          let next := readCnt + 1
          let (res, ws) :=
            if next = arrLen then (some (c :: rest, none, next), [])
            else if maxCnt ≠ 0 ∧ next = maxCnt then (some (c :: rest, none, next), [])
            else readNumsLoop sep maxCnt arrLen rest none next
          (res, numWrite readCnt num ++ ws)
    else
      -- Other characters are treated as ending characters
      (some (c :: rest, numStart, readCnt), [])

/-- `ReadNums`: the position that it returns, `*pArrLen`, and what it assigns in `dts`. -/
def readNums (pSrc : Option Bytes) (sep : Bytes) (maxCnt arrLen : Int) :
    Option ℕ × Int × List (Write UInt64) :=
  match pSrc with
  | none => (none, arrLen, [])
  | some src =>
    match readNumsLoop sep maxCnt arrLen src none 0 with
    | (none, ws) => (none, arrLen, ws)
    | (some (readPos, numStart, readCnt), ws) =>
      let pos := src.length - readPos.length
      match numStart with
      | none => (some pos, readCnt, ws)
      | some str =>
        if readCnt < arrLen ∧ (maxCnt = 0 ∨ readCnt < maxCnt) then
          -- read last num
          let (ret, num) := sscanfLu str
          let ws := ws ++ numWrite readCnt num
          if ret < 0 then (none, arrLen, ws) else (some pos, readCnt + 1, ws)
        else (some pos, readCnt, ws)

/-! ## Numbers in front of other text -/

section Digits

variable {digits rest : Bytes}

theorem isSpace_of_isDigit {c : UInt8} (h : isDigit c = true) : isSpace c = false := by
  have hdrop := @dropWhile_digits [c] (List.forall_mem_singleton.mpr h)
  by_contra hspace
  rw [List.dropWhile_cons_of_pos (by simpa using hspace)] at hdrop
  cases hdrop

/-- There is no white space in front of digits, and no sign. -/
theorem digits_front (hne : digits ≠ []) (hdigits : ∀ c ∈ digits, isDigit c = true)
    (rest : Bytes) :
    (digits ++ rest).dropWhile isSpace = digits ++ rest ∧
      sign (digits ++ rest) = (false, digits ++ rest) := by
  obtain ⟨d, ds, rfl⟩ := List.exists_cons_of_ne_nil hne
  have hd := hdigits d List.mem_cons_self
  refine ⟨List.dropWhile_cons_of_neg (by simpa using isSpace_of_isDigit hd), ?_⟩
  rw [List.cons_append]
  unfold sign
  split <;> rename_i heq
  · rw [(List.cons.inj heq).1] at hd
    exact absurd hd (by decide)
  · rw [(List.cons.inj heq).1] at hd
    exact absurd hd (by decide)
  · rfl

theorem digitOf_lt_iff {c : UInt8} : digitOf c < 10 ↔ isDigit c = true := by
  rw [digitOf]
  by_cases hc : isDigit c = true
  · rw [if_pos hc]
    have := isDigit_iff.mp hc
    exact ⟨fun _ => hc, fun _ => by omega⟩
  · rw [if_neg hc]
    refine ⟨fun h => ?_, fun h => absurd h hc⟩
    split at h
    · rename_i hle
      have := UInt8.le_iff_toNat_le.mp hle.1
      have : (97 : UInt8).toNat = 97 := rfl
      omega
    · split at h
      · rename_i hle
        have := UInt8.le_iff_toNat_le.mp hle.1
        have : (65 : UInt8).toNat = 65 := rfl
        omega
      · omega

/-- `strtoul` stops behind the digits. -/
theorem strtoul_digits (hne : digits ≠ []) (hdigits : ∀ c ∈ digits, isDigit c = true)
    (hrest : ∀ c ∈ rest.head?, isDigit c = false) (hlt : digitsValue digits < 2 ^ 64) :
    strtoul (digits ++ rest) 10 = UInt64.ofNat (digitsValue digits) := by
  obtain ⟨hdrop, hsign⟩ := digits_front hne hdigits rest
  have htake : (digits ++ rest).takeWhile (fun c => decide (digitOf c < 10)) = digits := by
    have hpos : ∀ c ∈ digits, decide (digitOf c < 10) = true := fun c hc =>
      decide_eq_true (digitOf_lt_iff.mpr (hdigits c hc))
    rw [List.takeWhile_append_of_pos hpos]
    cases rest with
    | nil => simp
    | cons c rest =>
      have hc := hrest c rfl
      rw [List.takeWhile_cons_of_neg (by simp [digitOf_lt_iff, hc]), List.append_nil]
  have hfold : digits.foldl (fun n c => n * 10 + digitOf c) 0 = digitsValue digits :=
    List.foldl_ext _ _ 0 fun k c hc => by rw [digitOf, if_pos (hdigits c hc)]
  have hradix : radix 10 (digits ++ rest) = (10, digits ++ rest) := if_pos (by decide)
  rw [strtoul, hdrop, hsign]
  dsimp only
  rw [hradix]
  dsimp only
  rw [htake, hfold, if_neg (not_le.mpr hlt), if_neg Bool.false_ne_true]

/-- `sscanf` reads a number where there is one. -/
theorem sscanfLu_digits (hne : digits ≠ []) (hdigits : ∀ c ∈ digits, isDigit c = true)
    (rest : Bytes) :
    sscanfLu (digits ++ rest) = (1, some (strtoul (digits ++ rest) 10)) := by
  obtain ⟨hdrop, hsign⟩ := digits_front hne hdigits rest
  obtain ⟨d, ds, rfl⟩ := List.exists_cons_of_ne_nil hne
  have htake : (d :: ds ++ rest).takeWhile isDigit ≠ [] := by
    rw [List.cons_append, List.takeWhile_cons_of_pos (hdigits d List.mem_cons_self)]
    exact List.cons_ne_nil d _
  rw [sscanfLu, hdrop, if_neg (by simp), hsign, if_neg htake]

end Digits

/-! ## What it is for -/

/-- What is in front of the first character that is neither digit nor separator. -/
def front (src sep : Bytes) : Bytes := src.takeWhile fun c => isDigit c || sep.contains c

/-- The longest runs of digits. -/
def digitRuns (str : Bytes) : List Bytes := fields (fun c => ! isDigit c) str

/-- How many numbers are read at most. -/
def numLimit (maxCnt arrLen : Int) : ℕ := (if maxCnt = 0 then arrLen else min arrLen maxCnt).toNat

/-- A position is that of the first unread character, when some of the runs in `str` have been
read: these are what is in front of it. It is behind all of `str`, unless no more numbers may
be read; then it is directly behind the last one. -/
structure Unread (str : Bytes) (read : List Bytes) (limit pos : ℕ) : Prop where
  le : pos ≤ str.length
  runs : digitRuns (str.take pos) = read
  all : read.length < limit → pos = str.length
  last : read.length = limit → ∀ c ∈ (str.take pos).getLast?, read ≠ [] → isDigit c = true

/-- What `ReadNums` is for: the numbers in front are in `dts`, as many as there may be, their
count in `*pArrLen`, and nothing has been assigned behind the array. -/
def ReadsNums (src sep : Bytes) (maxCnt arrLen : Int) : Prop :=
  let limit := numLimit maxCnt arrLen
  let read := (digitRuns (front src sep)).take limit
  ∃ pos ws, readNums (some src) sep maxCnt arrLen = (some pos, (read.length : Int), ws) ∧
    Unread (front src sep) read limit pos ∧
    (∀ dts, (contents read.length (fill ws dts)).map (·.toNat) = read.map digitsValue) ∧
    ∀ w ∈ ws, ∀ i, w.Covers i → (i : Int) < arrLen

/-- At most one number, and nothing behind it. -/
def LastNumber (str : Bytes) : Prop := ∀ c ∈ str.dropWhile fun c => ! isDigit c, isDigit c = true

section Scan

variable {sep : Bytes} {maxCnt arrLen : Int}

/-- Separators in front are skipped. -/
theorem readNumsLoop_skip {seps : Bytes}
    (hseps : ∀ c ∈ seps, isDigit c = false ∧ sep.contains c = true) (rest : Bytes) :
    readNumsLoop sep maxCnt arrLen (seps ++ rest) none 0 =
      readNumsLoop sep maxCnt arrLen rest none 0 := by
  induction seps with
  | nil => rfl
  | cons c seps ih =>
    obtain ⟨⟨hdigit, hsep⟩, hrest⟩ := List.forall_mem_cons.mp hseps
    rw [List.cons_append, readNumsLoop, if_neg (by simp [hdigit]), if_pos hsep]
    exact ih hrest

/-- Digits are passed. -/
theorem readNumsLoop_digits {digits : Bytes} (hdigits : ∀ c ∈ digits, isDigit c = true)
    (rest str : Bytes) :
    readNumsLoop sep maxCnt arrLen (digits ++ rest) (some str) 0 =
      readNumsLoop sep maxCnt arrLen rest (some str) 0 := by
  induction digits with
  | nil => rfl
  | cons c digits ih =>
    obtain ⟨hdigit, hrest⟩ := List.forall_mem_cons.mp hdigits
    rw [List.cons_append, readNumsLoop, if_pos hdigit]
    exact ih hrest

/-- The first digit is where the number starts. -/
theorem readNumsLoop_number {digits : Bytes} (hne : digits ≠ [])
    (hdigits : ∀ c ∈ digits, isDigit c = true) (rest : Bytes) :
    readNumsLoop sep maxCnt arrLen (digits ++ rest) none 0 =
      readNumsLoop sep maxCnt arrLen rest (some (digits ++ rest)) 0 := by
  obtain ⟨d, ds, rfl⟩ := List.exists_cons_of_ne_nil hne
  obtain ⟨hdigit, hrest⟩ := List.forall_mem_cons.mp hdigits
  rw [List.cons_append, readNumsLoop, if_pos hdigit]
  exact readNumsLoop_digits hrest rest _

/-- The loop ends at other characters, and at the end. -/
theorem readNumsLoop_stop {rest : Bytes}
    (hrest : ∀ c ∈ rest.head?, isDigit c = false ∧ sep.contains c = false)
    (numStart : Option Bytes) :
    readNumsLoop sep maxCnt arrLen rest numStart 0 = (some (rest, numStart, 0), []) := by
  cases rest with
  | nil => rfl
  | cons c rest =>
    obtain ⟨hdigit, hsep⟩ := hrest c rfl
    rw [readNumsLoop.eq_def]
    dsimp only
    rw [if_neg (by simp [hdigit]), if_neg (by rw [hsep]; exact Bool.false_ne_true)]

/-- A separator behind a number makes the loop return NULL. -/
theorem readNumsLoop_null {digits rest tail : Bytes} {c : UInt8} (hne : digits ≠ [])
    (hdigits : ∀ c ∈ digits, isDigit c = true) (hc : isDigit c = false)
    (hsep : sep.contains c = true) :
    (readNumsLoop sep maxCnt arrLen (c :: rest) (some (digits ++ tail)) 0).1 = none := by
  rw [readNumsLoop, if_neg (by simp [hc]), if_pos hsep]
  dsimp only
  rw [sscanfLu_digits hne hdigits tail]
  rfl

/-- Separators, the first number, what is in front of the first other character behind it, and
the rest. -/
theorem exists_front (src sep : Bytes) :
    ∃ seps digits behind tail, src = seps ++ digits ++ behind ++ tail ∧
      front src sep = seps ++ digits ++ behind ∧
      (∀ c ∈ seps, isDigit c = false ∧ sep.contains c = true) ∧
      (∀ c ∈ digits, isDigit c = true) ∧
      (∀ c ∈ behind.head?, isDigit c = false ∧ sep.contains c = true) ∧
      (digits = [] → behind = []) ∧
      ∀ c ∈ tail.head?, isDigit c = false ∧ sep.contains c = false := by
  have hsrc : front src sep ++ src.dropWhile (fun c => isDigit c || sep.contains c) = src :=
    List.takeWhile_append_dropWhile
  have htail := List.head?_dropWhile_not (fun c => isDigit c || sep.contains c) src
  have hall : ∀ c ∈ front src sep, isDigit c = false → sep.contains c = true := by
    intro c hc hdigit
    have hpass := List.mem_takeWhile_imp hc
    rwa [hdigit, Bool.false_or] at hpass
  have hfront := List.takeWhile_append_dropWhile (p := fun c => ! isDigit c) (l := front src sep)
  have hbody := List.head?_dropWhile_not (fun c => ! isDigit c) (front src sep)
  generalize hb : (front src sep).dropWhile (fun c => ! isDigit c) = body at hfront hbody
  have hcut := List.takeWhile_append_dropWhile (p := isDigit) (l := body)
  have hbehind := List.head?_dropWhile_not isDigit body
  rw [← hcut, ← List.append_assoc] at hfront
  refine ⟨_, _, _, src.dropWhile fun c => isDigit c || sep.contains c, ?_, hfront.symm,
    fun c hc => ?_, fun c hc => List.mem_takeWhile_imp hc, fun c hc => ?_, fun hnil => ?_,
    fun c hc => ?_⟩
  · rw [hfront]
    exact hsrc.symm
  · have hdigit : isDigit c = false := by simpa using List.mem_takeWhile_imp hc
    exact ⟨hdigit, hall c ((List.takeWhile_prefix _).mem hc) hdigit⟩
  · rw [Option.mem_def.mp hc] at hbehind
    refine ⟨hbehind, hall c ?_ hbehind⟩
    rw [← hfront]
    exact List.mem_append_right _ (List.mem_of_mem_head? hc)
  · cases body with
    | nil => rfl
    | cons d body =>
      rw [List.takeWhile_cons_of_pos (by simpa using hbody)] at hnil
      cases hnil
  · rw [Option.mem_def.mp hc] at htail
    simpa using htail

/-- Behind the separators in front there are digits only. -/
theorem lastNumber_iff {seps digits behind : Bytes} (hseps : ∀ c ∈ seps, isDigit c = false)
    (hdigits : ∀ c ∈ digits, isDigit c = true) (hbehind : ∀ c ∈ behind.head?, isDigit c = false)
    (hne : digits = [] → behind = []) : LastNumber (seps ++ digits ++ behind) ↔ behind = [] := by
  rw [LastNumber, List.append_assoc, List.dropWhile_append_of_pos (by simpa using hseps)]
  cases digits with
  | nil =>
    rw [hne rfl]
    simp
  | cons d digits =>
    have hd := hdigits d List.mem_cons_self
    rw [List.cons_append, List.dropWhile_cons_of_neg (by simp [hd])]
    constructor
    · intro hall
      cases behind with
      | nil => rfl
      | cons c behind =>
        have hc := hall c (by simp)
        rw [hbehind c rfl] at hc
        cases hc
    · rintro rfl c hc
      exact hdigits c (by simpa using hc)

section Shape

variable {seps digits tail : Bytes}

/-- A separator behind a number: NULL is returned. -/
theorem readNums_null {c : UInt8} {rest : Bytes}
    (hseps : ∀ c ∈ seps, isDigit c = false ∧ sep.contains c = true)
    (hdigits : ∀ c ∈ digits, isDigit c = true) (hne : digits ≠ []) (hc : isDigit c = false)
    (hsep : sep.contains c = true) :
    (readNums (some (seps ++ digits ++ c :: rest)) sep maxCnt arrLen).1 = none := by
  have hloop := @readNumsLoop_null sep maxCnt arrLen digits rest (c :: rest) c hne hdigits hc hsep
  rw [← readNumsLoop_number hne hdigits, ← readNumsLoop_skip hseps, ← List.append_assoc] at hloop
  rw [readNums]
  dsimp only
  cases hres : readNumsLoop sep maxCnt arrLen (seps ++ digits ++ c :: rest) none 0 with
  | mk res ws =>
    rw [hres] at hloop
    obtain rfl : res = none := hloop
    rfl

/-- No number. -/
theorem readNums_none (hseps : ∀ c ∈ seps, isDigit c = false ∧ sep.contains c = true)
    (htail : ∀ c ∈ tail.head?, isDigit c = false ∧ sep.contains c = false) :
    readNums (some (seps ++ tail)) sep maxCnt arrLen = (some seps.length, 0, []) := by
  rw [readNums]
  dsimp only
  rw [readNumsLoop_skip hseps, readNumsLoop_stop htail]
  simp

/-- One number, at the end. -/
theorem readNums_one (hseps : ∀ c ∈ seps, isDigit c = false ∧ sep.contains c = true)
    (hdigits : ∀ c ∈ digits, isDigit c = true)
    (htail : ∀ c ∈ tail.head?, isDigit c = false ∧ sep.contains c = false) (hne : digits ≠ [])
    (hmax : 0 ≤ maxCnt) :
    readNums (some (seps ++ digits ++ tail)) sep maxCnt arrLen =
      if 0 < arrLen then
        (some (seps ++ digits).length, 1, [⟨0, [strtoul (digits ++ tail) 10]⟩])
      else (some (seps ++ digits).length, 0, []) := by
  have hpos : (seps ++ digits ++ tail).length - tail.length = (seps ++ digits).length := by
    rw [@List.length_append _ (seps ++ digits), Nat.add_sub_cancel]
  have hloop : readNumsLoop sep maxCnt arrLen (seps ++ digits ++ tail) none 0 =
      (some (tail, some (digits ++ tail), 0), []) := by
    rw [List.append_assoc, readNumsLoop_skip hseps, readNumsLoop_number hne hdigits,
      readNumsLoop_stop htail]
  rw [readNums]
  dsimp only
  rw [hloop]
  dsimp only
  rw [hpos, sscanfLu_digits hne hdigits]
  by_cases hroom : 0 < arrLen
  · rw [if_pos hroom, if_pos ⟨by exact_mod_cast hroom, by omega⟩]
    rfl
  · rw [if_neg hroom, if_neg fun h => hroom (by exact_mod_cast h.1)]
    rfl

/-- Where there is no number, none is read. -/
theorem readsNums_none (hseps : ∀ c ∈ seps, isDigit c = false ∧ sep.contains c = true)
    (htail : ∀ c ∈ tail.head?, isDigit c = false ∧ sep.contains c = false)
    (hfront : front (seps ++ tail) sep = seps) : ReadsNums (seps ++ tail) sep maxCnt arrLen := by
  have hruns : digitRuns seps = [] := by
    rw [← List.append_nil seps]
    exact fields_skip fun c hc => by simpa using (hseps c hc).1
  have htake : seps.take seps.length = seps := List.take_length
  rw [ReadsNums, hfront, hruns, List.take_nil, readNums_none hseps htail]
  refine ⟨seps.length, [], rfl, ⟨le_rfl, ?_, fun _ => rfl, ?_⟩, fun _ => rfl, ?_⟩
  · rw [htake, hruns]
  · exact fun _ _ _ hne => absurd rfl hne
  · exact fun w hw => absurd hw List.not_mem_nil

/-- One number is read if there is room for it. -/
theorem readsNums_one (hseps : ∀ c ∈ seps, isDigit c = false ∧ sep.contains c = true)
    (hdigits : ∀ c ∈ digits, isDigit c = true)
    (htail : ∀ c ∈ tail.head?, isDigit c = false ∧ sep.contains c = false) (hne : digits ≠ [])
    (hfront : front (seps ++ digits ++ tail) sep = seps ++ digits) (hmax : 0 ≤ maxCnt)
    (hvalue : digitsValue digits < 2 ^ 64) :
    ReadsNums (seps ++ digits ++ tail) sep maxCnt arrLen ↔ 0 < arrLen := by
  have hruns : digitRuns (seps ++ digits) = [digits] :=
    (fields_skip fun c hc => by simpa using (hseps c hc).1).trans
      (fields_single hne (by simpa using hdigits))
  have htake : (seps ++ digits).take (seps ++ digits).length = seps ++ digits := List.take_length
  rw [ReadsNums, hfront, hruns, readNums_one hseps hdigits htail hne hmax]
  by_cases hroom : 0 < arrLen
  · have hlimit : 1 ≤ numLimit maxCnt arrLen := by
      rw [numLimit]
      split <;> omega
    rw [if_pos hroom, List.take_of_length_le hlimit]
    refine iff_of_true ⟨_, _, rfl, ⟨le_rfl, ?_, fun _ => rfl, fun _ c hc _ => ?_⟩, fun dts => ?_,
      fun w hw i hi => ?_⟩ hroom
    · rw [htake, hruns]
    · rw [htake, List.getLast?_append_of_ne_nil _ hne] at hc
      exact hdigits c (List.mem_of_mem_getLast? hc)
    · rw [strtoul_digits hne hdigits (fun c hc => (htail c hc).1) hvalue]
      simp [contents, Write.apply, UInt64.toNat_ofNat_of_lt' hvalue]
    · obtain rfl := List.mem_singleton.mp hw
      obtain ⟨-, hlt⟩ := hi
      simp only [List.length_singleton] at hlt
      omega
  · rw [if_neg hroom]
    refine iff_of_false ?_ hroom
    -- the position is behind the number, which has not been read
    rintro ⟨pos, ws, hret, hunread, -⟩
    obtain rfl : (seps ++ digits).length = pos := Option.some.inj (Prod.mk.inj hret).1
    have hread := hunread.runs
    rw [htake, hruns] at hread
    have hcount := (Prod.mk.inj (Prod.mk.inj hret).2).1
    rw [← hread] at hcount
    cases hcount

end Shape

/-- **`ReadNums` reads the numbers in front** just when there is only one at most, with no
separator behind it, and none if there is no room for it. -/
theorem reads_nums_iff (src sep : Bytes) (maxCnt arrLen : Int) (hmax : 0 ≤ maxCnt)
    (hlen : 0 ≤ arrLen) (hvalues : ∀ run ∈ digitRuns (front src sep), digitsValue run < 2 ^ 64) :
    ReadsNums src sep maxCnt arrLen ↔
      LastNumber (front src sep) ∧ (arrLen = 0 → ∀ c ∈ front src sep, isDigit c = false) := by
  obtain ⟨seps, digits, behind, tail, hsrc, hfront, hseps, hdigits, hbehind, hne, htail⟩ :=
    exists_front src sep
  have hseps' : ∀ c ∈ seps, isDigit c = false := fun c hc => (hseps c hc).1
  rw [hfront, lastNumber_iff hseps' hdigits (fun c hc => (hbehind c hc).1) hne]
  rw [hfront] at hvalues
  cases behind with
  | cons c behind =>
    obtain ⟨hc, hsep⟩ := hbehind c rfl
    have hdne : digits ≠ [] := fun hnil => List.cons_ne_nil c behind (hne hnil)
    have hnull := @readNums_null sep maxCnt arrLen seps digits c (behind ++ tail) hseps hdigits hdne
      hc hsep
    rw [hsrc, List.append_assoc (seps ++ digits), List.cons_append]
    constructor
    · rintro ⟨pos, ws, hret, -⟩
      rw [hret] at hnull
      cases hnull
    · rintro ⟨hlast, -⟩
      cases hlast
  | nil =>
    rw [List.append_nil] at hsrc hfront hvalues ⊢
    rw [hsrc] at hfront ⊢
    by_cases hnil : digits = []
    · subst hnil
      rw [List.append_nil] at hfront ⊢
      exact iff_of_true (readsNums_none hseps htail hfront) ⟨rfl, fun _ => hseps'⟩
    · have hruns : digitRuns (seps ++ digits) = [digits] :=
        (fields_skip (by simpa using hseps')).trans (fields_single hnil (by simpa using hdigits))
      have hvalue := hvalues digits (by rw [hruns]; exact List.mem_cons_self)
      rw [readsNums_one hseps hdigits htail hnil hfront hmax hvalue]
      constructor
      · exact fun hroom => ⟨rfl, fun h => absurd h (by omega)⟩
      · rintro ⟨-, hempty⟩
        obtain ⟨d, hd⟩ := List.exists_mem_of_ne_nil digits hnil
        by_contra hroom
        have hnone := hempty (by omega) d (List.mem_append_right seps hd)
        rw [hdigits d hd] at hnone
        cases hnone

end Scan

/-- A space and a number, and then another character. -/
theorem reads_nums_last : ReadsNums [32, 52, 50, 120] [32] 0 3 :=
  (reads_nums_iff [32, 52, 50, 120] [32] 0 3 (by decide) (by decide) (by decide)).mpr
    ⟨by simp [LastNumber, front, isDigit], by decide⟩

/-- `1 2` with room for four numbers. -/
theorem not_reads_nums_two : ¬ ∀ (src sep : Bytes) (maxCnt arrLen : Int),
    (∀ c ∈ sep, isDigit c = false) → 0 ≤ maxCnt → 0 ≤ arrLen →
      (∀ run ∈ digitRuns (front src sep), digitsValue run < 2 ^ 64) →
        ReadsNums src sep maxCnt arrLen := by
  intro hall
  obtain ⟨pos, ws, hret, -⟩ := hall [49, 32, 50] [32] 0 4 (by simp [isDigit]) (by decide)
    (by decide) (by decide)
  have hnull := @readNums_null [32] 0 4 [] [49] 32 [50] (by simp) (by simp [isDigit]) (by decide)
    rfl rfl
  rw [List.nil_append, List.cons_append, List.nil_append, hret] at hnull
  cases hnull

end PowerApi
