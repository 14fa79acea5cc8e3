import PowerApi.ConfigBuffers
import PowerApi.DiskNames

/-!
# Taking strings apart (`utils.c`)

`StrSplit` copies the string, has `strtok_r` put zero bytes into the copy, and returns where the
items begin. `GetNthField` looks for one field without touching the string. They agree:
both are about the `fields` of the string (`strSplit_items`, `nth_field_agrees`).
-/

namespace PowerApi

open MemoryBlock Fields

/-! ## `strtok_r` and `StrSplit` -/

/-- `strtok_r` in a buffer: where the token begins, the buffer with an end behind it, and
where to go on. -/
def strtok_r (buf : Bytes) (s : ℕ) (sep : Bytes) : Option ℕ × Bytes × ℕ :=
  let start := s + strspn (cString (buf.drop s)) sep
  let str := cString (buf.drop start)
  if str = [] then (none, buf, start)
  else
    let stop := start + strcspn str sep
    if buf[stop]? = some 0 then (some start, buf, stop)
    else (some start, buf.set stop 0, stop + 1)

/-- The loop of `StrSplit`, with how many items there is still room for. The next token is
looked for before the room is. -/
def strSplitLoop (sep : Bytes) : (room : ℕ) → Option ℕ × Bytes × ℕ → List ℕ × Bytes
  | room + 1, (some token, buf, savePtr) =>
    let (res, buf) := strSplitLoop sep room (strtok_r buf savePtr sep)
    (token :: res, buf)
  | _, (_, buf, _) => ([], buf)

/-- `StrSplit`: where the items begin, and the copy that they are in. -/
def strSplit (src sep : Bytes) (itemNum : ℕ) : List ℕ × Bytes :=
  strSplitLoop sep itemNum (strtok_r (src ++ [0]) 0 sep)

/-- The strings that `res` points to. -/
def itemsOf (split : List ℕ × Bytes) : List Bytes :=
  split.1.map fun p => cString (split.2.drop p)

section Split

variable {sep pre str tail : Bytes}

theorem cString_drop (hstr : 0 ∉ str) (pre tail : Bytes) :
    cString ((pre ++ str ++ 0 :: tail).drop pre.length) = str := by
  rw [List.append_assoc, List.drop_left]
  exact cString_append_zero fun c hc => ne_of_mem_of_not_mem hc hstr

theorem strspn_le (str sep : Bytes) : strspn str sep ≤ str.length :=
  (List.takeWhile_prefix _).length_le

/-- What `strtok_r` finds where it goes on. -/
theorem strtok_r_start (hstr : 0 ∉ str) (pre tail : Bytes) :
    cString ((pre ++ str ++ 0 :: tail).drop (pre.length + strspn str sep)) =
      str.drop (strspn str sep) := by
  have hsplit : pre ++ str ++ 0 :: tail =
      pre ++ str.take (strspn str sep) ++ str.drop (strspn str sep) ++ 0 :: tail := by
    rw [List.append_assoc pre (str.take _), List.take_append_drop]
  have hlen : pre.length + strspn str sep = (pre ++ str.take (strspn str sep)).length := by
    rw [List.length_append, List.length_take_of_le (strspn_le str sep)]
  rw [hsplit, hlen]
  exact cString_drop (fun h => hstr (List.mem_of_mem_drop h)) _ tail

/-- Without a field there is no token. -/
theorem strtok_r_none (hstr : 0 ∉ str) (h : str.drop (strspn str sep) = []) (pre tail : Bytes) :
    ∃ savePtr, strtok_r (pre ++ str ++ 0 :: tail) pre.length sep =
      (none, pre ++ str ++ 0 :: tail, savePtr) := by
  refine ⟨pre.length + strspn str sep, ?_⟩
  rw [strtok_r, cString_drop hstr, strtok_r_start hstr, h]
  exact if_pos rfl

/-- The token is the first field, with an end behind it that stays there, and the rest of the
string has the other fields. -/
theorem strtok_r_some (hstr : 0 ∉ str) (h : str.drop (strspn str sep) ≠ []) (pre tail : Bytes) :
    ∃ token mid field str', strtok_r (pre ++ str ++ 0 :: tail) pre.length sep =
        (some token, pre ++ mid ++ str' ++ 0 :: tail, (pre ++ mid).length) ∧ 0 ∉ str' ∧
      fields (sep.contains ·) str = field :: fields (sep.contains ·) str' ∧
      ∀ w, (str' = [] → w = 0 :: tail) → cString ((pre ++ mid ++ w).drop token) = field := by
  have hstart := @strtok_r_start sep str hstr pre tail
  have hfields := fields_strspn h
  have hsplit := List.take_append_drop (strspn str sep) str
  have hx := List.length_take_of_le (strspn_le str sep)
  rw [strtok_r, cString_drop hstr, hstart]
  dsimp only at hfields ⊢
  rw [if_neg h, hfields]
  generalize str.take (strspn str sep) = x at hsplit hx
  generalize str.drop (strspn str sep) = r at hsplit
  rw [← hx]
  subst hsplit
  have hrest := List.head?_dropWhile_not (fun c => ! sep.contains c) r
  have hcut := List.take_append_drop (strcspn r sep) r
  have hf := List.length_take_of_le (strcspn_le r sep)
  rw [← drop_strcspn] at hrest
  generalize r.take (strcspn r sep) = f at hcut hf ⊢
  generalize r.drop (strcspn r sep) = rest at hcut hrest ⊢
  rw [← hf]
  subst hcut
  have hzero : ∀ c ∈ f, c ≠ 0 := fun c hc =>
    ne_of_mem_of_not_mem (List.mem_append_right x (List.mem_append_left rest hc)) hstr
  have htoken : ∀ w, cString ((pre ++ (x ++ f) ++ 0 :: w).drop (pre.length + x.length)) = f :=
    fun w => by
      have hassoc : pre ++ (x ++ f) ++ 0 :: w = pre ++ x ++ f ++ 0 :: w := by simp
      rw [hassoc, ← List.length_append]
      exact cString_drop (fun h => hzero 0 h rfl) (pre ++ x) w
  have hstop : pre.length + x.length + f.length = (pre ++ (x ++ f)).length := by
    simp only [List.length_append, Nat.add_assoc]
  have hbuf : pre ++ (x ++ (f ++ rest)) ++ 0 :: tail = pre ++ (x ++ f) ++ (rest ++ 0 :: tail) := by
    simp
  rw [hstop, hbuf, List.getElem?_append_right le_rfl, Nat.sub_self]
  cases rest with
  | nil =>
    refine ⟨pre.length + x.length, x ++ f, f, [], ?_, List.not_mem_nil, rfl, fun w hw => ?_⟩
    · rw [List.nil_append, List.append_nil]
      exact if_pos rfl
    · rw [hw rfl]
      exact htoken tail
  | cons c rest =>
    have hc : sep.contains c = true := by simpa using hrest
    have hne : c ≠ 0 := ne_of_mem_of_not_mem (by simp) hstr
    refine ⟨pre.length + x.length, x ++ f ++ [0], f, rest, ?_, fun h => hstr (by simp [h]), ?_,
      fun w hw => ?_⟩
    · rw [if_neg (by simpa using hne), List.set_append_right _ _ le_rfl, Nat.sub_self]
      simp only [List.append_assoc, List.cons_append, List.nil_append, List.set_cons_zero,
        List.length_append, List.length_singleton, Nat.add_assoc]
    · rw [fields_cons hc]
    · have hassoc : pre ++ (x ++ f ++ [0]) ++ w = pre ++ (x ++ f) ++ 0 :: w := by simp
      rw [hassoc]
      exact htoken w

@[simp] theorem strSplitLoop_none (room : ℕ) (buf : Bytes) (savePtr : ℕ) :
    strSplitLoop sep room (none, buf, savePtr) = ([], buf) := by
  cases room <;> rfl

theorem itemsOf_cons (token : ℕ) (res : List ℕ) (buf : Bytes) :
    itemsOf (token :: res, buf) = cString (buf.drop token) :: itemsOf (res, buf) := rfl

/-- The loop stores the fields one after the other, and leaves what is in front of them. -/
theorem strSplitLoop_eq (room : ℕ) (hstr : 0 ∉ str) (pre tail : Bytes) :
    ∃ w, (strSplitLoop sep room (strtok_r (pre ++ str ++ 0 :: tail) pre.length sep)).2 = pre ++ w ∧
      (str = [] → w = 0 :: tail) ∧
      itemsOf (strSplitLoop sep room (strtok_r (pre ++ str ++ 0 :: tail) pre.length sep)) =
        (fields (sep.contains ·) str).take room := by
  induction room generalizing pre str with
  | zero =>
    by_cases h : str.drop (strspn str sep) = []
    · obtain ⟨savePtr, heq⟩ := strtok_r_none hstr h pre tail
      rw [heq]
      exact ⟨str ++ 0 :: tail, List.append_assoc .., fun hnil => by rw [hnil]; rfl, rfl⟩
    · obtain ⟨token, mid, field, str', heq, -, -, -⟩ := strtok_r_some hstr h pre tail
      rw [heq]
      refine ⟨mid ++ (str' ++ 0 :: tail), ?_, fun hnil => ?_, rfl⟩
      · simp [strSplitLoop]
      · exact absurd (by rw [hnil, List.drop_nil]) h
  | succ room ih =>
    by_cases h : str.drop (strspn str sep) = []
    · obtain ⟨savePtr, heq⟩ := strtok_r_none hstr h pre tail
      rw [heq, strSplitLoop_none, fields_strspn_nil h]
      exact ⟨str ++ 0 :: tail, List.append_assoc .., fun hnil => by rw [hnil]; rfl, rfl⟩
    · obtain ⟨token, mid, field, str', heq, hstr', hfields, htoken⟩ := strtok_r_some hstr h pre tail
      obtain ⟨w, hbuf, hw, hitems⟩ := ih hstr' (pre ++ mid)
      rw [heq, strSplitLoop, hfields, List.take_succ_cons]
      refine ⟨mid ++ w, ?_, fun hnil => absurd (by rw [hnil, List.drop_nil]) h, ?_⟩
      · rw [← List.append_assoc]
        exact hbuf
      · rw [itemsOf_cons, hbuf, htoken w hw, ← hbuf, ← hitems]

/-- **The items are the fields of the string**, as many as there is room for. -/
theorem strSplit_items (src sep : Bytes) (itemNum : ℕ) (hsrc : 0 ∉ src) :
    itemsOf (strSplit src sep itemNum) = (fields (sep.contains ·) src).take itemNum := by
  obtain ⟨w, -, -, hitems⟩ := @strSplitLoop_eq sep src itemNum hsrc [] []
  exact hitems

end Split

/-! ## `GetNthField` in its buffer -/

/-- What `GetNthField` assigns in the field's buffer, if it does not return NULL. -/
def nthFieldWrites (src sep : Bytes) (nth bufLen : ℕ) : Option (List (Write UInt8)) :=
  if nth < 1 then none
  else
    match nthFieldLoop sep nth 0 src with
    | none => none
    | some (ps, tmpLen) =>
      if bufLen < tmpLen then none else some [⟨0, strncpy ps tmpLen⟩, ⟨tmpLen, [0]⟩]

/-- `GetNthField`: whether it returns the buffer, and what is in it then. -/
def getNthFieldIn (src sep : Bytes) (nth : ℕ) (pField : ℕ → UInt8) (bufLen : ℕ) :
    Bool × (ℕ → UInt8) :=
  match nthFieldWrites src sep nth bufLen with
  | none => (false, pField)
  | some ws => (true, fill ws pField)

/-- There is room for all items: with more of it there would be no more items. -/
def EnoughRoom (src sep : Bytes) (itemNum : ℕ) : Prop :=
  ∀ more, itemsOf (strSplit src sep (itemNum + more)) = itemsOf (strSplit src sep itemNum)

section NthFieldIn

variable {sep src : Bytes}

/-- What is assigned is the field, and an end behind it. -/
theorem nthFieldWrites_eq (src : Bytes) (nth bufLen : ℕ) :
    nthFieldWrites src sep nth bufLen =
      (getNthField src sep nth bufLen).map fun item => [⟨0, item⟩, ⟨item.length, [0]⟩] := by
  rw [nthFieldWrites, getNthField]
  by_cases hnth : nth < 1
  · rw [if_pos hnth, if_pos hnth]
    rfl
  rw [if_neg hnth, if_neg hnth]
  cases hloop : nthFieldLoop sep nth 0 src with
  | none => rfl
  | some r =>
    obtain ⟨ps, tmpLen⟩ := r
    have hle := nthFieldLoop_le (Nat.zero_le _) hloop
    dsimp only
    by_cases hroom : bufLen < tmpLen
    · rw [if_pos hroom, if_pos hroom]
      rfl
    · have hpad : strncpy ps tmpLen = ps.take tmpLen := by
        rw [strncpy, Nat.sub_eq_zero_of_le hle, List.replicate_zero, List.append_nil]
      rw [if_neg hroom, if_neg hroom, hpad, Option.map_some, List.length_take_of_le hle]

/-- The buffer with a field in it. -/
theorem fill_field (item : Bytes) (pField : ℕ → UInt8) :
    contents (item.length + 1) (fill [⟨0, item⟩, ⟨item.length, [0]⟩] pField) = item ++ [0] ∧
      ∀ i > item.length, fill [⟨0, item⟩, ⟨item.length, [0]⟩] pField i = pField i := by
  constructor
  · refine List.ext_getElem (by simp) fun i hi _ => ?_
    rw [length_contents] at hi
    obtain hlt | rfl := Nat.lt_succ_iff_lt_or_eq.mp hi
    · simp [contents, Write.apply, hlt]
    · simp [contents, Write.apply]
  · intro i hi
    refine fill_of_not_covered (fun w hw hcovers => ?_) pField
    simp only [List.mem_cons, List.not_mem_nil, or_false] at hw
    obtain rfl | rfl := hw
    · exact absurd hcovers.2 (by dsimp only; omega)
    · exact absurd hcovers.2 (by simp; omega)

/-- With enough room the items are all fields. -/
theorem EnoughRoom.items {itemNum : ℕ} (h : EnoughRoom src sep itemNum) (hsrc : 0 ∉ src) :
    itemsOf (strSplit src sep itemNum) = fields (sep.contains ·) src := by
  have hmore := h (fields (sep.contains ·) src).length
  rw [strSplit_items src sep _ hsrc, List.take_of_length_le (Nat.le_add_left ..)] at hmore
  exact hmore.symm

/-- There are not more items than characters. -/
theorem enoughRoom_of_length {itemNum : ℕ} (hsrc : 0 ∉ src) (h : src.length ≤ itemNum) :
    EnoughRoom src sep itemNum := fun more => by
  have hle := (length_fields_le (p := (sep.contains ·)) src).trans h
  rw [strSplit_items src sep _ hsrc, strSplit_items src sep _ hsrc, List.take_of_length_le hle,
    List.take_of_length_le (hle.trans (Nat.le_add_right ..))]

/-- **Field access agrees with splitting.** A field is found if it is one of the items and the
buffer has room for it, and then it is the item. Otherwise nothing is written. -/
theorem nth_field_agrees (src sep : Bytes) (itemNum nth bufLen : ℕ) (pField : ℕ → UInt8)
    (hsrc : 0 ∉ src) (hroom : EnoughRoom src sep itemNum) (hnth : 1 ≤ nth) :
    let items := itemsOf (strSplit src sep itemNum)
    let (found, buf) := getNthFieldIn src sep nth pField bufLen
    (found = true ↔ nth ≤ items.length ∧ ∀ item ∈ items[nth - 1]?, item.length ≤ bufLen) ∧
      (found = true → ∀ item ∈ items[nth - 1]?, contents (item.length + 1) buf = item ++ [0] ∧
        ∀ i > item.length, buf i = pField i) ∧
      (found = false → buf = pField) := by
  obtain ⟨n, rfl⟩ := Nat.exists_eq_add_of_le' hnth
  rw [hroom.items hsrc, Nat.add_sub_cancel, getNthFieldIn, nthFieldWrites_eq, getNthField_eq]
  dsimp only
  cases hitem : (fields (sep.contains ·) src)[n]? with
  | none =>
    have hfew := List.getElem?_eq_none_iff.mp hitem
    refine ⟨⟨nofun, fun h => absurd h.1 (by omega)⟩, nofun, fun _ => rfl⟩
  | some item =>
    obtain ⟨hn, -⟩ := List.getElem?_eq_some_iff.mp hitem
    by_cases hfits : item.length ≤ bufLen
    · rw [Option.filter_some, if_pos (by simpa using hfits)]
      refine ⟨⟨fun _ => ⟨hn, ?_⟩, fun _ => rfl⟩, fun _ => ?_, nofun⟩
      · rintro _ ⟨⟩
        exact hfits
      · rintro _ ⟨⟩
        exact fill_field item pField
    · rw [Option.filter_some, if_neg (by simpa using hfits)]
      exact ⟨⟨nofun, fun h => absurd (h.2 item rfl) hfits⟩, nofun, fun _ => rfl⟩

/-- The second field of ` ab  c`. -/
theorem nth_field_agrees_second :
    let items := itemsOf (strSplit [32, 97, 98, 32, 32, 99] [32] 6)
    let (found, buf) := getNthFieldIn [32, 97, 98, 32, 32, 99] [32] 2 (fun _ => 7) 1
    (found = true ↔ 2 ≤ items.length ∧ ∀ item ∈ items[1]?, item.length ≤ 1) ∧
      (found = true → ∀ item ∈ items[1]?, contents (item.length + 1) buf = item ++ [0] ∧
        ∀ i > item.length, buf i = 7) ∧
      (found = false → buf = fun _ => 7) :=
  nth_field_agrees [32, 97, 98, 32, 32, 99] [32] 6 2 1 (fun _ => 7) (by decide)
    (enoughRoom_of_length (by decide) (by decide)) (by decide)

end NthFieldIn

/-! ## `StrJoin` and `StrReplace` -/

/-- Bytes are written to a buffer. -/
def writeTo (buf : Bytes) (pos : ℕ) (data : Bytes) : Except Fault Bytes :=
  if buf.length < pos + data.length then throw .overrun
  else return buf.take pos ++ data ++ buf.drop (pos + data.length)

/-- `strcat` to the string at a position. -/
def strcat (buf : Bytes) (pos : ℕ) (str : Bytes) : Except Fault Bytes :=
  writeTo buf (pos + (cString (buf.drop pos)).length) (str ++ [0])

/-- The loop of `StrJoin`, which `sprintf`s all strings but the last one, and the `strcat` behind
it. `sprintf` fails on a text that no `int` counts, which is too long for the buffer anyway. -/
def strJoinLoop (joinStr : Bytes) : List Bytes → (pos : ℕ) → Bytes → Except Fault Bytes
  | [], _, tmpBuf => return tmpBuf
  | [str], pos, tmpBuf => strcat tmpBuf pos str
  | str :: strArr, pos, tmpBuf => do
    let tmpBuf ← writeTo tmpBuf pos (str ++ joinStr ++ [0])
    strJoinLoop joinStr strArr (pos + (str.length + joinStr.length)) tmpBuf

/-- `StrJoin`: what it leaves in `buf`, which has `bufLen` bytes, if it does not return NULL. -/
def strJoin (strArr : List Bytes) (joinStr : Bytes) (bufLen : Int) :
    Except Fault (Option Bytes) := do
  if strArr.length < 1 ∨ bufLen < 1 then return none
  else
    let tmpBuf ← strJoinLoop joinStr strArr 0 (List.replicate maxLineLength 0)
    if (cString tmpBuf).length > bufLen then return none
    else if (cString tmpBuf).length + 1 > bufLen then throw .overrun
    else return some (cString tmpBuf ++ [0])

/-- `StrReplace`. -/
def strReplace (src old new : Bytes) (destLen : Int) : Except Fault (Option Bytes) :=
  if destLen < 1 then return none
  else
    let maxNum := src.length
    strJoin (itemsOf (strSplit src old maxNum)) new destLen

/-- The length of the strings with `joinStr` between them. -/
def joinedLength (strArr : List Bytes) (joinStr : Bytes) : ℕ :=
  (strArr.map List.length).sum + (strArr.length - 1) * joinStr.length

/-- Strings that can be told apart again when they have been joined. -/
structure Joinable (strArr : List Bytes) (joinStr : Bytes) : Prop where
  strings : strArr ≠ []
  nonempty : ∀ str ∈ strArr, str ≠ []
  free : ∀ str ∈ strArr, ∀ c ∈ str, c ∉ joinStr
  separator : joinStr ≠ []
  noEnd : (∀ str ∈ strArr, 0 ∉ str) ∧ 0 ∉ joinStr

/-- What `StrJoin` is for. It writes nowhere but in its buffers, and returns NULL just when the
strings do not fit. What it leaves is split into the strings again. -/
def Joins (strArr : List Bytes) (joinStr : Bytes) (bufLen : Int) : Prop :=
  ∃ res, strJoin strArr joinStr bufLen = .ok res ∧
    (res = none ↔ joinedLength strArr joinStr + 1 > bufLen) ∧
    ∀ buf, res = some buf → ∀ itemNum ≥ strArr.length,
      itemsOf (strSplit (cString buf) joinStr itemNum) = strArr

section Join

variable {strArr : List Bytes} {joinStr : Bytes} {bufLen : Int}

theorem length_intercalate (strArr : List Bytes) (joinStr : Bytes) :
    (joinStr.intercalate strArr).length = joinedLength strArr joinStr := by
  induction strArr with
  | nil => rw [joinedLength, List.length_nil, Nat.zero_sub, Nat.zero_mul]; rfl
  | cons str strArr ih =>
    cases strArr with
    | nil => simp [joinedLength]
    | cons next strArr =>
      rw [List.intercalate_cons_cons, List.length_append, List.length_append, ih, joinedLength,
        joinedLength]
      simp only [List.map_cons, List.sum_cons, List.length_cons, Nat.add_sub_cancel, Nat.succ_mul]
      omega

/-- Bytes and an end are written over zero bytes. -/
theorem writeTo_zeros (acc data : Bytes) (k : ℕ) :
    writeTo (acc ++ List.replicate k 0) acc.length (data ++ [0]) =
      if data.length < k then .ok (acc ++ data ++ List.replicate (k - data.length) 0)
      else .error .overrun := by
  simp only [writeTo, List.length_append, List.length_replicate, List.length_singleton]
  by_cases hk : data.length < k
  · have hzeros : k - data.length = k - (data.length + 1) + 1 := by omega
    rw [if_neg (by omega), if_pos hk, List.take_left, List.drop_append, Nat.add_sub_cancel_left,
      List.drop_eq_nil_of_le (Nat.le_add_right ..), List.drop_replicate, hzeros,
      List.replicate_succ]
    simp only [List.append_assoc, List.cons_append, List.nil_append]
    rfl
  · rw [if_pos (by omega), if_neg hk]
    rfl

/-- The loop joins the strings, if there is room for them and an end. -/
theorem strJoinLoop_eq (hstrings : strArr ≠ []) (acc : Bytes) (k : ℕ) :
    strJoinLoop joinStr strArr acc.length (acc ++ List.replicate k 0) =
      if (joinStr.intercalate strArr).length < k then
        .ok (acc ++ joinStr.intercalate strArr ++
          List.replicate (k - (joinStr.intercalate strArr).length) 0)
      else .error .overrun := by
  induction strArr generalizing acc k with
  | nil => exact absurd rfl hstrings
  | cons str strArr ih =>
    cases strArr with
    | nil =>
      have hend : cString ((acc ++ List.replicate k 0).drop acc.length) = [] := by
        rw [List.drop_left]
        cases k <;> rfl
      rw [strJoinLoop, strcat, hend, List.intercalate_singleton]
      exact writeTo_zeros acc str k
    | cons next strArr =>
      rw [strJoinLoop, writeTo_zeros, List.intercalate_cons_cons]
      · by_cases hroom : (str ++ joinStr).length < k
        · have hpos : acc.length + (str.length + joinStr.length) =
              (acc ++ (str ++ joinStr)).length := by simp
          rw [if_pos hroom, hpos]
          have hrest := ih (List.cons_ne_nil next strArr) (acc ++ (str ++ joinStr))
            (k - (str ++ joinStr).length)
          refine Eq.trans hrest ?_
          rw [@List.length_append _ (str ++ joinStr)]
          by_cases hlt : (joinStr.intercalate (next :: strArr)).length < k - (str ++ joinStr).length
          · rw [if_pos hlt, if_pos (by omega)]
            simp only [List.append_assoc, Nat.sub_sub]
          · rw [if_neg hlt, if_neg (by omega)]
        · rw [if_neg hroom, if_neg (by rw [List.length_append]; omega)]
          rfl
      · nofun

theorem not_mem_intercalate {c : UInt8} (hstrs : ∀ str ∈ strArr, c ∉ str) (hjoin : c ∉ joinStr) :
    c ∉ joinStr.intercalate strArr := by
  induction strArr with
  | nil => exact List.not_mem_nil
  | cons str strArr ih =>
    obtain ⟨hstr, hrest⟩ := List.forall_mem_cons.mp hstrs
    cases strArr with
    | nil => rwa [List.intercalate_singleton]
    | cons next strArr =>
      rw [List.intercalate_cons_cons, List.mem_append, List.mem_append]
      exact not_or.mpr ⟨not_or.mpr ⟨hstr, hjoin⟩, ih hrest⟩

/-- `StrJoin` on a text without a zero byte. -/
theorem strJoin_eq (hstrings : strArr ≠ []) (hnoEnd : 0 ∉ joinStr.intercalate strArr)
    (hbufLen : 1 ≤ bufLen) :
    strJoin strArr joinStr bufLen =
      if joinedLength strArr joinStr < maxLineLength then
        if joinedLength strArr joinStr > bufLen then .ok none
        else if joinedLength strArr joinStr + 1 > bufLen then .error .overrun
        else .ok (some (joinStr.intercalate strArr ++ [0]))
      else .error .overrun := by
  have hloop := @strJoinLoop_eq strArr joinStr hstrings [] maxLineLength
  rw [List.length_nil, List.nil_append, List.nil_append, length_intercalate] at hloop
  have hpos := List.length_pos_of_ne_nil hstrings
  rw [strJoin, if_neg (by omega), hloop]
  by_cases hroom : joinedLength strArr joinStr < maxLineLength
  · rw [if_pos hroom, if_pos hroom]
    obtain ⟨k, hk⟩ := Nat.exists_eq_add_of_lt hroom
    have hzeros : maxLineLength - joinedLength strArr joinStr = k + 1 := by omega
    have htext : cString (joinStr.intercalate strArr ++
        List.replicate (maxLineLength - joinedLength strArr joinStr) 0) =
        joinStr.intercalate strArr := by
      rw [hzeros, List.replicate_succ]
      exact cString_append_zero fun c hc => ne_of_mem_of_not_mem hc hnoEnd
    dsimp only [ok_bind]
    rw [htext, length_intercalate]
    rfl
  · rw [if_neg hroom, if_neg hroom]
    rfl

/-- **`StrJoin` joins what `StrSplit` takes apart again**, just when the text does not fill the
work buffer, and does not fill `buf` up to the last byte: there the end goes behind it. -/
theorem joins_iff (h : Joinable strArr joinStr) (hbufLen : 1 ≤ bufLen) :
    Joins strArr joinStr bufLen ↔
      joinedLength strArr joinStr < maxLineLength ∧ joinedLength strArr joinStr ≠ bufLen := by
  have hnoEnd := not_mem_intercalate h.noEnd.1 h.noEnd.2
  rw [Joins, strJoin_eq h.strings hnoEnd hbufLen]
  by_cases hroom : joinedLength strArr joinStr < maxLineLength
  · rw [if_pos hroom]
    obtain hlt | heq | hgt := lt_trichotomy (joinedLength strArr joinStr : Int) bufLen
    · rw [if_neg (by omega), if_neg (by omega)]
      refine ⟨fun _ => ⟨hroom, hlt.ne⟩, fun _ => ⟨_, rfl, ⟨nofun, fun hgt => by omega⟩, ?_⟩⟩
      rintro _ ⟨⟩ itemNum hitemNum
      have htext : cString (joinStr.intercalate strArr ++ [0]) = joinStr.intercalate strArr :=
        cString_append_zero fun c hc => ne_of_mem_of_not_mem hc hnoEnd
      have hfields := @fields_intercalate _ (joinStr.contains ·) joinStr strArr h.separator
        (fun c hc => by simpa using hc)
        fun str hstr => ⟨h.nonempty str hstr, fun c hc => by simpa using h.free str hstr c hc⟩
      rw [htext, strSplit_items _ _ _ hnoEnd, hfields, List.take_of_length_le hitemNum]
    · rw [if_neg (by omega), if_pos (by omega)]
      exact ⟨fun ⟨_, hok, _⟩ => (nomatch hok), fun hne => absurd heq hne.2⟩
    · rw [if_pos hgt]
      refine ⟨fun _ => ⟨hroom, hgt.ne'⟩, fun _ => ⟨none, rfl, ⟨fun _ => ?_, fun _ => rfl⟩, nofun⟩⟩
      omega
  · rw [if_neg hroom]
    exact ⟨fun ⟨_, hok, _⟩ => (nomatch hok), fun hne => absurd hne.1 hroom⟩

/-- `a` and `b` with a comma between them in ten bytes. -/
theorem joins_ab : Joins [[97], [98]] [44] 10 :=
  (joins_iff ⟨by simp, by simp, by simp, by simp, by simp⟩ (by decide)).mpr (by decide)

/-- One letter fits in one byte, as far as `StrJoin` can tell. -/
theorem not_joins_one : ¬ ∀ (strArr : List Bytes) (joinStr : Bytes) (bufLen : Int),
    Joinable strArr joinStr → 1 ≤ bufLen → Joins strArr joinStr bufLen := by
  intro hall
  have hjoinable : Joinable [[97]] [44] := ⟨by simp, by simp, by simp, by simp, by simp⟩
  obtain ⟨res, hres, -⟩ := hall [[97]] [44] 1 hjoinable (by decide)
  rw [strJoin_eq (by decide) (by decide) (by decide)] at hres
  cases hres

/-- `StrReplace` joins the fields of the string. -/
theorem strReplace_eq {src old new : Bytes} {destLen : Int} (hsrc : 0 ∉ src) (hlen : 1 ≤ destLen) :
    strReplace src old new destLen = strJoin (fields (old.contains ·) src) new destLen := by
  rw [strReplace, if_neg (by omega)]
  dsimp only
  rw [(enoughRoom_of_length hsrc le_rfl).items hsrc]

end Join

end PowerApi
