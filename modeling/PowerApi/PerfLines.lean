import PowerApi.CpuLines
import PowerApi.ReadNums
import PowerApi.Usage
import PowerApi.Leftovers

/-!
# The report of `perf stat` (`cpuservice.c`)

`PerfDataRead` has `perf stat` count three events and reads its report: line by line it takes out
the characters that are in the way, looks for the name of an event, takes the name out as well and
has `strtoul` read what is left.

`perf_counts` says that this reads the report right. The counts have commas after every three
digits, and the events can come in any order, more than once (a hybrid processor counts each of its
kinds of cores for itself) or without a count; of the other lines nothing is taken. `DeleteSubstr`
reads behind the end of the string, so that lines have to leave room for the longest name.
-/

namespace PowerApi

open Bytes MemoryBlock

/-! ## The report -/

/-- What is counted. -/
inductive PerfEvent where
  | cacheMiss
  | instructions
  | cycles
  deriving DecidableEq, Repr

/-- The names of an event in the report. -/
def PerfEvent.names : PerfEvent → List Bytes
  | cacheMiss => [text "r0033", text "LLC-load-misses"]
  | instructions => [text "instructions"]
  | cycles => [text "cycles"]

/-- The event that a text is about: the first that is named. -/
def eventOf (s : Bytes) : Option PerfEvent :=
  if text "r0033" <:+: s ∨ text "LLC-load-misses" <:+: s then some .cacheMiss
  else if text "instructions" <:+: s then some .instructions
  else if text "cycles" <:+: s then some .cycles
  else none

/-- A text without the names of an event. -/
def PerfEvent.strip (e : PerfEvent) (s : Bytes) : Bytes :=
  e.names.foldl (fun s name => Machine.deleteSubstr name s) s

/-- A text without what is in the way in it. -/
def squeeze (s : Bytes) : Bytes := ((s.filter (· ≠ 10)).filter (· ≠ 32)).filter (· ≠ 44)

/-- Digits with a comma in front of every three. -/
def grouped : Bytes → Bytes
  | [] => []
  | c :: digits =>
    if digits ≠ [] ∧ 3 ∣ digits.length then c :: 44 :: grouped digits else c :: grouped digits

/-- A line has room for what `DeleteSubstr` reads behind it. -/
def Short (line : Bytes) : Prop := line.length + (text "LLC-load-misses").length < maxStringLen

instance (line : Bytes) : Decidable (Short line) := inferInstanceAs (Decidable (_ < _))

/-- A count and what stands behind it, which has the name of an event in it and without that does
not begin with a digit. -/
structure PerfRow where
  indent : ℕ
  count : ℕ
  event : PerfEvent
  tail : Bytes
  count_lt : count < 2 ^ 64
  tail_ne_zero : ∀ c ∈ tail, c ≠ 0
  named : eventOf (squeeze tail) = some event
  behind : ∀ c ∈ (event.strip (squeeze tail)).head?, isDigit c = false

/-- The row as it is printed. -/
def PerfRow.print (row : PerfRow) : Bytes :=
  List.replicate row.indent 32 ++ grouped (decimal row.count) ++ row.tail ++ [10]

/-- A line of the report that does not count: it names no event, or says `<not counted>`. -/
structure PerfNote where
  print : Bytes
  print_ne_zero : ∀ c ∈ print, c ≠ 0
  empty : eventOf (squeeze print) = none ∨ (squeeze print).head? = some 60

/-- A line of the report. -/
inductive PerfLine where
  | row (row : PerfRow)
  | note (note : PerfNote)

namespace PerfLine

def print : PerfLine → Bytes
  | row r => r.print
  | note n => n.print

/-- What the line has to say about an event. -/
def countOf (e : PerfEvent) : PerfLine → ℕ
  | row r => if r.event = e then r.count else 0
  | note _ => 0

end PerfLine

/-- A report, with lines as long as they are read. -/
structure PerfReport where
  lines : List PerfLine
  short : ∀ line ∈ lines, Short line.print

/-- How often an event was counted. -/
def PerfReport.total (r : PerfReport) (e : PerfEvent) : ℕ := (r.lines.map (PerfLine.countOf e)).sum

/-! ## A line in the buffer -/

/-- One more count. -/
def PerfSums.add (sums : PerfSums) (n : UInt64) : PerfEvent → PerfSums
  | .cacheMiss => { sums with cacheMiss := sums.cacheMiss + n }
  | .instructions => { sums with ins := sums.ins + n }
  | .cycles => { sums with cycles := sums.cycles + n }

/-- What a line adds, without what is in the way in it. -/
def perfEntry (s : Bytes) (sums : PerfSums) : PerfSums :=
  match eventOf s with
  | none => sums
  | some e => sums.add (strtoul (e.strip s) 10) e

section Buffer

variable {s r : Bytes}

theorem mem_squeeze {c : UInt8} (h : c ∈ squeeze s) : c ∈ s :=
  List.mem_of_mem_filter (List.mem_of_mem_filter (List.mem_of_mem_filter h))

theorem length_squeeze_le (s : Bytes) : (squeeze s).length ≤ s.length :=
  (List.length_filter_le _ _).trans ((List.length_filter_le _ _).trans (List.length_filter_le _ _))

@[simp] theorem squeeze_append (s t : Bytes) : squeeze (s ++ t) = squeeze s ++ squeeze t := by
  simp only [squeeze, List.filter_append]

/-- `DeleteChar` on the string at the front of a buffer. -/
theorem deleteChar_front (hs : ∀ c ∈ s, c ≠ 0) (a : UInt8) :
    ∃ r', deleteChar (s ++ 0 :: r) a = s.filter (· ≠ a) ++ 0 :: r' ∧
      (s.filter (· ≠ a) ++ 0 :: r').length = (s ++ 0 :: r).length := by
  rw [deleteChar, cString_append_zero hs, putString]
  refine ⟨_, rfl, ?_⟩
  have hle := List.length_filter_le (fun c => decide (c ≠ a)) s
  simp only [List.length_append, List.length_cons, List.length_drop]
  omega

/-- The three of them. -/
theorem deleteChars_front (hs : ∀ c ∈ s, c ≠ 0) :
    ∃ r', deleteChar (deleteChar (deleteChar (s ++ 0 :: r) 10) 32) 44 = squeeze s ++ 0 :: r' ∧
      (squeeze s ++ 0 :: r').length = (s ++ 0 :: r).length := by
  obtain ⟨r₁, h₁, hlen₁⟩ := @deleteChar_front s r hs 10
  have hs₁ : ∀ c ∈ s.filter (· ≠ 10), c ≠ 0 := fun c hc => hs c (List.mem_of_mem_filter hc)
  obtain ⟨r₂, h₂, hlen₂⟩ := @deleteChar_front _ r₁ hs₁ 32
  have hs₂ : ∀ c ∈ (s.filter (· ≠ 10)).filter (· ≠ 32), c ≠ 0 := fun c hc =>
    hs₁ c (List.mem_of_mem_filter hc)
  obtain ⟨r₃, h₃, hlen₃⟩ := @deleteChar_front _ r₂ hs₂ 44
  refine ⟨r₃, ?_, hlen₃.trans (hlen₂.trans hlen₁)⟩
  rw [h₁, h₂, h₃, squeeze]

theorem stringAt_front (hs : ∀ c ∈ s, c ≠ 0) : stringAt (s ++ 0 :: r) 0 = .ok s :=
  stringAt_of_drop (List.drop_zero ..) hs

/-- `DeleteSubstr` on the string at the front of a buffer. -/
theorem deleteSubstr_front {sub : Bytes} (hs : ∀ c ∈ s, c ≠ 0) (hsub : 0 < sub.length)
    (hroom : sub.length ≤ r.length) :
    ∃ r', r.length ≤ r'.length ∧
      deleteSubstr (s ++ 0 :: r) 0 sub = .ok (Machine.deleteSubstr sub s ++ 0 :: r') ∧
      (Machine.deleteSubstr sub s ++ 0 :: r').length = (s ++ 0 :: r).length := by
  obtain ⟨r', hr', hdel, hback⟩ := @deleteSubstr_string [] s sub r hs hsub hroom
  refine ⟨r', hr', hdel, ?_⟩
  have hsame := congrArg List.length (hback s.length (by simp))
  have hle := length_deleteSubstr_le sub s
  simp only [List.nil_append, List.length_drop, List.length_append, List.length_cons] at hsame ⊢
  omega

theorem length_names : (text "r0033").length = 5 ∧ (text "LLC-load-misses").length = 15 ∧
    (text "instructions").length = 12 ∧ (text "cycles").length = 6 := by decide +kernel

/-- A line that is short enough adds what it says, whatever the buffer held. -/
theorem perfLine_eq {buf line : Bytes} (hbuf : maxStringLen ≤ buf.length)
    (hline : ∀ c ∈ line, c ≠ 0) (hshort : Short line) (sums : PerfSums) :
    ∃ buf', maxStringLen ≤ buf'.length ∧
      perfLine buf line sums = .ok (buf', perfEntry (squeeze line) sums) := by
  obtain ⟨h5, h15, h12, h6⟩ := length_names
  rw [Short, h15] at hshort
  obtain ⟨r, hchars, hlen⟩ := @deleteChars_front line (buf.drop (line.length + 1)) hline
  have hs : ∀ c ∈ squeeze line, c ≠ 0 := fun c hc => hline c (mem_squeeze hc)
  have htotal : (squeeze line ++ 0 :: r).length = buf.length := by
    rw [hlen, List.length_append, List.length_cons, List.length_drop]
    have : maxStringLen = 1000 := rfl
    omega
  have hroom : 15 ≤ r.length := by
    have hle := length_squeeze_le line
    have : maxStringLen = 1000 := rfl
    rw [List.length_append, List.length_cons] at htotal
    omega
  have hput : deleteChar (deleteChar (deleteChar (putString buf line) 10) 32) 44 =
      squeeze line ++ 0 :: r := hchars
  rw [perfLine, perfEntry, eventOf, hput, stringAt_front hs, ok_bind]
  by_cases hmiss : text "r0033" <:+: squeeze line ∨ text "LLC-load-misses" <:+: squeeze line
  · rw [if_pos hmiss, if_pos hmiss]
    obtain ⟨r₁, hr₁, hdel₁, hlen₁⟩ := @deleteSubstr_front _ r (text "r0033") hs (by omega)
      (by omega)
    have hs₁ := @ne_zero_of_mem_deleteSubstr (text "r0033") _ hs
    obtain ⟨r₂, -, hdel₂, hlen₂⟩ := @deleteSubstr_front _ r₁ (text "LLC-load-misses") hs₁
      (by omega) (by omega)
    rw [hdel₁, ok_bind, hdel₂, ok_bind, stringAt_front (ne_zero_of_mem_deleteSubstr hs₁)]
    exact ⟨_, by rw [hlen₂, hlen₁, htotal]; exact hbuf, rfl⟩
  · rw [if_neg hmiss, if_neg hmiss]
    have hone : ∀ sub : Bytes, 0 < sub.length → sub.length ≤ 15 →
        ∃ r', deleteSubstr (squeeze line ++ 0 :: r) 0 sub =
            .ok (Machine.deleteSubstr sub (squeeze line) ++ 0 :: r') ∧
          maxStringLen ≤ (Machine.deleteSubstr sub (squeeze line) ++ 0 :: r').length := by
      intro sub hpos hle
      obtain ⟨r', -, hdel, hlen'⟩ := @deleteSubstr_front _ r sub hs hpos (by omega)
      exact ⟨r', hdel, by rw [hlen', htotal]; exact hbuf⟩
    by_cases hins : text "instructions" <:+: squeeze line
    · rw [if_pos hins, if_pos hins]
      obtain ⟨r', hdel, hlen'⟩ := hone (text "instructions") (by omega) (by omega)
      rw [hdel, ok_bind, stringAt_front (ne_zero_of_mem_deleteSubstr hs)]
      exact ⟨_, hlen', rfl⟩
    · rw [if_neg hins, if_neg hins]
      by_cases hcycles : text "cycles" <:+: squeeze line
      · rw [if_pos hcycles, if_pos hcycles]
        obtain ⟨r', hdel, hlen'⟩ := hone (text "cycles") (by omega) (by omega)
        rw [hdel, ok_bind, stringAt_front (ne_zero_of_mem_deleteSubstr hs)]
        exact ⟨_, hlen', rfl⟩
      · rw [if_neg hcycles, if_neg hcycles]
        exact ⟨_, by rw [htotal]; exact hbuf, rfl⟩

end Buffer

/-! ## Reading the report -/

theorem fgetsCalls_short {line : Bytes} (h : Short line) : fgetsCalls line = [line] := by
  rw [Short, length_names.2.1] at h
  rw [fgetsCalls, if_neg]
  have : maxStringLen = 1000 := rfl
  omega

/-- The sums of a report with short lines. -/
theorem perfLines_eq {lines : List Bytes} (h : ∀ line ∈ lines, (∀ c ∈ line, c ≠ 0) ∧ Short line)
    {buf : Bytes} (hbuf : maxStringLen ≤ buf.length) (sums : PerfSums) :
    perfLines (lines.flatMap fgetsCalls) buf sums =
      .ok (lines.foldl (fun sums line => perfEntry (squeeze line) sums) sums) := by
  induction lines generalizing buf sums with
  | nil => rfl
  | cons line lines ih =>
    obtain ⟨hline, hrest⟩ := List.forall_mem_cons.mp h
    obtain ⟨buf', hbuf', heq⟩ := perfLine_eq hbuf hline.1 hline.2 sums
    rw [List.flatMap_cons, fgetsCalls_short hline.2, List.singleton_append, perfLines, heq, ok_bind]
    exact ih hrest hbuf' _

section Names

variable {sub t digits : Bytes} {c : UInt8}

theorem deleteSubstr_cons (hc : c ∉ sub.head?) (hsub : sub ≠ []) :
    Machine.deleteSubstr sub (c :: t) = c :: Machine.deleteSubstr sub t := by
  obtain ⟨a, sub, rfl⟩ := List.exists_cons_of_ne_nil hsub
  have hca : c ≠ a := fun h => hc (by simp [h])
  rw [Machine.deleteSubstr, Machine.strMatch, if_pos hca]

theorem infix_cons_iff (hc : c ∉ sub.head?) (hsub : sub ≠ []) :
    sub <:+: c :: t ↔ sub <:+: t := by
  obtain ⟨a, sub, rfl⟩ := List.exists_cons_of_ne_nil hsub
  have hca : a ≠ c := fun h => hc (by simp [h])
  rw [List.infix_cons_iff, List.cons_prefix_cons]
  exact or_iff_right fun h => hca h.1

/-- A name does not begin with a digit, nor with `<`. -/
theorem name_head : ∀ e : PerfEvent, ∀ name ∈ e.names, name ≠ [] ∧
    ∀ c ∈ name.head?, isDigit c = false ∧ c ≠ 60 := by
  have hall : ∀ name ∈ [text "r0033", text "LLC-load-misses", text "instructions", text "cycles"],
      name ≠ [] ∧ ∀ c ∈ name.head?, isDigit c = false ∧ c ≠ 60 := by decide +kernel
  intro e name hname
  refine hall name ?_
  cases e <;> simp only [PerfEvent.names, List.mem_cons, List.not_mem_nil, or_false] at hname ⊢ <;>
    tauto

/-- A character that no name begins with. -/
def NoName (c : UInt8) : Prop := ∀ e : PerfEvent, ∀ name ∈ e.names, c ∉ name.head?

theorem noName_of_isDigit (h : isDigit c = true) : NoName c := by
  intro e name hname hc
  exact absurd h (by simp [((name_head e name hname).2 c hc).1])

theorem noName_less : NoName 60 := fun e name hname hc => ((name_head e name hname).2 60 hc).2 rfl

theorem strip_cons (hc : NoName c) (e : PerfEvent) : e.strip (c :: t) = c :: e.strip t := by
  have hfold : ∀ names : List Bytes, (∀ name ∈ names, c ∉ name.head? ∧ name ≠ []) → ∀ t : Bytes,
      names.foldl (fun s name => Machine.deleteSubstr name s) (c :: t) =
        c :: names.foldl (fun s name => Machine.deleteSubstr name s) t := by
    intro names
    induction names with
    | nil => exact fun _ _ => rfl
    | cons name names ih =>
      intro h t
      obtain ⟨hname, hrest⟩ := List.forall_mem_cons.mp h
      rw [List.foldl_cons, List.foldl_cons, deleteSubstr_cons hname.1 hname.2]
      exact ih hrest _
  exact hfold e.names (fun name hname => ⟨hc e name hname, (name_head e name hname).1⟩) t

theorem eventOf_cons (hc : NoName c) : eventOf (c :: t) = eventOf t := by
  have hiff : ∀ e : PerfEvent, ∀ name ∈ e.names, (name <:+: c :: t ↔ name <:+: t) :=
    fun e name hname => infix_cons_iff (hc e name hname) (name_head e name hname).1
  have h1 := hiff .cacheMiss (text "r0033") (by simp [PerfEvent.names])
  have h2 := hiff .cacheMiss (text "LLC-load-misses") (by simp [PerfEvent.names])
  have h3 := hiff .instructions (text "instructions") (by simp [PerfEvent.names])
  have h4 := hiff .cycles (text "cycles") (by simp [PerfEvent.names])
  simp only [eventOf, h1, h2, h3, h4]

theorem strip_digits (h : ∀ c ∈ digits, isDigit c = true) (e : PerfEvent) :
    e.strip (digits ++ t) = digits ++ e.strip t := by
  induction digits with
  | nil => rfl
  | cons c digits ih =>
    obtain ⟨hc, hrest⟩ := List.forall_mem_cons.mp h
    rw [List.cons_append, strip_cons (noName_of_isDigit hc), ih hrest, List.cons_append]

theorem eventOf_digits (h : ∀ c ∈ digits, isDigit c = true) :
    eventOf (digits ++ t) = eventOf t := by
  induction digits with
  | nil => rfl
  | cons c digits ih =>
    obtain ⟨hc, hrest⟩ := List.forall_mem_cons.mp h
    rw [List.cons_append, eventOf_cons (noName_of_isDigit hc), ih hrest]

end Names

/-- What is not in the way stays. -/
theorem squeeze_digits {digits : Bytes} (h : ∀ c ∈ digits, isDigit c = true) :
    squeeze (grouped digits) = digits := by
  have hkeep : ∀ c, isDigit c = true → ∀ s, squeeze (c :: s) = c :: squeeze s := by
    intro c hc s
    have hne : c ≠ 10 ∧ c ≠ 32 ∧ c ≠ 44 := by
      refine ⟨?_, ?_, ?_⟩ <;> (rintro rfl; exact absurd hc (by decide))
    simp [squeeze, hne]
  have hcomma : ∀ s, squeeze (44 :: s) = squeeze s := by
    intro s
    simp [squeeze]
  induction digits with
  | nil => rfl
  | cons c digits ih =>
    obtain ⟨hc, hrest⟩ := List.forall_mem_cons.mp h
    rw [grouped]
    split
    · rw [hkeep c hc, hcomma, ih hrest]
    · rw [hkeep c hc, ih hrest]

namespace PerfRow

variable (row : PerfRow)

theorem squeeze_print : squeeze row.print = decimal row.count ++ squeeze row.tail := by
  have hindent : squeeze (List.replicate row.indent 32) = [] := by
    rw [squeeze, List.filter_filter, List.filter_filter, List.filter_eq_nil_iff]
    intro c hc
    rw [List.eq_of_mem_replicate hc]
    decide
  have hend : squeeze [10] = [] := rfl
  rw [print, squeeze_append, squeeze_append, squeeze_append, hindent, hend,
    squeeze_digits (decimal_digits row.count).1, List.nil_append, List.append_nil]

/-- A row adds its count. -/
theorem entry (sums : PerfSums) :
    perfEntry (squeeze row.print) sums = sums.add (UInt64.ofNat row.count) row.event := by
  obtain ⟨hdigits, hvalue⟩ := decimal_digits row.count
  have hlt : digitsValue (decimal row.count) < 2 ^ 64 := by
    rw [hvalue]
    exact row.count_lt
  rw [perfEntry, row.squeeze_print, eventOf_digits hdigits, row.named]
  dsimp only
  rw [strip_digits hdigits, strtoul_digits (decimal_ne_nil _) hdigits row.behind hlt, hvalue]

end PerfRow

/-- Other lines add nothing. -/
theorem PerfNote.entry (note : PerfNote) (sums : PerfSums) :
    perfEntry (squeeze note.print) sums = sums := by
  rw [perfEntry]
  obtain hnone | hless := note.empty
  · rw [hnone]
  · cases hs : squeeze note.print with
    | nil =>
      rw [hs] at hless
      cases hless
    | cons c t =>
      rw [hs] at hless
      obtain rfl : c = 60 := Option.some.inj hless
      cases eventOf (60 :: t) with
      | none => rfl
      | some e =>
        have hzero : strtoul (60 :: e.strip t) 10 = 0 := rfl
        dsimp only
        rw [strip_cons noName_less, hzero]
        cases e <;> simp [PerfSums.add]

/-! ## The sums -/

/-- The sum for an event. -/
def PerfSums.of (sums : PerfSums) : PerfEvent → UInt64
  | .cacheMiss => sums.cacheMiss
  | .instructions => sums.ins
  | .cycles => sums.cycles

theorem PerfSums.of_add (sums : PerfSums) (n : UInt64) (e e' : PerfEvent) :
    (sums.add n e').of e = sums.of e + if e' = e then n else 0 := by
  cases e <;> cases e' <;> simp [PerfSums.add, PerfSums.of]

theorem ne_zero_of_mem_grouped {digits : Bytes} (h : ∀ c ∈ digits, isDigit c = true) :
    ∀ c ∈ grouped digits, c ≠ 0 := by
  induction digits with
  | nil => exact List.forall_mem_nil _
  | cons d digits ih =>
    obtain ⟨hd, hrest⟩ := List.forall_mem_cons.mp h
    have hdigits := ih hrest
    rw [grouped]
    split
    · exact List.forall_mem_cons.mpr
        ⟨ne_zero_of_isDigit hd, List.forall_mem_cons.mpr ⟨by decide, hdigits⟩⟩
    · exact List.forall_mem_cons.mpr ⟨ne_zero_of_isDigit hd, hdigits⟩

namespace PerfLine

theorem print_ne_zero : ∀ line : PerfLine, ∀ c ∈ line.print, c ≠ 0
  | note n => n.print_ne_zero
  | row r => by
    intro c hc
    simp only [print, PerfRow.print, List.mem_append, List.mem_singleton] at hc
    obtain ((hc | hc) | hc) | rfl := hc
    · rw [List.eq_of_mem_replicate hc]
      decide
    · exact ne_zero_of_mem_grouped (decimal_digits r.count).1 c hc
    · exact r.tail_ne_zero c hc
    · decide

/-- A line adds to the sum for an event what it has to say about it. -/
theorem of_entry (line : PerfLine) (sums : PerfSums) (e : PerfEvent) :
    (perfEntry (squeeze line.print) sums).of e =
      sums.of e + UInt64.ofNat (line.countOf e) := by
  cases line with
  | note n =>
    rw [print, n.entry, countOf]
    simp
  | row r =>
    rw [print, r.entry, PerfSums.of_add, countOf]
    split <;> simp

end PerfLine

theorem of_foldl (lines : List PerfLine) (sums : PerfSums) (e : PerfEvent) :
    ((lines.map PerfLine.print).foldl
      (fun sums line => perfEntry (squeeze line) sums) sums).of e =
      sums.of e + UInt64.ofNat (lines.map (PerfLine.countOf e)).sum := by
  induction lines generalizing sums with
  | nil => simp
  | cons line lines ih =>
    rw [List.map_cons, List.foldl_cons, ih, line.of_entry, List.map_cons, List.sum_cons,
      UInt64.ofNat_add, UInt64.add_assoc]

/-- **The report is read right**: the two quotients are those of the counts in it, each the sum of
what the report has for its event. -/
theorem perf_counts {m : Machine} {host : Host} {info : ℕ → UInt8} {perf : PerfHost} {arch : Int}
    {command : Bytes} (harch : getArch m host info = .ok arch)
    (hcommand : perfCommand arch = some command) (report : PerfReport)
    (hreport : perf.report command = some (report.lines.map PerfLine.print)) :
    perfDataRead m host info perf = .ok (RtnCode.success.code,
      [setDouble 8 (perf.quotient (UInt64.ofNat (report.total .cacheMiss))
          (UInt64.ofNat (report.total .instructions))),
        setDouble 0 (perf.quotient (UInt64.ofNat (report.total .instructions))
          (UInt64.ofNat (report.total .cycles)))]) := by
  have hlines : ∀ line ∈ report.lines.map PerfLine.print, (∀ c ∈ line, c ≠ 0) ∧ Short line := by
    intro text htext
    obtain ⟨line, hline, rfl⟩ := List.mem_map.mp htext
    exact ⟨line.print_ne_zero, report.short line hline⟩
  have hsums := of_foldl report.lines ⟨0, 0, 0⟩
  have hmiss := hsums .cacheMiss
  have hins := hsums .instructions
  have hcycles := hsums .cycles
  simp only [PerfSums.of, UInt64.zero_add] at hmiss hins hcycles
  rw [perfDataRead, harch, ok_bind, hcommand, Option.bind_some, hreport]
  dsimp only
  rw [perfLines_eq hlines host.length_staleBuf.ge, ok_bind, hmiss, hins, hcycles]
  rfl

/-! ### A report with two kinds of cores -/

/-- What stands behind a count: the name, in a column of its own, and a remark. -/
def perfTail (name remark : Bytes) : Bytes := List.replicate 6 32 ++ name ++ remark

def missTail : Bytes := perfTail (text "LLC-load-misses") []

def coreTail : Bytes :=
  perfTail (text "cpu_core/instructions/") (text "    #    0.50  insn per cycle")

def atomTail : Bytes :=
  perfTail (text "cpu_atom/instructions/") (text "    #    0.50  insn per cycle")

def cyclesTail : Bytes := perfTail (text "cycles") []

theorem tails_ne_zero : ∀ tail ∈ [missTail, coreTail, atomTail, cyclesTail], ∀ c ∈ tail, c ≠ 0 := by
  have hall : ∀ tail ∈ [missTail, coreTail, atomTail, cyclesTail], 0 ∉ tail := by decide +kernel
  exact fun tail htail c hc => ne_of_mem_of_not_mem hc (hall tail htail)

theorem tails_named : eventOf (squeeze missTail) = some .cacheMiss ∧
    eventOf (squeeze coreTail) = some .instructions ∧
    eventOf (squeeze atomTail) = some .instructions ∧
    eventOf (squeeze cyclesTail) = some .cycles := by decide +kernel

theorem tails_behind :
    (∀ c ∈ (PerfEvent.cacheMiss.strip (squeeze missTail)).head?, isDigit c = false) ∧
    (∀ c ∈ (PerfEvent.instructions.strip (squeeze coreTail)).head?, isDigit c = false) ∧
    (∀ c ∈ (PerfEvent.instructions.strip (squeeze atomTail)).head?, isDigit c = false) ∧
    ∀ c ∈ (PerfEvent.cycles.strip (squeeze cyclesTail)).head?, isDigit c = false := by
  decide +kernel

theorem counts_lt : 1000000 < 2 ^ 64 ∧ 1500000 < 2 ^ 64 ∧ 500000 < 2 ^ 64 ∧ 4000000 < 2 ^ 64 := by
  decide

def heading : Bytes := text "Performance counter stats:\n"
def notCounted : Bytes := List.replicate 5 32 ++ text "<not counted>      cpu_atom/cycles/\n"

theorem notes_ne_zero : ∀ note ∈ [heading, notCounted], ∀ c ∈ note, c ≠ 0 := by
  have hall : ∀ note ∈ [heading, notCounted], 0 ∉ note := by decide +kernel
  exact fun note hnote c hc => ne_of_mem_of_not_mem hc (hall note hnote)

theorem notes_empty : (eventOf (squeeze heading) = none ∨ (squeeze heading).head? = some 60) ∧
    (eventOf (squeeze notCounted) = none ∨ (squeeze notCounted).head? = some 60) := by
  decide +kernel

/-- Two kinds of cores, and no cycles of the second. -/
def hybridLines : List PerfLine :=
  [.note ⟨heading, notes_ne_zero _ (List.mem_cons_self ..), notes_empty.1⟩,
    .row ⟨9, 1000000, .cacheMiss, missTail, counts_lt.1, tails_ne_zero _ (by simp), tails_named.1,
      tails_behind.1⟩,
    .row ⟨9, 1500000, .instructions, coreTail, counts_lt.2.1, tails_ne_zero _ (by simp),
      tails_named.2.1, tails_behind.2.1⟩,
    .row ⟨11, 500000, .instructions, atomTail, counts_lt.2.2.1, tails_ne_zero _ (by simp),
      tails_named.2.2.1, tails_behind.2.2.1⟩,
    .row ⟨9, 4000000, .cycles, cyclesTail, counts_lt.2.2.2, tails_ne_zero _ (by simp),
      tails_named.2.2.2, tails_behind.2.2.2⟩,
    .note ⟨notCounted, notes_ne_zero _ (by simp), notes_empty.2⟩]

theorem hybridLines_short : ∀ line ∈ hybridLines, Short line.print := by decide +kernel

def hybridReport : PerfReport := ⟨hybridLines, hybridLines_short⟩

/-- Both quotients are a half. -/
def hybridHost : PerfHost where
  report := fun _ => some (hybridReport.lines.map PerfLine.print)
  quotient := fun _ _ => 0x3FE0000000000000

def x86Machine : Machine :=
  { Server.bareMachine with popen := fun _ => some [text "Architecture:        x86_64\n"] }

theorem x86Machine_arch : getArch x86Machine Server.emptyHost (fun _ => 0) = .ok 1 := by
  decide +kernel

theorem perf_counts_hybrid :
    perfDataRead x86Machine Server.emptyHost (fun _ => 0) hybridHost = .ok (RtnCode.success.code,
      [setDouble 8 0x3FE0000000000000, setDouble 0 0x3FE0000000000000]) ∧
      (hybridReport.total .cacheMiss, hybridReport.total .instructions,
        hybridReport.total .cycles) = (1000000, 2000000, 4000000) :=
  ⟨perf_counts x86Machine_arch rfl hybridReport rfl, by decide⟩

end PowerApi
