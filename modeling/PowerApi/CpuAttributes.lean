import PowerApi.CpuLines
import PowerApi.Leftovers

/-!
# The attributes of the CPU (`cpuservice.c`)

The label of the on-line list has `CPU(s)` in it, which stands in front of `On-line CPU`
in the table. So it is taken for the number of CPUs, for which it is too long, and nothing
is assigned. All other labels are taken for what they are. `stores_attributes_iff` is the
condition under which every value that `lscpu` prints ends up in its field.
-/

namespace PowerApi

open MemoryBlock

/-! ## Labels -/

/-- A label of `lscpu`. -/
inductive LscpuLabel where
  | architecture
  | modelName
  | byteOrder
  | cpus
  | onLineCpus
  | threadsPerCore
  | coresPerSocket
  | numaNodes
  | cpuMaxMhz
  | cpuMinMhz
  | numaNodeCpus (node : Fin maxNumaNodeNum)
  /-- a label that `PWR_CPU_Info` has no field for -/
  | other (name : Bytes)
  deriving DecidableEq

namespace LscpuLabel

/-- The label as it is printed. -/
def name : LscpuLabel → Bytes
  | architecture => text "Architecture"
  | modelName => text "Model name"
  | byteOrder => text "Byte Order"
  | cpus => text "CPU(s)"
  | onLineCpus => text "On-line CPU(s) list"
  | threadsPerCore => text "Thread(s) per core"
  | coresPerSocket => text "Core(s) per socket"
  | numaNodes => text "NUMA node(s)"
  | cpuMaxMhz => text "CPU max MHz"
  | cpuMinMhz => text "CPU min MHz"
  | numaNodeCpus node => text "NUMA node" ++ decimal node ++ text " CPU(s)"
  | other name => name

/-- What belongs into the fields of the attribute, with `value` behind the label. -/
def fields (host : Host) (value : Bytes) : LscpuLabel → List (Write UInt8)
  | architecture => [strCopy 0 value maxElementNameLen]
  | modelName => [strCopy 32 value maxNameLen]
  | byteOrder => [setInt 160 (if text "Little" <:+: value then 0 else 1)]
  | cpus => [setInt 164 (atoi value)]
  | onLineCpus => [strCopy 168 value maxCpuListLen]
  | threadsPerCore => [setInt 416 (atoi value)]
  | coresPerSocket => [setInt 420 (atoi value)]
  | cpuMaxMhz => [setDouble 424 (host.atof value)]
  | cpuMinMhz => [setDouble 432 (host.atof value)]
  | numaNodes => [setInt 440 (atoi value)]
  | numaNodeCpus node =>
    [setInt (444 + sizeofNumaInfo * node) node,
      strCopy (444 + sizeofNumaInfo * node + 4) value maxCpuListLen]
  | other _ => []

/-- The value is a list of CPUs. -/
def IsList : LscpuLabel → Prop
  | onLineCpus | numaNodeCpus _ => True
  | _ => False

/-- A label that is no attribute is not taken for one either. -/
def Proper : LscpuLabel → Prop
  | other name => getCpuArrId name = none ∨
      getCpuArrId name = some .cpuNumber ∧ name.length ≠ cpusWidth
  | _ => True

/-- What `CpuInfoCopy` assigns: the on-line list is left out. -/
def assigned (host : Host) (value : Bytes) : LscpuLabel → List (Write UInt8)
  | onLineCpus => []
  | label => label.fields host value

end LscpuLabel

/-- A line of `lscpu`, by its label. -/
structure AttributeLine extends LscpuLine where
  label : LscpuLabel
  named : name = label.name
  proper : label.Proper

/-- What `lscpu` prints: an attribute has one line. In front of a value there is room in
what one `fgets` takes, and a line is longer than that only if it is a list. -/
structure LscpuOutput where
  lines : List AttributeLine
  listed_once : lines.Pairwise fun a b => a.label = b.label → ∃ name, a.label = .other name
  fits : ∀ line ∈ lines, line.Fits ∧
    (line.print.length ≤ maxStringLen - 2 ∨ line.label.IsList)

/-- The calls of `fgets` on it. -/
def LscpuOutput.calls (out : LscpuOutput) : List Bytes :=
  out.lines.flatMap fun line => fgetsCalls line.print

/-- `CpuInfoRead` returns, and whatever was in the block, the fields of an attribute hold
the value of its line. -/
def StoresAttributes (m : Machine) (host : Host) (out : LscpuOutput) : Prop :=
  ∃ ws, cpuInfoRead m host = .ok (RtnCode.success.code, ws) ∧
    ∀ mem : ℕ → UInt8, ∀ line ∈ out.lines, ∀ w ∈ line.label.fields host line.value,
      region w.off w.data.length (fill ws mem) = w.data

/-! ## What the labels are taken for -/

theorem taken_numaNode : ∀ node : Fin maxNumaNodeNum,
    getCpuArrId (LscpuLabel.numaNodeCpus node).name = some .numaNode ∧
      nodeNumber (LscpuLabel.numaNodeCpus node).name = node := by
  decide +kernel

namespace LscpuLabel

/-- The entry of `cpuAttributes` that `GetCpuArrId` finds. -/
def taken : LscpuLabel → Option CpuAttType
  | architecture => some .arch
  | modelName => some .modelName
  | byteOrder => some .byteOr
  | cpus => some .cpuNumber
  | onLineCpus => some .cpuNumber
  | threadsPerCore => some .threadsPerCore
  | coresPerSocket => some .coresPerSocket
  | numaNodes => some .numaNumber
  | cpuMaxMhz => some .maxMhz
  | cpuMinMhz => some .minMhz
  | numaNodeCpus _ => some .numaNode
  | other name => getCpuArrId name

theorem getCpuArrId_name (label : LscpuLabel) : getCpuArrId label.name = label.taken := by
  cases label with
  | numaNodeCpus node => exact (taken_numaNode node).1
  | other name => rfl
  | architecture | modelName | byteOrder | cpus | onLineCpus | threadsPerCore | coresPerSocket
  | numaNodes | cpuMaxMhz | cpuMinMhz => decide +kernel

end LscpuLabel

/-- The number of a node is what stands in its label. -/
theorem copied_numaNode (host : Host) (value : Bytes) (node : Fin maxNumaNodeNum) :
    NodeFits (LscpuLabel.numaNodeCpus node).name ∧
      copied host (LscpuLabel.numaNodeCpus node).name value =
        (LscpuLabel.numaNodeCpus node).fields host value := by
  obtain ⟨htaken, hnumber⟩ := taken_numaNode node
  constructor
  · rw [NodeFits, nodeIndex, if_pos htaken, hnumber]
    intro j hj
    cases hj
    exact ⟨by omega, by omega⟩
  · rw [copied, htaken]
    dsimp only
    rw [hnumber]
    rfl

theorem nodeFits_of_ne {name : Bytes} (h : getCpuArrId name ≠ some .numaNode) : NodeFits name := by
  rw [NodeFits, nodeIndex, if_neg h]
  rintro j ⟨⟩

/-- Every label but that of the on-line list is taken for what it is. -/
theorem copied_label (host : Host) (value : Bytes) {label : LscpuLabel} (h : label.Proper) :
    NodeFits label.name ∧ copied host label.name value = label.assigned host value := by
  by_cases hnode : ∃ node, label = .numaNodeCpus node
  · obtain ⟨node, rfl⟩ := hnode
    exact copied_numaNode host value node
  have hne : label.taken ≠ some .numaNode := by
    cases label with
    | numaNodeCpus node => exact absurd ⟨node, rfl⟩ hnode
    | other name =>
      rw [LscpuLabel.taken]
      rcases h with hnone | ⟨hnumber, -⟩
      · rw [hnone]
        exact nofun
      · rw [hnumber]
        exact nofun
    | _ => exact nofun
  refine ⟨nodeFits_of_ne (label.getCpuArrId_name ▸ hne), ?_⟩
  rw [copied, LscpuLabel.getCpuArrId_name]
  cases label with
  | numaNodeCpus node => exact absurd ⟨node, rfl⟩ hnode
  | cpus =>
    have hwidth : LscpuLabel.cpus.name.length = cpusWidth := by decide +kernel
    rw [LscpuLabel.taken, if_pos hwidth]
    rfl
  | onLineCpus =>
    have hwidth : LscpuLabel.onLineCpus.name.length ≠ cpusWidth := by decide +kernel
    rw [LscpuLabel.taken, if_neg hwidth]
    rfl
  | other name =>
    rw [LscpuLabel.taken]
    rcases h with htaken | ⟨htaken, hwidth⟩
    · rw [htaken]
      rfl
    · have hwidth' : (LscpuLabel.other name).name.length ≠ cpusWidth := hwidth
      rw [htaken, if_neg hwidth']
      rfl
  | architecture | modelName | byteOrder | threadsPerCore | coresPerSocket | numaNodes
  | cpuMaxMhz | cpuMinMhz => rfl

/-- The fields of a list take a part of the value only. -/
theorem assigned_take (host : Host) {label : LscpuLabel} (h : label.IsList) {value rest : Bytes}
    (hlen : maxCpuListLen - 1 ≤ value.length) :
    label.assigned host (value ++ rest) = label.assigned host value := by
  have hcopy : ∀ off, strCopy off (value ++ rest) maxCpuListLen = strCopy off value maxCpuListLen :=
    fun off => by rw [strCopy, strCopy, List.take_append_of_le_length hlen]
  cases label with
  | onLineCpus => rfl
  | numaNodeCpus node =>
    simp only [LscpuLabel.assigned, LscpuLabel.fields]
    rw [hcopy]
  | architecture | modelName | byteOrder | cpus | threadsPerCore | coresPerSocket | numaNodes
  | cpuMaxMhz | cpuMinMhz | other name => exact h.elim

/-- So it does not matter where the line is cut. -/
theorem assigned_seen (host : Host) {line : AttributeLine} (hfits : line.Fits)
    (hlist : line.print.length ≤ maxStringLen - 2 ∨ line.label.IsList) :
    line.label.assigned host line.seen = line.label.assigned host line.value := by
  rcases Nat.lt_or_ge (maxStringLen - 2) line.print.length with hlong | hshort
  · obtain ⟨last, rest, hvalue, -, hpart, -⟩ := exists_split hfits hlong
    conv_rhs => rw [hvalue]
    exact (assigned_take host (hlist.resolve_left (not_le.mpr hlong)) hpart).symm
  · rw [seen_of_short hshort]

/-! ## The fields of the block -/

namespace LscpuLabel

/-- Where the fields of the attribute begin, and how many bytes they have. -/
def extent : LscpuLabel → ℕ × ℕ
  | architecture => (0, 32)
  | modelName => (32, 128)
  | byteOrder => (160, 4)
  | cpus => (164, 4)
  | onLineCpus => (168, 248)
  | threadsPerCore => (416, 4)
  | coresPerSocket => (420, 4)
  | cpuMaxMhz => (424, 8)
  | cpuMinMhz => (432, 8)
  | numaNodes => (440, 4)
  | numaNodeCpus node => (444 + sizeofNumaInfo * node, sizeofNumaInfo)
  | other _ => (sizeofCpuInfo, 0)

theorem extent_disjoint {a b : LscpuLabel} (h : a ≠ b) :
    a.extent.1 + a.extent.2 ≤ b.extent.1 ∨ b.extent.1 + b.extent.2 ≤ a.extent.1 := by
  cases a <;> cases b <;> simp_all [extent, sizeofNumaInfo, sizeofCpuInfo, maxNumaNodeNum] <;>
    omega

/-- What is assigned for an attribute is in its fields. -/
theorem fields_extent (host : Host) (value : Bytes) {label : LscpuLabel} {w : Write UInt8}
    (h : w ∈ label.fields host value) :
    label.extent.1 ≤ w.off ∧ w.off + w.data.length ≤ label.extent.1 + label.extent.2 := by
  have hcopy : ∀ off size, 0 < size → off + (strCopy off value size).data.length ≤ off + size :=
    fun off size hpos => by rw [length_strCopy]; omega
  cases label with
  | architecture | modelName | onLineCpus =>
    rw [List.mem_singleton.mp h]
    exact ⟨le_rfl, hcopy _ _ (by decide)⟩
  | byteOrder | cpus | threadsPerCore | coresPerSocket | numaNodes | cpuMaxMhz | cpuMinMhz =>
    rw [List.mem_singleton.mp h]
    exact ⟨le_rfl, le_rfl⟩
  | numaNodeCpus node =>
    rcases List.mem_cons.mp h with rfl | h
    · exact ⟨le_rfl, Nat.add_le_add_left (show 4 ≤ 252 by decide) _⟩
    · rw [List.mem_singleton.mp h]
      exact ⟨Nat.le_add_right _ _, (hcopy _ _ (by decide)).trans_eq (Nat.add_assoc ..)⟩
  | other name => cases h

end LscpuLabel

/-- No cell of the one is assigned by the other. -/
def Apart (w v : Write UInt8) : Prop := ∀ i < w.data.length, ¬ v.Covers (w.off + i)

theorem apart_of_disjoint {w v : Write UInt8}
    (h : w.off + w.data.length ≤ v.off ∨ v.off + v.data.length ≤ w.off) : Apart w v := by
  intro i hi hcovers
  have hlo := hcovers.1
  have hhi := hcovers.2
  omega

/-- Fields of different attributes are apart. -/
theorem fields_apart {host : Host} {a b : LscpuLabel} (h : a ≠ b) {value value' : Bytes}
    {w v : Write UInt8} (hw : w ∈ a.fields host value) (hv : v ∈ b.fields host value') :
    Apart w v := by
  have hwin := LscpuLabel.fields_extent host value hw
  have hvin := LscpuLabel.fields_extent host value' hv
  have hdisjoint := LscpuLabel.extent_disjoint h
  refine apart_of_disjoint ?_
  omega

/-- So are the two of a node. -/
theorem fields_pairwise (host : Host) (value : Bytes) (label : LscpuLabel) :
    (label.fields host value).Pairwise Apart := by
  cases label with
  | numaNodeCpus node =>
    refine List.pairwise_pair.mpr (apart_of_disjoint (.inl ?_))
    exact le_rfl
  | other name => exact .nil
  | architecture | modelName | byteOrder | cpus | onLineCpus | threadsPerCore | coresPerSocket
  | numaNodes | cpuMaxMhz | cpuMinMhz => exact List.pairwise_singleton _ _

theorem mem_fields_of_assigned {host : Host} {value : Bytes} {label : LscpuLabel}
    {w : Write UInt8} (h : w ∈ label.assigned host value) :
    w ∈ label.fields host value ∧ label ≠ .onLineCpus := by
  cases label with
  | onLineCpus => cases h
  | _ => exact ⟨h, nofun⟩

theorem assigned_eq {host : Host} {value : Bytes} {label : LscpuLabel} (h : label ≠ .onLineCpus) :
    label.assigned host value = label.fields host value := by
  cases label with
  | onLineCpus => exact absurd rfl h
  | _ => rfl

/-- All that `CpuInfoRead` assigns. -/
def LscpuOutput.assigned (out : LscpuOutput) (host : Host) : List (Write UInt8) :=
  out.lines.flatMap fun line => line.label.assigned host line.value

theorem assigned_pairwise (out : LscpuOutput) (host : Host) :
    (out.assigned host).Pairwise Apart := by
  rw [LscpuOutput.assigned, List.pairwise_flatMap]
  refine ⟨fun line _ => ?_, out.listed_once.imp fun {a b} hab w hw v hv => ?_⟩
  · by_cases hlabel : line.label = .onLineCpus
    · rw [hlabel]
      exact .nil
    · rw [assigned_eq hlabel]
      exact fields_pairwise host _ _
  · refine fields_apart (fun heq => ?_) (mem_fields_of_assigned hw).1 (mem_fields_of_assigned hv).1
    obtain ⟨name, hname⟩ := hab heq
    rw [hname] at hw
    cases hw

/-! ## The whole output -/

/-- Nothing goes wrong on the way but with a line that is too long. -/
theorem runLines_output (host : Host) (b : UInt8) {lines : List AttributeLine}
    (hfits : ∀ line ∈ lines, line.Fits ∧
      (line.print.length ≤ maxStringLen - 2 ∨ line.label.IsList)) :
    (runLines host b (lines.map AttributeLine.toLscpuLine)).2 =
      if (∃ line ∈ lines, line.Long) ∧ b ≠ 0 then .error .overrun
      else .ok (lines.flatMap fun line => line.label.assigned host line.value) := by
  induction lines with
  | nil => exact (if_neg fun h => List.not_mem_nil h.1.choose_spec.1).symm
  | cons line lines ih =>
    obtain ⟨⟨hline, hlist⟩, hlines⟩ := List.forall_mem_cons.mp hfits
    obtain ⟨hnode, hcopied⟩ := copied_label host line.seen line.proper
    rw [← line.named] at hnode hcopied
    rw [List.map_cons, runLines, hcopied, assigned_seen host hline hlist]
    by_cases hlong : line.Long ∧ b ≠ 0
    · have hpasses : ¬ line.Passes b := fun h => h.2 hlong
      rw [if_neg hpasses, if_pos ⟨⟨line, List.mem_cons_self, hlong.1⟩, hlong.2⟩]
    · have hpasses : line.Passes b := ⟨hnode, hlong⟩
      have hiff : (∃ l ∈ line :: lines, l.Long) ∧ b ≠ 0 ↔ (∃ l ∈ lines, l.Long) ∧ b ≠ 0 := by
        refine and_congr_left fun hb => ?_
        exact (List.exists_mem_cons_iff _ _ _).trans (or_iff_right fun h => hlong ⟨h, hb⟩)
      rw [if_pos hpasses, NumaTrace.after, ih hlines, if_congr hiff rfl rfl]
      split <;> rfl

/-- What `CpuInfoRead` does with an output. -/
theorem cpuInfoRead_output {m : Machine} (host : Host) {out : LscpuOutput}
    (hm : m.popen lscpu = some out.calls) :
    cpuInfoRead m host =
      if (∃ line ∈ out.lines, line.Long) ∧ host.lastChar ≠ 0 then .error .overrun
      else .ok (RtnCode.success.code, out.assigned host) := by
  have hfits : ∀ line ∈ out.lines.map AttributeLine.toLscpuLine, line.Fits := by
    intro line hline
    obtain ⟨line', hline', rfl⟩ := List.mem_map.mp hline
    exact (out.fits line' hline').1
  have hcalls : out.calls = (out.lines.map AttributeLine.toLscpuLine).flatMap fun line =>
      fgetsCalls line.print := by
    rw [List.flatMap_map]
    rfl
  rw [cpuInfoRead_lines host hfits (hm.trans (congrArg some hcalls)),
    runLines_output host host.lastChar out.fits]
  split <;> rfl

/-- Nothing is assigned to the on-line list. -/
theorem onLineList_kept {host : Host} {out : LscpuOutput} (mem : ℕ → UInt8) {i : ℕ}
    (hlo : 168 ≤ i) (hhi : i < 416) : fill (out.assigned host) mem i = mem i := by
  refine fill_of_not_covered (fun w hw hcovers => ?_) mem
  obtain ⟨line, -, hw⟩ := List.mem_flatMap.mp hw
  obtain ⟨hfield, hlabel⟩ := mem_fields_of_assigned hw
  have hin := LscpuLabel.fields_extent host line.value hfield
  have hdisjoint : line.label.extent.1 + line.label.extent.2 ≤ 168 ∨
      168 + 248 ≤ line.label.extent.1 := LscpuLabel.extent_disjoint hlabel
  have hge := hcovers.1
  have hlt := hcovers.2
  omega

theorem onLineList_not_stored {host : Host} {out : LscpuOutput} {line : AttributeLine}
    (hlabel : line.label = .onLineCpus)
    (h : ∀ mem : ℕ → UInt8, ∀ w ∈ line.label.fields host line.value,
      region w.off w.data.length (fill (out.assigned host) mem) = w.data) : False := by
  rw [hlabel] at h
  have hwrite := List.mem_singleton_self (strCopy 168 line.value maxCpuListLen)
  obtain ⟨c, cs, hdata⟩ := List.exists_cons_of_ne_nil
    (List.concat_ne_nil 0 (line.value.take (maxCpuListLen - 1)))
  have hstored := h (fun _ => c + 1) _ hwrite
  rw [strCopy, hdata] at hstored
  have hcell : fill (out.assigned host) (fun _ => c + 1) 168 = c := by
    have hhead := congrArg List.head? hstored
    rw [region, List.length_cons, List.range_succ_eq_map] at hhead
    exact Option.some.inj hhead
  rw [onLineList_kept _ le_rfl (by decide)] at hcell
  exact absurd hcell (by simp)

/-- A list of the CPUs that are on line is printed, and is not stored. -/
theorem not_listed_of_stored {m : Machine} {host : Host} {out : LscpuOutput}
    (hm : m.popen lscpu = some out.calls) (h : StoresAttributes m host out) :
    ∀ line ∈ out.lines, line.label ≠ .onLineCpus := by
  intro line hline hlabel
  obtain ⟨ws, hws, hstored⟩ := h
  rw [cpuInfoRead_output host hm] at hws
  split at hws
  · cases hws
  · cases hws
    exact onLineList_not_stored hlabel fun mem => hstored mem line hline

/-- Every value is stored if and only if the on-line list is not listed and no list comes
in three pieces, or the character behind what `fgets` writes is zero by chance. -/
theorem stores_attributes_iff (m : Machine) (host : Host) (out : LscpuOutput)
    (hm : m.popen lscpu = some out.calls) :
    StoresAttributes m host out ↔ (∀ line ∈ out.lines, line.label ≠ .onLineCpus) ∧
      ((∀ line ∈ out.lines, ¬ line.Long) ∨ host.lastChar = 0) := by
  have hlong : ((∀ line ∈ out.lines, ¬ line.Long) ∨ host.lastChar = 0) ↔
      ¬ ((∃ line ∈ out.lines, line.Long) ∧ host.lastChar ≠ 0) := by
    rw [not_and_or, not_ne_iff]
    exact or_congr_left ⟨fun h => fun ⟨line, hline, hl⟩ => h line hline hl,
      fun h line hline hl => h ⟨line, hline, hl⟩⟩
  rw [hlong]
  constructor
  · refine fun h => ⟨not_listed_of_stored hm h, fun hfault => ?_⟩
    rw [StoresAttributes, cpuInfoRead_output host hm, if_pos hfault] at h
    obtain ⟨ws, hws, -⟩ := h
    cases hws
  · rintro ⟨hlisted, hfault⟩
    rw [StoresAttributes, cpuInfoRead_output host hm, if_neg hfault]
    refine ⟨_, rfl, fun mem line hline w hw => ?_⟩
    refine region_fill_of_pairwise (assigned_pairwise out host) ?_ mem
    rw [← assigned_eq (hlisted line hline)] at hw
    exact List.mem_flatMap.mpr ⟨line, hline, hw⟩

/-- A machine whose `lscpu` prints this. -/
def lscpuMachine (out : LscpuOutput) : Machine :=
  { Server.bareMachine with popen := fun _ => some out.calls }

/-- A line without indentation. -/
def plainLine (name value : Bytes)
    (hname : (∀ c ∈ name, c ≠ 0 ∧ c ≠ 10 ∧ c ≠ 58) ∧ name.takeWhile isSpace = [] ∧ name ≠ [])
    (hvalue : (∀ c ∈ value, c ≠ 0 ∧ c ≠ 10) ∧ value.takeWhile isSpace = []) : LscpuLine where
  name := name
  indent := []
  padding := [32]
  value := value
  name_chars := hname.1
  name_trimmed := hname.2.1
  name_ne_nil := hname.2.2
  indent_spaces := nofun
  padding_spaces := fun _ hc => List.mem_singleton.mp hc
  value_chars := hvalue.1
  value_trimmed := hvalue.2

/-- A line with one of the labels. -/
def labelLine (label : LscpuLabel) (value : Bytes) (hproper : label.Proper)
    (hname : (∀ c ∈ label.name, c ≠ 0 ∧ c ≠ 10 ∧ c ≠ 58) ∧
      label.name.takeWhile isSpace = [] ∧ label.name ≠ [])
    (hvalue : (∀ c ∈ value, c ≠ 0 ∧ c ≠ 10) ∧ value.takeWhile isSpace = []) : AttributeLine :=
  ⟨plainLine label.name value hname hvalue, label, rfl, hproper⟩

/-- The lines of a machine with four CPUs. -/
def fourCpuLines : List AttributeLine :=
  [labelLine .architecture (text "x86_64") trivial (by decide +kernel) (by decide +kernel),
    labelLine .byteOrder (text "Little Endian") trivial (by decide +kernel) (by decide +kernel),
    labelLine .cpus (text "4") trivial (by decide +kernel) (by decide +kernel),
    labelLine .onLineCpus (text "0-3") trivial (by decide +kernel) (by decide +kernel),
    labelLine .threadsPerCore (text "1") trivial (by decide +kernel) (by decide +kernel),
    labelLine .coresPerSocket (text "4") trivial (by decide +kernel) (by decide +kernel),
    labelLine .numaNodes (text "1") trivial (by decide +kernel) (by decide +kernel),
    labelLine .modelName (text "Some Processor") trivial (by decide +kernel) (by decide +kernel),
    labelLine .cpuMaxMhz (text "3000.0000") trivial (by decide +kernel) (by decide +kernel),
    labelLine .cpuMinMhz (text "800.0000") trivial (by decide +kernel) (by decide +kernel),
    labelLine (.numaNodeCpus ⟨0, by decide⟩) (text "0-3") trivial (by decide +kernel)
      (by decide +kernel)]

theorem fourCpu_fits : ∀ line ∈ fourCpuLines,
    line.front.length + maxCpuListLen < maxStringLen - 1 ∧
      line.print.length ≤ maxStringLen - 2 := by
  decide +kernel

theorem fourCpu_labels : fourCpuLines.Pairwise fun a b => a.label ≠ b.label := by
  decide +kernel

def fourCpuOutput : LscpuOutput where
  lines := fourCpuLines
  listed_once := fourCpu_labels.imp fun hne heq => absurd heq hne
  fits := fun line hline =>
    have h := fourCpu_fits line hline
    ⟨⟨h.1, .inl h.2⟩, .inl h.2⟩

theorem stores_attributes_iff_fourCpu :
    StoresAttributes (lscpuMachine fourCpuOutput) Server.emptyHost fourCpuOutput ↔
      (∀ line ∈ fourCpuOutput.lines, line.label ≠ .onLineCpus) ∧
        ((∀ line ∈ fourCpuOutput.lines, ¬ line.Long) ∨ Server.emptyHost.lastChar = 0) :=
  stores_attributes_iff (lscpuMachine fourCpuOutput) Server.emptyHost fourCpuOutput rfl

/-- The list of the CPUs that are on line is not stored. -/
theorem fourCpu_not_stored :
    ¬ StoresAttributes (lscpuMachine fourCpuOutput) Server.emptyHost fourCpuOutput := by
  intro h
  exact not_listed_of_stored rfl h (labelLine .onLineCpus (text "0-3") trivial (by decide +kernel)
    (by decide +kernel)) (.tail _ (.tail _ (.tail _ (.head _)))) rfl

end PowerApi
