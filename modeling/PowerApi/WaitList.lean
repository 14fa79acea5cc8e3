import PowerApi.Links

/-!
# The list of waiting calls (`pwrbuffer.c`, list part)

`ResultWaitingMsgList` links the calls that wait for a response. The functions
are those of the source on the pointers of the nodes; what a node holds besides
(the request, the response) is looked at through a test. A function that would
dereference NULL, or walk for ever, gives `none`.

On a list in order each of them does what its name says. They are also called on
nodes that are not in the list any more: there `moveFromList` goes wrong.
-/

namespace PowerApi

universe u

variable {ι : Type u} [DecidableEq ι]

/-- `AddToWaitingListTail`. -/
def addToWaitingListTail (rwm : DList ι) (newNode : ι) : DList ι :=
  match rwm.tail, rwm.head with
  | some tail, some head =>
    { head := some head
      tail := some newNode
      prev := Function.update rwm.prev newNode (some tail)
      next := Function.update (Function.update rwm.next newNode none) tail (some newNode) }
  | _, _ => -- first node
    { head := some newNode
      tail := some newNode
      prev := Function.update rwm.prev newNode none
      next := Function.update rwm.next newNode none }

/-- `node->next = NULL; node->prev = NULL`. -/
def clearLinks (rwm : DList ι) (node : ι) : DList ι :=
  { rwm with
    next := Function.update rwm.next node none
    prev := Function.update rwm.prev node none }

/-- `MoveFromList`, up to the clearing of the node's own pointers. -/
def bridgeNode (rwm : DList ι) (node : ι) : Option (DList ι) :=
  if some node = rwm.head ∧ rwm.head = rwm.tail then
    some { rwm with head := none, tail := none }
  else if some node = rwm.head then
    (rwm.next node).map fun n =>
      { rwm with head := some n, prev := Function.update rwm.prev n none }
  else if some node = rwm.tail then
    (rwm.prev node).map fun p =>
      { rwm with tail := some p, next := Function.update rwm.next p none }
  else
    (rwm.prev node).bind fun p => (rwm.next node).map fun n =>
      { rwm with
        next := Function.update rwm.next p (some n)
        prev := Function.update rwm.prev n (some p) }

/-- `MoveFromList`. -/
def moveFromList (rwm : DList ι) (node : ι) : Option (DList ι) :=
  (bridgeNode rwm node).map fun rwm => clearLinks rwm node

/-- `FindAndMoveWaitingMsg`, with the test for the node that is looked for. -/
def findAndMoveWaitingMsg (fuel : ℕ) (rwm : DList ι) (test : ι → Bool) :
    Option (Option ι × DList ι) :=
  (rwm.search test fuel rwm.head).bind fun
    | none => some (none, rwm)
    | some pc => (moveFromList rwm pc).map fun rwm => (some pc, rwm)

/-- The locked part of `MoveOutWaitingMsg`, which starts from the head as it was read
before. -/
def moveOutWaitingMsg (fuel : ℕ) (rwm : DList ι) (head : Option ι) (node : ι) :
    Option (DList ι) :=
  (rwm.search (fun pc => pc = node) fuel head).bind fun
    | none => some rwm
    | some pc => moveFromList rwm pc

variable {rwm : DList ι} {ws xs ys : List ι} {node : ι}

/-- A new node goes behind the others. -/
theorem addToWaitingListTail_repr (h : rwm.Repr ws) (hnew : node ∉ ws) :
    (addToWaitingListTail rwm node).Repr (ws ++ [node]) := by
  have hhead := h.head
  have htail := h.tail
  unfold addToWaitingListTail
  cases ws with
  | nil =>
    rw [htail, hhead]
    exact h.link hnew rfl rfl (by simp) (by simp)
  | cons w ws =>
    obtain ⟨t, ht⟩ : ∃ t, (w :: ws).getLast? = some t :=
      ⟨_, List.getLast?_eq_getLast_of_ne_nil (List.cons_ne_nil w ws)⟩
    have htne : t ≠ node := fun heq => hnew (heq ▸ List.mem_of_getLast? ht)
    rw [htail, hhead, ht, List.head?_cons]
    refine h.link hnew rfl rfl (fun y _ => ?_) fun y _ => ?_
    all_goals dsimp only
    · by_cases hy : y = node
      · rw [if_pos hy, hy, Function.update_of_ne htne.symm, Function.update_self]
      · by_cases hyt : y = t
        · rw [if_neg hy, if_pos (hyt ▸ ht), hyt, Function.update_self]
        · rw [if_neg hy, if_neg (fun hlast => hyt (Option.some.inj (hlast.symm.trans ht))),
            Function.update_of_ne hyt, Function.update_of_ne hy]
    · by_cases hy : y = node
      · rw [if_pos hy, hy, Function.update_self, ht]
      · rw [if_neg hy, Function.update_of_ne hy]

/-- Clearing the pointers of a node that is not in the list. -/
theorem clearLinks_repr (h : rwm.Repr ws) (hout : node ∉ ws) : (clearLinks rwm node).Repr ws := by
  refine ⟨h.nodup, h.head, h.tail, h.seg.congr fun y hy => ?_⟩
  have hne : y ≠ node := fun heq => hout (heq ▸ hy)
  exact ⟨Function.update_of_ne hne .., Function.update_of_ne hne ..⟩

/-- Linking the neighbours of a node to each other takes it out of the list. -/
theorem bridgeNode_repr (h : rwm.Repr (xs ++ node :: ys)) :
    ∃ rwm', bridgeNode rwm node = some rwm' ∧ rwm'.Repr (xs ++ ys) ∧
      ∀ y, y ∉ xs ++ ys → rwm'.next y = rwm.next y := by
  obtain ⟨hprev, hnext⟩ := h.around
  have hnodup := List.nodup_middle.mp h.nodup
  have hout : node ∉ xs ++ ys := (List.nodup_cons.mp hnodup).1
  -- the node is the head, or the tail, exactly if nothing is before it, or behind it
  have hhead : some node = rwm.head ↔ xs = [] := by
    rw [h.head]
    cases xs with
    | nil => simp
    | cons x xs => simpa using fun heq : node = x => hout (by simp [heq])
  have htail : some node = rwm.tail ↔ ys = [] := by
    rw [h.tail]
    cases ys using List.reverseRecOn with
    | nil => simp
    | append_singleton ys y =>
      rw [← List.cons_append, ← List.append_assoc, List.getLast?_concat]
      simpa using fun heq : node = y => hout (by simp [heq])
  unfold bridgeNode
  cases xs with
  | nil =>
    cases ys with
    | nil =>
      rw [if_pos ⟨hhead.mpr rfl, (hhead.mpr rfl).symm.trans (htail.mpr rfl)⟩]
      exact ⟨_, rfl, h.unlink rfl rfl nofun nofun, fun _ _ => rfl⟩
    | cons v ys =>
      rw [if_neg fun hand => absurd (htail.mp (hand.1.trans hand.2)) (List.cons_ne_nil v ys),
        if_pos (hhead.mpr rfl), hnext]
      refine ⟨_, rfl, h.unlink rfl ?_ (by simp) fun y _ => ?_, fun _ _ => rfl⟩
      · rw [h.tail]
        rfl
      · dsimp only
        by_cases hy : y = v
        · rw [hy, Function.update_self, if_pos List.head?_cons]
          rfl
        · rw [Function.update_of_ne hy, if_neg (by simpa using Ne.symm hy)]
  | cons x xs =>
    have hnothead : ¬ some node = rwm.head := fun heq =>
      absurd (hhead.mp heq) (List.cons_ne_nil x xs)
    obtain ⟨p, hp⟩ : ∃ p, (x :: xs).getLast? = some p :=
      ⟨_, List.getLast?_eq_getLast_of_ne_nil (List.cons_ne_nil x xs)⟩
    have hpne : ∀ {ys : List ι}, ∀ y, y ∉ x :: xs ++ ys → y ≠ p := fun y hy heq =>
      hy (List.mem_append_left _ (heq ▸ List.mem_of_getLast? hp))
    rw [if_neg fun hand => hnothead hand.1, if_neg hnothead, hprev, hp]
    cases ys with
    | nil =>
      rw [if_pos (htail.mpr rfl)]
      refine ⟨_, rfl, h.unlink ?_ (by rw [List.append_nil, hp]) (fun y _ => ?_) (by simp),
        fun y hy => Function.update_of_ne (hpne y hy) ..⟩
      · rw [h.head]
        rfl
      · dsimp only
        by_cases hy : y = p
        · rw [hy, Function.update_self, if_pos hp]
          rfl
        · rw [Function.update_of_ne hy, if_neg]
          rw [hp]
          exact fun heq => hy (Option.some.inj heq).symm
    | cons v ys =>
      rw [if_neg fun heq => absurd (htail.mp heq) (List.cons_ne_nil v ys), hnext]
      refine ⟨_, rfl, h.unlink ?_ ?_ (fun y _ => ?_) fun y _ => ?_,
        fun y hy => Function.update_of_ne (hpne y hy) ..⟩
      · rw [h.head]
        rfl
      · rw [h.tail, List.getLast?_append, List.getLast?_append, List.getLast?_cons_cons]
      · dsimp only
        by_cases hy : y = p
        · rw [hy, Function.update_self, if_pos hp]
          rfl
        · rw [Function.update_of_ne hy, if_neg]
          rw [hp]
          exact fun heq => hy (Option.some.inj heq).symm
      · dsimp only
        by_cases hy : y = v
        · rw [hy, Function.update_self, if_pos List.head?_cons, hp]
        · rw [Function.update_of_ne hy, if_neg (by simpa using Ne.symm hy)]

/-- A node in the list is taken out, and no pointer of it is left. -/
theorem moveFromList_repr (h : rwm.Repr ws) (hnode : node ∈ ws) :
    ∃ rwm', moveFromList rwm node = some rwm' ∧ rwm'.Repr (ws.erase node) ∧
      rwm'.next node = none ∧ rwm'.prev node = none ∧ ∀ y, y ∉ ws → rwm'.next y = rwm.next y := by
  obtain ⟨xs, ys, rfl⟩ := List.append_of_mem hnode
  obtain ⟨hout, -⟩ := List.nodup_cons.mp (List.nodup_middle.mp h.nodup)
  have hxs : node ∉ xs := fun hx => hout (List.mem_append_left _ hx)
  rw [List.erase_append_right _ hxs, List.erase_cons_head]
  obtain ⟨rwm', heq, hrepr, hsame⟩ := bridgeNode_repr h
  refine ⟨clearLinks rwm' node, by rw [moveFromList, heq]; rfl, clearLinks_repr hrepr hout,
    Function.update_self .., Function.update_self .., fun y hy => ?_⟩
  have hyn : y ≠ node := fun heq => hy (heq ▸ hnode)
  exact (Function.update_of_ne hyn ..).trans (hsame y fun hmem => hy (by
    simpa [hyn] using hmem))

theorem moveFromList_tidy (h : rwm.Tidy ws) (hnode : node ∈ ws) :
    ∃ rwm', moveFromList rwm node = some rwm' ∧ rwm'.Tidy (ws.erase node) := by
  obtain ⟨rwm', heq, hrepr, hnext, -, hsame⟩ := moveFromList_repr h.toRepr hnode
  refine ⟨rwm', heq, hrepr, fun y hy => ?_⟩
  by_cases hyn : y = node
  · rwa [hyn]
  · have hyws : y ∉ ws := fun hmem => hy ((List.mem_erase_of_ne hyn).mpr hmem)
    exact (hsame y hyws).trans (h.next_out y hyws)

theorem addToWaitingListTail_tidy (h : rwm.Tidy ws) (hnew : node ∉ ws) :
    (addToWaitingListTail rwm node).Tidy (ws ++ [node]) := by
  refine ⟨addToWaitingListTail_repr h.toRepr hnew, fun y hy => ?_⟩
  simp only [List.mem_append, List.mem_singleton, not_or] at hy
  have hold := h.next_out y hy.1
  unfold addToWaitingListTail
  cases htail : rwm.tail with
  | none => exact (Function.update_of_ne hy.2 ..).trans hold
  | some t =>
    cases rwm.head with
    | none => exact (Function.update_of_ne hy.2 ..).trans hold
    | some w =>
      have hyt : y ≠ t := fun heq => hy.1 (heq ▸ List.mem_of_getLast? (h.tail.symm.trans htail))
      exact (Function.update_of_ne hyt ..).trans ((Function.update_of_ne hy.2 ..).trans hold)

theorem clearLinks_tidy (h : rwm.Tidy ws) (hout : node ∉ ws) : (clearLinks rwm node).Tidy ws := by
  refine ⟨clearLinks_repr h.toRepr hout, fun y hy => ?_⟩
  by_cases hyn : y = node
  · rw [hyn]
    exact Function.update_self ..
  · exact (Function.update_of_ne hyn ..).trans (h.next_out y hy)

/-- The node that is looked for is the first that passes. -/
theorem findAndMoveWaitingMsg_eq (h : rwm.Repr ws) (test : ι → Bool) {fuel : ℕ}
    (hfuel : ws.length ≤ fuel) :
    findAndMoveWaitingMsg fuel rwm test = match ws.find? test with
      | none => some (none, rwm)
      | some pc => (moveFromList rwm pc).map fun rwm => (some pc, rwm) := by
  have hsearch : rwm.search test fuel rwm.head = some (ws.find? test) := by
    rw [h.head]
    exact h.search [] ws test hfuel
  rw [findAndMoveWaitingMsg, hsearch, Option.bind_some]

/-- And it is taken out. -/
theorem findAndMoveWaitingMsg_tidy (h : rwm.Tidy ws) (test : ι → Bool) {fuel : ℕ}
    (hfuel : ws.length ≤ fuel) :
    (ws.find? test = none ∧ findAndMoveWaitingMsg fuel rwm test = some (none, rwm)) ∨
    ∃ pc rwm', ws.find? test = some pc ∧
      findAndMoveWaitingMsg fuel rwm test = some (some pc, rwm') ∧ rwm'.Tidy (ws.erase pc) := by
  rw [findAndMoveWaitingMsg_eq h.toRepr test hfuel]
  cases hfind : ws.find? test with
  | none => exact .inl ⟨rfl, rfl⟩
  | some pc =>
    obtain ⟨rwm', hmove, htidy⟩ := moveFromList_tidy h (List.mem_of_find?_eq_some hfind)
    exact .inr ⟨pc, rwm', rfl, by dsimp only; rw [hmove]; rfl, htidy⟩

/-- A walk from the head finds the node if it is there. -/
theorem moveOutWaitingMsg_eq (h : rwm.Repr ws) (node : ι) {fuel : ℕ}
    (hfuel : ws.length ≤ fuel) :
    moveOutWaitingMsg fuel rwm rwm.head node =
      if node ∈ ws then moveFromList rwm node else some rwm := by
  have hsearch : rwm.search (fun pc => pc = node) fuel rwm.head =
      some (ws.find? fun pc => pc = node) := by
    rw [h.head]
    exact h.search [] ws _ hfuel
  rw [moveOutWaitingMsg, hsearch, Option.bind_some]
  by_cases hnode : node ∈ ws
  · have hfind : (ws.find? fun pc => pc = node) = some node := by
      obtain ⟨pc, hpc⟩ := Option.isSome_iff_exists.mp
        (List.find?_isSome (p := fun pc => decide (pc = node)).mpr ⟨node, hnode, by simp⟩)
      have heq : pc = node := by simpa using List.find?_some hpc
      rw [hpc, heq]
    rw [hfind, if_pos hnode]
  · have hfind : (ws.find? fun pc => pc = node) = none := by
      rw [List.find?_eq_none]
      intro pc hpc heq
      exact hnode (of_decide_eq_true heq ▸ hpc)
    rw [hfind, if_neg hnode]

/-- And takes it out. -/
theorem moveOutWaitingMsg_tidy (h : rwm.Tidy ws) (node : ι) {fuel : ℕ}
    (hfuel : ws.length ≤ fuel) :
    ∃ rwm', moveOutWaitingMsg fuel rwm rwm.head node = some rwm' ∧ rwm'.Tidy (ws.erase node) := by
  rw [moveOutWaitingMsg_eq h.toRepr node hfuel]
  by_cases hnode : node ∈ ws
  · rw [if_pos hnode]
    exact moveFromList_tidy h hnode
  · rw [if_neg hnode, List.erase_of_not_mem hnode]
    exact ⟨rwm, rfl, h⟩

/-- A node that is not in the list has no neighbours to link to each other. -/
theorem moveFromList_out (h : rwm.Tidy ws) (hout : node ∉ ws) : moveFromList rwm node = none := by
  have hhead : ¬ some node = rwm.head := fun heq =>
    hout (List.mem_of_mem_head? (h.head.symm.trans heq.symm))
  have htail : ¬ some node = rwm.tail := fun heq =>
    hout (List.mem_of_getLast? (h.tail.symm.trans heq.symm))
  have hbridge : bridgeNode rwm node = none := by
    rw [bridgeNode, if_neg fun hand => hhead hand.1, if_neg hhead, if_neg htail,
      h.next_out node hout]
    cases rwm.prev node <;> rfl
  rw [moveFromList, hbridge]
  rfl

/-- So does a walk from anywhere for a node that is not in the list, except that it must
not start from the node itself. -/
theorem moveOutWaitingMsg_out (h : rwm.Tidy ws) {head : Option ι} {fuel : ℕ}
    (hfuel : ws.length < fuel) (hout : node ∉ ws) (hhead : head ≠ some node) :
    moveOutWaitingMsg fuel rwm head node = some rwm := by
  have hsearch : rwm.search (fun pc => pc = node) fuel head = some none := by
    cases head with
    | none => cases fuel <;> rfl
    | some w =>
      by_cases hw : w ∈ ws
      · obtain ⟨xs, ys, rfl⟩ := List.append_of_mem hw
        have hnone : (w :: ys).find? (fun pc => pc = node) = none := by
          rw [List.find?_eq_none]
          intro pc hpc heq
          exact hout (of_decide_eq_true heq ▸ List.mem_append_right _ hpc)
        rw [← hnone]
        refine h.toRepr.search xs (w :: ys) _ (Nat.le_trans ?_ (Nat.le_of_lt hfuel))
        simp
      · obtain ⟨fuel, rfl⟩ := Nat.exists_eq_succ_of_ne_zero (Nat.ne_of_gt (Nat.zero_lt_of_lt hfuel))
        have hne : w ≠ node := fun heq => hhead (heq ▸ rfl)
        rw [Links.search, if_neg (by simpa using hne), h.next_out w hw]
        cases fuel <;> rfl
  unfold moveOutWaitingMsg
  rw [hsearch]
  rfl

end PowerApi
