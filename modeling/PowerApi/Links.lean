import Mathlib.Data.List.Basic
import Mathlib.Data.List.Induction
import Mathlib.Data.List.Nodup
import Mathlib.Logic.Function.Basic

/-!
# Doubly linked lists

Nodes with a `next` and a `prev` pointer, NULL being `none`. `Seg p xs q` says
that the nodes `xs` are linked in this order, with `p` before the first and `q`
behind the last; a segment splits where its list does (`seg_append`), does not
see writes to other nodes (`Seg.congr`), and has its ends moved by one write
each. `DList.Repr` is a whole list with its `head` and `tail`, and `search` the
walk along the `next` pointers that a lookup is.
-/

universe u

/-- The pointers of the nodes. -/
structure Links (ι : Type u) where
  next : ι → Option ι
  prev : ι → Option ι

namespace Links

variable {ι : Type u}

/-- The nodes `xs` are linked in this order. -/
def Seg (l : Links ι) : Option ι → List ι → Option ι → Prop
  | _, [], _ => True
  | p, x :: xs, q => l.prev x = p ∧ l.next x = xs.head?.or q ∧ Seg l (some x) xs q

theorem seg_append {l : Links ι} {p q : Option ι} {xs ys : List ι} :
    l.Seg p (xs ++ ys) q ↔ l.Seg p xs (ys.head?.or q) ∧ l.Seg (xs.getLast?.or p) ys q := by
  induction xs generalizing p with
  | nil => simp [Seg]
  | cons x xs ih =>
    have hlast : (x :: xs).getLast?.or p = xs.getLast?.or (some x) := by
      rw [List.getLast?_cons]
      cases xs.getLast? <;> rfl
    rw [List.cons_append, Seg, Seg, ih, hlast, List.head?_append, Option.or_assoc, and_assoc,
      and_assoc]

/-- A segment depends on the pointers of its own nodes only. -/
theorem Seg.congr {l l' : Links ι} {p q : Option ι} {xs : List ι} (h : l.Seg p xs q)
    (hsame : ∀ x ∈ xs, l'.prev x = l.prev x ∧ l'.next x = l.next x) : l'.Seg p xs q := by
  induction xs generalizing p with
  | nil => trivial
  | cons x xs ih =>
    obtain ⟨hprev, hnext⟩ := hsame x List.mem_cons_self
    exact ⟨hprev.trans h.1, hnext.trans h.2.1,
      ih h.2.2 fun y hy => hsame y (List.mem_cons_of_mem _ hy)⟩

/-- A segment whose last node gets another successor. -/
theorem Seg.setLast {l l' : Links ι} {p q q' : Option ι} {xs : List ι} {u : ι}
    (h : l.Seg p (xs ++ [u]) q) (hnext : l'.next u = q') (hprev : l'.prev u = l.prev u)
    (hsame : ∀ x ∈ xs, l'.prev x = l.prev x ∧ l'.next x = l.next x) :
    l'.Seg p (xs ++ [u]) q' := by
  obtain ⟨hxs, hu⟩ := seg_append.mp h
  exact seg_append.mpr ⟨hxs.congr hsame, hprev.trans hu.1, hnext, trivial⟩

/-- A segment whose first node gets another predecessor. -/
theorem Seg.setFirst {l l' : Links ι} {p p' q : Option ι} {u : ι} {ys : List ι}
    (h : l.Seg p (u :: ys) q) (hprev : l'.prev u = p') (hnext : l'.next u = l.next u)
    (hsame : ∀ y ∈ ys, l'.prev y = l.prev y ∧ l'.next y = l.next y) :
    l'.Seg p' (u :: ys) q :=
  ⟨hprev, hnext.trans h.2.1, h.2.2.congr hsame⟩

/-- The `next` pointers lead from `p` to the node `x`. -/
inductive Reaches (l : Links ι) : Option ι → ι → Prop where
  | here (x : ι) : Reaches l (some x) x
  | next {y x : ι} (h : Reaches l (l.next y) x) : Reaches l (some y) x

theorem reaches_some {l : Links ι} {y x : ι} :
    l.Reaches (some y) x ↔ x = y ∨ l.Reaches (l.next y) x := by
  constructor
  · intro h
    cases h with
    | here => exact .inl rfl
    | next h => exact .inr h
  · rintro (rfl | h)
    · exact .here x
    · exact .next h

/-- From the front of a segment its pointers lead to its nodes and to no others. -/
theorem Seg.reaches_iff {l : Links ι} {p : Option ι} {xs : List ι} (h : l.Seg p xs none) {x : ι} :
    l.Reaches xs.head? x ↔ x ∈ xs := by
  induction xs generalizing p with
  | nil => exact iff_of_false nofun List.not_mem_nil
  | cons y xs ih => rw [List.head?_cons, reaches_some, h.2.1, Option.or_none, ih h.2.2, List.mem_cons]

/-- Two segments that end and begin in the same node are the same. -/
theorem Seg.unique {l : Links ι} {p p' : Option ι} {xs ys : List ι} (hx : l.Seg p xs none)
    (hy : l.Seg p' ys none) (hhead : xs.head? = ys.head?) : xs = ys := by
  induction xs generalizing p p' ys with
  | nil => exact (List.head?_eq_none_iff.mp hhead.symm).symm
  | cons x xs ih =>
    cases ys with
    | nil => cases hhead
    | cons y ys =>
      obtain rfl : x = y := Option.some.inj hhead
      have hnext := hx.2.1.symm.trans hy.2.1
      rw [Option.or_none, Option.or_none] at hnext
      rw [ih hx.2.2 hy.2.2 hnext]

/-- So no node comes twice in a segment that ends. -/
theorem Seg.nodup {l : Links ι} {p : Option ι} {xs : List ι} (h : l.Seg p xs none) :
    xs.Nodup := by
  induction xs generalizing p with
  | nil => exact List.nodup_nil
  | cons x xs ih =>
    refine List.nodup_cons.mpr ⟨fun hx => ?_, ih h.2.2⟩
    obtain ⟨as, bs, rfl⟩ := List.append_of_mem hx
    have hlen := congrArg List.length (h.unique (seg_append.mp h.2.2).2 rfl)
    rw [List.length_cons, List.length_append, List.length_cons] at hlen
    omega

/-- Walk along the list until a node passes the test; `none` if the walk goes on for
more than `fuel` nodes. -/
def search (l : Links ι) (test : ι → Bool) : ℕ → Option ι → Option (Option ι)
  | _, none => some none
  | 0, some _ => none
  | fuel + 1, some x => if test x then some (some x) else search l test fuel (l.next x)

/-- On a segment the walk finds the first node that passes. -/
theorem Seg.search {l : Links ι} {p : Option ι} {xs : List ι} (h : l.Seg p xs none)
    (test : ι → Bool) {fuel : ℕ} (hfuel : xs.length ≤ fuel) :
    l.search test fuel xs.head? = some (xs.find? test) := by
  induction xs generalizing p fuel with
  | nil => cases fuel <;> rfl
  | cons x xs ih =>
    cases fuel with
    | zero => exact absurd hfuel (by simp)
    | succ fuel =>
      rw [List.head?_cons, Links.search, List.find?_cons]
      cases htest : test x with
      | true => simp
      | false =>
        have hnext : l.next x = xs.head? := by rw [h.2.1, Option.or_none]
        rw [hnext]
        simpa using ih h.2.2 (Nat.le_of_succ_le_succ hfuel)

/-- What a walk finds passes the test. -/
theorem search_some {l : Links ι} {test : ι → Bool} {fuel : ℕ} {p : Option ι} {x : ι}
    (h : l.search test fuel p = some (some x)) : test x = true := by
  induction fuel generalizing p with
  | zero =>
    cases p with
    | none => cases h
    | some y => cases h
  | succ fuel ih =>
    cases p with
    | none => cases h
    | some y =>
      rw [search] at h
      split at h
      · cases h
        assumption
      · exact ih h

end Links

/-- A list with its two ends. -/
structure DList (ι : Type u) extends Links ι where
  head : Option ι
  tail : Option ι

namespace DList

variable {ι : Type u}

/-- No nodes. -/
def empty : DList ι := ⟨⟨fun _ => none, fun _ => none⟩, none, none⟩

/-- The list links exactly these nodes, in this order. -/
structure Repr (l : DList ι) (ws : List ι) : Prop where
  nodup : ws.Nodup
  head : l.head = ws.head?
  tail : l.tail = ws.getLast?
  seg : l.Seg none ws none

/-- The list leads from its head to its tail over these nodes, and back. -/
structure Chain (l : DList ι) (ws : List ι) : Prop where
  head : l.head = ws.head?
  tail : l.tail = ws.getLast?
  seg : l.Seg none ws none

theorem Chain.repr {l : DList ι} {ws : List ι} (h : l.Chain ws) : l.Repr ws :=
  ⟨h.seg.nodup, h.head, h.tail, h.seg⟩

theorem Repr.chain {l : DList ι} {ws : List ι} (h : l.Repr ws) : l.Chain ws :=
  ⟨h.head, h.tail, h.seg⟩

theorem repr_empty : (empty : DList ι).Repr [] := ⟨List.nodup_nil, rfl, rfl, trivial⟩

/-- And no node outside of it points anywhere. -/
structure Tidy (l : DList ι) (ws : List ι) : Prop extends Repr l ws where
  next_out : ∀ y, y ∉ ws → l.next y = none

theorem tidy_empty : (empty : DList ι).Tidy [] := ⟨repr_empty, fun _ _ => rfl⟩

/-- A walk from inside the list sees what is behind. -/
theorem Repr.search {l : DList ι} (xs ys : List ι) (h : l.Repr (xs ++ ys)) (test : ι → Bool)
    {fuel : ℕ} (hfuel : ys.length ≤ fuel) :
    l.search test fuel ys.head? = some (ys.find? test) :=
  (Links.seg_append.mp h.seg).2.search test hfuel

/-- The nodes that a list links are those that its head leads to. -/
theorem Repr.reaches_iff {l : DList ι} {ws : List ι} {x : ι} (h : l.Repr ws) :
    l.Reaches l.head x ↔ x ∈ ws := by
  rw [h.head]
  exact h.seg.reaches_iff

/-- The pointers around a node in the list. -/
theorem Repr.around {l : DList ι} {xs ys : List ι} {x : ι} (h : l.Repr (xs ++ x :: ys)) :
    l.prev x = xs.getLast? ∧ l.next x = ys.head? := by
  obtain ⟨-, hx⟩ := Links.seg_append.mp h.seg
  exact ⟨by rw [hx.1, Option.or_none], by rw [hx.2.1, Option.or_none]⟩

variable [DecidableEq ι]

/-- **Unlinking a node**: the neighbours are linked to each other, and nothing else
changes in the rest of the list. -/
theorem Repr.unlink {l l' : DList ι} {xs ys : List ι} {x : ι} (h : l.Repr (xs ++ x :: ys))
    (hhead : l'.head = (xs ++ ys).head?) (htail : l'.tail = (xs ++ ys).getLast?)
    (hnext : ∀ y ∈ xs ++ ys, l'.next y = if xs.getLast? = some y then ys.head? else l.next y)
    (hprev : ∀ y ∈ xs ++ ys, l'.prev y = if ys.head? = some y then xs.getLast? else l.prev y) :
    l'.Repr (xs ++ ys) := by
  have hnodup : (xs ++ ys).Nodup :=
    h.nodup.sublist ((List.sublist_cons_self x ys).append_left xs)
  obtain ⟨hxs, hys⟩ := Links.seg_append.mp h.seg
  have hdisj := List.disjoint_of_nodup_append hnodup
  refine ⟨hnodup, hhead, htail, Links.seg_append.mpr ⟨?_, ?_⟩⟩
  · -- the first part gets another successor
    rw [Option.or_none]
    have hkeep : ∀ y ∈ xs, l'.prev y = l.prev y := by
      intro y hy
      have hother : ys.head? ≠ some y := fun hy' => hdisj hy (List.mem_of_mem_head? hy')
      rw [hprev y (List.mem_append_left _ hy), if_neg hother]
    cases xs using List.reverseRecOn with
    | nil => trivial
    | append_singleton xs u =>
      have hu : u ∉ xs := fun hu =>
        (List.nodup_append.mp (hnodup.sublist (List.sublist_append_left ..))).2.2 u hu u
          List.mem_cons_self rfl
      refine hxs.setLast ?_ (hkeep u (by simp)) fun y hy => ⟨hkeep y (by simp [hy]), ?_⟩
      · rw [hnext u (by simp), if_pos (by simp)]
      · rw [hnext y (by simp [hy]), if_neg]
        rw [List.getLast?_concat]
        rintro ⟨⟩
        exact hu hy
  · -- the second part gets another predecessor
    rw [Option.or_none]
    have hkeep : ∀ y ∈ ys, l'.next y = l.next y := by
      intro y hy
      have hother : xs.getLast? ≠ some y := fun hy' => hdisj (List.mem_of_getLast? hy') hy
      rw [hnext y (List.mem_append_right _ hy), if_neg hother]
    cases ys with
    | nil => trivial
    | cons v ys =>
      have hv : v ∉ ys := (List.nodup_cons.mp (hnodup.sublist (List.sublist_append_right ..))).1
      refine hys.2.2.setFirst ?_ (hkeep v List.mem_cons_self) fun y hy =>
        ⟨?_, hkeep y (List.mem_cons_of_mem _ hy)⟩
      · rw [hprev v (by simp), if_pos List.head?_cons]
      · rw [hprev y (by simp [hy]), if_neg]
        rintro ⟨⟩
        exact hv hy

/-- **Linking a node at the end** of a list that it is not in. -/
theorem Repr.link {l l' : DList ι} {ws : List ι} {x : ι} (h : l.Repr ws) (hx : x ∉ ws)
    (hhead : l'.head = (ws ++ [x]).head?) (htail : l'.tail = some x)
    (hnext : ∀ y ∈ ws ++ [x], l'.next y = if y = x then none else
      if ws.getLast? = some y then some x else l.next y)
    (hprev : ∀ y ∈ ws ++ [x], l'.prev y = if y = x then ws.getLast? else l.prev y) :
    l'.Repr (ws ++ [x]) := by
  have hne : ∀ y ∈ ws, y ≠ x := fun y hy hyx => hx (hyx ▸ hy)
  have hkeep : ∀ y ∈ ws, l'.prev y = l.prev y := by
    intro y hy
    rw [hprev y (List.mem_append_left _ hy), if_neg (hne y hy)]
  refine ⟨?_, hhead, by rw [htail, List.getLast?_concat], Links.seg_append.mpr ⟨?_, ?_⟩⟩
  · rw [List.nodup_append]
    refine ⟨h.nodup, List.nodup_singleton x, ?_⟩
    rintro y hy z hz rfl
    exact hx (List.mem_singleton.mp hz ▸ hy)
  · cases ws using List.reverseRecOn with
    | nil => trivial
    | append_singleton ws u =>
      have hu : u ∉ ws := fun hu => (List.nodup_append.mp h.nodup).2.2 u hu u List.mem_cons_self rfl
      refine h.seg.setLast ?_ (hkeep u (by simp)) fun y hy => ⟨hkeep y (by simp [hy]), ?_⟩
      · rw [hnext u (by simp), if_neg (hne u (by simp)), if_pos (by simp)]
        rfl
      · rw [hnext y (by simp [hy]), if_neg (hne y (by simp [hy])), if_neg]
        rw [List.getLast?_concat]
        rintro ⟨⟩
        exact hu hy
  · refine ⟨?_, ?_, trivial⟩
    · rw [hprev x (by simp), if_pos rfl, Option.or_none]
    · rw [hnext x (by simp), if_pos rfl]
      rfl

end DList
