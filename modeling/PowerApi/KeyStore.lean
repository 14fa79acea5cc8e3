import Mathlib.Logic.Basic
import Mathlib.Data.List.TakeWhile

/-!
# Values under keys, and loops that set them

A store has a value under some of its keys. `put` replaces the value of a key that is
there, and makes no new ones. `tryAll` is a loop over things to set that ends at the
first one that fails: it leaves the store as `putAll` of what came before
(`tryAll_snd`), and that is the store from before the loop exactly if every key holds
what was put there last (`putAll_eq_self_iff`).
-/

namespace KeyStore

universe u v

variable {K : Type u} {V : Type v} [DecidableEq K]

/-- A value under a key. -/
def put (files : K → Option V) (w : K × V) : K → Option V :=
  fun k => if k = w.1 then (files k).map fun _ => w.2 else files k

/-- Some values one after the other. -/
def putAll (ws : List (K × V)) (files : K → Option V) : K → Option V := ws.foldl put files

/-- What comes under a key last. -/
def lastPut (k : K) : List (K × V) → Option V
  | [] => none
  | w :: ws => (lastPut k ws).or (if k = w.1 then some w.2 else none)

@[simp] theorem putAll_nil (files : K → Option V) : putAll [] files = files := rfl

@[simp] theorem putAll_cons (w : K × V) (ws : List (K × V)) (files : K → Option V) :
    putAll (w :: ws) files = putAll ws (put files w) := rfl

theorem putAll_append (ws ws' : List (K × V)) (files : K → Option V) :
    putAll (ws ++ ws') files = putAll ws' (putAll ws files) := List.foldl_append

/-- A key holds what came last, or still what it held. -/
theorem putAll_apply (ws : List (K × V)) (files : K → Option V) (k : K) :
    putAll ws files k = (files k).map fun held => (lastPut k ws).getD held := by
  induction ws generalizing files with
  | nil =>
    rw [putAll_nil]
    cases files k <;> rfl
  | cons w ws ih =>
    rw [putAll_cons, ih, put, lastPut]
    split
    · rw [Option.map_map]
      cases lastPut k ws <;> rfl
    · rw [Option.or_none]

theorem lastPut_append (k : K) (ws ws' : List (K × V)) :
    lastPut k (ws ++ ws') = (lastPut k ws').or (lastPut k ws) := by
  induction ws with
  | nil => exact (Option.or_none).symm
  | cons w ws ih => rw [List.cons_append, lastPut, ih, lastPut, Option.or_assoc]

theorem lastPut_eq_none {k : K} {ws : List (K × V)} (h : ∀ w ∈ ws, w.1 ≠ k) :
    lastPut k ws = none := by
  induction ws with
  | nil => rfl
  | cons w ws ih =>
    rw [lastPut, ih fun w' hw' => h w' (List.mem_cons_of_mem _ hw'),
      if_neg (h w List.mem_cons_self).symm]
    rfl

/-- Values that are there already. -/
def AlreadyThere (ws : List (K × V)) (files : K → Option V) : Prop :=
  ∀ k, ∀ held ∈ files k, ∀ value ∈ lastPut k ws, value = held

theorem putAll_eq_self_iff {ws : List (K × V)} {files : K → Option V} :
    putAll ws files = files ↔ AlreadyThere ws files := by
  constructor
  · intro h k held hheld value hvalue
    have hk := congrFun h k
    rw [putAll_apply, hheld, Option.map_some, hvalue] at hk
    exact Option.some.inj hk
  · intro h
    funext k
    rw [putAll_apply]
    cases hheld : files k with
    | none => rfl
    | some held =>
      cases hvalue : lastPut k ws with
      | none => rfl
      | some value => rw [Option.map_some, Option.getD_some, h k held hheld value hvalue]

/-- Something that a loop sets: where, what, and whether that succeeds. -/
structure Attempt (K : Type u) (V : Type v) where
  key : K
  value : V
  starts : Bool

/-- What the attempt puts where. -/
def Attempt.write (a : Attempt K V) : K × V := (a.key, a.value)

/-- The attempts where some positions fail in any case. -/
def whereUp (up : ℕ → Bool) (as : List (Attempt K V)) : List (Attempt K V) :=
  as.mapIdx fun i a => { a with starts := up i && a.starts }

/-- The loop. -/
def tryAll : List (Attempt K V) → (K → Option V) → Bool × (K → Option V)
  | [], files => (true, files)
  | a :: as, files => if a.starts then tryAll as (put files a.write) else (false, files)

/-- What was set when the loop ends. -/
def begun (as : List (Attempt K V)) : List (K × V) :=
  (as.takeWhile fun a => a.starts).map Attempt.write

theorem tryAll_fst (as : List (Attempt K V)) (files : K → Option V) :
    (tryAll as files).1 = as.all fun a => a.starts := by
  induction as generalizing files with
  | nil => rfl
  | cons a as ih =>
    rw [tryAll, List.all_cons]
    split <;> rename_i hstart
    · rw [ih, hstart, Bool.true_and]
    · rw [Bool.not_eq_true] at hstart
      rw [hstart, Bool.false_and]

theorem tryAll_snd (as : List (Attempt K V)) (files : K → Option V) :
    (tryAll as files).2 = putAll (begun as) files := by
  induction as generalizing files with
  | nil => rfl
  | cons a as ih =>
    rw [tryAll, begun]
    split <;> rename_i hstart
    · rw [List.takeWhile_cons_of_pos hstart, List.map_cons, putAll_cons, ih, begun]
    · rw [List.takeWhile_cons_of_neg hstart, List.map_nil, putAll_nil]

/-- Two loops, the second one after the first one has come to its end. -/
theorem tryAll_append (as as' : List (Attempt K V)) (files : K → Option V) :
    tryAll (as ++ as') files = if (tryAll as files).1 then tryAll as' (tryAll as files).2
      else (false, (tryAll as files).2) := by
  induction as generalizing files with
  | nil => rfl
  | cons a as ih =>
    rw [List.cons_append, tryAll, tryAll]
    split
    · exact ih _
    · rfl

omit [DecidableEq K] in
/-- A loop that comes to its end has set everything. -/
theorem begun_of_all {as : List (Attempt K V)} (h : as.all fun a => a.starts) :
    begun as = as.map Attempt.write := by
  rw [begun, List.takeWhile_eq_self_iff.mpr (List.all_eq_true.mp h)]

omit [DecidableEq K] in
@[simp] theorem whereUp_true (as : List (Attempt K V)) : whereUp (fun _ => true) as = as :=
  List.ext_getElem (by simp [whereUp]) fun i h h' => by simp [whereUp]

omit [DecidableEq K] in
theorem whereUp_append (up : ℕ → Bool) (as as' : List (Attempt K V)) :
    whereUp up (as ++ as') = whereUp up as ++ whereUp (fun i => up (i + as.length)) as' :=
  List.mapIdx_append

omit [DecidableEq K] in
/-- What is attempted stays the same. -/
theorem map_write_whereUp (up : ℕ → Bool) (as : List (Attempt K V)) :
    (whereUp up as).map Attempt.write = as.map Attempt.write :=
  List.ext_getElem (by simp [whereUp]) fun i h h' => by simp [whereUp, Attempt.write]

/-- A loop that comes to its end has put everything into the store. -/
theorem putAll_of_tryAll {as : List (Attempt K V)} {files files' : K → Option V}
    (h : tryAll as files = (true, files')) : files' = putAll (as.map Attempt.write) files := by
  have hall := tryAll_fst as files
  rw [h] at hall
  rw [← begun_of_all hall.symm, ← tryAll_snd, h]

theorem lastPut_eq_some {k : K} {v : V} {ws : List (K × V)} (hmem : (k, v) ∈ ws)
    (hsame : ∀ w ∈ ws, w.1 = k → w.2 = v) : lastPut k ws = some v := by
  induction ws with
  | nil => cases hmem
  | cons w ws ih =>
    have hws := fun w' hw' => hsame w' (List.mem_cons_of_mem w hw')
    rw [lastPut]
    rcases List.mem_cons.mp hmem with rfl | hmem
    · by_cases hlater : ∀ w' ∈ ws, w'.1 ≠ k
      · rw [lastPut_eq_none hlater, if_pos rfl]
        rfl
      · -- the same value is put there again
        obtain ⟨⟨k', v'⟩, hlater⟩ := not_forall.mp hlater
        obtain ⟨hw', hk'⟩ := Classical.not_imp.mp hlater
        obtain rfl : k' = k := not_not.mp hk'
        obtain rfl : v' = v := hws _ hw' rfl
        rw [ih hw' hws]
        rfl
    · rw [ih hmem hws]
      rfl

end KeyStore
