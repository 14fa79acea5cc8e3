import Mathlib.Data.List.Basic

/-!
# Queued operations under a licence

Operations wait in a queue and are carried out in order; some need a licence, and
some give it up. `Covered l held` says that, if the licence is held now exactly if
`held`, each operation of the queue that needs it will find it. It stays so when
operations drop out of the queue, and a queue can be extended by whatever is
covered at its end (`covered_append`).
-/

universe u

namespace Licence

variable {α : Type u} (needs ends : α → Prop)

/-- Every operation that needs the licence finds it. -/
def Covered : List α → Prop → Prop
  | [], _ => True
  | x :: xs, held => (needs x → held) ∧ Covered xs (held ∧ ¬ ends x)

variable {needs ends} {l l' : List α} {held held' : Prop}

theorem Covered.mono (h : Covered needs ends l held) (himp : held → held') :
    Covered needs ends l held' := by
  induction l generalizing held held' with
  | nil => trivial
  | cons x xs ih => exact ⟨fun hx => himp (h.1 hx), ih h.2 fun hand => ⟨himp hand.1, hand.2⟩⟩

/-- Operations may drop out. -/
theorem Covered.sublist (h : Covered needs ends l held) (hsub : l'.Sublist l) :
    Covered needs ends l' held := by
  induction hsub generalizing held with
  | slnil => trivial
  | cons x _ ih => exact ih (h.2.mono And.left)
  | cons_cons x _ ih => exact ⟨h.1, ih h.2⟩

theorem covered_append : Covered needs ends (l ++ l') held ↔
    Covered needs ends l held ∧ Covered needs ends l' (held ∧ ∀ x ∈ l, ¬ ends x) := by
  induction l generalizing held with
  | nil => simp [Covered]
  | cons x xs ih =>
    rw [List.cons_append, Covered, Covered, ih, and_assoc]
    simp [and_assoc]

/-- Operations that need no licence. -/
theorem covered_of_not_needs (h : ∀ x ∈ l, ¬ needs x) : Covered needs ends l held := by
  induction l generalizing held with
  | nil => trivial
  | cons x xs ih =>
    exact ⟨fun hx => absurd hx (h x List.mem_cons_self),
      ih fun y hy => h y (List.mem_cons_of_mem _ hy)⟩

end Licence
