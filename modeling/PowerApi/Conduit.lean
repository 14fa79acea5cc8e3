import PowerApi.Transition

/-!
# Conduits: parts of a machine through which items pass in order

`Transition.noted` collects what the steps of a run note down. A `Conduit` is a
part of a machine which items enter at one end and leave at the other: it may lose
items, at any place and at any time, but makes none up, gives none out twice and
lets none overtake another. `Conduit.run` says of a whole run what `passes` says of a
step, and `Conduit.andThen` puts two conduits one behind the other, so that a path
through several queues is proved queue by queue.
-/

namespace Transition

universe u v w

variable {σ : Type u} {ε : Type v} {α : Type w} {step : σ → ε → Option σ}

/-- What the steps of a run note down, in order. -/
def noted (step : σ → ε → Option σ) (note : σ → ε → σ → List α) : σ → List ε → List α
  | _, [] => []
  | s, e :: es =>
    match step s e with
    | none => []
    | some s' => note s e s' ++ noted step note s' es

variable {note : σ → ε → σ → List α}

@[simp] theorem noted_nil (s : σ) : noted step note s [] = [] := rfl

theorem noted_cons {s s' : σ} {e : ε} (h : step s e = some s') (es : List ε) :
    noted step note s (e :: es) = note s e s' ++ noted step note s' es := by
  rw [noted, h]

theorem noted_map {β : Type w} (f : α → β) (s : σ) (es : List ε) :
    noted step (fun s e s' => (note s e s').map f) s es = (noted step note s es).map f := by
  induction es generalizing s with
  | nil => rfl
  | cons e es ih =>
    rw [noted, noted]
    cases step s e with
    | none => rfl
    | some s' =>
      dsimp only
      rw [ih, List.map_append]

/-- What is noted down follows on what was noted down last, if each step that notes something down
sees to it: `I` says what the state knows of the last item. -/
theorem noted_isChain {R : α → α → Prop} {I : α → σ → Prop} {P : σ → ε → σ → Prop}
    (hstep : ∀ {a s e s'}, I a s → P s e s' → step s e = some s' →
      note s e s' = [] ∧ I a s' ∨ ∃ b, note s e s' = [b] ∧ R a b ∧ I b s')
    {es : List ε} {s t : σ} {a : α} (hI : I a s) (halong : Along step P s es)
    (h : run step s es = some t) :
    (a :: noted step note s es).IsChain R ∧
      I ((a :: noted step note s es).getLast (List.cons_ne_nil _ _)) t := by
  induction es generalizing s a with
  | nil =>
    obtain rfl := Option.some.inj h
    exact ⟨.singleton a, hI⟩
  | cons e es ih =>
    obtain ⟨s', hs', hrest⟩ := run_cons_eq_some.mp h
    obtain ⟨hP, halong'⟩ := halong s' hs'
    simp only [noted_cons hs']
    obtain ⟨hnone, hI'⟩ | ⟨b, hone, hR, hI'⟩ := hstep hI hP hs'
    · simpa only [hnone, List.nil_append] using ih hI' halong' hrest
    · obtain ⟨hchain, hlast⟩ := ih hI' halong' hrest
      simp only [hone, List.singleton_append, List.getLast_cons_cons]
      exact ⟨List.isChain_cons_cons.mpr ⟨hR, hchain⟩, hlast⟩

end Transition

open Transition

universe u v w

/-- A part of a machine through which items pass in order. -/
structure Conduit {σ : Type u} {ε : Type v} (step : σ → ε → Option σ) (α : Type w) where
  /-- what a step puts in -/
  enters : σ → ε → σ → List α
  /-- what a step takes out -/
  leaves : σ → ε → σ → List α
  /-- what is inside, and leaves first what stands first -/
  held : σ → List α
  passes : ∀ {s e s'}, step s e = some s' →
    (leaves s e s' ++ held s').Sublist (held s ++ enters s e s')

namespace Conduit

variable {σ : Type u} {ε : Type v} {α β : Type w} {step : σ → ε → Option σ}

/-- **A run through a conduit.** What left, in order, and then what is still inside, are
some of the items that were inside, and then of those that entered, in order. -/
theorem run (c : Conduit step α) {es : List ε} {s t : σ} (h : Transition.run step s es = some t) :
    (noted step c.leaves s es ++ c.held t).Sublist (c.held s ++ noted step c.enters s es) := by
  induction es generalizing s with
  | nil =>
    obtain rfl := Option.some.inj h
    rw [noted_nil, noted_nil, List.nil_append, List.append_nil]
  | cons e es ih =>
    obtain ⟨s', hs', hrest⟩ := run_cons_eq_some.mp h
    rw [noted_cons hs', noted_cons hs', List.append_assoc]
    have hstep := (c.passes hs').append_right (noted step c.enters s' es)
    rw [List.append_assoc, List.append_assoc] at hstep
    exact ((ih hrest).append_left _).trans hstep

/-- Through a conduit that was empty nothing leaves more often than it entered. -/
theorem count_le [DecidableEq α] (c : Conduit step α) {es : List ε} {s t : σ}
    (h : Transition.run step s es = some t) (hempty : c.held s = []) (x : α) :
    (noted step c.leaves s es).count x ≤ (noted step c.enters s es).count x := by
  have hrun := c.run h
  rw [hempty, List.nil_append] at hrun
  exact ((List.sublist_append_left _ _).trans hrun).count_le x

/-- **One behind the other**: what leaves the first enters the second. -/
def andThen (c d : Conduit step α) (h : c.leaves = d.enters) : Conduit step α where
  enters := c.enters
  leaves := d.leaves
  held s := d.held s ++ c.held s
  passes := by
    intro s e s' hs
    have hsecond := (d.passes hs).append_right (c.held s')
    rw [← h, List.append_assoc, List.append_assoc] at hsecond
    rw [List.append_assoc]
    exact hsecond.trans ((c.passes hs).append_left (d.held s))

/-- The same conduit, of whose items only a part is looked at. -/
def map (c : Conduit step α) (f : α → β) : Conduit step β where
  enters s e s' := (c.enters s e s').map f
  leaves s e s' := (c.leaves s e s').map f
  held s := (c.held s).map f
  passes := by
    intro s e s' hs
    have hpass := (c.passes hs).map f
    rwa [List.map_append, List.map_append] at hpass

end Conduit
