import Mathlib.Data.List.Basic

/-!
# Runs of a partial, event-driven machine

A machine is a function `step : σ → ε → Option σ`: all nondeterminism (which
party moves, what the environment answers) is in the event, and `none` says the
event cannot happen in that state. On top of it:

* `run` — execute a list of events;
* `Along P` — every step the list takes satisfies `P` (state before, event,
  state after). A condition on the steps of a run and a property of its states
  are both of this form;
* the induction rules, each proved once: an invariant is kept by a run
  (`run_invariant`), by a run whose steps are guarded (`Along.of_invariant`), and
  the exact form `along_iff`, for a property that a step keeps *if and only if*
  a condition on the state before it holds.
-/

namespace Transition

universe u v

variable {σ : Type u} {ε : Type v} {step : σ → ε → Option σ}

/-- Execute the events in order; `none` as soon as one of them cannot happen. -/
def run (step : σ → ε → Option σ) : σ → List ε → Option σ
  | s, [] => some s
  | s, e :: es => (step s e).bind fun s' => run step s' es

@[simp] theorem run_nil (s : σ) : run step s [] = some s := rfl

theorem run_cons (s : σ) (e : ε) (es : List ε) :
    run step s (e :: es) = (step s e).bind fun s' => run step s' es := rfl

/-- Inversion for a nonempty run. -/
theorem run_cons_eq_some {s t : σ} {e : ε} {es : List ε} :
    run step s (e :: es) = some t ↔ ∃ s', step s e = some s' ∧ run step s' es = some t := by
  rw [run_cons, Option.bind_eq_some_iff]

/-- A run splits after any prefix of its events. -/
theorem run_append {s t : σ} {es fs : List ε} :
    run step s (es ++ fs) = some t ↔
      ∃ m, run step s es = some m ∧ run step m fs = some t := by
  induction es generalizing s with
  | nil => simp
  | cons e es ih =>
    rw [List.cons_append, run_cons_eq_some]
    constructor
    · rintro ⟨s', hs', hrest⟩
      obtain ⟨m, hm, ht⟩ := ih.mp hrest
      exact ⟨m, run_cons_eq_some.mpr ⟨s', hs', hm⟩, ht⟩
    · rintro ⟨m, hm, ht⟩
      obtain ⟨s', hs', hm'⟩ := run_cons_eq_some.mp hm
      exact ⟨s', hs', ih.mpr ⟨m, hm', ht⟩⟩

/-- What every step keeps, every run keeps. -/
theorem run_invariant {I : σ → Prop}
    (hstep : ∀ {s e s'}, I s → step s e = some s' → I s') :
    ∀ {es : List ε} {s t : σ}, I s → run step s es = some t → I t := by
  intro es
  induction es with
  | nil =>
    intro s t hI hr
    obtain rfl := Option.some.inj hr
    exact hI
  | cons e es ih =>
    intro s t hI hr
    obtain ⟨s', hs', hrest⟩ := run_cons_eq_some.mp hr
    exact ih (hstep hI hs') hrest

/-- What every step on certain events keeps, every run on such events keeps. -/
theorem run_invariant_on {I : σ → Prop} {E : ε → Prop}
    (hstep : ∀ {s e s'}, I s → E e → step s e = some s' → I s') :
    ∀ {es : List ε} {s t : σ}, (∀ e ∈ es, E e) → I s → run step s es = some t → I t := by
  intro es
  induction es with
  | nil =>
    intro s t _ hI hr
    obtain rfl := Option.some.inj hr
    exact hI
  | cons e es ih =>
    intro s t hE hI hr
    obtain ⟨s', hs', hrest⟩ := run_cons_eq_some.mp hr
    exact ih (fun e' he' => hE e' (List.mem_cons_of_mem e he'))
      (hstep hI (hE e List.mem_cons_self) hs') hrest

/-! ## Conditions on every step of a run -/

/-- Every step that the events take from `s` satisfies `P`. -/
def Along (step : σ → ε → Option σ) (P : σ → ε → σ → Prop) : σ → List ε → Prop
  | _, [] => True
  | s, e :: es => ∀ s', step s e = some s' → P s e s' ∧ Along step P s' es

variable {P Q : σ → ε → σ → Prop}

@[simp] theorem along_nil (s : σ) : Along step P s [] := trivial

theorem along_cons {s : σ} {e : ε} {es : List ε} :
    Along step P s (e :: es) ↔ ∀ s', step s e = some s' → P s e s' ∧ Along step P s' es :=
  Iff.rfl

/-- Of given events a condition on every step can be decided by taking them. -/
instance decidableAlong [∀ s e s', Decidable (P s e s')] :
    ∀ (es : List ε) (s : σ), Decidable (Along step P s es)
  | [], _ => isTrue trivial
  | e :: es, s =>
    match hs : step s e with
    | none => isTrue fun _ hs' => absurd (hs.symm.trans hs') nofun
    | some s' =>
      have := decidableAlong es s'
      decidable_of_iff (P s e s' ∧ Along step P s' es)
        ⟨fun h _ ht => Option.some.inj (hs.symm.trans ht) ▸ h, fun h => h s' hs⟩

/-- A condition on every step of a run holds of the steps of its first part,
and of the steps of what follows it. -/
theorem along_append {s : σ} {es fs : List ε} :
    Along step P s (es ++ fs) ↔
      Along step P s es ∧ ∀ m, run step s es = some m → Along step P m fs := by
  induction es generalizing s with
  | nil => simp
  | cons e es ih =>
    simp only [List.cons_append, along_cons, run_cons_eq_some]
    constructor
    · intro h
      refine ⟨fun s' hs' => ⟨(h s' hs').1, (ih.mp (h s' hs').2).1⟩, ?_⟩
      rintro m ⟨s', hs', hm⟩
      exact (ih.mp (h s' hs').2).2 m hm
    · rintro ⟨h, hrest⟩ s' hs'
      exact ⟨(h s' hs').1, ih.mpr ⟨(h s' hs').2, fun m hm => hrest m ⟨s', hs', hm⟩⟩⟩

/-- Conditions that say the same of every step say the same of every run. -/
theorem along_congr (h : ∀ {s e s'}, step s e = some s' → (P s e s' ↔ Q s e s')) :
    ∀ {es : List ε} {s : σ}, Along step P s es ↔ Along step Q s es := by
  intro es
  induction es with
  | nil => intro s; exact Iff.rfl
  | cons e es ih =>
    intro s
    exact forall₂_congr fun s' hs' => and_congr (h hs') ih

/-- **Guarded invariant rule.** If a step whose guard `G` holds keeps `I` and has
the property `P`, then in a run whose steps are all guarded every step has `P`. -/
theorem Along.of_invariant {I : σ → Prop} {G : σ → ε → σ → Prop}
    (hstep : ∀ {s e s'}, I s → step s e = some s' → G s e s' → I s' ∧ P s e s') :
    ∀ {es : List ε} {s : σ}, I s → Along step G s es → Along step P s es := by
  intro es
  induction es with
  | nil => intro s _ _; trivial
  | cons e es ih =>
    intro s hI hG s' hs'
    obtain ⟨hg, hrest⟩ := hG s' hs'
    obtain ⟨hI', hP⟩ := hstep hI hs' hg
    exact ⟨hP, ih hI' hrest⟩

/-- **Exactness rule.** Suppose `J` is kept by every step, and that from a state
with `J` and `P` a step leads to `P` exactly when `C` holds before it. Then `P`
holds after every step of a run exactly when `C` holds before every step. -/
theorem along_iff {J P : σ → Prop} {C : σ → ε → Prop}
    (hJ : ∀ {s e s'}, J s → step s e = some s' → J s')
    (hPC : ∀ {s e s'}, J s → P s → step s e = some s' → (P s' ↔ C s e)) :
    ∀ {es : List ε} {s : σ}, J s → P s →
      (Along step (fun _ _ s' => P s') s es ↔ Along step (fun s e _ => C s e) s es) := by
  intro es
  induction es with
  | nil => intro s _ _; exact Iff.rfl
  | cons e es ih =>
    intro s hs hp
    rw [along_cons, along_cons]
    refine forall₂_congr fun s' hs' => ?_
    rw [hPC hs hp hs']
    refine and_congr_right fun hc => ?_
    exact ih (hJ hs hs') ((hPC hs hp hs').mpr hc)

/-- **Either way.** If a step whose condition holds keeps `I`, a step whose condition does
not hold leads to `D`, and nothing leads out of `D`, then a run ends in `I` and all of its
steps meet the condition, or it ends in `D` and one of them does not. -/
theorem run_either {I D : σ → Prop} {C : σ → ε → Prop}
    (hgood : ∀ {s e s'}, I s → step s e = some s' → C s e → I s')
    (hbad : ∀ {s e s'}, I s → step s e = some s' → ¬ C s e → D s')
    (hstuck : ∀ {s e s'}, D s → step s e = some s' → D s') :
    ∀ {es : List ε} {s t : σ}, I s → run step s es = some t →
      Along step (fun s e _ => C s e) s es ∧ I t ∨
        ¬ Along step (fun s e _ => C s e) s es ∧ D t := by
  intro es
  induction es with
  | nil =>
    intro s t hI hr
    obtain rfl := Option.some.inj hr
    exact .inl ⟨trivial, hI⟩
  | cons e es ih =>
    intro s t hI hr
    obtain ⟨s', hs', hrest⟩ := run_cons_eq_some.mp hr
    have hcons : Along step (fun s e _ => C s e) s (e :: es) ↔
        C s e ∧ Along step (fun s e _ => C s e) s' es :=
      ⟨fun h => h s' hs', fun h _ ht => Option.some.inj (hs'.symm.trans ht) ▸ h⟩
    rw [hcons]
    by_cases hC : C s e
    · rw [and_iff_right hC]
      exact ih (hgood hI hs' hC) hrest
    · exact .inr ⟨fun h => hC h.1, run_invariant hstuck (hbad hI hs' hC) hrest⟩

/-- **Two runs in step.** If related states take related events to related states, or
both cannot take them, then so do runs of events that are related one by one. -/
theorem run_lockstep {R : σ → σ → Prop} {E : ε → ε → Prop}
    (hstep : ∀ {s t e f}, R s t → E e f → (∀ s', step s e = some s' → P s e s') →
      Option.Rel R (step s e) (step t f)) :
    ∀ {es fs : List ε} {s t : σ}, List.Forall₂ E es fs → R s t → Along step P s es →
      Option.Rel R (run step s es) (run step t fs) := by
  intro es fs s t hes
  induction hes generalizing s t with
  | nil => exact fun hR _ => .some hR
  | @cons e f es fs he _ ih =>
    intro hR hP
    have hrel := hstep hR he fun s' hs' => (hP s' hs').1
    rw [run_cons, run_cons]
    revert hP hrel
    cases hs : step s e with
    | none =>
      cases ht : step t f with
      | none => exact fun _ _ => .none
      | some t' => exact fun _ hrel => nomatch hrel
    | some s' =>
      cases ht : step t f with
      | none => exact fun _ hrel => nomatch hrel
      | some t' =>
        rintro hP (hR' | _)
        exact ih hR' (hP s' hs).2

/-- **Two machines in step.** If from related states both take an event to related states, or
both cannot take it, then so it is with lists of such events. -/
theorem run_related {τ : Type u} {stepₜ : τ → ε → Option τ} {R : σ → τ → Prop} {E : ε → Prop}
    (hstep : ∀ {s t e}, R s t → E e → Option.Rel R (step s e) (stepₜ t e)) :
    ∀ {es : List ε} {s : σ} {t : τ}, (∀ e ∈ es, E e) → R s t →
      Option.Rel R (run step s es) (run stepₜ t es) := by
  intro es
  induction es with
  | nil => exact fun _ hR => .some hR
  | cons e es ih =>
    intro s t hE hR
    have hrel := hstep hR (hE e List.mem_cons_self)
    rw [run_cons, run_cons]
    revert hrel
    generalize step s e = x
    generalize stepₜ t e = y
    rintro (hR' | _)
    · exact ih (fun f hf => hE f (List.mem_cons_of_mem e hf)) hR'
    · exact .none

end Transition
