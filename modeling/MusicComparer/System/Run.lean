import Mathlib.Data.List.Basic

/-!
# Runs of a partial step function

Library `System`. `step s a` is undefined where action `a` is not enabled in state `s`. A run
performs a list of actions; every state reached by a run is the end of one of its prefixes, so
statements over all runs are statements over all states reached.
-/

namespace MusicComparer.System

variable {σ α : Type} (step : σ → α → Option σ)

/-- Perform the actions in turn. -/
def run : σ → List α → Option σ
  | s, [] => some s
  | s, a :: as => (step s a).bind fun t ↦ run t as

/-- Condition `C` holds at every step of the run. -/
def Along (C : σ → α → Prop) : σ → List α → Prop
  | _, [] => True
  | s, a :: as => C s a ∧ ∀ t, step s a = some t → Along C t as

/-- The condition can be checked by performing the run. -/
instance decidableAlong (C : σ → α → Prop) [∀ s a, Decidable (C s a)] :
    ∀ s as, Decidable (Along step C s as)
  | _, [] => .isTrue trivial
  | s, a :: as =>
    have : DecidablePred fun t ↦ Along step C t as := fun t ↦ decidableAlong C t as
    inferInstanceAs (Decidable (C s a ∧ ∀ t ∈ step s a, Along step C t as))

variable {step}

/-- A nonempty run is a step followed by a run. -/
theorem run_cons {s t : σ} {a : α} {as : List α} :
    run step s (a :: as) = some t ↔ ∃ u, step s a = some u ∧ run step u as = some t := by
  rw [run, Option.bind_eq_some_iff]

/-- Consecutive runs compose. -/
theorem run_append {s t : σ} {as bs : List α} :
    run step s (as ++ bs) = some t ↔ ∃ u, run step s as = some u ∧ run step u bs = some t := by
  induction as generalizing s with
  | nil => simp [run]
  | cons a as ih =>
    simp only [List.cons_append, run_cons, ih]
    constructor
    · rintro ⟨u, hu, v, hv, ht⟩
      exact ⟨v, ⟨u, hu, hv⟩, ht⟩
    · rintro ⟨v, ⟨u, hu, hv⟩, ht⟩
      exact ⟨u, hu, v, hv, ht⟩

/-- A run that can be performed ends in the state that performing it gives. -/
theorem run_eq_getD {s : σ} {as : List α} (d : σ) (h : (run step s as).isSome = true) :
    run step s as = some ((run step s as).getD d) := by
  obtain ⟨t, ht⟩ := Option.isSome_iff_exists.mp h
  rw [ht, Option.getD_some]

/-- A condition on the actions alone that all actions of the run meet. -/
theorem along_of_forall {C : α → Prop} {s : σ} {as : List α} (h : ∀ a ∈ as, C a) :
    Along step (fun _ a ↦ C a) s as := by
  induction as generalizing s with
  | nil => exact trivial
  | cons a as ih =>
    rw [List.forall_mem_cons] at h
    exact ⟨h.1, fun t _ ↦ ih h.2⟩

/-- A condition that holds at the end of every proper prefix, for the action that comes next. -/
theorem along_of_prefixes {C : σ → α → Prop} {s : σ} {as : List α}
    (h : ∀ bs a u, bs ++ [a] <+: as → run step s bs = some u → C u a) : Along step C s as := by
  induction as generalizing s with
  | nil => exact trivial
  | cons a as ih =>
    refine ⟨h [] a s (by simp) rfl, ?_⟩
    intro t ht
    apply ih
    intro bs b u hb hu
    exact h (a :: bs) b u (by simpa using hb) (run_cons.mpr ⟨t, ht, hu⟩)

/-- A condition along consecutive runs is one along the first and, from where it ends, along the
second. -/
theorem along_append {C : σ → α → Prop} {s : σ} {as bs : List α} :
    Along step C s (as ++ bs) ↔
      Along step C s as ∧ ∀ t, run step s as = some t → Along step C t bs := by
  induction as generalizing s with
  | nil => simp [Along, run]
  | cons a as ih =>
    simp only [List.cons_append, Along, ih, run_cons]
    constructor
    · rintro ⟨ha, h⟩
      refine ⟨⟨ha, fun t ht ↦ (h t ht).1⟩, ?_⟩
      rintro t ⟨u, hu, ht⟩
      exact (h u hu).2 t ht
    · rintro ⟨⟨ha, h⟩, hbs⟩
      refine ⟨ha, fun t ht ↦ ⟨h t ht, ?_⟩⟩
      intro u hu
      exact hbs u ⟨t, ht, hu⟩

/-- What every step meeting `C` preserves holds after every run that meets `C`. -/
theorem run_invariant {I : σ → Prop} {C : σ → α → Prop}
    (hstep : ∀ s a t, I s → C s a → step s a = some t → I t) {s t : σ} {as : List α} (hs : I s)
    (hc : Along step C s as) (h : run step s as = some t) : I t := by
  induction as generalizing s with
  | nil =>
    cases h
    exact hs
  | cons a as ih =>
    obtain ⟨u, hu, ht⟩ := run_cons.mp h
    exact ih (hstep s a u hs hc.1 hu) (hc.2 u hu) ht

/-- What every step preserves holds after every run. -/
theorem run_induction {I : σ → Prop} (hstep : ∀ s a t, I s → step s a = some t → I t) {s t : σ}
    {as : List α} (hs : I s) (h : run step s as = some t) : I t := by
  induction as generalizing s with
  | nil =>
    cases h
    exact hs
  | cons a as ih =>
    obtain ⟨u, hu, ht⟩ := run_cons.mp h
    exact ih (hstep s a u hs hu) ht

/-- As `run_invariant`, where the states of the run are already known to satisfy `J`. -/
theorem run_invariant_within {I J : σ → Prop} {C : σ → α → Prop} {s t : σ} {as : List α}
    (hJ : ∀ bs u, bs <+: as → run step s bs = some u → J u)
    (hstep : ∀ u a v, J u → I u → C u a → step u a = some v → I v) (hs : I s)
    (hc : Along step C s as) (h : run step s as = some t) : I t := by
  induction as generalizing s with
  | nil =>
    cases h
    exact hs
  | cons a as ih =>
    obtain ⟨u, hu, ht⟩ := run_cons.mp h
    have hI : I u := hstep s a u (hJ [] s List.nil_prefix rfl) hs hc.1 hu
    apply ih ?_ hI (hc.2 u hu) ht
    intro bs v hb hv
    exact hJ (a :: bs) v (List.cons_prefix_cons.mpr ⟨rfl, hb⟩) (run_cons.mpr ⟨u, hu, hv⟩)

end MusicComparer.System
