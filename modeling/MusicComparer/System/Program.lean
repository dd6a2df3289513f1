import Mathlib.Logic.Basic

/-!
# Programs with assertions

Library `System`. A program runs on a state and stops where an assertion fails. `Ensures P p Q` says
that from every state with `P` the program ends, with no assertion failed, in a result and a state
with `Q`.
-/

namespace MusicComparer.System

/-- A program on a state; `none` is a failed assertion. -/
abbrev Program (σ α : Type) := StateT σ Option α

variable {σ α β : Type} {P P' : σ → Prop} {p : Program σ α} {Q Q' : α → σ → Prop}

/-- Stop unless the condition holds. -/
def assert (b : Bool) : Program σ Unit := fun s ↦ if b then some ((), s) else none

/-- Read the state. -/
def read : Program σ σ := fun s ↦ some (s, s)

/-- Total correctness. -/
def Ensures (P : σ → Prop) (p : Program σ α) (Q : α → σ → Prop) : Prop :=
  ∀ s, P s → ∃ a s', p s = some (a, s') ∧ Q a s'

namespace Ensures

/-- Consequence. -/
theorem mono (h : Ensures P p Q) (hP : ∀ s, P' s → P s) (hQ : ∀ a s, Q a s → Q' a s) :
    Ensures P' p Q' := by
  intro s hs
  obtain ⟨a, s', hp, hq⟩ := h s (hP s hs)
  exact ⟨a, s', hp, hQ a s' hq⟩

/-- The result of a program that changes nothing. -/
theorem pure {a : α} (h : ∀ s, P s → Q a s) : Ensures P (Pure.pure a) Q :=
  fun s hs ↦ ⟨a, s, rfl, h s hs⟩

/-- Sequential composition. -/
theorem bind {R : β → σ → Prop} {f : α → Program σ β} (h : Ensures P p Q)
    (hf : ∀ a, Ensures (Q a) (f a) R) : Ensures P (p >>= f) R := by
  intro s hs
  obtain ⟨a, s', hp, hq⟩ := h s hs
  obtain ⟨b, s'', hf, hr⟩ := hf a s' hq
  refine ⟨b, s'', ?_, hr⟩
  change (p s).bind (fun x ↦ f x.1 x.2) = _
  rw [hp]
  exact hf

/-- Reading the state. -/
theorem read_bind {f : σ → Program σ α} (h : ∀ s, P s → Ensures (· = s) (f s) Q) :
    Ensures P (read >>= f) Q := by
  intro s hs
  obtain ⟨a, s', hf, hq⟩ := h s hs s rfl
  exact ⟨a, s', hf, hq⟩

/-- An assertion that holds. -/
theorem assert {b : Bool} {Q : Unit → σ → Prop} (hb : b = true) (h : ∀ s, P s → Q () s) :
    Ensures P (System.assert b) Q := by
  intro s hs
  refine ⟨(), s, ?_, h s hs⟩
  rw [System.assert, if_pos hb]

/-- A fact that does not depend on the state. -/
theorem of_fact {φ : Prop} (h : φ → Ensures P p Q) : Ensures (fun s ↦ φ ∧ P s) p Q :=
  fun s hs ↦ h hs.1 s hs.2

/-- A fact that does not depend on the state is kept. -/
theorem with_fact {φ : Prop} (h : Ensures P p Q) :
    Ensures (fun s ↦ P s ∧ φ) p fun a s ↦ φ ∧ Q a s := by
  rintro s ⟨hs, hφ⟩
  obtain ⟨a, s', hp, hq⟩ := h s hs
  exact ⟨a, s', hp, hφ, hq⟩

/-- A precondition that is about some value. -/
theorem of_exists {ι : Type} {P : ι → σ → Prop} (h : ∀ i, Ensures (P i) p Q) :
    Ensures (fun s ↦ ∃ i, P i s) p Q := by
  rintro s ⟨i, hs⟩
  exact h i s hs

/-- A function of the result. -/
theorem map {f : α → β} {R : β → σ → Prop} (h : Ensures P p fun a ↦ R (f a)) :
    Ensures P (f <$> p) R := by
  intro s hs
  obtain ⟨a, s', hp, hr⟩ := h s hs
  refine ⟨f a, s', ?_, hr⟩
  change (p s).bind (fun x ↦ some (f x.1, x.2)) = _
  rw [hp]
  rfl

/-- Both branches of a condition. -/
theorem ite {c : Prop} [Decidable c] {q : Program σ α} (hp : c → Ensures P p Q)
    (hq : ¬ c → Ensures P q Q) : Ensures P (if c then p else q) Q := by
  split
  · next h => exact hp h
  · next h => exact hq h

end Ensures

end MusicComparer.System
