import Mathlib.Data.List.Basic

/-!
# Regular expressions

Library `Js`. Patterns of ECMA-262 whose quantifiers stand on classes of units, without flags. The
ways to match at a position are listed in the order in which the matcher tries them: a quantifier is
greedy, and gives units back when the rest of the pattern fails. The leftmost position with a match
wins, and there the first way. The units are of any type.
-/

namespace MusicComparer.Js

variable {α : Type}

/-- A pattern: a quantified class of units, a sequence, or a capture group. A quantifier without a
greatest number has `none`. -/
inductive Pattern (α : Type) where
  | repeated (p : α → Bool) (least : Nat) (most : Option Nat)
  | seq (a b : Pattern α)
  | group (a : Pattern α)

/-- A way to match: what is matched, the captures in the order of their groups, and what is left of
the input. -/
structure Match (α : Type) where
  text : List α
  captures : List (List α)
  rest : List α

/-- The units of a class at the start of the input, as many as there are first, and what is left. -/
def greedy (p : α → Bool) : List α → List (List α × List α)
  | [] => [([], [])]
  | c :: cs =>
    if p c then (greedy p cs).map (fun m ↦ (c :: m.1, m.2)) ++ [([], c :: cs)]
    else [([], c :: cs)]

namespace Pattern

/-- The ways to match at the start of the input, in order. -/
def attempts : Pattern α → List α → List (Match α)
  | repeated p least most, s =>
    ((greedy p s).filter fun m ↦ least ≤ m.1.length && most.all (m.1.length ≤ ·)).map
      fun m ↦ ⟨m.1, [], m.2⟩
  | seq a b, s =>
    (a.attempts s).flatMap fun m ↦ (b.attempts m.rest).map fun n ↦
      ⟨m.text ++ n.text, m.captures ++ n.captures, n.rest⟩
  | group a, s => (a.attempts s).map fun m ↦ { m with captures := m.text :: m.captures }

/-- `RegExp.prototype.exec`: what stands before the leftmost match, and the match. -/
def exec (r : Pattern α) : List α → Option (List α × Match α)
  | [] => (r.attempts []).head?.map ([], ·)
  | c :: cs =>
    match (r.attempts (c :: cs)).head? with
    | some m => some ([], m)
    | none => (r.exec cs).map fun x ↦ (c :: x.1, x.2)

/-- `RegExp.prototype.test`. -/
def test (r : Pattern α) (s : List α) : Bool := (r.exec s).isSome

end Pattern

/-- A part of a replacement text: units, or `$n` for one of the groups. -/
inductive Substitute (α : Type) where
  | text (s : List α)
  | capture (n : Nat)

/-- The replacement text for a match. -/
def Match.expand (m : Match α) (template : List (Substitute α)) : List α :=
  template.flatMap fun
    | .text s => s
    | .capture n => m.captures.getD (n - 1) []

namespace Pattern

/-- `String.prototype.replace` of the leftmost match. -/
def replace (r : Pattern α) (template : List (Substitute α)) (s : List α) : List α :=
  match r.exec s with
  | some (before, m) => before ++ m.expand template ++ m.rest
  | none => s

/-! ### A run and its last units -/

variable (p : α → Bool)

/-- The split has exactly this many units. -/
private def takes (k : Nat) (m : List α × List α) : Bool :=
  k ≤ m.1.length && (some k).all (m.1.length ≤ ·)

/-- A fixed number of units of a class is matched in one way, or in none. -/
private theorem filter_takes (k : Nat) (s : List α) :
    (greedy p s).filter (takes k) =
      if k ≤ (s.takeWhile p).length then [(s.take k, s.drop k)] else [] := by
  induction s generalizing k with
  | nil => cases k <;> simp [greedy, takes]
  | cons c cs ih =>
    rw [greedy, List.takeWhile_cons]
    split
    · rw [List.filter_append, List.filter_map]
      cases k with
      | zero => simp [Function.comp_def, takes]
      | succ k =>
        have hcons : takes (k + 1) ∘ (fun m : List α × List α ↦ (c :: m.1, m.2)) = takes k := by
          funext m
          simp [takes]
        have hnil : takes (k + 1) (([], c :: cs) : List α × List α) = false := rfl
        rw [hcons, ih k, List.filter_cons_of_neg (by simp [hnil]), List.filter_nil,
          List.append_nil, List.length_cons]
        by_cases hk : k ≤ (cs.takeWhile p).length
        · rw [if_pos hk, if_pos (by omega)]
          rfl
        · rw [if_neg hk, if_neg (by omega)]
          rfl
    · cases k <;> simp [takes]

/-- The split has this many units at least, and then there are enough of the class. -/
private def leaves (least k : Nat) (m : List α × List α) : Bool :=
  least ≤ m.1.length && k ≤ (m.2.takeWhile p).length

private theorem find_leaves_nil (least k : Nat) (s : List α) :
    [([], s)].find? (leaves p least k) =
      if least = 0 ∧ k ≤ (s.takeWhile p).length then some ([], s) else none := by
  simp [leaves, List.find?_singleton]

/-- The first split of a run that leaves enough units leaves no more than that. -/
private theorem find_leaves (least k : Nat) (s : List α) :
    (greedy p s).find? (leaves p least k) =
      if least + k ≤ (s.takeWhile p).length then
        some (s.take ((s.takeWhile p).length - k), s.drop ((s.takeWhile p).length - k))
      else none := by
  induction s generalizing least with
  | nil =>
    rw [greedy, find_leaves_nil]
    simp
  | cons c cs ih =>
    have hrun := List.takeWhile_cons (p := p) (a := c) (l := cs)
    rw [greedy]
    split at hrun
    · next hc =>
      have hcons : leaves p least k ∘ (fun m : List α × List α ↦ (c :: m.1, m.2)) =
          leaves p (least - 1) k := by
        funext m
        simp [leaves]
      rw [if_pos hc, List.find?_append, List.find?_map, hcons, ih (least - 1), find_leaves_nil,
        hrun, List.length_cons]
      by_cases hk : least - 1 + k ≤ (cs.takeWhile p).length
      · have hlen : (cs.takeWhile p).length + 1 - k = (cs.takeWhile p).length - k + 1 := by omega
        have hle : least + k ≤ (cs.takeWhile p).length + 1 := by omega
        rw [if_pos hk, if_pos hle, hlen]
        rfl
      · rw [if_neg hk, Option.map_none, Option.none_or]
        by_cases hl : least = 0 ∧ k ≤ (cs.takeWhile p).length + 1
        · have hlen : (cs.takeWhile p).length + 1 - k = 0 := by omega
          have hle : least + k ≤ (cs.takeWhile p).length + 1 := by omega
          rw [if_pos hl, if_pos hle, hlen]
          rfl
        · rw [if_neg hl, if_neg (by omega)]
    · next hc =>
      rw [if_neg hc, find_leaves_nil, hrun]
      simp

/-- `(p+)(p{k})`. -/
def runs (k : Nat) : Pattern α :=
  .seq (.group (.repeated p 1 none)) (.group (.repeated p k (some k)))

private theorem attempts_exact (k : Nat) (s : List α) :
    (group (.repeated p k (some k))).attempts s =
      if k ≤ (s.takeWhile p).length then [⟨s.take k, [s.take k], s.drop k⟩] else [] := by
  have h := filter_takes p k s
  unfold takes at h
  rw [attempts, attempts, h]
  split <;> rfl

private theorem head_flatMap_ite {β γ : Type} (q : β → Prop) [DecidablePred q] (g : β → γ)
    (l : List β) :
    (l.flatMap fun x ↦ if q x then [g x] else []).head? = (l.find? fun x ↦ q x).map g := by
  induction l with
  | nil => rfl
  | cons x l ih =>
    rw [List.flatMap_cons, List.find?_cons]
    by_cases hx : q x
    · rw [if_pos hx, decide_eq_true hx]
      rfl
    · rw [if_neg hx, decide_eq_false hx]
      exact ih

/-- The first way to match `(p+)(p{k})` is at the first split that leaves enough. -/
private theorem head_attempts_runs (k : Nat) (s : List α) :
    ((runs p k).attempts s).head? = ((greedy p s).find? (leaves p 1 k)).map fun m ↦
      ⟨m.1 ++ m.2.take k, [m.1, m.2.take k], m.2.drop k⟩ := by
  have hleaves : (fun m : List α × List α ↦ decide ((decide (1 ≤ m.1.length) &&
      Option.all (m.1.length ≤ ·) none) = true ∧
        decide (k ≤ (m.2.takeWhile p).length) = true)) = leaves p 1 k := by
    funext m
    simp [leaves]
  rw [runs, attempts]
  simp only [attempts_exact]
  rw [attempts, attempts, List.map_map, List.flatMap_map]
  simp only [Function.comp_apply, apply_ite, List.map_cons, List.map_nil]
  rw [head_flatMap_ite, List.find?_filter, hleaves]
  rfl

/-- At a position, `(p+)(p{k})` matches the whole run if it has more than `k` units, and the second
group gets the last `k` of them. -/
theorem attempts_runs (k : Nat) (s : List α) :
    ((runs p k).attempts s).head? =
      let run := s.takeWhile p
      if k < run.length then
        some ⟨run, [run.take (run.length - k), run.drop (run.length - k)], s.dropWhile p⟩
      else none := by
  rw [head_attempts_runs, find_leaves]
  have hs : s.takeWhile p ++ s.dropWhile p = s := List.takeWhile_append_dropWhile
  generalize s.takeWhile p = run at hs
  generalize s.dropWhile p = rest at hs
  subst hs
  by_cases hk : k < run.length
  · have hk' : 1 + k ≤ run.length := by omega
    have htake : (run ++ rest).take (run.length - k) = run.take (run.length - k) :=
      List.take_append_of_le_length (by omega)
    have hdrop : (run ++ rest).drop (run.length - k) = run.drop (run.length - k) ++ rest :=
      List.drop_append_of_le_length (by omega)
    have hlast : (run.drop (run.length - k)).length = k := by
      rw [List.length_drop]
      omega
    have hgroup : (run.drop (run.length - k) ++ rest).take k = run.drop (run.length - k) :=
      List.take_left' hlast
    have hrest : (run.drop (run.length - k) ++ rest).drop k = rest := List.drop_left' hlast
    rw [if_pos hk']
    simp only [hk, if_true, Option.map_some, htake, hdrop, hgroup, hrest, List.take_append_drop]
  · have hk' : ¬ 1 + k ≤ run.length := by omega
    simp only [hk, if_false, if_neg hk', Option.map_none]

end Pattern
end MusicComparer.Js
