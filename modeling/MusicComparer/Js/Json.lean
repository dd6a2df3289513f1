import MusicComparer.Js.Number

/-!
# JSON values

Library `Js`. Objects keep their own properties in the enumeration order of ECMA-262:
array-index keys ascending, then the other keys in creation order. `setProperty` is the
ordered insertion, and `WF` says that every object of a value is in that order without
repeated keys. `reload` is the value that printing and parsing give back.
-/

namespace MusicComparer.Js

/-- JSON values over a number type. -/
inductive Json (ν : Type) where
  | null
  | bool (b : Bool)
  | num (n : ν)
  | str (s : JsString)
  | arr (xs : List (Json ν))
  | obj (ps : List (JsString × Json ν))
  deriving Repr

/-- Own properties of an object, in enumeration order. -/
abbrev Properties (ν : Type) := List (JsString × Json ν)

/-- Array-index keys: canonical decimals below `2^32 - 1`. -/
def arrayIndex? (k : JsString) : Option Nat :=
  if digitRun k && integerPart k && readNat k < 4294967295 then some (readNat k)
  else none

/-- A new key is enumerated before an existing one only when it is an array index and the
existing key is none, or a larger one. -/
def insertsBefore (k k' : JsString) : Bool :=
  match arrayIndex? k, arrayIndex? k' with
  | some i, some j => i < j
  | some _, none => true
  | none, _ => false

/-- Enumeration order between two different keys of one object. -/
def KeyBefore (k k' : JsString) : Prop := k ≠ k' ∧ insertsBefore k' k = false

namespace Json

variable {ν : Type}

section Equality

variable [DecidableEq ν]

mutual

/-- Structural comparison. -/
def same : Json ν → Json ν → Bool
  | null, null => true
  | bool a, bool b => a == b
  | num a, num b => a == b
  | str a, str b => a == b
  | arr xs, arr ys => sameList xs ys
  | obj ps, obj qs => sameProperties ps qs
  | _, _ => false

/-- Structural comparison of elements. -/
def sameList : List (Json ν) → List (Json ν) → Bool
  | [], [] => true
  | x :: xs, y :: ys => same x y && sameList xs ys
  | _, _ => false

/-- Structural comparison of properties. -/
def sameProperties : Properties ν → Properties ν → Bool
  | [], [] => true
  | (k, v) :: ps, (l, w) :: qs => k == l && same v w && sameProperties ps qs
  | _, _ => false

end

mutual

private theorem same_iff : (a b : Json ν) → (same a b = true ↔ a = b)
  | null, b => by cases b <;> simp [same]
  | bool _, b => by cases b <;> simp [same]
  | num _, b => by cases b <;> simp [same]
  | str _, b => by cases b <;> simp [same]
  | arr xs, b => by cases b <;> simp [same, sameList_iff xs]
  | obj ps, b => by cases b <;> simp [same, sameProperties_iff ps]

private theorem sameList_iff : (xs ys : List (Json ν)) → (sameList xs ys = true ↔ xs = ys)
  | [], ys => by cases ys <;> simp [sameList]
  | x :: xs, ys => by cases ys <;> simp [sameList, same_iff x, sameList_iff xs]

private theorem sameProperties_iff :
    (ps qs : Properties ν) → (sameProperties ps qs = true ↔ ps = qs)
  | [], qs => by cases qs <;> simp [sameProperties]
  | (k, v) :: ps, qs => by
    cases qs <;> simp [sameProperties, same_iff v, sameProperties_iff ps, Prod.ext_iff]

end

/-- Equality is decided by structural comparison. -/
instance : DecidableEq (Json ν) := fun a b ↦ decidable_of_iff (same a b = true) (same_iff a b)

end Equality

/-- Assign a property: an existing key keeps its place, a new one goes to its position. -/
def setProperty : Properties ν → JsString → Json ν → Properties ν
  | [], k, v => [(k, v)]
  | (k', v') :: ps, k, v =>
    if k' = k then (k, v) :: ps
    else if insertsBefore k k' then (k, v) :: (k', v') :: ps
    else (k', v') :: setProperty ps k v

/-- The object built by assigning the members of an object literal in turn. -/
def ofMembers (ms : List (JsString × Json ν)) : Properties ν :=
  ms.foldl (fun ps m ↦ setProperty ps m.1 m.2) []

/-- Value of an own property. -/
def lookup (ps : Properties ν) (k : JsString) : Option (Json ν) :=
  (ps.find? fun p ↦ p.1 == k).map Prod.snd

/-- Every object of the value lists different keys in enumeration order. -/
inductive WF : Json ν → Prop where
  | null : WF null
  | bool (b : Bool) : WF (bool b)
  | num (n : ν) : WF (num n)
  | str (s : JsString) : WF (str s)
  | arr {xs : List (Json ν)} (h : ∀ x ∈ xs, WF x) : WF (arr xs)
  | obj {ps : Properties ν} (hk : ps.Pairwise fun p q ↦ KeyBefore p.1 q.1)
      (h : ∀ p ∈ ps, WF p.2) : WF (obj ps)

/-- Assigning a key that comes after all the others appends it. -/
theorem setProperty_of_before (ps : Properties ν) (k : JsString) (v : Json ν)
    (h : ∀ p ∈ ps, KeyBefore p.1 k) : setProperty ps k v = ps ++ [(k, v)] := by
  induction ps with
  | nil => rfl
  | cons p ps ih =>
    obtain ⟨hne, hb⟩ := h p (by simp)
    simp only [setProperty, if_neg hne, hb, Bool.false_eq_true, if_false, List.cons_append,
      ih fun q hq ↦ h q (List.mem_cons_of_mem p hq)]

private theorem foldl_setProperty (ps ms : Properties ν)
    (h : (ps ++ ms).Pairwise fun p q ↦ KeyBefore p.1 q.1) :
    ms.foldl (fun ps m ↦ setProperty ps m.1 m.2) ps = ps ++ ms := by
  induction ms generalizing ps with
  | nil => simp
  | cons m ms ih =>
    have hb : ∀ p ∈ ps, KeyBefore p.1 m.1 := fun p hp ↦
      (List.pairwise_append.mp h).2.2 p hp m (by simp)
    rw [List.foldl_cons, setProperty_of_before ps m.1 m.2 hb, ih _ (by simpa using h)]
    simp

/-- Members already in enumeration order are the object's properties. -/
theorem ofMembers_of_pairwise (ms : Properties ν)
    (h : ms.Pairwise fun p q ↦ KeyBefore p.1 q.1) : ofMembers ms = ms :=
  foldl_setProperty [] ms h

private theorem mem_setProperty {ps : Properties ν} {k : JsString} {v : Json ν}
    {q : JsString × Json ν} (h : q ∈ setProperty ps k v) : q = (k, v) ∨ q ∈ ps := by
  induction ps with
  | nil => simpa [setProperty] using h
  | cons p ps ih =>
    simp only [setProperty] at h
    split at h
    · rcases List.mem_cons.mp h with h | h
      · exact Or.inl h
      · exact Or.inr (List.mem_cons_of_mem _ h)
    · split at h
      · simpa using h
      · rcases List.mem_cons.mp h with h | h
        · exact Or.inr (by simp [h])
        · exact (ih h).imp_right (List.mem_cons_of_mem _)

/-- The properties of a built object are among its members. -/
theorem mem_of_mem_ofMembers {ms : List (JsString × Json ν)} {p : JsString × Json ν}
    (h : p ∈ ofMembers ms) : p ∈ ms := by
  have hfold : ∀ (ms ps : Properties ν),
      p ∈ ms.foldl (fun ps m ↦ setProperty ps m.1 m.2) ps → p ∈ ps ∨ p ∈ ms := by
    intro ms
    induction ms with
    | nil => exact fun ps hp ↦ Or.inl hp
    | cons m ms ih =>
      intro ps hp
      rcases ih _ hp with hp | hp
      · rcases mem_setProperty hp with rfl | hp
        · exact Or.inr (by simp)
        · exact Or.inl hp
      · exact Or.inr (List.mem_cons_of_mem m hp)
  exact (hfold ms [] h).resolve_left (by simp)

/-- An index inserted before a key also comes before all that follow it. -/
private theorem keyBefore_of_insertsBefore {k k' x : JsString} (h : insertsBefore k k' = true)
    (hx : k' ≠ k ∧ x = k' ∨ KeyBefore k' x) : KeyBefore k x := by
  refine ⟨?_, ?_⟩
  · rintro rfl
    rcases hx with ⟨hne, rfl⟩ | ⟨-, hb⟩
    · exact hne rfl
    · rw [h] at hb
      exact Bool.noConfusion hb
  simp only [KeyBefore, insertsBefore] at h hx ⊢
  cases hk : arrayIndex? k with
  | none => simp [hk] at h
  | some i =>
    cases hx' : arrayIndex? x with
    | none => rfl
    | some l =>
      rcases hx with ⟨-, rfl⟩ | ⟨-, hb⟩
      · simp only [hk, hx', decide_eq_true_eq] at h
        simpa using Nat.le_of_lt h
      · cases hk' : arrayIndex? k' with
        | none => simp [hx', hk'] at hb
        | some j =>
          simp only [hk, hk', hx', decide_eq_true_eq, decide_eq_false_iff_not] at h hb ⊢
          omega

/-- Assignment keeps the enumeration order. -/
theorem setProperty_pairwise {ps : Properties ν} (k : JsString) (v : Json ν)
    (h : ps.Pairwise fun p q ↦ KeyBefore p.1 q.1) :
    (setProperty ps k v).Pairwise fun p q ↦ KeyBefore p.1 q.1 := by
  induction ps with
  | nil => simp [setProperty]
  | cons p ps ih =>
    obtain ⟨hp, hps⟩ := List.pairwise_cons.mp h
    simp only [setProperty]
    split
    · next he => exact List.pairwise_cons.mpr ⟨fun q hq ↦ by simpa [← he] using hp q hq, hps⟩
    · next hne =>
      split
      · next hb =>
        refine List.pairwise_cons.mpr ⟨?_, h⟩
        intro q hq
        apply keyBefore_of_insertsBefore hb
        rcases List.mem_cons.mp hq with rfl | hq
        · exact Or.inl ⟨hne, rfl⟩
        · exact Or.inr (hp q hq)
      · next hb =>
        refine List.pairwise_cons.mpr ⟨?_, ih hps⟩
        intro q hq
        rcases mem_setProperty hq with rfl | hq
        · exact ⟨hne, by simpa using hb⟩
        · exact hp q hq

section Reload

variable [JsNumber ν]

mutual

/-- The value read back from the printed form: numbers that are not finite print as `null`,
and the others are reread. -/
def reload : Json ν → Json ν
  | null => null
  | bool b => bool b
  | num n => if JsNumber.isFinite n then num (JsNumber.ofString (JsNumber.toStr n)) else null
  | str s => str s
  | arr xs => arr (reloadList xs)
  | obj ps => obj (reloadProperties ps)

/-- `reload` on every element. -/
def reloadList : List (Json ν) → List (Json ν)
  | [] => []
  | x :: xs => reload x :: reloadList xs

/-- `reload` on every property value. -/
def reloadProperties : Properties ν → Properties ν
  | [] => []
  | (k, v) :: ps => (k, reload v) :: reloadProperties ps

end

/-- Element-wise reloading is a map. -/
theorem reloadList_eq (xs : List (Json ν)) : reloadList xs = xs.map reload := by
  induction xs with
  | nil => rfl
  | cons x xs ih => rw [reloadList, ih, List.map_cons]

/-- Property-wise reloading is a map that keeps the keys. -/
theorem reloadProperties_eq (ps : Properties ν) :
    reloadProperties ps = ps.map fun p ↦ (p.1, reload p.2) := by
  induction ps with
  | nil => rfl
  | cons p ps ih => rw [reloadProperties, ih, List.map_cons]

/-- Reloading an object reloads what each key holds. -/
theorem lookup_reloadProperties (ps : Properties ν) (k : JsString) :
    lookup (reloadProperties ps) k = (lookup ps k).map reload := by
  rw [reloadProperties_eq, lookup, lookup, List.find?_map, Option.map_map, Option.map_map]
  rfl

mutual

/-- Reloading a reloaded value changes nothing. -/
theorem reload_reload : (j : Json ν) → reload (reload j) = reload j
  | null | bool _ | str _ => rfl
  | num n => by
    simp only [reload]
    split
    · next h =>
      simp only [reload, JsNumber.reread_finite n h, if_true, JsNumber.reread_toStr n h]
    · rfl
  | arr xs => by rw [reload, reload, reload_reloadList]
  | obj ps => by rw [reload, reload, reload_reloadProperties]

private theorem reload_reloadList :
    (xs : List (Json ν)) → reloadList (reloadList xs) = reloadList xs
  | [] => rfl
  | x :: xs => by rw [reloadList, reloadList, reload_reload, reload_reloadList]

private theorem reload_reloadProperties :
    (ps : Properties ν) → reloadProperties (reloadProperties ps) = reloadProperties ps
  | [] => rfl
  | (k, v) :: ps => by
    rw [reloadProperties, reloadProperties, reload_reload, reload_reloadProperties]

end

/-- Reloading keeps well-formedness: keys and their order stay. -/
theorem WF.reload {j : Json ν} (h : WF j) : WF j.reload := by
  induction h with
  | null => exact WF.null
  | bool b => exact WF.bool b
  | num n =>
    rw [Json.reload]
    split
    · exact WF.num _
    · exact WF.null
  | str s => exact WF.str s
  | arr _ ih =>
    rw [Json.reload, reloadList_eq]
    apply WF.arr
    simpa using ih
  | obj hk _ ih =>
    rw [Json.reload, reloadProperties_eq]
    apply WF.obj
    · exact List.pairwise_map.mpr hk
    · intro q hq
      obtain ⟨p, hp, rfl⟩ := List.mem_map.mp hq
      exact ih p hp

end Reload

/-- Building an object from well-formed members gives a well-formed object. -/
theorem wf_ofMembers {ms : List (JsString × Json ν)} (h : ∀ m ∈ ms, WF m.2) :
    WF (obj (ofMembers ms)) := by
  have hfold : ∀ (ms ps : Properties ν), (ps.Pairwise fun p q ↦ KeyBefore p.1 q.1) →
      (ms.foldl (fun ps m ↦ setProperty ps m.1 m.2) ps).Pairwise fun p q ↦ KeyBefore p.1 q.1 := by
    intro ms
    induction ms with
    | nil => exact fun ps hps ↦ hps
    | cons m ms ih => exact fun ps hps ↦ ih _ (setProperty_pairwise m.1 m.2 hps)
  exact WF.obj (hfold ms [] List.Pairwise.nil) fun p hp ↦ h p (mem_of_mem_ofMembers hp)

end Json
end MusicComparer.Js
