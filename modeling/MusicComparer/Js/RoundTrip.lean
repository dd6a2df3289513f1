import MusicComparer.Js.JsonText

/-!
# Printing and parsing JSON

Library `Js`. The parser reads every printed well-formed value back as its `reload`, and
accepts only well-formed values; over a lawful number type parsing undoes printing on every
value that was itself parsed.
-/

namespace MusicComparer.Js.Json

variable {ν : Type} [JsNumber ν]

/-! ### Strings -/

private theorem hexValue_hexDigit (d : Nat) (h : d < 16) : hexValue (hexDigit d) = some d := by
  revert h
  revert d
  decide

private theorem hexUnit_control (c : UInt16) (h : c < 32) :
    hexUnit 48 48 (hexDigit (c.toNat / 16)) (hexDigit (c.toNat % 16)) = some c := by
  have hz : hexValue 48 = some 0 := by decide
  have hlt : c.toNat < 32 := by simpa [UInt16.lt_iff_toNat_lt] using h
  have hc : ((0 * 16 + 0) * 16 + c.toNat / 16) * 16 + c.toNat % 16 = c.toNat := by omega
  simp only [hexUnit, hz, hexValue_hexDigit (c.toNat / 16) (by omega),
    hexValue_hexDigit (c.toNat % 16) (by omega), Option.bind_eq_bind, Option.bind_some, hc]
  exact congrArg some (UInt16.ofNat_toNat)

private theorem stringTail_escapeUnit (c : UInt16) (r : JsString) :
    stringTail (escapeUnit c ++ r) = (stringTail r).map fun p ↦ (c :: p.1, p.2) := by
  have hshort : ∀ e u : UInt16, e ≠ 117 → shortEscape e = some u →
      stringTail (92 :: e :: r) = (stringTail r).map fun p ↦ (u :: p.1, p.2) := by
    intro e u he hu
    rw [stringTail.eq_def]
    simp only [show ¬ (92 : UInt16) = 34 by decide, if_false, if_true, if_neg he, hu,
      Option.bind_eq_bind, Option.bind_some]
    cases stringTail r <;> rfl
  unfold escapeUnit
  split
  · next h => subst h; exact hshort 34 34 (by decide) (by decide)
  split
  · next h => subst h; exact hshort 92 92 (by decide) (by decide)
  split
  · next h => subst h; exact hshort 98 8 (by decide) (by decide)
  split
  · next h => subst h; exact hshort 102 12 (by decide) (by decide)
  split
  · next h => subst h; exact hshort 110 10 (by decide) (by decide)
  split
  · next h => subst h; exact hshort 114 13 (by decide) (by decide)
  split
  · next h => subst h; exact hshort 116 9 (by decide) (by decide)
  split
  · next h =>
    simp only [List.cons_append, List.nil_append]
    rw [stringTail.eq_def]
    simp only [show ¬ (92 : UInt16) = 34 by decide, if_false, if_true, hexUnit_control c h,
      Option.bind_eq_bind, Option.bind_some]
    cases stringTail r <;> rfl
  · next hq hb _ _ _ _ _ hc =>
    cases r with
    | nil => simp [stringTail, hq]
    | cons e r =>
      rw [List.cons_append, List.nil_append, stringTail.eq_def]
      simp only [if_neg hq, if_neg hb, if_neg hc]
      cases stringTail (e :: r) <;> rfl

/-- A quoted string is read back, and the text after it is kept. -/
theorem stringTail_quoteTail (s r : JsString) : stringTail (quoteTail s ++ r) = some (s, r) := by
  rw [quoteTail, List.append_assoc]
  induction s with
  | nil =>
    rw [List.flatMap_nil, List.nil_append, List.cons_append, List.nil_append, stringTail.eq_def]
    cases r <;> rfl
  | cons c s ih =>
    rw [List.flatMap_cons, List.append_assoc, stringTail_escapeUnit, ih]
    rfl

/-! ### Numbers and words -/

/-- Texts that may follow a printed value: no number goes on into them. -/
def Stops (r : JsString) : Prop := ∀ c ∈ r.head?, isNumberUnit c = false

private theorem stops_cons {c : UInt16} (h : isNumberUnit c = false) (r : JsString) :
    Stops (c :: r) := by
  intro d hd
  rw [List.head?_cons, Option.mem_some_iff] at hd
  exact hd ▸ h

private theorem takeWhile_stops {l r : JsString} (hl : ∀ c ∈ l, isNumberUnit c = true)
    (hr : Stops r) : (l ++ r).takeWhile isNumberUnit = l := by
  rw [List.takeWhile_append_of_pos hl]
  cases r with
  | nil => simp
  | cons c r => simp [hr c (by simp)]

private theorem dropWhile_stops {l r : JsString} (hl : ∀ c ∈ l, isNumberUnit c = true)
    (hr : Stops r) : (l ++ r).dropWhile isNumberUnit = r := by
  rw [List.dropWhile_append_of_pos hl]
  cases r with
  | nil => rfl
  | cons c r => simp [hr c (by simp)]

private theorem number_lexeme {l r : JsString} (hl : isNumberLexeme l = true) (hr : Stops r) :
    number (ν := ν) (l ++ r) = some (JsNumber.ofString l, r) := by
  have hu := isNumberLexeme_units hl
  rw [number, takeWhile_stops hu hr, dropWhile_stops hu hr, if_pos hl]

private theorem word_append (w r : JsString) : word w (w ++ r) = some r := by
  rw [word, if_pos (List.prefix_append w r), List.drop_left]

private theorem skipSpace_cons {c : UInt16} (h : isJsonSpace c = false) (r : JsString) :
    skipSpace (c :: r) = c :: r := by
  simp [skipSpace, h]

private theorem value_number {l r : JsString} (hl : isNumberLexeme l = true) (hr : Stops r)
    (n : Nat) : value (ν := ν) (n + 1) (l ++ r) = some (num (JsNumber.ofString l), r) := by
  obtain ⟨c, l', rfl, hc⟩ := isNumberLexeme_head hl
  have hne : ∀ d : UInt16, isDigit d = false → d ≠ 45 → c ≠ d := by
    rintro d hd hm rfl
    rcases hc with hc | hc
    · rw [hd] at hc
      exact Bool.noConfusion hc
    · exact hm hc
  have hs : isJsonSpace c = false := by
    simp only [isJsonSpace, Bool.or_eq_false_iff, beq_eq_false_iff_ne]
    exact ⟨⟨⟨hne 9 (by decide) (by decide), hne 10 (by decide) (by decide)⟩,
      hne 13 (by decide) (by decide)⟩, hne 32 (by decide) (by decide)⟩
  have hv := number_lexeme (ν := ν) hl hr
  rw [value, List.cons_append, skipSpace_cons hs]
  simp only [if_neg (hne 34 (by decide) (by decide)), if_neg (hne 91 (by decide) (by decide)),
    if_neg (hne 123 (by decide) (by decide)), if_neg (hne 110 (by decide) (by decide)),
    if_neg (hne 116 (by decide) (by decide)), if_neg (hne 102 (by decide) (by decide))]
  rw [List.cons_append] at hv
  rw [hv]
  rfl

private theorem value_null (r : JsString) (n : Nat) :
    value (ν := ν) (n + 1) (js "null" ++ r) = some (null, r) := by
  have hw := word_append (js "null") r
  rw [show js "null" ++ r = 110 :: 117 :: 108 :: 108 :: r from rfl] at hw ⊢
  rw [value, skipSpace_cons (by decide)]
  simp only [hw, show ¬ (110 : UInt16) = 34 by decide, show ¬ (110 : UInt16) = 91 by decide,
    show ¬ (110 : UInt16) = 123 by decide, if_false, if_true]
  rfl

private theorem value_bool (b : Bool) (r : JsString) (n : Nat) :
    value (ν := ν) (n + 1) (stringify (ν := ν) (bool b) ++ r) = some (bool b, r) := by
  cases b with
  | true =>
    have hw := word_append (js "true") r
    rw [stringify]
    rw [show js "true" ++ r = 116 :: 114 :: 117 :: 101 :: r from rfl] at hw ⊢
    rw [value, skipSpace_cons (by decide)]
    simp only [hw, show ¬ (116 : UInt16) = 34 by decide, show ¬ (116 : UInt16) = 91 by decide,
      show ¬ (116 : UInt16) = 123 by decide, show ¬ (116 : UInt16) = 110 by decide, if_false,
      if_true]
    rfl
  | false =>
    have hw := word_append (js "false") r
    rw [stringify]
    rw [show js "false" ++ r = 102 :: 97 :: 108 :: 115 :: 101 :: r from rfl] at hw ⊢
    rw [value, skipSpace_cons (by decide)]
    simp only [hw, show ¬ (102 : UInt16) = 34 by decide, show ¬ (102 : UInt16) = 91 by decide,
      show ¬ (102 : UInt16) = 123 by decide, show ¬ (102 : UInt16) = 110 by decide,
      show ¬ (102 : UInt16) = 116 by decide, if_false, if_true]
    rfl

/-! ### Values -/

private theorem digit_head {c : UInt16} (h : isDigit c = true ∨ c = 45) :
    c ≠ 93 ∧ isJsonSpace c = false := by
  rcases h with h | rfl
  · simp only [isDigit, Bool.and_eq_true, decide_eq_true_eq, UInt16.le_iff_toNat_le,
      UInt16.reduceToNat] at h
    simp only [isJsonSpace, Bool.or_eq_false_iff, beq_eq_false_iff_ne, ne_eq, ← UInt16.toNat_inj,
      UInt16.reduceToNat]
    omega
  · decide

/-- A printed value starts with a unit that is neither white space nor a closing bracket. -/
private theorem stringify_head (j : Json ν) :
    ∃ c r, stringify j = c :: r ∧ c ≠ 93 ∧ isJsonSpace c = false := by
  cases j with
  | null => exact ⟨110, _, rfl, by decide, by decide⟩
  | bool b => cases b <;> rw [stringify] <;> exact ⟨_, _, rfl, by decide, by decide⟩
  | num n =>
    rw [stringify]
    split
    · next h =>
      obtain ⟨c, r, hs, hc⟩ := isNumberLexeme_head (JsNumber.toStr_lexeme n h)
      exact ⟨c, r, hs, digit_head hc⟩
    · exact ⟨110, _, rfl, by decide, by decide⟩
  | str s => exact ⟨34, _, by rw [stringify], by decide, by decide⟩
  | arr xs => cases xs <;> rw [stringify] <;> exact ⟨_, _, rfl, by decide, by decide⟩
  | obj ps => cases ps <;> rw [stringify] <;> exact ⟨_, _, rfl, by decide, by decide⟩

/-- The reading property of one value: enough fuel recovers the reloaded value before any text
that ends a number. -/
private def Reads (j : Json ν) : Prop :=
  ∀ n r, (stringify j).length ≤ n → Stops r → value n (stringify j ++ r) = some (reload j, r)

private theorem stops_elements (xs : List (Json ν)) (r : JsString) :
    Stops (stringifyElements xs ++ r) := by
  cases xs <;> rw [stringifyElements] <;> exact stops_cons (by decide) _

private theorem stops_members (ps : Properties ν) (r : JsString) :
    Stops (stringifyMembers ps ++ r) := by
  rcases ps with _ | ⟨⟨k, v⟩, ps⟩ <;> rw [stringifyMembers] <;> exact stops_cons (by decide) _

private theorem elements_stringify (xs : List (Json ν)) (hx : ∀ x ∈ xs, Reads x) (n : Nat)
    (r : JsString) (hn : (stringifyElements xs).length ≤ n) :
    elements n (stringifyElements xs ++ r) = some (reloadList xs, r) := by
  induction xs generalizing n with
  | nil =>
    rw [stringifyElements] at hn ⊢
    obtain ⟨n, rfl⟩ : ∃ m, n = m + 1 := Nat.exists_eq_add_of_le' hn
    rfl
  | cons x xs ih =>
    rw [stringifyElements] at hn ⊢
    simp only [List.length_cons, List.length_append] at hn
    obtain ⟨n, rfl⟩ : ∃ m, n = m + 1 := Nat.exists_eq_add_of_le' (Nat.le_trans (by omega) hn)
    have hv := hx x (by simp) n (stringifyElements xs ++ r) (by omega) (stops_elements xs r)
    have ht := ih (fun y hy ↦ hx y (by simp [hy])) n (by omega)
    rw [List.cons_append, List.append_assoc, elements, skipSpace_cons (by decide)]
    simp only [show ¬ (44 : UInt16) = 93 by decide, if_false, if_true, hv, ht, Option.bind_eq_bind,
      Option.bind_some, reloadList]
    rfl

private theorem member_stringify (k : JsString) (v : Json ν) (hv : Reads v) (n : Nat)
    (r : JsString) (hn : (quoteTail k).length + (stringify v).length + 1 ≤ n) (hr : Stops r) :
    member n (34 :: (quoteTail k ++ 58 :: (stringify v ++ r))) = some ((k, reload v), r) := by
  obtain ⟨n, rfl⟩ : ∃ m, n = m + 1 := Nat.exists_eq_add_of_le' (Nat.le_trans (by omega) hn)
  rw [member, skipSpace_cons (by decide)]
  simp only [if_true, stringTail_quoteTail, Option.bind_eq_bind, Option.bind_some,
    skipSpace_cons (c := 58) (by decide), hv n r (by omega) hr]
  rfl

private theorem members_stringify (ps : Properties ν) (hp : ∀ p ∈ ps, Reads p.2) (n : Nat)
    (r : JsString) (hn : (stringifyMembers ps).length ≤ n) :
    members n (stringifyMembers ps ++ r) = some (reloadProperties ps, r) := by
  induction ps generalizing n with
  | nil =>
    rw [stringifyMembers] at hn ⊢
    obtain ⟨n, rfl⟩ : ∃ m, n = m + 1 := Nat.exists_eq_add_of_le' hn
    rfl
  | cons p ps ih =>
    obtain ⟨k, v⟩ := p
    rw [stringifyMembers] at hn ⊢
    simp only [List.length_cons, List.length_append] at hn
    obtain ⟨n, rfl⟩ : ∃ m, n = m + 1 := Nat.exists_eq_add_of_le' (Nat.le_trans (by omega) hn)
    have hm := member_stringify k v (hp (k, v) (by simp)) n (stringifyMembers ps ++ r) (by omega)
      (stops_members ps r)
    have ht := ih (fun q hq ↦ hp q (by simp [hq])) n (by omega)
    simp only [List.cons_append, List.append_assoc]
    rw [members, skipSpace_cons (by decide)]
    simp only [show ¬ (44 : UInt16) = 125 by decide, if_false, if_true, hm, ht,
      Option.bind_eq_bind, Option.bind_some, reloadProperties]
    rfl

private theorem reads_arr (xs : List (Json ν)) (hx : ∀ x ∈ xs, Reads x) : Reads (arr xs) := by
  intro n r hn _
  cases xs with
  | nil =>
    rw [stringify] at hn ⊢
    obtain ⟨n, rfl⟩ : ∃ m, n = m + 1 := Nat.exists_eq_add_of_le' (Nat.le_trans (by simp) hn)
    rfl
  | cons x xs =>
    rw [stringify] at hn ⊢
    simp only [List.length_cons, List.length_append] at hn
    obtain ⟨n, rfl⟩ : ∃ m, n = m + 1 := Nat.exists_eq_add_of_le' (Nat.le_trans (by omega) hn)
    have hv := hx x (by simp) n (stringifyElements xs ++ r) (by omega) (stops_elements xs r)
    have ht := elements_stringify xs (fun y hy ↦ hx y (by simp [hy])) n r (by omega)
    obtain ⟨c, t, hs, hne, hsp⟩ := stringify_head x
    rw [List.cons_append, List.append_assoc, value, skipSpace_cons (by decide)]
    rw [hs, List.cons_append] at hv ⊢
    simp only [show ¬ (91 : UInt16) = 34 by decide, if_false, if_true, skipSpace_cons hsp,
      if_neg hne, hv, ht, Option.bind_eq_bind, Option.bind_some, reload, reloadList]
    rfl

private theorem reads_obj (ps : Properties ν) (hk : ps.Pairwise fun p q ↦ KeyBefore p.1 q.1)
    (hp : ∀ p ∈ ps, Reads p.2) : Reads (obj ps) := by
  intro n r hn _
  cases ps with
  | nil =>
    rw [stringify] at hn ⊢
    obtain ⟨n, rfl⟩ : ∃ m, n = m + 1 := Nat.exists_eq_add_of_le' (Nat.le_trans (by simp) hn)
    rfl
  | cons p ps =>
    obtain ⟨k, v⟩ := p
    rw [stringify] at hn ⊢
    simp only [List.length_cons, List.length_append] at hn
    obtain ⟨n, rfl⟩ : ∃ m, n = m + 1 := Nat.exists_eq_add_of_le' (Nat.le_trans (by omega) hn)
    have hm := member_stringify k v (hp (k, v) (by simp)) n (stringifyMembers ps ++ r) (by omega)
      (stops_members ps r)
    have ht := members_stringify ps (fun q hq ↦ hp q (by simp [hq])) n r (by omega)
    -- The members were printed in enumeration order, so building the object keeps them as is.
    have ho : ofMembers ((k, reload v) :: reloadProperties ps) =
        (k, reload v) :: reloadProperties ps := by
      apply ofMembers_of_pairwise
      have hmap : (k, reload v) :: reloadProperties ps =
          ((k, v) :: ps).map fun p ↦ (p.1, reload p.2) := by
        rw [reloadProperties_eq, List.map_cons]
      rw [hmap]
      exact List.pairwise_map.mpr hk
    simp only [List.cons_append, List.append_assoc]
    rw [value, skipSpace_cons (by decide)]
    simp only [show ¬ (123 : UInt16) = 34 by decide, show ¬ (123 : UInt16) = 91 by decide,
      if_false, if_true, skipSpace_cons (c := 34) (by decide), show ¬ (34 : UInt16) = 125 by decide,
      hm, ht, Option.bind_eq_bind, Option.bind_some, ho, reload, reloadProperties]
    rfl

private theorem reads_of_wf {j : Json ν} (h : WF j) : Reads j := by
  induction h with
  | null =>
    intro n r hn _
    rw [stringify] at hn ⊢
    obtain ⟨n, rfl⟩ : ∃ m, n = m + 1 := Nat.exists_eq_add_of_le' (Nat.le_trans (by decide) hn)
    exact value_null r n
  | bool b =>
    intro n r hn _
    obtain ⟨n, rfl⟩ : ∃ m, n = m + 1 :=
      Nat.exists_eq_add_of_le' (Nat.le_trans (by cases b <;> rw [stringify] <;> decide) hn)
    exact value_bool b r n
  | num m =>
    intro n r hn hr
    obtain ⟨c, t, hs, -⟩ := stringify_head (num m)
    rw [hs, List.length_cons] at hn
    obtain ⟨n, rfl⟩ : ∃ m, n = m + 1 := Nat.exists_eq_add_of_le' (Nat.le_trans (by omega) hn)
    rw [stringify, reload]
    split
    · next h => exact value_number (JsNumber.toStr_lexeme m h) hr n
    · exact value_null r n
  | str s =>
    intro n r hn _
    rw [stringify] at hn ⊢
    obtain ⟨n, rfl⟩ : ∃ m, n = m + 1 := Nat.exists_eq_add_of_le' (Nat.le_trans (by simp) hn)
    rw [List.cons_append, value, skipSpace_cons (by decide)]
    simp only [if_true, stringTail_quoteTail]
    rfl
  | arr _ ih => exact reads_arr _ ih
  | obj hk _ ih => exact reads_obj _ hk ih

/-! ### Parsed values -/

section Parsed

variable {P : Json ν → Prop}

/-- What the parser may build from parts that satisfy `P` satisfies `P`. -/
private structure Builds (P : Json ν → Prop) : Prop where
  null : P null
  bool : ∀ b, P (bool b)
  str : ∀ s, P (str s)
  num : ∀ s, isNumberLexeme s = true → P (num (JsNumber.ofString s))
  arr : ∀ xs, (∀ x ∈ xs, P x) → P (arr xs)
  obj : ∀ ms, (∀ m ∈ ms, P m.2) → P (obj (ofMembers ms))

/-- The four parser functions at one amount of fuel. -/
private structure BuildsAt (P : Json ν → Prop) (n : Nat) : Prop where
  value : ∀ s j r, value n s = some (j, r) → P j
  elements : ∀ s xs r, elements n s = some (xs, r) → ∀ x ∈ xs, P x
  member : ∀ s m r, member n s = some (m, r) → P m.2
  members : ∀ s ms r, members n s = some (ms, r) → ∀ m ∈ ms, P m.2

private theorem value_builds (hP : Builds P) {n : Nat} (ih : BuildsAt P n) (s : JsString)
    (j : Json ν) (r : JsString) (h : value (n + 1) s = some (j, r)) : P j := by
  rw [value] at h
  split at h
  · cases h
  split at h
  · obtain ⟨p, -, he⟩ := Option.map_eq_some_iff.mp h
    cases he
    exact hP.str _
  split at h
  · split at h
    · cases h
    split at h
    · cases h
      exact hP.arr [] (by simp)
    · simp only [Option.bind_eq_bind, Option.bind_eq_some_iff] at h
      obtain ⟨⟨x, r₁⟩, hx, ⟨xs, r₂⟩, hxs, he⟩ := h
      cases he
      refine hP.arr _ fun y hy ↦ ?_
      rcases List.mem_cons.mp hy with rfl | hy
      · exact ih.value _ _ _ hx
      · exact ih.elements _ _ _ hxs y hy
  split at h
  · split at h
    · cases h
    split at h
    · cases h
      exact hP.obj [] (by simp)
    · simp only [Option.bind_eq_bind, Option.bind_eq_some_iff] at h
      obtain ⟨⟨m, r₁⟩, hm, ⟨ms, r₂⟩, hms, he⟩ := h
      cases he
      refine hP.obj _ fun q hq ↦ ?_
      rcases List.mem_cons.mp hq with rfl | hq
      · exact ih.member _ _ _ hm
      · exact ih.members _ _ _ hms q hq
  split at h
  · obtain ⟨t, -, he⟩ := Option.map_eq_some_iff.mp h
    cases he
    exact hP.null
  split at h
  · obtain ⟨t, -, he⟩ := Option.map_eq_some_iff.mp h
    cases he
    exact hP.bool true
  split at h
  · obtain ⟨t, -, he⟩ := Option.map_eq_some_iff.mp h
    cases he
    exact hP.bool false
  · obtain ⟨p, hp, he⟩ := Option.map_eq_some_iff.mp h
    cases he
    rw [number] at hp
    split at hp
    · next hl =>
      cases hp
      exact hP.num _ hl
    · cases hp

private theorem elements_builds {n : Nat} (ih : BuildsAt P n) (s : JsString) (xs : List (Json ν))
    (r : JsString) (h : elements (n + 1) s = some (xs, r)) : ∀ x ∈ xs, P x := by
  rw [elements] at h
  split at h
  · cases h
  split at h
  · cases h
    simp
  split at h
  · simp only [Option.bind_eq_bind, Option.bind_eq_some_iff] at h
    obtain ⟨⟨x, r₁⟩, hx, ⟨ys, r₂⟩, hys, he⟩ := h
    cases he
    intro y hy
    rcases List.mem_cons.mp hy with rfl | hy
    · exact ih.value _ _ _ hx
    · exact ih.elements _ _ _ hys y hy
  · cases h

private theorem member_builds {n : Nat} (ih : BuildsAt P n) (s : JsString)
    (m : JsString × Json ν) (r : JsString) (h : member (n + 1) s = some (m, r)) : P m.2 := by
  rw [member] at h
  split at h
  · cases h
  split at h
  · simp only [Option.bind_eq_bind, Option.bind_eq_some_iff] at h
    obtain ⟨⟨k, r₁⟩, -, h⟩ := h
    split at h
    · cases h
    split at h
    · simp only [Option.bind_eq_some_iff] at h
      obtain ⟨⟨v, r₂⟩, hv, he⟩ := h
      cases he
      exact ih.value _ _ _ hv
    · cases h
  · cases h

private theorem members_builds {n : Nat} (ih : BuildsAt P n) (s : JsString)
    (ms : List (JsString × Json ν)) (r : JsString) (h : members (n + 1) s = some (ms, r)) :
    ∀ m ∈ ms, P m.2 := by
  rw [members] at h
  split at h
  · cases h
  split at h
  · cases h
    simp
  split at h
  · simp only [Option.bind_eq_bind, Option.bind_eq_some_iff] at h
    obtain ⟨⟨m, r₁⟩, hm, ⟨qs, r₂⟩, hqs, he⟩ := h
    cases he
    intro q hq
    rcases List.mem_cons.mp hq with rfl | hq
    · exact ih.member _ _ _ hm
    · exact ih.members _ _ _ hqs q hq
  · cases h

private theorem buildsAt (hP : Builds P) (n : Nat) : BuildsAt P n := by
  induction n with
  | zero =>
    constructor <;> intro _ _ _ h
    · rw [value] at h
      cases h
    · rw [elements] at h
      cases h
    · rw [member] at h
      cases h
    · rw [members] at h
      cases h
  | succ n ih =>
    exact ⟨value_builds hP ih, elements_builds ih, member_builds ih, members_builds ih⟩

private theorem parse_builds (hP : Builds P) {s : JsString} {j : Json ν} (h : parse s = some j) :
    P j := by
  rw [parse] at h
  split at h
  · next j' r hv =>
    split at h
    · cases h
      exact (buildsAt hP _).value _ _ _ hv
    · cases h
  · cases h

end Parsed

/-- Everything the parser accepts is well formed. -/
theorem wf_of_parse {s : JsString} {j : Json ν} (h : parse s = some j) : WF j :=
  parse_builds ⟨WF.null, WF.bool, WF.str, fun _ _ ↦ WF.num _, fun _ ↦ WF.arr,
    fun _ ↦ wf_ofMembers⟩ h

/-- Over a lawful number type a parsed value is its own reload. -/
theorem reload_of_parse [LawfulJsNumber ν] {s : JsString} {j : Json ν} (h : parse s = some j) :
    reload j = j := by
  refine parse_builds (P := fun j ↦ reload j = j)
    ⟨rfl, fun _ ↦ rfl, fun _ ↦ rfl, ?_, ?_, ?_⟩ h
  · intro l hl
    rw [reload, if_pos (LawfulJsNumber.literal_finite l hl), LawfulJsNumber.literal_reread l hl]
  · intro xs hx
    rw [reload, reloadList_eq, List.map_congr_left hx, List.map_id']
  · intro ms hm
    rw [reload, reloadProperties_eq]
    have hmem : ∀ p ∈ ofMembers ms, (p.1, reload p.2) = p := by
      intro p hp
      rw [hm p (mem_of_mem_ofMembers hp)]
    rw [List.map_congr_left hmem, List.map_id']

/-- Parsing a printed well-formed value gives its reload. -/
theorem parse_stringify {j : Json ν} (h : WF j) : parse (stringify j) = some (reload j) := by
  have hv := reads_of_wf h (stringify j).length [] (Nat.le_refl _) (by simp [Stops])
  rw [List.append_nil] at hv
  rw [parse, hv]
  rfl

end MusicComparer.Js.Json
