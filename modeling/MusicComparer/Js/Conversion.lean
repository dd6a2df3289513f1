import MusicComparer.Js.Value

/-!
# Counting units through string conversion

Library `Js`. A text that is parsed as JSON and converted to a string again does not gain units of a
kind, when the escapes, the braces and the numbers of JSON are accounted for. An array loses its
bracket.
-/

namespace MusicComparer.Js

/-- The numbers that are not finite print as the standard says. -/
class JsNumberText (ν : Type) [JsNumber ν] : Prop where
  nonfinite : ∀ n : ν, JsNumber.isFinite n = false →
    JsNumber.toStr n ∈ [js "NaN", js "Infinity", js "-Infinity"]

instance : JsNumberText Whole where
  nonfinite n h := by
    cases n with
    | nan => decide
    | int z => cases h

namespace Json

variable {ν : Type} [JsNumber ν]

/-- A kind of units that conversion does not add: a backslash can stand for one, and so can the
brace of an object where its text has one. -/
structure Counted (p : UInt16 → Bool) : Prop where
  backslash : p 92 = true
  comma : p 44 = false
  object : (js "[object Object]").countP p ≤ [123].countP p
  number : ∀ c, isNumberUnit c = true → p c = false
  nonfinite : ∀ s ∈ [js "NaN", js "Infinity", js "-Infinity"], s.countP p = 0

/-- A few units without those of numbers. -/
theorem counted_mem {us : List UInt16} (hb : 92 ∈ us)
    (hn : ∀ u ∈ us, isNumberUnit u = false ∧ u ≠ 44)
    (ho : (js "[object Object]").countP (· ∈ us) ≤ [123].countP (· ∈ us))
    (hf : ∀ s ∈ [js "NaN", js "Infinity", js "-Infinity"], s.countP (· ∈ us) = 0) :
    Counted (· ∈ us) where
  backslash := decide_eq_true hb
  comma := decide_eq_false fun h ↦ (hn 44 h).2 rfl
  object := ho
  number c hc := by
    rw [decide_eq_false_iff_not]
    intro hmem
    exact Bool.false_ne_true ((hn c hmem).1.symm.trans hc)
  nonfinite := hf

variable {p : UInt16 → Bool}

private theorem countP_skipSpace (s : JsString) : (skipSpace s).countP p ≤ s.countP p :=
  (List.dropWhile_suffix _).sublist.countP_le

private theorem countP_of_skipSpace {s r : JsString} {c : UInt16} (h : skipSpace s = c :: r) :
    [c].countP p + r.countP p ≤ s.countP p := by
  have hle := countP_skipSpace (p := p) s
  rwa [h, ← List.singleton_append, List.countP_append] at hle

/-- A string literal has as many units of the kind as are read from it. -/
private theorem countP_stringTail (hp : Counted p) {s t r : JsString}
    (h : stringTail s = some (t, r)) : t.countP p + r.countP p ≤ s.countP p := by
  have hone : ∀ u, [u].countP p ≤ 1 := fun u ↦ List.countP_le_length
  have hskip : ∀ u s, s.countP p ≤ (u :: s).countP p := fun u s ↦
    (List.sublist_cons_self u s).countP_le
  -- an escape stands for one unit, and its backslash counts
  have hescape : ∀ (u : UInt16) (t r esc s : JsString), t.countP p + r.countP p ≤ s.countP p →
      (u :: t).countP p + r.countP p ≤ (92 :: (esc ++ s)).countP p := by
    intro u t r esc s hle
    have hu := hone u
    rw [← List.singleton_append, List.countP_append, List.countP_cons_of_pos hp.backslash,
      List.countP_append]
    omega
  induction s using stringTail.induct generalizing t with
  | case1 => cases h
  | case2 =>
    rw [stringTail, if_pos rfl] at h
    cases h
    exact Nat.zero_le _
  | case3 c hc =>
    rw [stringTail, if_neg hc] at h
    cases h
  | case4 e s =>
    rw [stringTail.eq_def] at h
    simp only [if_true] at h
    cases h
    rw [List.countP_nil, Nat.zero_add]
    exact hskip 34 (e :: s)
  | case5 a b c d s hn ih =>
    rw [stringTail, if_neg hn, if_pos rfl, if_pos rfl] at h
    simp only [Option.bind_eq_bind, Option.bind_eq_some_iff] at h
    obtain ⟨u, -, ⟨t', r'⟩, ht, he⟩ := h
    cases he
    exact hescape u t' r' [117, a, b, c, d] s (ih ht)
  | case6 s hs hn =>
    rw [stringTail.eq_def] at h
    simp only [if_neg hn, if_true] at h
    cases h
  | case7 e s he hn ih =>
    rw [stringTail.eq_def] at h
    simp only [if_neg hn, if_true, if_neg he, Option.bind_eq_bind, Option.bind_eq_some_iff] at h
    obtain ⟨u, -, ⟨t', r'⟩, ht, he⟩ := h
    cases he
    exact hescape u t' r' [e] s (ih ht)
  | case8 c e s hq hb hc =>
    rw [stringTail.eq_def] at h
    simp only [if_neg hq, if_neg hb, if_pos hc] at h
    cases h
  | case9 c e s hq hb hc ih =>
    rw [stringTail.eq_def] at h
    simp only [if_neg hq, if_neg hb, if_neg hc, Option.bind_eq_bind, Option.bind_eq_some_iff] at h
    obtain ⟨⟨t', r'⟩, ht, he⟩ := h
    cases he
    have hle := ih ht
    simp only [List.countP_cons] at hle ⊢
    omega

/-- The texts of numbers have no units of the kind. -/
private theorem countP_number [JsNumberText ν] (hp : Counted p) (n : ν) :
    (JsNumber.toStr n).countP p = 0 := by
  cases hf : JsNumber.isFinite n with
  | true =>
    rw [List.countP_eq_zero]
    intro c hc
    rw [hp.number c (isNumberLexeme_units (JsNumber.toStr_lexeme n hf) c hc)]
    exact Bool.false_ne_true
  | false => exact hp.nonfinite _ (JsNumberText.nonfinite n hf)

/-- The units of the kind in the bracket of an array. -/
def bracket (p : UInt16 → Bool) : Json ν → Nat
  | arr _ => [91].countP p
  | _ => 0

/-- The text of a value and what comes after it count no more than the source. -/
private structure Counts (p : UInt16 → Bool) (s : JsString) (j : Json ν) (r : JsString) : Prop where
  rest : r.countP p ≤ s.countP p
  text : ∀ t, toText j = .ok t → t.countP p + bracket p j + r.countP p ≤ s.countP p

/-- The four parser functions at one amount of fuel. -/
private structure CountsAt (ν : Type) [JsNumber ν] (p : UInt16 → Bool) (n : Nat) : Prop where
  value : ∀ s (j : Json ν) r, value n s = some (j, r) → Counts p s j r
  elements : ∀ s (xs : List (Json ν)) r, elements n s = some (xs, r) → r.countP p ≤ s.countP p ∧
    ∀ t, joinText xs = .ok t → t.countP p + r.countP p ≤ s.countP p
  member : ∀ s (m : JsString × Json ν) r, member n s = some (m, r) → r.countP p ≤ s.countP p
  members : ∀ s (ms : List (JsString × Json ν)) r, members n s = some (ms, r) →
    r.countP p ≤ s.countP p

/-- A list of elements is converted element by element. -/
private theorem countP_joinText (hp : Counted p) {x : Json ν} {xs : List (Json ν)} {t : JsString}
    (h : joinText (x :: xs) = .ok t) : ∃ a b : JsString, (a = [] ∨ toText x = .ok a) ∧
      joinText xs = .ok b ∧ t.countP p = a.countP p + b.countP p := by
  have hfirst : ∀ a, (if isNull x then .ok [] else toText x) = .ok a →
      a = [] ∨ toText x = .ok a := by
    intro a ha
    split at ha
    · cases ha
      exact .inl rfl
    · exact .inr ha
  cases xs with
  | nil =>
    rw [joinText] at h
    exact ⟨t, [], hfirst t h, rfl, rfl⟩
  | cons y ys =>
    rw [joinText, bind_eq_ok_iff] at h
    obtain ⟨a, ha, h⟩ := h
    rw [bind_eq_ok_iff] at h
    obtain ⟨b, hb, h⟩ := h
    cases h
    refine ⟨a, b, hfirst a ha, hb, ?_⟩
    rw [List.countP_append, List.countP_cons_of_neg (by rw [hp.comma]; exact Bool.false_ne_true)]

/-- The first element and the others together. -/
private theorem CountsAt.join {n : Nat} (ih : CountsAt ν p n) (hp : Counted p) {s r r' : JsString}
    {x : Json ν} {xs : List (Json ν)} (hx : Json.value n s = some (x, r))
    (hxs : Json.elements n r = some (xs, r')) : r'.countP p ≤ s.countP p ∧
      ∀ t, joinText (x :: xs) = .ok t → t.countP p + r'.countP p ≤ s.countP p := by
  obtain ⟨hr, hxt⟩ := ih.value _ _ _ hx
  obtain ⟨hr', hxst⟩ := ih.elements _ _ _ hxs
  refine ⟨Nat.le_trans hr' hr, ?_⟩
  intro t ht
  obtain ⟨a, b, ha, hb, hcount⟩ := countP_joinText hp ht
  have hb' := hxst b hb
  rcases ha with rfl | ha
  · rw [hcount, List.countP_nil]
    omega
  · have ha' := hxt a ha
    omega

/-- A value with a known text. -/
private theorem counts_of_text {s s' r t : JsString} {c : UInt16} {j : Json ν}
    (hs : skipSpace s = c :: s') (hj : toText j = .ok t) (hb : bracket p j = 0)
    (h : t.countP p + r.countP p ≤ [c].countP p + s'.countP p) : Counts p s j r := by
  have hcs := countP_of_skipSpace (p := p) hs
  refine ⟨by omega, ?_⟩
  intro t' ht'
  rw [hj] at ht'
  cases ht'
  omega

private theorem counts_of_word {s s' r w : JsString} {c : UInt16} {j : Json ν}
    (hs : skipSpace s = c :: s') (h : word w (c :: s') = some r) (hj : toText j = .ok w)
    (hb : bracket p j = 0) : Counts p s j r := by
  apply counts_of_text hs hj hb
  rw [word] at h
  split at h
  · next hw =>
    cases h
    obtain ⟨r, hr⟩ := hw
    have hsource : (c :: s').countP p = [c].countP p + s'.countP p := by
      rw [← List.singleton_append, List.countP_append]
    rw [← hsource, ← hr, List.drop_left, List.countP_append]
  · cases h

private theorem counts_of_number [JsNumberText ν] (hp : Counted p) {s s' r : JsString} {c : UInt16}
    {n : ν} (hs : skipSpace s = c :: s') (h : number (c :: s') = some (n, r)) :
    Counts p s (num n) r := by
  apply counts_of_text hs (t := JsNumber.toStr n) (by rw [toText]) rfl
  rw [number] at h
  split at h
  · cases h
    rw [countP_number hp, Nat.zero_add, ← List.countP_append, List.singleton_append]
    exact (List.dropWhile_suffix isNumberUnit).sublist.countP_le
  · cases h

private theorem counts_of_arr {s s' r : JsString} {xs : List (Json ν)}
    (hs : skipSpace s = 91 :: s') (hr : r.countP p ≤ s'.countP p)
    (h : ∀ t, joinText xs = .ok t → t.countP p + r.countP p ≤ s'.countP p) :
    Counts p s (arr xs) r := by
  have hcs := countP_of_skipSpace (p := p) hs
  refine ⟨by omega, ?_⟩
  intro t ht
  rw [toText] at ht
  have hle := h t ht
  have hb : bracket p (arr xs) = [91].countP p := rfl
  omega

private theorem counts_of_obj (hp : Counted p) {s s' r : JsString} (ps : Properties ν)
    (hs : skipSpace s = 123 :: s') (hr : r.countP p ≤ s'.countP p) : Counts p s (obj ps) r := by
  have hcs := countP_of_skipSpace (p := p) hs
  refine ⟨by omega, ?_⟩
  intro t ht
  have hobject := hp.object
  have hb : bracket p (obj ps) = 0 := rfl
  rw [toText] at ht
  split at ht
  · cases ht
  · cases ht
    omega

private theorem value_counts [JsNumberText ν] (hp : Counted p) {n : Nat} (ih : CountsAt ν p n)
    (s : JsString) (j : Json ν) (r : JsString) (h : value (n + 1) s = some (j, r)) :
    Counts p s j r := by
  rw [value] at h
  split at h
  · cases h
  next c s' hs =>
  split at h
  · obtain ⟨⟨t, r'⟩, ht, he⟩ := Option.map_eq_some_iff.mp h
    cases he
    have hle := countP_stringTail hp ht
    exact counts_of_text hs (by rw [toText]) rfl (Nat.le_trans hle (Nat.le_add_left _ _))
  split at h
  · next hc =>
    subst hc
    split at h
    · cases h
    next d s'' hs' =>
    split at h
    · cases h
      have hle := countP_of_skipSpace (p := p) hs'
      apply counts_of_arr hs (Nat.le_trans (Nat.le_add_left _ _) hle)
      intro t ht
      cases ht
      rw [List.countP_nil]
      omega
    · simp only [Option.bind_eq_bind, Option.bind_eq_some_iff] at h
      obtain ⟨⟨x, r₁⟩, hx, ⟨xs, r₂⟩, hxs, he⟩ := h
      cases he
      obtain ⟨hr, htext⟩ := ih.join hp hx hxs
      exact counts_of_arr hs hr htext
  split at h
  · next hc =>
    subst hc
    split at h
    · cases h
    next d s'' hs' =>
    have hle := countP_of_skipSpace (p := p) hs'
    split at h
    · cases h
      exact counts_of_obj hp _ hs (Nat.le_trans (Nat.le_add_left _ _) hle)
    · simp only [Option.bind_eq_bind, Option.bind_eq_some_iff] at h
      obtain ⟨⟨m, r₁⟩, hm, ⟨ms, r₂⟩, hms, he⟩ := h
      cases he
      have hm' := ih.member _ _ _ hm
      have hms' := ih.members _ _ _ hms
      rw [← List.singleton_append, List.countP_append] at hm'
      exact counts_of_obj hp _ hs (Nat.le_trans hms' (Nat.le_trans hm' hle))
  split at h
  · obtain ⟨t, hw, he⟩ := Option.map_eq_some_iff.mp h
    cases he
    exact counts_of_word hs hw (by rw [toText]) rfl
  split at h
  · obtain ⟨t, hw, he⟩ := Option.map_eq_some_iff.mp h
    cases he
    exact counts_of_word hs hw (by rw [toText]) rfl
  split at h
  · obtain ⟨t, hw, he⟩ := Option.map_eq_some_iff.mp h
    cases he
    exact counts_of_word hs hw (by rw [toText]) rfl
  · obtain ⟨⟨m, r'⟩, hm, he⟩ := Option.map_eq_some_iff.mp h
    cases he
    exact counts_of_number hp hs hm

private theorem elements_counts (hp : Counted p) {n : Nat} (ih : CountsAt ν p n) (s : JsString)
    (xs : List (Json ν)) (r : JsString) (h : elements (n + 1) s = some (xs, r)) :
    r.countP p ≤ s.countP p ∧ ∀ t, joinText xs = .ok t → t.countP p + r.countP p ≤ s.countP p := by
  rw [elements] at h
  split at h
  · cases h
  next c s' hs =>
  have hcs := countP_of_skipSpace (p := p) hs
  split at h
  · cases h
    refine ⟨by omega, ?_⟩
    intro t ht
    cases ht
    rw [List.countP_nil]
    omega
  split at h
  · simp only [Option.bind_eq_bind, Option.bind_eq_some_iff] at h
    obtain ⟨⟨x, r₁⟩, hx, ⟨ys, r₂⟩, hys, he⟩ := h
    cases he
    obtain ⟨hr, htext⟩ := ih.join hp hx hys
    dsimp only at hr htext ⊢
    refine ⟨by omega, ?_⟩
    intro t ht
    have hle := htext t ht
    omega
  · cases h

private theorem member_counts (hp : Counted p) {n : Nat} (ih : CountsAt ν p n) (s : JsString)
    (m : JsString × Json ν) (r : JsString) (h : member (n + 1) s = some (m, r)) :
    r.countP p ≤ s.countP p := by
  rw [member] at h
  split at h
  · cases h
  next c s' hs =>
  have hcs := countP_of_skipSpace (p := p) hs
  split at h
  · simp only [Option.bind_eq_bind, Option.bind_eq_some_iff] at h
    obtain ⟨⟨k, r₁⟩, hk, h⟩ := h
    have hkey := countP_stringTail hp hk
    split at h
    · cases h
    next d r₂ hs' =>
    have hcolon := countP_of_skipSpace (p := p) hs'
    split at h
    · simp only [Option.bind_eq_some_iff] at h
      obtain ⟨⟨v, r₃⟩, hv, he⟩ := h
      cases he
      have hvalue := (ih.value _ _ _ hv).rest
      dsimp only at hkey hcolon hvalue ⊢
      omega
    · cases h
  · cases h

private theorem members_counts {n : Nat} (ih : CountsAt ν p n) (s : JsString)
    (ms : List (JsString × Json ν)) (r : JsString) (h : members (n + 1) s = some (ms, r)) :
    r.countP p ≤ s.countP p := by
  rw [members] at h
  split at h
  · cases h
  next c s' hs =>
  have hcs := countP_of_skipSpace (p := p) hs
  split at h
  · cases h
    omega
  split at h
  · simp only [Option.bind_eq_bind, Option.bind_eq_some_iff] at h
    obtain ⟨⟨m, r₁⟩, hm, ⟨qs, r₂⟩, hqs, he⟩ := h
    cases he
    have hm' := ih.member _ _ _ hm
    have hqs' := ih.members _ _ _ hqs
    dsimp only at hm' hqs' ⊢
    omega
  · cases h

private theorem countsAt [JsNumberText ν] (hp : Counted p) (n : Nat) : CountsAt ν p n := by
  induction n with
  | zero =>
    constructor <;> intro _ _ _ h
    · rw [value] at h
      cases h
    · rw [elements] at h
      cases h
    · rw [member] at h
      cases h
    · rw [members] at h
      cases h
  | succ n ih =>
    exact ⟨value_counts hp ih, elements_counts hp ih, member_counts hp ih, members_counts ih⟩

private theorem value_of_parse {s : JsString} {j : Json ν} (h : parse s = some j) :
    ∃ r, value s.length s = some (j, r) := by
  rw [parse] at h
  split at h
  · next j' r hv =>
    split at h
    · cases h
      exact ⟨r, hv⟩
    · cases h
  · cases h

/-- The string conversion of a parsed value has no more units of the kind than the text, and an
array has lost those of its bracket. -/
theorem countP_of_parse [JsNumberText ν] (hp : Counted p) {s t : JsString} {j : Json ν}
    (h : parse s = some j) (ht : toText j = .ok t) : t.countP p + bracket p j ≤ s.countP p := by
  obtain ⟨r, hv⟩ := value_of_parse h
  have hle := ((countsAt hp _).value _ _ _ hv).text t ht
  omega

/-- A text that starts with a brace is an object. -/
theorem parse_of_brace {s : JsString} {j : Json ν} (h : parse (123 :: s) = some j) :
    ∃ ps, j = obj ps := by
  have hspace : skipSpace (123 :: s) = 123 :: s := List.dropWhile_cons_of_neg (by decide)
  obtain ⟨r, hv⟩ := value_of_parse h
  rw [List.length_cons, value, hspace] at hv
  simp only [show ¬ (123 : UInt16) = 34 by decide, show ¬ (123 : UInt16) = 91 by decide,
    if_false, if_true] at hv
  split at hv
  · cases hv
  split at hv
  · cases hv
    exact ⟨_, rfl⟩
  · simp only [Option.bind_eq_bind, Option.bind_eq_some_iff] at hv
    obtain ⟨x, -, y, -, he⟩ := hv
    cases he
    exact ⟨_, rfl⟩

/-- A text that starts with a bracket is an array. -/
theorem parse_of_bracket {s : JsString} {j : Json ν} (h : parse (91 :: s) = some j) :
    ∃ xs, j = arr xs := by
  have hspace : skipSpace (91 :: s) = 91 :: s := List.dropWhile_cons_of_neg (by decide)
  obtain ⟨r, hv⟩ := value_of_parse h
  rw [List.length_cons, value, hspace] at hv
  simp only [show ¬ (91 : UInt16) = 34 by decide, if_false, if_true] at hv
  split at hv
  · cases hv
  split at hv
  · cases hv
    exact ⟨_, rfl⟩
  · simp only [Option.bind_eq_bind, Option.bind_eq_some_iff] at hv
    obtain ⟨x, -, y, -, he⟩ := hv
    cases he
    exact ⟨_, rfl⟩

end Json
end MusicComparer.Js
