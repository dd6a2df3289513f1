import MusicComparer.Js.Uri

/-!
# Attribute values

Library `Html`. A browser takes the text of a quoted attribute up to the next quote and resolves the
character references in it. Escaping the five special characters is undone by that. A URI text is
not changed as long as nothing in it reads like a reference; what the references take away from it
is counted in ampersands.
-/

namespace MusicComparer.Html

open MusicComparer.Js

/-- Characters of references, after the ampersand. -/
def isReferenceChar (c : Char) : Bool := isAlphanumeric c || c ∈ ['#', ';']

/-- The special characters of HTML and the names of their references. -/
def specials : List (Char × List Char) :=
  [('&', "amp;".toList), ('<', "lt;".toList), ('>', "gt;".toList), ('"', "quot;".toList),
    ('\'', "#39;".toList)]

/-- The character references of attribute values. Given the text after an ampersand, `read` answers
what the reference there stands for, and how long its name is. No reference stands for an ampersand
or a backslash together with other characters. -/
structure References where
  read : List Char → Option (List Char × Nat)
  read_special : ∀ p ∈ specials, ∀ cs, read (p.2 ++ cs) = some ([p.1], p.2.length)
  name : ∀ {cs exp n}, read cs = some (exp, n) →
    0 < n ∧ n ≤ cs.length ∧ ∀ c ∈ cs.take n, isReferenceChar c = true
  single : ∀ {cs exp n}, read cs = some (exp, n) → ∀ c ∈ exp, c = '&' ∨ c = '\\' → exp = [c]

namespace References

variable (refs : References)

/-- Resolve the references of a text, after some characters that belong to a name. -/
def resolveAfter : Nat → List Char → List Char
  | _, [] => []
  | n + 1, _ :: cs => resolveAfter n cs
  | 0, c :: cs =>
    if c = '&' then
      match refs.read cs with
      | some (exp, n) => exp ++ resolveAfter n cs
      | none => c :: resolveAfter 0 cs
    else c :: resolveAfter 0 cs

/-- The text with its references resolved. -/
def resolve (cs : List Char) : List Char := refs.resolveAfter 0 cs

/-- There is a reference in the text. -/
def hasReference : List Char → Bool
  | [] => false
  | c :: cs => (c == '&' && (refs.read cs).isSome) || hasReference cs

/-- The value of an attribute, from the text after its opening quote. -/
def attributeValue (quote : Char) (text : List Char) : List Char :=
  refs.resolve (text.takeWhile (· ≠ quote))

theorem resolveAfter_eq (n : Nat) (cs : List Char) :
    refs.resolveAfter n cs = refs.resolve (cs.drop n) := by
  induction cs generalizing n with
  | nil =>
    cases n <;> rfl
  | cons c cs ih =>
    cases n with
    | zero => rfl
    | succ n => rw [resolveAfter, List.drop_succ_cons, ih]

theorem resolve_cons_of_ne {c : Char} (h : c ≠ '&') (cs : List Char) :
    refs.resolve (c :: cs) = c :: refs.resolve cs := by
  rw [resolve, resolveAfter, if_neg h, resolve]

theorem resolve_reference {cs exp : List Char} {n : Nat} (h : refs.read cs = some (exp, n)) :
    refs.resolve ('&' :: cs) = exp ++ refs.resolve (cs.drop n) := by
  rw [resolve, resolveAfter, if_pos rfl, h, ← resolveAfter_eq]

theorem resolve_ampersand {cs : List Char} (h : refs.read cs = none) :
    refs.resolve ('&' :: cs) = '&' :: refs.resolve cs := by
  rw [resolve, resolveAfter, if_pos rfl, h, resolve]

/-- A text without ampersands in front is left alone. -/
theorem resolve_append {pre : List Char} (h : '&' ∉ pre) (cs : List Char) :
    refs.resolve (pre ++ cs) = pre ++ refs.resolve cs := by
  induction pre with
  | nil => rfl
  | cons c pre ih =>
    rw [List.mem_cons, not_or] at h
    rw [List.cons_append, resolve_cons_of_ne refs (Ne.symm h.1), ih h.2, List.cons_append]

theorem hasReference_append {pre : List Char} (h : '&' ∉ pre) (cs : List Char) :
    refs.hasReference (pre ++ cs) = refs.hasReference cs := by
  induction pre with
  | nil => rfl
  | cons c pre ih =>
    rw [List.mem_cons, not_or] at h
    have hc : (c == '&') = false := by simpa using Ne.symm h.1
    rw [List.cons_append, hasReference, hc, ih h.2]
    rfl

/-- Without references nothing is resolved. -/
theorem resolve_of_no_reference {cs : List Char} (h : refs.hasReference cs = false) :
    refs.resolve cs = cs := by
  induction cs with
  | nil => rfl
  | cons c cs ih =>
    rw [hasReference, Bool.or_eq_false_iff] at h
    by_cases hc : c = '&'
    · subst hc
      have hread : refs.read cs = none := by
        cases hr : refs.read cs with
        | none => rfl
        | some x =>
          rw [hr] at h
          cases h.1
      rw [refs.resolve_ampersand hread, ih h.2]
    · rw [refs.resolve_cons_of_ne hc, ih h.2]

end References

/-- The references of the special characters alone. -/
def specialReferences : References where
  read cs := (specials.find? (·.2.isPrefixOf cs)).map fun p ↦ ([p.1], p.2.length)
  read_special p hp cs := by
    simp only [specials, List.mem_cons, List.not_mem_nil, or_false] at hp
    rcases hp with rfl | rfl | rfl | rfl | rfl <;> rfl
  name {cs exp n} h := by
    have hnames : ∀ p ∈ specials, 0 < p.2.length ∧ p.2.all isReferenceChar = true := by decide
    obtain ⟨p, hp, he⟩ := Option.map_eq_some_iff.mp h
    cases he
    have hmem := hnames p (List.mem_of_find?_eq_some hp)
    have hpre := List.find?_some hp
    rw [List.isPrefixOf_iff_prefix] at hpre
    obtain ⟨rest, rfl⟩ := hpre
    rw [List.take_left, List.length_append]
    exact ⟨hmem.1, Nat.le_add_right _ _, List.all_eq_true.mp hmem.2⟩
  single {cs exp n} h c hc _ := by
    obtain ⟨p, -, he⟩ := Option.map_eq_some_iff.mp h
    cases he
    rw [List.mem_singleton.mp hc]

/-! ### Escaped texts -/

/-- A character, or the reference for a special one. -/
def escapeChar (c : Char) : List Char :=
  match specials.find? (·.1 == c) with
  | some p => '&' :: p.2
  | none => [c]

/-- The text with references for its special characters. -/
def escapeHtml (cs : List Char) : List Char := cs.flatMap escapeChar

/-- Quotes are special, so they end no attribute. -/
private theorem quote_not_mem_escapeHtml (cs : List Char) : '"' ∉ escapeHtml cs := by
  have hnames : ∀ p ∈ specials, '"' ∉ '&' :: p.2 := by decide
  intro h
  rw [escapeHtml, List.mem_flatMap] at h
  obtain ⟨c, -, hc⟩ := h
  rw [escapeChar] at hc
  split at hc
  · next p hp => exact hnames p (List.mem_of_find?_eq_some hp) hc
  · next hp =>
    rw [List.mem_singleton] at hc
    subst hc
    exact absurd hp (by decide)

/-- Resolving the references of an escaped text gives the text. -/
private theorem resolve_escapeHtml (refs : References) (cs : List Char) :
    refs.resolve (escapeHtml cs) = cs := by
  induction cs with
  | nil => rfl
  | cons c cs ih =>
    rw [escapeHtml, List.flatMap_cons, ← escapeHtml, escapeChar]
    split
    · next p hp =>
      have hc : p.1 = c := by simpa using List.find?_some hp
      rw [List.cons_append, refs.resolve_reference (refs.read_special p
        (List.mem_of_find?_eq_some hp) _), List.drop_left, ih, hc, List.singleton_append]
    · next hp =>
      have hc : c ≠ '&' := by
        rintro rfl
        exact absurd hp (by decide)
      rw [List.singleton_append, refs.resolve_cons_of_ne hc, ih]

/-- A browser reads an escaped text in double quotes as the text. -/
theorem attributeValue_escapeHtml (refs : References) (cs rest : List Char) :
    refs.attributeValue '"' (escapeHtml cs ++ '"' :: rest) = cs := by
  have hcut : (escapeHtml cs ++ '"' :: rest).takeWhile (· ≠ '"') = escapeHtml cs := by
    rw [takeWhile_append_stop (by decide), takeWhile_of_not_mem (quote_not_mem_escapeHtml cs)]
  rw [References.attributeValue, hcut, resolve_escapeHtml]

/-! ### URI texts -/

/-- The text of a URI, as `encodeURI` escapes it. -/
def uriText (cs : List Char) : List Char := escapeText isUnescaped cs

theorem uriText_cons_of_kept {c : Char} (h : isUnescaped c = true) (cs : List Char) :
    uriText (c :: cs) = c :: uriText cs := by
  rw [uriText, escapeText_cons, if_pos h]
  rfl

private theorem uriText_cons_ne_nil (c : Char) (cs : List Char) : uriText (c :: cs) ≠ [] := by
  rw [uriText, escapeText_cons]
  split
  · exact List.cons_ne_nil _ _
  · obtain ⟨b, bs, hb, -⟩ := octets_lead c
    rw [percentScalar, hb]
    exact List.cons_ne_nil _ _

/-- What stands for one character in a URI text has no other ampersand, and no backslash. -/
private theorem not_mem_uriText_singleton {c d : Char} (hc : c ≠ '&') (hd : d = '&' ∨ d = '\\') :
    d ∉ uriText [c] := by
  have hkept : isUnescaped '\\' = false := by decide
  intro h
  rw [uriText, escapeText_cons] at h
  change d ∈ (if isUnescaped c then [c] else percentScalar c) ++ [] at h
  rw [List.append_nil] at h
  split at h
  · next hk =>
    rw [List.mem_singleton] at h
    subst h
    rcases hd with rfl | rfl
    · exact hc rfl
    · exact Bool.false_ne_true (hkept.symm.trans hk)
  · apply not_mem_percentScalar _ c h
    rcases hd with rfl | rfl <;> decide

/-- The characters of URI texts. -/
theorem mem_uriText {d : Char} {cs : List Char} (h : d ∈ uriText cs) :
    isUnescaped d = true ∨ d = '%' := by
  rw [uriText, escapeText, List.mem_flatMap] at h
  obtain ⟨c, -, hc⟩ := h
  split at hc
  · next hk =>
    rw [List.mem_singleton] at hc
    exact .inl (hc ▸ hk)
  · by_contra hd
    rw [not_or, Bool.not_eq_true, isUnescaped, Bool.or_eq_false_iff, Bool.or_eq_false_iff] at hd
    exact not_mem_percentScalar ⟨hd.1.1.2, hd.2⟩ c hc

/-- What comes after raw characters of a URI text. -/
private theorem drop_uriText {cs : List Char} {n : Nat} (h : '%' ∉ (uriText cs).take n) :
    (uriText cs).drop n = uriText (cs.drop n) := by
  induction cs generalizing n with
  | nil => simp [uriText, escapeText]
  | cons c cs ih =>
    cases n with
    | zero => rfl
    | succ n =>
      cases hk : isUnescaped c with
      | true =>
        rw [uriText_cons_of_kept hk] at h ⊢
        rw [List.take_succ_cons, List.mem_cons, not_or] at h
        exact ih h.2
      | false =>
        obtain ⟨b, bs, hb, -⟩ := octets_lead c
        rw [uriText, escapeText_cons, hk, if_neg Bool.false_ne_true, percentScalar, hb] at h
        exact absurd (List.mem_cons_self) h

/-- How a browser resolves the references in the text of a URI, character by character. -/
inductive UriResolved (refs : References) : List Char → List Char → Prop where
  | nil : UriResolved refs [] []
  | char (c : Char) (cs rs : List Char) (hc : c ≠ '&') (h : UriResolved refs cs rs) :
      UriResolved refs (c :: cs) (uriText [c] ++ rs)
  | ampersand (cs rs : List Char) (hr : refs.read (uriText cs) = none)
      (h : UriResolved refs cs rs) : UriResolved refs ('&' :: cs) ('&' :: rs)
  | reference (cs exp rs : List Char) (n : Nat) (hr : refs.read (uriText cs) = some (exp, n))
      (h : UriResolved refs (cs.drop n) rs) : UriResolved refs ('&' :: cs) (exp ++ rs)

private theorem uriText_append (cs ds : List Char) :
    uriText (cs ++ ds) = uriText cs ++ uriText ds :=
  List.flatMap_append

theorem uriResolved (refs : References) (cs : List Char) :
    UriResolved refs cs (refs.resolve (uriText cs)) := by
  induction hn : cs.length using Nat.strong_induction_on generalizing cs with
  | _ n ih =>
  cases cs with
  | nil => exact .nil
  | cons c cs =>
    have hlt : cs.length < n := by simp [← hn]
    by_cases hc : c = '&'
    · subst hc
      rw [uriText_cons_of_kept (by decide)]
      cases hr : refs.read (uriText cs) with
      | none =>
        rw [refs.resolve_ampersand hr]
        exact .ampersand cs _ hr (ih _ hlt cs rfl)
      | some x =>
        obtain ⟨exp, k⟩ := x
        have hraw : '%' ∉ (uriText cs).take k := by
          intro hmem
          exact absurd ((refs.name hr).2.2 _ hmem) (by decide)
        rw [refs.resolve_reference hr, drop_uriText hraw]
        refine .reference cs exp _ k hr (ih _ ?_ _ rfl)
        rw [List.length_drop]
        omega
    · have hpre : '&' ∉ uriText [c] := not_mem_uriText_singleton hc (.inl rfl)
      rw [← List.singleton_append, uriText_append, refs.resolve_append hpre]
      exact .char c cs _ hc (ih _ hlt cs rfl)

/-- The characters that a reference gives back one for one: ampersands, and backslashes. -/
def isMark (c : Char) : Bool := c == '&' || c == '\\'

namespace UriResolved

variable {refs : References} {cs rs : List Char}

private theorem countP_uriText_singleton {c : Char} (hc : c ≠ '&') :
    (uriText [c]).countP isMark = 0 := by
  rw [List.countP_eq_zero]
  intro d hd hm
  rw [isMark, Bool.or_eq_true, beq_iff_eq, beq_iff_eq] at hm
  exact not_mem_uriText_singleton hc hm hd

theorem count_le_countP (rs : List Char) : rs.count '&' ≤ rs.countP isMark := by
  apply List.countP_mono_left
  intro c _ hc
  rw [eq_of_beq hc]
  rfl

/-- A reference stands for a mark and nothing else, or for no mark. -/
private theorem countP_reference {exp : List Char} {n : Nat}
    (h : refs.read cs = some (exp, n)) : (∃ c, exp = [c] ∧ isMark c = true) ∨
      exp.countP isMark = 0 := by
  by_cases hm : ∃ c ∈ exp, isMark c = true
  · obtain ⟨c, hc, hm⟩ := hm
    have hmark := hm
    rw [isMark, Bool.or_eq_true, beq_iff_eq, beq_iff_eq] at hmark
    exact .inl ⟨c, refs.single h c hc hmark, hm⟩
  · right
    rw [List.countP_eq_zero]
    exact fun c hc hc' ↦ hm ⟨c, hc, hc'⟩

/-- There are no more marks than there were ampersands. -/
theorem countP_le (h : UriResolved refs cs rs) : rs.countP isMark ≤ cs.count '&' := by
  induction h with
  | nil => exact Nat.le_refl _
  | char c cs rs hc h ih =>
    rw [List.countP_append, countP_uriText_singleton hc, List.count_cons_of_ne hc]
    omega
  | ampersand cs rs hr h ih =>
    rw [List.countP_cons_of_pos (by decide), List.count_cons_self]
    omega
  | reference cs exp rs n hr h ih =>
    have hdrop := (List.drop_sublist n cs).count_le '&'
    have hexp : exp.countP isMark ≤ 1 := by
      rcases countP_reference hr with ⟨c, rfl, -⟩ | h0
      · exact List.countP_le_length
      · omega
    rw [List.countP_append, List.count_cons_self]
    omega

/-- A text that starts with a bracket or a brace has lost an ampersand. -/
theorem countP_lt_of_head (h : UriResolved refs cs rs)
    (hhead : rs.head? = some '[' ∨ rs.head? = some '\x7b') :
    rs.countP isMark < cs.count '&' := by
  cases h with
  | nil => simp at hhead
  | char c cs rs hc h =>
    have hmem : ∀ d, (uriText [c] ++ rs).head? = some d → d ∈ uriText [c] := by
      intro d hd
      cases hu : uriText [c] with
      | nil => exact absurd hu (uriText_cons_ne_nil c [])
      | cons x xs =>
        rw [hu] at hd
        cases hd
        exact List.mem_cons_self
    rcases hhead with hhead | hhead <;> exact absurd (mem_uriText (hmem _ hhead)) (by decide)
  | ampersand cs rs hr h =>
    simp at hhead
  | reference cs exp rs n hr h =>
    have hdrop := (List.drop_sublist n cs).count_le '&'
    have hle := h.countP_le
    rcases countP_reference hr with ⟨c, rfl, hm⟩ | h0
    · rw [List.singleton_append, List.head?_cons, Option.some_inj, Option.some_inj] at hhead
      rcases hhead with rfl | rfl <;> exact absurd hm (by decide)
    · rw [List.countP_append, List.count_cons_self]
      omega

/-- What resolving does to the text of a URI: nothing, or every reference stands for an ampersand
and the text is that of a shorter name, or an ampersand is lost. -/
inductive Change (refs : References) (cs rs : List Char) : Prop where
  | none (h : refs.hasReference (uriText cs) = false) (he : rs = uriText cs)
  | shorter (ds : List Char) (he : rs = uriText ds) (h : ds.length < cs.length)
  | lost (h : rs.count '&' < cs.count '&')

private theorem Change.char {c : Char} (hc : c ≠ '&') (h : Change refs cs rs) :
    Change refs (c :: cs) (uriText [c] ++ rs) := by
  have hpre : '&' ∉ uriText [c] := not_mem_uriText_singleton hc (.inl rfl)
  have hcons : ∀ ds, uriText (c :: ds) = uriText [c] ++ uriText ds := uriText_append [c]
  cases h with
  | none hno he =>
    refine .none ?_ (by rw [he, hcons cs])
    rw [hcons, refs.hasReference_append hpre, hno]
  | shorter ds he hlt => exact .shorter (c :: ds) (by rw [he, hcons ds]) (Nat.succ_lt_succ hlt)
  | lost hlt =>
    apply Change.lost
    rw [List.count_append, List.count_eq_zero.mpr hpre, List.count_cons_of_ne hc]
    omega

private theorem uriText_ampersand (cs : List Char) : uriText ('&' :: cs) = '&' :: uriText cs :=
  uriText_cons_of_kept (by decide) cs

private theorem Change.ampersand (hr : refs.read (uriText cs) = Option.none)
    (h : Change refs cs rs) : Change refs ('&' :: cs) ('&' :: rs) := by
  cases h with
  | none hno he =>
    refine .none ?_ (by rw [he, uriText_ampersand])
    rw [uriText_ampersand, References.hasReference, hr, hno]
    rfl
  | shorter ds he hlt =>
    exact .shorter ('&' :: ds) (by rw [he, uriText_ampersand]) (Nat.succ_lt_succ hlt)
  | lost hlt =>
    apply Change.lost
    rw [List.count_cons_self, List.count_cons_self]
    omega

/-- A reference that stands for an ampersand makes the name shorter. -/
private theorem Change.reference {n : Nat} (hr : refs.read (uriText cs) = some (['&'], n))
    (h : Change refs (cs.drop n) rs) : Change refs ('&' :: cs) ('&' :: rs) := by
  have hdrop := (List.drop_sublist n cs).count_le '&'
  have hlen : (cs.drop n).length < cs.length := by
    obtain ⟨hpos, hle, -⟩ := refs.name hr
    cases cs with
    | nil => exact absurd (Nat.lt_of_lt_of_le hpos hle) (Nat.lt_irrefl 0)
    | cons c cs =>
      rw [List.length_drop, List.length_cons]
      omega
  cases h with
  | none hno he =>
    exact .shorter ('&' :: cs.drop n) (by rw [he, uriText_ampersand]) (Nat.succ_lt_succ hlen)
  | shorter ds he hlt =>
    exact .shorter ('&' :: ds) (by rw [he, uriText_ampersand])
      (Nat.succ_lt_succ (Nat.lt_trans hlt hlen))
  | lost hlt =>
    apply Change.lost
    rw [List.count_cons_self, List.count_cons_self]
    omega

/-- Resolving leaves the text alone, shortens it or loses an ampersand. -/
theorem change (h : UriResolved refs cs rs) : Change refs cs rs := by
  induction h with
  | nil => exact .none rfl rfl
  | char c cs rs hc h ih => exact ih.char hc
  | ampersand cs rs hr h ih => exact ih.ampersand hr
  | reference cs exp rs n hr h ih =>
    by_cases hexp : exp = ['&']
    · subst hexp
      exact ih.reference hr
    · have hmem : '&' ∉ exp := fun hmem ↦ hexp (refs.single hr _ hmem (.inl rfl))
      have hle := Nat.le_trans (count_le_countP rs) h.countP_le
      have hdrop := (List.drop_sublist n cs).count_le '&'
      apply Change.lost
      rw [List.count_append, List.count_eq_zero.mpr hmem, List.count_cons_self]
      omega

end UriResolved

end MusicComparer.Html
