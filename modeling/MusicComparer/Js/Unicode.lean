import MusicComparer.Js.Text

/-!
# Texts, code units and octets

Library `Js`. A text is a list of Unicode scalar values. It has a UTF-16 form, which is a string
value, and a UTF-8 form, which is a list of octets. String values with lone surrogates are the form
of no text; where a program converts them, each lone surrogate becomes U+FFFD.
-/

namespace MusicComparer.Js

/-- The string value of a text. -/
def utf16s (cs : List Char) : JsString := cs.flatMap utf16

/-- The octets of a text. -/
def utf8s (cs : List Char) : List UInt8 := cs.flatMap String.utf8EncodeChar

/-- The first unit of a surrogate pair. -/
def isHighSurrogate (u : UInt16) : Bool := 0xD800 ≤ u && u ≤ 0xDBFF

/-- The second unit of a surrogate pair. -/
def isLowSurrogate (u : UInt16) : Bool := 0xDC00 ≤ u && u ≤ 0xDFFF

/-- The scalar value of a unit that is not in a pair. -/
def scalarOfUnit (u : UInt16) : Char :=
  if isHighSurrogate u || isLowSurrogate u then '\uFFFD' else Char.ofNat u.toNat

/-- The scalar value of a surrogate pair. -/
def scalarOfPair (hi lo : UInt16) : Char :=
  Char.ofNat (0x10000 + (hi.toNat - 0xD800) * 0x400 + (lo.toNat - 0xDC00))

/-- The scalar values of a string value, U+FFFD for each lone surrogate. -/
def scalars : JsString → List Char
  | [] => []
  | [u] => [scalarOfUnit u]
  | hi :: lo :: us =>
    if isHighSurrogate hi && isLowSurrogate lo then scalarOfPair hi lo :: scalars us
    else scalarOfUnit hi :: scalars (lo :: us)

/-- String values that are the form of a text. -/
def WellFormedText (s : JsString) : Prop := utf16s (scalars s) = s

instance : DecidablePred WellFormedText := fun s ↦
  inferInstanceAs (Decidable (utf16s (scalars s) = s))

/-- The range of a scalar value, which leaves the surrogates out. -/
private theorem scalar_range (c : Char) :
    c.toNat < 0xD800 ∨ 0xDFFF < c.toNat ∧ c.toNat < 0x110000 := c.valid

/-- The units of a scalar value: itself in the basic plane, and a surrogate pair elsewhere. -/
private inductive Units (c : Char) : Prop where
  | basic (u : UInt16) (he : utf16 c = [u]) (h : c.toNat < 0x10000) (hu : u.toNat = c.toNat)
  | pair (hi lo : UInt16) (he : utf16 c = [hi, lo]) (h : ¬ c.toNat < 0x10000)
      (hhi : hi.toNat = 0xD800 + (c.toNat - 0x10000) / 0x400)
      (hlo : lo.toNat = 0xDC00 + (c.toNat - 0x10000) % 0x400)

private theorem units_utf16 (c : Char) : Units c := by
  have hr := scalar_range c
  have hnat : ∀ n < 0x10000, n.toUInt16.toNat = n := by
    intro n hn
    rw [Nat.toUInt16_eq, UInt16.toNat_ofNat']
    omega
  by_cases h : c.toNat < 0x10000
  · exact .basic _ (if_pos h) h (hnat _ h)
  · exact .pair _ _ (if_neg h) h (hnat _ (by omega)) (hnat _ (by omega))

private theorem isHighSurrogate_iff {u : UInt16} :
    isHighSurrogate u = true ↔ 0xD800 ≤ u.toNat ∧ u.toNat ≤ 0xDBFF := by
  simp only [isHighSurrogate, Bool.and_eq_true, decide_eq_true_eq, UInt16.le_iff_toNat_le,
    UInt16.reduceToNat]

private theorem isLowSurrogate_iff {u : UInt16} :
    isLowSurrogate u = true ↔ 0xDC00 ≤ u.toNat ∧ u.toNat ≤ 0xDFFF := by
  simp only [isLowSurrogate, Bool.and_eq_true, decide_eq_true_eq, UInt16.le_iff_toNat_le,
    UInt16.reduceToNat]

/-- The units of a scalar value are read as the scalar value. -/
private theorem scalars_utf16_append (c : Char) (us : JsString) :
    scalars (utf16 c ++ us) = c :: scalars us := by
  have hr := scalar_range c
  cases units_utf16 c with
  | basic u he h hu =>
    rw [he]
    have hhigh : isHighSurrogate u = false := by
      rw [← Bool.not_eq_true, isHighSurrogate_iff]
      omega
    have hlow : isLowSurrogate u = false := by
      rw [← Bool.not_eq_true, isLowSurrogate_iff]
      omega
    have hscalar : scalarOfUnit u = c := by
      rw [scalarOfUnit, hhigh, hlow, hu]
      exact Char.ofNat_toNat c
    cases us with
    | nil =>
      change [scalarOfUnit u] = [c]
      rw [hscalar]
    | cons v us =>
      rw [List.singleton_append, scalars, hhigh, hscalar]
      rfl
  | pair hi lo he h hhi hlo =>
    rw [he]
    have hhigh : isHighSurrogate hi = true := by
      rw [isHighSurrogate_iff]
      omega
    have hlow : isLowSurrogate lo = true := by
      rw [isLowSurrogate_iff]
      omega
    have hscalar : scalarOfPair hi lo = c := by
      have hnat : 0x10000 + (hi.toNat - 0xD800) * 0x400 + (lo.toNat - 0xDC00) = c.toNat := by omega
      rw [scalarOfPair, hnat]
      exact Char.ofNat_toNat c
    rw [List.cons_append, List.singleton_append, scalars, hhigh, hlow, hscalar]
    rfl

/-- A text in front of a string value is read as it is. -/
theorem scalars_utf16s_append (cs : List Char) (us : JsString) :
    scalars (utf16s cs ++ us) = cs ++ scalars us := by
  induction cs with
  | nil => rfl
  | cons c cs ih =>
    rw [utf16s, List.flatMap_cons, List.append_assoc, ← utf16s, scalars_utf16_append, ih,
      List.cons_append]

/-- The scalar values of the string value of a text are the text. -/
theorem scalars_utf16s (cs : List Char) : scalars (utf16s cs) = cs := by
  have h := scalars_utf16s_append cs []
  rwa [List.append_nil, scalars, List.append_nil] at h

/-- A unit that is not the second of a pair starts a scalar value. -/
theorem scalars_append_cons (s : JsString) {u : UInt16} (hu : isLowSurrogate u = false)
    (us : JsString) : scalars (s ++ u :: us) = scalars s ++ scalars (u :: us) := by
  induction s using scalars.induct with
  | case1 => rfl
  | case2 v =>
    have hv : scalars (v :: u :: us) = scalarOfUnit v :: scalars (u :: us) := by
      rw [scalars.eq_3, hu, Bool.and_false, if_neg Bool.false_ne_true]
    exact hv
  | case3 hi lo s h ih =>
    rw [List.cons_append, List.cons_append, scalars, if_pos h, scalars, if_pos h, ih,
      List.cons_append]
  | case4 hi lo s h ih =>
    rw [List.cons_append] at ih
    rw [List.cons_append, List.cons_append, scalars, if_neg h, scalars, if_neg h, ih,
      List.cons_append]

/-- The string value of a text is well formed. -/
theorem wellFormed_utf16s (cs : List Char) : WellFormedText (utf16s cs) := by
  rw [WellFormedText, scalars_utf16s]

/-- Different texts have different string values. -/
theorem utf16s_inj {cs ds : List Char} (h : utf16s cs = utf16s ds) : cs = ds := by
  rw [← scalars_utf16s cs, h, scalars_utf16s]

theorem utf16s_cons (c : Char) (cs : List Char) : utf16s (c :: cs) = utf16 c ++ utf16s cs := rfl

theorem utf8s_cons (c : Char) (cs : List Char) :
    utf8s (c :: cs) = String.utf8EncodeChar c ++ utf8s cs := rfl

theorem utf16s_append (cs ds : List Char) : utf16s (cs ++ ds) = utf16s cs ++ utf16s ds :=
  List.flatMap_append

/-- A well-formed string value is the form of a text. -/
theorem wellFormed_iff {s : JsString} : WellFormedText s ↔ ∃ cs, s = utf16s cs := by
  constructor
  · intro h
    exact ⟨scalars s, h.symm⟩
  · rintro ⟨cs, rfl⟩
    exact wellFormed_utf16s cs

/-- An ASCII unit is the form of a character. -/
theorem utf16_of_ascii {u : UInt16} (h : u.toNat < 0x80) : utf16 (Char.ofNat u.toNat) = [u] := by
  have hn : (Char.ofNat u.toNat).toNat = u.toNat := by
    rw [Char.ofNat, dif_pos (Or.inl (by omega))]
    rfl
  rw [utf16, hn, if_pos (by omega), Nat.toUInt16_eq, UInt16.ofNat_toNat]

/-- An ASCII unit is in the form of no other character. -/
theorem eq_of_mem_utf16 {u : UInt16} (h : u.toNat < 0x80) {c : Char} (hc : u ∈ utf16 c) :
    c = Char.ofNat u.toNat := by
  cases units_utf16 c with
  | basic v he hb hv =>
    rw [he, List.mem_singleton] at hc
    rw [hc, hv, Char.ofNat_toNat]
  | pair hi lo he hb hhi hlo =>
    rw [he, List.mem_cons, List.mem_singleton] at hc
    rcases hc with rfl | rfl
    · omega
    · omega

/-- A text whose form starts with an ASCII unit starts with that character. -/
theorem head_of_utf16s {u : UInt16} (h : u.toNat < 0x80) {cs : List Char} {us : JsString}
    (hcs : utf16s cs = u :: us) : cs.head? = some (Char.ofNat u.toNat) := by
  cases cs with
  | nil => cases hcs
  | cons c cs =>
    have hmem : u ∈ utf16 c := by
      rw [utf16s_cons] at hcs
      cases units_utf16 c with
      | basic v he hb hv =>
        rw [he] at hcs ⊢
        cases hcs
        exact List.mem_cons_self
      | pair hi lo he hb hhi hlo =>
        rw [he] at hcs ⊢
        cases hcs
        exact List.mem_cons_self
    rw [List.head?_cons, eq_of_mem_utf16 h hmem]

/-- A string of ASCII units is well formed. -/
theorem wellFormed_of_ascii {s : JsString} (h : ∀ u ∈ s, u.toNat < 0x80) : WellFormedText s := by
  rw [wellFormed_iff]
  refine ⟨s.map fun u ↦ Char.ofNat u.toNat, ?_⟩
  induction s with
  | nil => rfl
  | cons u us ih =>
    rw [List.forall_mem_cons] at h
    rw [List.map_cons, utf16s_cons, utf16_of_ascii h.1, ← ih h.2]
    rfl

theorem WellFormedText.append {s t : JsString} (hs : WellFormedText s) (ht : WellFormedText t) :
    WellFormedText (s ++ t) := by
  rw [wellFormed_iff] at hs ht ⊢
  obtain ⟨cs, rfl⟩ := hs
  obtain ⟨ds, rfl⟩ := ht
  exact ⟨cs ++ ds, (utf16s_append cs ds).symm⟩

/-- Units of an ASCII kind are the characters of that kind. -/
theorem countP_utf16s {p : UInt16 → Bool} {q : Char → Bool}
    (hp : ∀ u, p u = true → u.toNat < 0x80 ∧ q (Char.ofNat u.toNat) = true)
    (hq : ∀ c, q c = true → ∃ u, utf16 c = [u] ∧ p u = true) (cs : List Char) :
    (utf16s cs).countP p = cs.countP q := by
  induction cs with
  | nil => rfl
  | cons c cs ih =>
    rw [utf16s_cons, List.countP_append, ih]
    by_cases hc : q c = true
    · obtain ⟨u, hu, hpu⟩ := hq c hc
      rw [hu, List.countP_cons_of_pos hpu, List.countP_cons_of_pos hc, List.countP_nil]
      omega
    · have hzero : (utf16 c).countP p = 0 := by
        rw [List.countP_eq_zero]
        intro u hu hpu
        obtain ⟨hascii, hqu⟩ := hp u hpu
        rw [← eq_of_mem_utf16 hascii hu] at hqu
        exact hc hqu
      rw [hzero, List.countP_cons_of_neg hc]
      omega

/-! ### The octets of a scalar value -/

/-- The number of octets of the scalar value that starts with this octet. -/
def sequenceLength (b : UInt8) : Option Nat :=
  if b < 0x80 then some 1
  else if b < 0xC0 then none
  else if b < 0xE0 then some 2
  else if b < 0xF0 then some 3
  else if b < 0xF8 then some 4
  else none

/-- The scalar value with these octets. -/
def scalarOfOctets (octets : List UInt8) : Option Char :=
  (octets.toByteArray.utf8DecodeChar? 0).filter fun c ↦ String.utf8EncodeChar c = octets

/-- Reading the octets of a scalar value gives it back, and nothing else is read. -/
theorem scalarOfOctets_eq_some_iff {octets : List UInt8} {c : Char} :
    scalarOfOctets octets = some c ↔ octets = String.utf8EncodeChar c := by
  rw [scalarOfOctets, Option.filter_eq_some_iff, decide_eq_true_iff]
  constructor
  · rintro ⟨-, h⟩
    exact h.symm
  · rintro rfl
    have h := ByteArray.utf8DecodeChar?_utf8EncodeChar_append (b := ByteArray.empty) (c := c)
    rw [ByteArray.append_empty] at h
    exact ⟨h, rfl⟩

/-- The text with these octets. -/
def textOfOctets (octets : List UInt8) : Option (List Char) :=
  octets.toByteArray.utf8Decode?.map Array.toList

/-- Reading the octets of a text gives it back, and nothing else is read. -/
theorem textOfOctets_eq_some_iff {octets : List UInt8} {cs : List Char} :
    textOfOctets octets = some cs ↔ octets = utf8s cs := by
  constructor
  · intro h
    rw [textOfOctets, Option.map_eq_some_iff] at h
    obtain ⟨a, ha, rfl⟩ := h
    have hget := ByteArray.utf8Encode_get_utf8Decode? (b := octets.toByteArray) (h := by simp [ha])
    simp only [ha, Option.get_some] at hget
    have hdata := congrArg (fun b ↦ b.data.toList) hget
    simp only [List.utf8Encode, List.toList_data_toByteArray] at hdata
    exact hdata.symm
  · rintro rfl
    have hdecode := List.utf8Decode?_utf8Encode (l := cs)
    rw [List.utf8Encode] at hdecode
    rw [textOfOctets, utf8s, hdecode, Option.map_some, List.toList_toArray]

/-- An ASCII character is one octet. -/
theorem octets_of_ascii {c : Char} (h : c.toNat < 0x80) :
    String.utf8EncodeChar c = [c.toNat.toUInt8] :=
  if_pos (Nat.le_of_lt_succ h)

private theorem sequenceLength_eq (b : UInt8) : sequenceLength b =
    if b.toNat < 0x80 then some 1
    else if b.toNat < 0xC0 then none
    else if b.toNat < 0xE0 then some 2
    else if b.toNat < 0xF0 then some 3
    else if b.toNat < 0xF8 then some 4
    else none := by
  simp only [sequenceLength, UInt8.lt_iff_toNat_lt, UInt8.reduceToNat]

/-- The octets of a scalar value that is not ASCII are not ASCII, and the first one says how many
there are. -/
theorem octets_of_not_ascii {c : Char} (h : ¬ c.toNat < 0x80) :
    (∀ b ∈ String.utf8EncodeChar c, ¬ b < 0x80) ∧ ∃ b bs, String.utf8EncodeChar c = b :: bs ∧
      sequenceLength b = some (bs.length + 1) := by
  have hr := scalar_range c
  change ¬ c.val.toNat < 0x80 at h
  change c.val.toNat < 0xD800 ∨ 0xDFFF < c.val.toNat ∧ c.val.toNat < 0x110000 at hr
  unfold String.utf8EncodeChar
  dsimp only
  rw [if_neg (by omega)]
  have hoctets : ∀ l : List UInt8, (∀ b ∈ l, 0x80 ≤ b.toNat) → ∀ b ∈ l, ¬ b < 0x80 := by
    intro l hl b hb
    rw [UInt8.lt_iff_toNat_lt]
    exact Nat.not_lt.mpr (hl b hb)
  split
  · refine ⟨hoctets _ ?_, _, _, rfl, ?_⟩
    · simp only [List.forall_mem_cons, UInt8.toNat_ofNat', List.not_mem_nil, false_implies,
        implies_true, and_true]
      omega
    · rw [sequenceLength_eq, UInt8.toNat_ofNat', if_neg (by omega), if_neg (by omega),
        if_pos (by omega)]
      rfl
  · split
    · refine ⟨hoctets _ ?_, _, _, rfl, ?_⟩
      · simp only [List.forall_mem_cons, UInt8.toNat_ofNat', List.not_mem_nil, false_implies,
          implies_true, and_true]
        omega
      · rw [sequenceLength_eq, UInt8.toNat_ofNat', if_neg (by omega), if_neg (by omega),
          if_neg (by omega), if_pos (by omega)]
        rfl
    · refine ⟨hoctets _ ?_, _, _, rfl, ?_⟩
      · simp only [List.forall_mem_cons, UInt8.toNat_ofNat', List.not_mem_nil, false_implies,
          implies_true, and_true]
        omega
      · rw [sequenceLength_eq, UInt8.toNat_ofNat', if_neg (by omega), if_neg (by omega),
          if_neg (by omega), if_neg (by omega), if_pos (by omega)]
        rfl

/-- The first octet of a scalar value says how many there are. -/
theorem octets_lead (c : Char) : ∃ b bs, String.utf8EncodeChar c = b :: bs ∧
    sequenceLength b = some (bs.length + 1) := by
  by_cases h : c.toNat < 0x80
  · refine ⟨_, _, octets_of_ascii h, ?_⟩
    rw [sequenceLength_eq, Nat.toUInt8_eq, UInt8.toNat_ofNat', if_pos (by omega)]
    rfl
  · exact (octets_of_not_ascii h).2

/-! ### Counting octets in units -/

/-- The share of a unit in the octets of a text: the two units of a pair have four octets. -/
def unitOctets (u : UInt16) : Nat :=
  if u < 0x80 then 1
  else if u < 0x800 then 2
  else if isHighSurrogate u || isLowSurrogate u then 2
  else 3

/-- The number of octets, counted in the units. -/
def octetCount : JsString → Nat
  | [] => 0
  | u :: us => unitOctets u + octetCount us

theorem octetCount_append (s t : JsString) : octetCount (s ++ t) = octetCount s + octetCount t := by
  induction s with
  | nil => rw [octetCount, List.nil_append, Nat.zero_add]
  | cons u us ih => rw [List.cons_append, octetCount, octetCount, ih, Nat.add_assoc]

/-- ASCII units count one each. -/
theorem octetCount_of_ascii {s : JsString} (h : ∀ u ∈ s, u.toNat < 0x80) :
    octetCount s = s.length := by
  induction s with
  | nil => rfl
  | cons u us ih =>
    rw [List.forall_mem_cons] at h
    have hu : unitOctets u = 1 := if_pos (UInt16.lt_iff_toNat_lt.mpr h.1)
    rw [octetCount, hu, ih h.2, List.length_cons]
    omega

private theorem unitOctets_eq (u : UInt16) : unitOctets u =
    if u.toNat < 0x80 then 1
    else if u.toNat < 0x800 then 2
    else if 0xD800 ≤ u.toNat ∧ u.toNat ≤ 0xDFFF then 2
    else 3 := by
  have hsurrogate : (isHighSurrogate u || isLowSurrogate u) = true ↔
      0xD800 ≤ u.toNat ∧ u.toNat ≤ 0xDFFF := by
    rw [Bool.or_eq_true, isHighSurrogate_iff, isLowSurrogate_iff]
    omega
  simp only [unitOctets, UInt16.lt_iff_toNat_lt, UInt16.reduceToNat, hsurrogate]

/-- The units of a scalar value count its octets. -/
theorem octetCount_utf16 (c : Char) : octetCount (utf16 c) = (String.utf8EncodeChar c).length := by
  have hr := scalar_range c
  have hsize : (String.utf8EncodeChar c).length = if c.toNat < 0x80 then 1
      else if c.toNat < 0x800 then 2 else if c.toNat < 0x10000 then 3 else 4 := by
    have hv : c.val.toNat = c.toNat := rfl
    unfold String.utf8EncodeChar
    rw [hv]
    dsimp only
    split
    · rw [if_pos (by omega)]
      rfl
    · split
      · rw [if_neg (by omega), if_pos (by omega)]
        rfl
      · split
        · rw [if_neg (by omega), if_neg (by omega), if_pos (by omega)]
          rfl
        · rw [if_neg (by omega), if_neg (by omega), if_neg (by omega)]
          rfl
  rw [hsize]
  cases units_utf16 c with
  | basic u he h hu =>
    rw [he, octetCount, octetCount, unitOctets_eq, hu]
    split
    · rfl
    split
    · rfl
    · rw [if_neg (by omega)]
  | pair hi lo he h hhi hlo =>
    rw [he, octetCount, octetCount, octetCount, unitOctets_eq, unitOctets_eq, if_neg (by omega),
      if_neg (by omega), if_pos (by omega), if_neg (by omega), if_neg (by omega), if_pos (by omega),
      if_neg (by omega), if_neg (by omega), if_neg h]

/-- The units of a text count its octets. -/
theorem octetCount_utf16s (cs : List Char) : octetCount (utf16s cs) = (utf8s cs).length := by
  induction cs with
  | nil => rfl
  | cons c cs ih => rw [utf16s_cons, utf8s_cons, octetCount_append, List.length_append,
      octetCount_utf16, ih]

/-- A scalar value has at least as many octets as units. -/
theorem length_utf16_le (c : Char) : (utf16 c).length ≤ (String.utf8EncodeChar c).length := by
  have hunit : ∀ u, 1 ≤ unitOctets u := by
    intro u
    rw [unitOctets_eq]
    split
    · exact Nat.le_refl 1
    split
    · exact Nat.le_succ 1
    split <;> omega
  rw [← octetCount_utf16]
  induction utf16 c with
  | nil => exact Nat.le_refl 0
  | cons u us ih =>
    have hu := hunit u
    rw [List.length_cons, octetCount]
    omega

end MusicComparer.Js
