import Mathlib.Data.Bool.AllAny
import MusicComparer.Js.JsonText
import MusicComparer.Js.Unicode

/-!
# Percent-encoding

Library `Js`. The functions of ECMA-262 that escape and unescape URI texts. An escape is a percent
sign with two hexadecimal digits, for one octet of the UTF-8 form of a scalar value. Decoding reads
the escapes of one scalar value at a time, and leaves those of preserved characters as they are.
-/

namespace MusicComparer.Js

open Json (hexValue)

/-- The hexadecimal digit of a value, in upper case. -/
def hexDigit (n : Nat) : Char := if n < 10 then Char.ofNat (48 + n) else Char.ofNat (55 + n)

/-- The escape of an octet. -/
def percent (b : UInt8) : List Char := ['%', hexDigit (b.toNat / 16), hexDigit (b.toNat % 16)]

/-- The escapes of a scalar value. -/
def percentScalar (c : Char) : List Char := (String.utf8EncodeChar c).flatMap percent

/-- A text with the escapes of the scalar values that are not kept. -/
def escapeText (keep : Char → Bool) (cs : List Char) : List Char :=
  cs.flatMap fun c ↦ if keep c then [c] else percentScalar c

/-- The octet of the escape at the start of a string, and what comes after it. -/
def escapeAt : JsString → Option (UInt8 × JsString)
  | u :: h :: l :: us =>
    match hexValue h, hexValue l with
    | some a, some b => if u = 37 then some ((16 * a + b).toUInt8, us) else none
    | _, _ => none
  | _ => none

/-- The octets of this many escapes at the start of a string, and what comes after them. -/
def octetsAt : Nat → JsString → Option (List UInt8 × JsString)
  | 0, us => some ([], us)
  | n + 1, us => do
    let (b, us) ← escapeAt us
    let (bs, us) ← octetsAt n us
    pure (b :: bs, us)

/-- The scalar value whose escapes are at the start of a string, and what comes after them. -/
def scalarAt (us : JsString) : Option (Char × JsString) := do
  let (b, _) ← escapeAt us
  let n ← sequenceLength b
  let (octets, rest) ← octetsAt n us
  let c ← scalarOfOctets octets
  pure (c, rest)

/-- The abstract operation `Decode`, within a number of rounds. -/
def decodeWithin (preserved : Char → Bool) : Nat → JsString → Option JsString
  | _, [] => some []
  | 0, _ :: _ => none
  | n + 1, u :: us =>
    if u = 37 then do
      let (c, rest) ← scalarAt (u :: us)
      let decoded ← decodeWithin preserved n rest
      pure ((if preserved c then (u :: us).take 3 else utf16 c) ++ decoded)
    else do
      let decoded ← decodeWithin preserved n us
      pure (u :: decoded)

/-- The abstract operation `Decode` of ECMA-262: `none` is the `URIError`. Every round takes a unit
off. -/
def decode (preserved : Char → Bool) (us : JsString) : Option JsString :=
  decodeWithin preserved us.length us

/-- The characters with a meaning in URIs, and the number sign. -/
def isReserved (c : Char) : Bool :=
  c ∈ [';', '/', '?', ':', '@', '&', '=', '+', '$', ',', '#']

/-- ASCII letters and digits. -/
def isAlphanumeric (c : Char) : Bool :=
  ('a' ≤ c && c ≤ 'z') || ('A' ≤ c && c ≤ 'Z') || ('0' ≤ c && c ≤ '9')

/-- The characters that `encodeURI` leaves as they are. -/
def isUnescaped (c : Char) : Bool :=
  isReserved c || isAlphanumeric c || c ∈ ['-', '_', '.', '!', '~', '*', '\'', '(', ')']

/-- `encodeURI`: `none` is the `URIError` for a lone surrogate. -/
def encodeURI (s : JsString) : Option JsString :=
  if WellFormedText s then some (utf16s (escapeText isUnescaped (scalars s))) else none

/-- `decodeURI`. -/
def decodeURI (s : JsString) : Option JsString := decode isReserved s

/-- `decodeURIComponent`. -/
def decodeURIComponent (s : JsString) : Option JsString := decode (fun _ ↦ false) s

/-- The ranges of the letters and digits. -/
theorem isAlphanumeric_iff {c : Char} : isAlphanumeric c = true ↔
    48 ≤ c.toNat ∧ c.toNat ≤ 57 ∨ 65 ≤ c.toNat ∧ c.toNat ≤ 90 ∨ 97 ≤ c.toNat ∧ c.toNat ≤ 122 := by
  have hval : c.val.toNat = c.toNat := rfl
  simp only [isAlphanumeric, Bool.or_eq_true, Bool.and_eq_true, decide_eq_true_eq, Char.le_def,
    UInt32.le_iff_toNat_le, hval, Char.reduceVal, UInt32.reduceToNat]
  omega

/-! ### Escapes -/

private theorem hexValue_hexDigit {n : Nat} (h : n < 16) :
    hexValue (hexDigit n).toNat.toUInt16 = some n := by
  revert h n
  decide

private theorem utf16_hexDigit {n : Nat} (h : n < 16) :
    utf16 (hexDigit n) = [(hexDigit n).toNat.toUInt16] := by
  revert h n
  decide

/-- The units of the hexadecimal digits. -/
theorem range_of_hexValue {u : UInt16} {n : Nat} (h : hexValue u = some n) :
    48 ≤ u.toNat ∧ u.toNat ≤ 57 ∨ 97 ≤ u.toNat ∧ u.toNat ≤ 102 ∨
      65 ≤ u.toNat ∧ u.toNat ≤ 70 := by
  simp only [hexValue, UInt16.le_iff_toNat_le, UInt16.reduceToNat] at h
  split at h
  · next hd => exact Or.inl hd
  · split at h
    · next hd => exact Or.inr (Or.inl hd)
    · split at h
      · next hd => exact Or.inr (Or.inr hd)
      · cases h

/-- A hexadecimal digit is an ASCII unit other than the percent sign. -/
private theorem ascii_of_hexValue {u : UInt16} {n : Nat} (h : hexValue u = some n) :
    u.toNat < 0x80 ∧ u ≠ 37 := by
  have hu := range_of_hexValue h
  constructor
  · omega
  · rintro rfl
    simp only [UInt16.reduceToNat] at hu
    omega

/-- The escape of an octet is read as the octet. -/
theorem escapeAt_percent (b : UInt8) (us : JsString) :
    escapeAt (utf16s (percent b) ++ us) = some (b, us) := by
  have hb : b.toNat < 256 := b.toNat_lt
  have h : (16 * (b.toNat / 16) + b.toNat % 16).toUInt8 = b := by
    rw [Nat.div_add_mod]
    exact UInt8.ofNat_toNat
  have hunits : utf16s (percent b) = [37, (hexDigit (b.toNat / 16)).toNat.toUInt16,
      (hexDigit (b.toNat % 16)).toNat.toUInt16] := by
    rw [percent, utf16s_cons, utf16s_cons, utf16s_cons, utf16_hexDigit (by omega),
      utf16_hexDigit (by omega)]
    rfl
  simp only [hunits, List.cons_append, List.nil_append, escapeAt,
    hexValue_hexDigit (n := b.toNat / 16) (by omega),
    hexValue_hexDigit (n := b.toNat % 16) (by omega), if_true, h]

/-- The escapes of octets are read as the octets. -/
theorem octetsAt_percent (bs : List UInt8) (us : JsString) :
    octetsAt bs.length (utf16s (bs.flatMap percent) ++ us) = some (bs, us) := by
  induction bs with
  | nil => rfl
  | cons b bs ih =>
    rw [List.flatMap_cons, utf16s_append, List.append_assoc, List.length_cons, octetsAt,
      escapeAt_percent]
    simp [ih]

/-- The escapes of a scalar value are read as the scalar value. -/
theorem scalarAt_percentScalar (c : Char) (us : JsString) :
    scalarAt (utf16s (percentScalar c) ++ us) = some (c, us) := by
  obtain ⟨b, bs, hc, hb⟩ := octets_lead c
  have hescape : escapeAt (utf16s (percentScalar c) ++ us) =
      some (b, utf16s (bs.flatMap percent) ++ us) := by
    rw [percentScalar, hc, List.flatMap_cons, utf16s_append, List.append_assoc, escapeAt_percent]
  have hoctets : octetsAt (bs.length + 1) (utf16s (percentScalar c) ++ us) =
      some (b :: bs, us) := by
    rw [percentScalar, hc]
    exact octetsAt_percent (b :: bs) us
  have hscalar : scalarOfOctets (b :: bs) = some c := scalarOfOctets_eq_some_iff.mpr hc.symm
  simp [scalarAt, hescape, hb, hoctets, hscalar]

/-- A string of this many escapes: three ASCII units for each, one of them a percent sign. -/
structure Escapes (n : Nat) (us : JsString) : Prop where
  length : us.length = 3 * n
  count : us.count 37 = n
  ascii : ∀ u ∈ us, u.toNat < 0x80

/-- An escape that is read is a percent sign with two digits. -/
theorem escapeAt_eq_some {us rest : JsString} {b : UInt8} (h : escapeAt us = some (b, rest)) :
    ∃ esc, us = esc ++ rest ∧ Escapes 1 esc := by
  unfold escapeAt at h
  split at h
  · next u x y us' =>
    split at h
    · next a b' ha hb =>
      split at h
      · next hu =>
        cases h
        subst hu
        obtain ⟨hx, hx'⟩ := ascii_of_hexValue ha
        obtain ⟨hy, hy'⟩ := ascii_of_hexValue hb
        refine ⟨[37, x, y], rfl, rfl, by simp [hx', hy'], ?_⟩
        simp [hx, hy]
      · cases h
    · cases h
  · cases h

/-- The octets that are read come from as many escapes. -/
theorem octetsAt_eq_some {n : Nat} {us rest : JsString} {bs : List UInt8}
    (h : octetsAt n us = some (bs, rest)) :
    bs.length = n ∧ ∃ esc, us = esc ++ rest ∧ Escapes n esc := by
  induction n generalizing us bs with
  | zero =>
    cases h
    exact ⟨rfl, [], rfl, rfl, rfl, by simp⟩
  | succ n ih =>
    rw [octetsAt, Option.bind_eq_bind, Option.bind_eq_some_iff] at h
    obtain ⟨⟨b, us'⟩, hb, h⟩ := h
    rw [Option.bind_eq_bind, Option.bind_eq_some_iff] at h
    obtain ⟨⟨bs', rest'⟩, hbs, h⟩ := h
    cases h
    obtain ⟨esc, rfl, he⟩ := escapeAt_eq_some hb
    obtain ⟨hlen, esc', rfl, he'⟩ := ih hbs
    refine ⟨by rw [List.length_cons, hlen], esc ++ esc', by rw [List.append_assoc], ?_, ?_, ?_⟩
    · rw [List.length_append, he.length, he'.length]
      omega
    · rw [List.count_append, he.count, he'.count]
      omega
    · rw [List.forall_mem_append]
      exact ⟨he.ascii, he'.ascii⟩

/-- A scalar value that is read comes from an escape for each of its octets. -/
theorem scalarAt_eq_some {us rest : JsString} {c : Char} (h : scalarAt us = some (c, rest)) :
    ∃ esc, us = esc ++ rest ∧ Escapes (String.utf8EncodeChar c).length esc := by
  rw [scalarAt, Option.bind_eq_bind, Option.bind_eq_some_iff] at h
  obtain ⟨⟨b, us'⟩, -, h⟩ := h
  rw [Option.bind_eq_bind, Option.bind_eq_some_iff] at h
  obtain ⟨n, -, h⟩ := h
  rw [Option.bind_eq_bind, Option.bind_eq_some_iff] at h
  obtain ⟨⟨octets, rest'⟩, ho, h⟩ := h
  rw [Option.bind_eq_bind, Option.bind_eq_some_iff] at h
  obtain ⟨c', hc, h⟩ := h
  cases h
  obtain ⟨hlen, esc, hesc, he⟩ := octetsAt_eq_some ho
  rw [← scalarOfOctets_eq_some_iff.mp hc, hlen]
  exact ⟨esc, hesc, he⟩

/-! ### Cutting texts -/

/-- A text is cut after its beginning when the character is not there. -/
theorem takeWhile_ne {d : Char} {cs : List Char} (h : d ∉ cs) (ds : List Char) :
    (cs ++ ds).takeWhile (· ≠ d) = cs ++ ds.takeWhile (· ≠ d) := by
  apply List.takeWhile_append_of_pos
  intro x hx
  rw [decide_eq_true_iff]
  rintro rfl
  exact h hx

theorem takeWhile_of_not_mem {d : Char} {cs : List Char} (h : d ∉ cs) :
    cs.takeWhile (· ≠ d) = cs := by
  have hcut := takeWhile_ne h []
  rwa [List.append_nil, List.takeWhile_nil, List.append_nil] at hcut

/-- A text is cut at a character that stops it, whatever comes after. -/
theorem takeWhile_append_stop {r : Char → Bool} {d : Char} (hd : r d = false)
    (cs ds : List Char) : (cs ++ d :: ds).takeWhile r = cs.takeWhile r := by
  induction cs with
  | nil => exact List.takeWhile_cons_of_neg (by simp [hd])
  | cons c cs ih =>
    rw [List.cons_append, List.takeWhile_cons, List.takeWhile_cons, ih]

/-- Characters that no escape has. -/
def NotInEscapes (d : Char) : Prop := isAlphanumeric d = false ∧ d ≠ '%'

instance : DecidablePred NotInEscapes := fun d ↦
  inferInstanceAs (Decidable (isAlphanumeric d = false ∧ d ≠ '%'))

theorem not_mem_percentScalar {d : Char} (hd : NotInEscapes d) (c : Char) :
    d ∉ percentScalar c := by
  have hdigit : ∀ n < 16, isAlphanumeric (hexDigit n) = true := by decide
  have hne : ∀ n < 16, d ≠ hexDigit n := by
    rintro n hn rfl
    exact Bool.false_ne_true (hd.1.symm.trans (hdigit n hn))
  intro hmem
  rw [percentScalar, List.mem_flatMap] at hmem
  obtain ⟨b, -, hb⟩ := hmem
  have hlt : b.toNat < 256 := b.toNat_lt
  rw [percent, List.mem_cons, List.mem_cons, List.mem_singleton] at hb
  rcases hb with hb | hb | hb
  · exact hd.2 hb
  · exact hne (b.toNat / 16) (by omega) hb
  · exact hne (b.toNat % 16) (by omega) hb

theorem escapeText_cons (keep : Char → Bool) (c : Char) (cs : List Char) :
    escapeText keep (c :: cs) =
      (if keep c then [c] else percentScalar c) ++ escapeText keep cs := rfl

/-- A text is cut at a character that is kept as well after escaping as before. -/
theorem takeWhile_escapeText {keep : Char → Bool} {d : Char} (hk : keep d = true)
    (hd : NotInEscapes d) (cs : List Char) :
    (escapeText keep cs).takeWhile (· ≠ d) = escapeText keep (cs.takeWhile (· ≠ d)) := by
  induction cs with
  | nil => rfl
  | cons c cs ih =>
    rw [escapeText_cons]
    by_cases hc : c = d
    · subst hc
      simp [hk, escapeText]
    · have hpre : ∀ x ∈ (if keep c then [c] else percentScalar c), decide (x ≠ d) = true := by
        intro x hx
        rw [decide_eq_true_iff]
        rintro rfl
        split at hx
        · exact hc (List.mem_singleton.mp hx).symm
        · exact not_mem_percentScalar hd c hx
      rw [List.takeWhile_append_of_pos hpre, ih, List.takeWhile_cons_of_pos (by simpa using hc),
        escapeText_cons]

/-! ### Decoding -/

variable {preserved : Char → Bool}

/-- How a string is decoded: unit by unit, and scalar value by scalar value at percent signs. -/
inductive Decoded (preserved : Char → Bool) : JsString → JsString → Prop where
  | nil : Decoded preserved [] []
  | unit (u : UInt16) (us os : JsString) (hu : u ≠ 37) (h : Decoded preserved us os) :
      Decoded preserved (u :: us) (u :: os)
  | scalar (c : Char) (us rest os : JsString) (hc : scalarAt (37 :: us) = some (c, rest))
      (hp : preserved c = false) (h : Decoded preserved rest os) :
      Decoded preserved (37 :: us) (utf16 c ++ os)
  | kept (c : Char) (us rest os : JsString) (hc : scalarAt (37 :: us) = some (c, rest))
      (hp : preserved c = true) (h : Decoded preserved rest os) :
      Decoded preserved (37 :: us) ((37 :: us).take 3 ++ os)

/-- What comes after a scalar value is shorter. -/
private theorem length_of_scalarAt {us rest : JsString} {c : Char}
    (h : scalarAt us = some (c, rest)) : rest.length < us.length := by
  obtain ⟨esc, rfl, he⟩ := scalarAt_eq_some h
  rw [List.length_append, he.length, String.length_utf8EncodeChar]
  have := c.utf8Size_pos
  omega

private theorem decoded_of_decodeWithin {n : Nat} {us os : JsString}
    (h : decodeWithin preserved n us = some os) : Decoded preserved us os := by
  induction n generalizing us os with
  | zero =>
    cases us with
    | nil =>
      cases h
      exact .nil
    | cons u us => cases h
  | succ n ih =>
    cases us with
    | nil =>
      cases h
      exact .nil
    | cons u us =>
      rw [decodeWithin] at h
      split at h
      · next hu =>
        subst hu
        rw [Option.bind_eq_bind, Option.bind_eq_some_iff] at h
        obtain ⟨⟨c, rest⟩, hc, h⟩ := h
        rw [Option.bind_eq_bind, Option.bind_eq_some_iff] at h
        obtain ⟨os', ho, h⟩ := h
        cases h
        cases hp : preserved c with
        | false => exact .scalar c us rest os' hc hp (ih ho)
        | true => exact .kept c us rest os' hc hp (ih ho)
      · next hu =>
        rw [Option.bind_eq_bind, Option.bind_eq_some_iff] at h
        obtain ⟨os', ho, h⟩ := h
        cases h
        exact .unit u us os' hu (ih ho)

private theorem decodeWithin_of_decoded {n : Nat} {us os : JsString}
    (h : Decoded preserved us os) (hn : us.length ≤ n) :
    decodeWithin preserved n us = some os := by
  induction h generalizing n with
  | nil => cases n <;> rfl
  | unit u us os hu h ih =>
    cases n with
    | zero => cases hn
    | succ n =>
      rw [decodeWithin, if_neg hu, ih (by simpa using hn)]
      rfl
  | scalar c us rest os hc hp h ih =>
    cases n with
    | zero => cases hn
    | succ n =>
      have hlen := length_of_scalarAt hc
      simp [decodeWithin, hc, hp, ih (Nat.le_of_lt_succ (Nat.lt_of_lt_of_le hlen hn))]
  | kept c us rest os hc hp h ih =>
    cases n with
    | zero => cases hn
    | succ n =>
      have hlen := length_of_scalarAt hc
      simp [decodeWithin, hc, hp, ih (Nat.le_of_lt_succ (Nat.lt_of_lt_of_le hlen hn))]

/-- Decoding succeeds exactly as described. -/
theorem decode_eq_some_iff {us os : JsString} :
    decode preserved us = some os ↔ Decoded preserved us os :=
  ⟨decoded_of_decodeWithin, fun h ↦ decodeWithin_of_decoded h (Nat.le_refl _)⟩

/-- Units without a percent sign are decoded to themselves. -/
theorem Decoded.raw {us os : JsString} (h : Decoded preserved us os) {raw : JsString}
    (hraw : ∀ u ∈ raw, u ≠ 37) : Decoded preserved (raw ++ us) (raw ++ os) := by
  induction raw with
  | nil => exact h
  | cons u raw ih =>
    rw [List.forall_mem_cons] at hraw
    exact .unit u _ _ hraw.1 (ih hraw.2)

/-- The escapes of a scalar value are decoded to it. -/
theorem Decoded.percentScalar {us os : JsString} (h : Decoded preserved us os) {c : Char}
    (hp : preserved c = false) :
    Decoded preserved (utf16s (percentScalar c) ++ us) (utf16 c ++ os) := by
  obtain ⟨b, bs, hb, -⟩ := octets_lead c
  have hfirst : ∃ esc, utf16s (Js.percentScalar c) ++ us = 37 :: esc := by
    have hpercent : utf16 '%' = [37] := by decide
    rw [Js.percentScalar, hb, List.flatMap_cons, percent, List.cons_append, utf16s_cons, hpercent,
      List.append_assoc, List.singleton_append]
    exact ⟨_, rfl⟩
  obtain ⟨esc, hesc⟩ := hfirst
  have hc := scalarAt_percentScalar c us
  rw [hesc] at hc ⊢
  exact .scalar c esc us os hc hp h

private theorem ne_percent_of_mem_utf16 {c : Char} (hc : c ≠ '%') : ∀ u ∈ utf16 c, u ≠ 37 := by
  rintro u hu rfl
  exact hc (eq_of_mem_utf16 (by decide) hu)

/-- Decoding undoes escaping, when percent signs are escaped and nothing else is preserved. -/
theorem decoded_escapeText {keep : Char → Bool} {cs : List Char}
    (hkeep : ∀ c ∈ cs, keep c = true → c ≠ '%')
    (hp : ∀ c ∈ cs, keep c = false → preserved c = false) :
    Decoded preserved (utf16s (escapeText keep cs)) (utf16s cs) := by
  induction cs with
  | nil => exact .nil
  | cons c cs ih =>
    rw [List.forall_mem_cons] at hkeep hp
    specialize ih hkeep.2 hp.2
    rw [escapeText_cons, utf16s_append, utf16s_cons]
    cases hc : keep c with
    | true =>
      have hone : utf16s [c] = utf16 c := List.append_nil _
      rw [if_pos rfl, hone]
      exact ih.raw (ne_percent_of_mem_utf16 (hkeep.1 hc))
    | false =>
      rw [if_neg Bool.false_ne_true]
      exact ih.percentScalar (hp.1 hc)

/-- The characters that `encodeURI` leaves alone are those that `decodeURI` preserves, and others
that are not percent signs. -/
theorem decodeURI_encodeURI {s t : JsString} (h : encodeURI s = some t) : decodeURI t = some s := by
  rw [encodeURI, Option.ite_none_right_eq_some] at h
  obtain ⟨hs, h⟩ := h
  cases h
  rw [decodeURI, decode_eq_some_iff]
  have hd : Decoded isReserved (utf16s (escapeText isUnescaped (scalars s)))
      (utf16s (scalars s)) := by
    apply decoded_escapeText
    · rintro c - hc rfl
      exact absurd hc (by decide)
    · intro c _ hc
      rw [isUnescaped, Bool.or_eq_false_iff, Bool.or_eq_false_iff] at hc
      exact hc.1.1
  rw [hs] at hd
  exact hd

/-! ### Counting octets -/

/-- The escapes of a scalar value. -/
theorem escapes_percentScalar (c : Char) :
    Escapes (String.utf8EncodeChar c).length (utf16s (percentScalar c)) := by
  have hc := scalarAt_percentScalar c []
  rw [List.append_nil] at hc
  obtain ⟨esc, hesc, he⟩ := scalarAt_eq_some hc
  rw [List.append_nil] at hesc
  rwa [hesc]

/-- Decoding takes two octets off for each percent sign. -/
theorem octetCount_decoded {us os : JsString} (h : Decoded (fun _ ↦ false) us os) :
    octetCount os + 2 * us.count 37 = octetCount us := by
  induction h with
  | nil => rfl
  | unit u us os hu h ih =>
    rw [List.count_cons_of_ne hu, octetCount, octetCount]
    omega
  | scalar c us rest os hc hp h ih =>
    obtain ⟨esc, hesc, he⟩ := scalarAt_eq_some hc
    have hlen := he.length
    rw [hesc, octetCount_append, octetCount_append, List.count_append, octetCount_utf16, he.count,
      octetCount_of_ascii he.ascii]
    omega
  | kept c us rest os hc hp h ih => cases hp

/-- Escaping adds two octets for each percent sign that it adds. -/
theorem octetCount_escapeText {keep : Char → Bool} (hkeep : keep '%' = true) (cs : List Char) :
    octetCount (utf16s (escapeText keep cs)) + 2 * cs.count '%' =
      octetCount (utf16s cs) + 2 * (utf16s (escapeText keep cs)).count 37 := by
  induction cs with
  | nil => rfl
  | cons c cs ih =>
    rw [escapeText_cons, utf16s_append, utf16s_cons, octetCount_append,
      octetCount_append, List.count_append]
    by_cases hc : keep c = true
    · have hone : utf16s [c] = utf16 c := List.append_nil _
      rw [if_pos hc, hone]
      by_cases hp : c = '%'
      · subst hp
        have hunits : (utf16 '%').count 37 = 1 := by decide
        rw [List.count_cons_self, hunits]
        omega
      · have hunits : (utf16 c).count 37 = 0 := by
          rw [List.count_eq_zero]
          exact fun h ↦ ne_percent_of_mem_utf16 hp 37 h rfl
        rw [List.count_cons_of_ne hp, hunits]
        omega
    · rw [if_neg hc]
      have hp : c ≠ '%' := by
        rintro rfl
        exact hc hkeep
      have he := escapes_percentScalar c
      have hlen := he.length
      rw [List.count_cons_of_ne hp, octetCount_of_ascii he.ascii, he.count, octetCount_utf16]
      omega

/-- Decoding what was escaped takes two octets off for each percent sign that was there. -/
theorem octetCount_decode_escapeText {keep : Char → Bool} (hkeep : keep '%' = true)
    {cs : List Char} {os : JsString}
    (h : decodeURIComponent (utf16s (escapeText keep cs)) = some os) :
    octetCount os + 2 * cs.count '%' = octetCount (utf16s cs) := by
  have hdecoded := octetCount_decoded (decode_eq_some_iff.mp h)
  have hescaped := octetCount_escapeText hkeep cs
  omega

/-! ### ASCII -/

/-- A text of which only ASCII is kept is ASCII after escaping. -/
theorem ascii_escapeText {keep : Char → Bool} {cs : List Char}
    (h : ∀ c ∈ cs, keep c = true → c.toNat < 0x80) :
    ∀ u ∈ utf16s (escapeText keep cs), u.toNat < 0x80 := by
  induction cs with
  | nil => exact fun u hu ↦ absurd hu List.not_mem_nil
  | cons c cs ih =>
    rw [List.forall_mem_cons] at h
    rw [escapeText_cons, utf16s_append, List.forall_mem_append]
    refine ⟨?_, ih h.2⟩
    cases hc : keep c with
    | true =>
      have hone : utf16s [c] = utf16 c := List.append_nil _
      have hlt := h.1 hc
      rw [if_pos rfl, hone, utf16, if_pos (by omega), List.forall_mem_singleton, Nat.toUInt16_eq,
        UInt16.toNat_ofNat']
      omega
    | false =>
      rw [if_neg Bool.false_ne_true]
      exact (escapes_percentScalar c).ascii

/-- What is decoded from ASCII is well formed. -/
theorem wellFormed_decoded {us os : JsString} (h : Decoded preserved us os)
    (hus : ∀ u ∈ us, u.toNat < 0x80) : WellFormedText os := by
  induction h with
  | nil => rfl
  | unit u us os hu h ih =>
    rw [List.forall_mem_cons] at hus
    exact (wellFormed_of_ascii (s := [u]) (by simpa using hus.1)).append (ih hus.2)
  | scalar c us rest os hc hp h ih =>
    obtain ⟨esc, hesc, he⟩ := scalarAt_eq_some hc
    rw [hesc, List.forall_mem_append] at hus
    have hone : utf16s [c] = utf16 c := List.append_nil _
    exact (hone ▸ wellFormed_utf16s [c]).append (ih hus.2)
  | kept c us rest os hc hp h ih =>
    have htake : ∀ u ∈ (37 :: us).take 3, u.toNat < 0x80 :=
      fun u hu ↦ hus u (List.mem_of_mem_take hu)
    obtain ⟨esc, hesc, he⟩ := scalarAt_eq_some hc
    rw [hesc, List.forall_mem_append] at hus
    exact (wellFormed_of_ascii htake).append (ih hus.2)

/-! ### Counting units -/

/-- Decoding adds no units of a kind that scalar values have no more of than their escapes. -/
theorem countP_decoded {p : UInt16 → Bool} {us os : JsString}
    (hp : ∀ c esc, preserved c = false → Escapes (String.utf8EncodeChar c).length esc →
      (utf16 c).countP p ≤ esc.countP p)
    (h : Decoded preserved us os) : os.countP p ≤ us.countP p := by
  induction h with
  | nil => exact Nat.le_refl _
  | unit u us os hu h ih =>
    rw [List.countP_cons, List.countP_cons]
    omega
  | scalar c us rest os hc hpc h ih =>
    obtain ⟨esc, hesc, he⟩ := scalarAt_eq_some hc
    have hle := hp c esc hpc he
    rw [hesc, List.countP_append, List.countP_append]
    omega
  | kept c us rest os hc hpc h ih =>
    obtain ⟨esc, hesc, he⟩ := scalarAt_eq_some hc
    have htake : 3 ≤ esc.length := by
      have hpos := c.utf8Size_pos
      rw [he.length, String.length_utf8EncodeChar]
      omega
    have hle := (List.take_sublist 3 esc).countP_le (p := p)
    rw [hesc, List.take_append_of_le_length htake, List.countP_append, List.countP_append]
    omega

/-- Each percent sign that counts makes up for a scalar value. -/
theorem countP_utf16_le_escapes {p : UInt16 → Bool} (hp : p 37 = true) {c : Char} {esc : JsString}
    (he : Escapes (String.utf8EncodeChar c).length esc) : (utf16 c).countP p ≤ esc.countP p := by
  calc (utf16 c).countP p ≤ (utf16 c).length := List.countP_le_length
    _ ≤ (String.utf8EncodeChar c).length := length_utf16_le c
    _ = esc.count 37 := he.count.symm
    _ ≤ esc.countP p := by
      apply List.countP_mono_left
      intro u _ hu
      rwa [eq_of_beq hu]

/-! ### Texts that decode to themselves -/

/-- Every percent sign starts the escape of a reserved character. -/
def reservedEscapes : JsString → Bool
  | [] => true
  | u :: us => (u != 37 || (scalarAt (u :: us)).any fun p ↦ isReserved p.1) && reservedEscapes us

private theorem reservedEscapes_append {raw : JsString} (h : ∀ u ∈ raw, u ≠ 37) (us : JsString) :
    reservedEscapes (raw ++ us) = reservedEscapes us := by
  induction raw with
  | nil => rfl
  | cons u raw ih =>
    rw [List.forall_mem_cons] at h
    have hu : (u != 37) = true := by simpa using h.1
    rw [List.cons_append, reservedEscapes, hu, ih h.2, Bool.true_or, Bool.true_and]

/-- A reserved character has one escape. -/
private theorem escapes_of_reserved {c : Char} (hc : isReserved c = true) {us rest : JsString}
    (h : scalarAt (37 :: us) = some (c, rest)) :
    ∃ a b, us = a :: b :: rest ∧ a ≠ 37 ∧ b ≠ 37 := by
  have hone : (String.utf8EncodeChar c).length = 1 := by
    rw [isReserved, decide_eq_true_iff] at hc
    clear h
    revert c
    rw [← List.all_iff_forall_prop]
    decide
  obtain ⟨esc, hesc, he⟩ := scalarAt_eq_some h
  rw [hone] at he
  match esc, he.length, he.count with
  | [x, a, b], _, hcount =>
    cases hesc
    refine ⟨a, b, rfl, ?_, ?_⟩
    · rintro rfl
      simp [List.count_cons] at hcount
    · rintro rfl
      simp [List.count_cons] at hcount

private theorem length_decoded {us os : JsString} (h : Decoded preserved us os) :
    os.length ≤ us.length := by
  have hle := countP_decoded (p := fun _ ↦ true) (fun c esc _ he ↦
    countP_utf16_le_escapes rfl he) h
  simpa using hle

private theorem reservedEscapes_of_decoded {us os : JsString} (h : Decoded isReserved us os)
    (he : os = us) : reservedEscapes us = true := by
  induction h with
  | nil => rfl
  | unit u us os hu h ih =>
    cases he
    have hne : (u != 37) = true := by simpa using hu
    rw [reservedEscapes, hne, ih rfl]
    rfl
  | scalar c us rest os hc hp h ih =>
    -- a decoded scalar value is shorter than its escapes
    obtain ⟨esc, hesc, hescapes⟩ := scalarAt_eq_some hc
    have hlen := congrArg List.length he
    have hrest := length_decoded h
    have hunits := length_utf16_le c
    have hpos := c.utf8Size_pos
    rw [← String.length_utf8EncodeChar] at hpos
    rw [hesc, List.length_append, List.length_append, hescapes.length] at hlen
    omega
  | kept c us rest os hc hp h ih =>
    obtain ⟨a, b, rfl, ha, hb⟩ := escapes_of_reserved hp hc
    have hos : os = rest := by simpa using he
    have hraw : ∀ u ∈ [a, b], u ≠ 37 := by simp [ha, hb]
    have htail : reservedEscapes (a :: b :: rest) = reservedEscapes rest :=
      reservedEscapes_append hraw rest
    rw [reservedEscapes, hc, Option.any_some, hp, htail, ih hos]
    rfl

private theorem decoded_of_reservedEscapes {n : Nat} {us : JsString} (hn : us.length ≤ n)
    (h : reservedEscapes us = true) : Decoded isReserved us us := by
  induction n generalizing us with
  | zero =>
    rw [Nat.le_zero, List.length_eq_zero_iff] at hn
    subst hn
    exact .nil
  | succ n ih =>
    cases us with
    | nil => exact .nil
    | cons u us =>
      rw [reservedEscapes, Bool.and_eq_true] at h
      rw [List.length_cons] at hn
      by_cases hu : u = 37
      · subst hu
        cases hc : scalarAt (37 :: us) with
        | none =>
          rw [hc] at h
          cases h.1
        | some x =>
          obtain ⟨c, rest⟩ := x
          rw [hc] at h
          have hr : isReserved c = true := h.1
          obtain ⟨a, b, rfl, ha, hb⟩ := escapes_of_reserved hr hc
          have hraw : ∀ u ∈ [a, b], u ≠ 37 := by simp [ha, hb]
          have htail : reservedEscapes (a :: b :: rest) = reservedEscapes rest :=
            reservedEscapes_append hraw rest
          rw [List.length_cons, List.length_cons] at hn
          exact .kept c _ rest rest hc hr (ih (by omega) (htail.symm.trans h.2))
      · exact .unit u us us hu (ih (by omega) h.2)

/-- `decodeURI` leaves a text alone exactly when it has no escapes but those of reserved
characters. -/
theorem decodeURI_eq_self_iff {s : JsString} :
    decodeURI s = some s ↔ reservedEscapes s = true := by
  rw [decodeURI, decode_eq_some_iff]
  exact ⟨fun h ↦ reservedEscapes_of_decoded h rfl, decoded_of_reservedEscapes (Nat.le_refl _)⟩

end MusicComparer.Js
