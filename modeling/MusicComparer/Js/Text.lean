import Mathlib.Data.List.DropRight

/-!
# UTF-16 strings, white space and letter case

Library `Js`. Strings follow ECMA-262: finite sequences of 16-bit code units, lone
surrogates included. `trim` removes the white space and line terminators of the
standard at both ends. `toLowerCase` is not tabulated: `LowerCase` keeps the unit map
together with the three laws its callers rely on.
-/

namespace MusicComparer.Js

/-- A string value: the sequence of its UTF-16 code units. -/
abbrev JsString := List UInt16

/-- UTF-16 encoding of one Unicode scalar value. -/
def utf16 (c : Char) : JsString :=
  if c.toNat < 0x10000 then [c.toNat.toUInt16]
  else [(0xD800 + (c.toNat - 0x10000) / 0x400).toUInt16,
    (0xDC00 + (c.toNat - 0x10000) % 0x400).toUInt16]

/-- The string value of a source literal. -/
def js (s : String) : JsString := s.toList.flatMap utf16

/-- White space and line terminators, the units removed by `String.prototype.trim`. -/
def isWhiteSpace (c : UInt16) : Bool :=
  c == 0x09 || c == 0x0A || c == 0x0B || c == 0x0C || c == 0x0D || c == 0x20 || c == 0xA0 ||
    c == 0x1680 || (0x2000 ≤ c && c ≤ 0x200A) || c == 0x2028 || c == 0x2029 || c == 0x202F ||
    c == 0x205F || c == 0x3000 || c == 0xFEFF

/-- `String.prototype.trim`: leading and trailing white space is removed. -/
def trim (s : JsString) : JsString := (s.dropWhile isWhiteSpace).rdropWhile isWhiteSpace

/-- Trimming twice is trimming once. -/
theorem trim_trim (s : JsString) : trim (trim s) = trim s := by
  have hhead : (trim s).dropWhile isWhiteSpace = trim s := by
    cases ht : trim s with
    | nil => rfl
    | cons c r =>
      have hp : c :: r <+: s.dropWhile isWhiteSpace := by
        rw [← ht]
        exact List.rdropWhile_prefix isWhiteSpace _
      obtain ⟨u, hu⟩ := hp
      have hc : isWhiteSpace c = false := by
        have hidem := List.dropWhile_idempotent isWhiteSpace s
        rw [← hu, List.cons_append, List.dropWhile_cons] at hidem
        by_contra hne
        rw [if_pos (by simpa using hne)] at hidem
        have hlen := congrArg List.length hidem
        have := (List.dropWhile_suffix isWhiteSpace (l := r ++ u)).length_le
        simp only [List.length_cons] at hlen
        omega
      rw [List.dropWhile_cons, if_neg (by simp [hc])]
  rw [trim, hhead, trim]
  exact List.rdropWhile_idempotent isWhiteSpace _

/-- A lower-case mapping that works unit by unit, is idempotent, and neither creates nor
removes white space. One unit may become several, as `İ` does. -/
structure LowerCase where
  /-- The image of one code unit. -/
  unit : UInt16 → JsString
  unit_ne_nil : ∀ c, unit c ≠ []
  unit_idem : ∀ c, (unit c).flatMap unit = unit c
  unit_space : ∀ c, ∀ d ∈ unit c, isWhiteSpace d = isWhiteSpace c

namespace LowerCase

variable (κ : LowerCase)

/-- `String.prototype.toLowerCase` under this mapping. -/
def lower (s : JsString) : JsString := s.flatMap κ.unit

/-- Lower-casing twice is lower-casing once. -/
theorem lower_lower (s : JsString) : κ.lower (κ.lower s) = κ.lower s := by
  simp only [lower, List.flatMap_assoc, κ.unit_idem]

private theorem dropWhile_unit (c : UInt16) (r : JsString) :
    (κ.unit c ++ r).dropWhile isWhiteSpace =
      if isWhiteSpace c then r.dropWhile isWhiteSpace else κ.unit c ++ r := by
  split
  · next hc =>
    rw [List.dropWhile_append_of_pos]
    intro d hd
    rw [κ.unit_space c d hd, hc]
  · next hc =>
    cases hu : κ.unit c with
    | nil => exact absurd hu (κ.unit_ne_nil c)
    | cons d ds =>
      have hd : isWhiteSpace d = false := by
        rw [κ.unit_space c d (by simp [hu])]
        simpa using hc
      simp [hd]

private theorem dropWhile_lower (s : JsString) :
    (κ.lower s).dropWhile isWhiteSpace = κ.lower (s.dropWhile isWhiteSpace) := by
  induction s with
  | nil => rfl
  | cons c r ih =>
    change (κ.unit c ++ κ.lower r).dropWhile isWhiteSpace = _
    rw [dropWhile_unit, List.dropWhile_cons]
    split
    · exact ih
    · rfl

/-- The same mapping read from right to left. -/
private def reversed : LowerCase where
  unit c := (κ.unit c).reverse
  unit_ne_nil c := by simpa using κ.unit_ne_nil c
  unit_idem c := by
    have h := congrArg List.reverse (κ.unit_idem c)
    rw [List.reverse_flatMap] at h
    exact h
  unit_space c d hd := κ.unit_space c d (by simpa using hd)

private theorem reverse_lower (s : JsString) : (κ.lower s).reverse = κ.reversed.lower s.reverse :=
  List.reverse_flatMap

private theorem rdropWhile_lower (s : JsString) :
    (κ.lower s).rdropWhile isWhiteSpace = κ.lower (s.rdropWhile isWhiteSpace) := by
  rw [List.rdropWhile, reverse_lower, dropWhile_lower, ← List.reverse_reverse
    (List.dropWhile isWhiteSpace s.reverse), ← reverse_lower, List.reverse_reverse]
  rfl

/-- Trimming commutes with lower-casing: the two normalisation orders agree. -/
theorem trim_lower (s : JsString) : trim (κ.lower s) = κ.lower (trim s) := by
  rw [trim, dropWhile_lower, rdropWhile_lower]
  rfl

private theorem letter_not_space (c : UInt16) (hl : 65 ≤ c.toNat) (hr : c.toNat ≤ 122) :
    isWhiteSpace c = false := by
  simp only [isWhiteSpace, Bool.or_eq_false_iff, Bool.and_eq_false_iff, beq_eq_false_iff_ne, ne_eq,
    decide_eq_false_iff_not, ← UInt16.toNat_inj, UInt16.le_iff_toNat_le, UInt16.reduceToNat]
  omega

private theorem toNat_shift (c : UInt16) (h : 65 ≤ c ∧ c ≤ 90) :
    65 ≤ c.toNat ∧ c.toNat ≤ 90 ∧ (c + 32).toNat = c.toNat + 32 := by
  simp only [UInt16.le_iff_toNat_le, UInt16.reduceToNat] at h
  simp only [UInt16.toNat_add, UInt16.reduceToNat]
  omega

/-- Lower-casing of the ASCII letters, every other unit being left alone. -/
def ascii : LowerCase where
  unit c := if 65 ≤ c ∧ c ≤ 90 then [c + 32] else [c]
  unit_ne_nil c := by split <;> simp
  unit_idem c := by
    by_cases h : 65 ≤ c ∧ c ≤ 90
    · have hs := toNat_shift c h
      have hn : ¬ (65 ≤ c + 32 ∧ c + 32 ≤ 90) := by
        simp only [UInt16.le_iff_toNat_le, UInt16.reduceToNat]
        omega
      simp [h, hn]
    · simp [h]
  unit_space c d hd := by
    by_cases h : 65 ≤ c ∧ c ≤ 90
    · rw [if_pos h, List.mem_singleton] at hd
      have hs := toNat_shift c h
      rw [hd, letter_not_space c (by omega) (by omega),
        letter_not_space (c + 32) (by omega) (by omega)]
    · rw [if_neg h, List.mem_singleton] at hd
      rw [hd]

end LowerCase
end MusicComparer.Js
