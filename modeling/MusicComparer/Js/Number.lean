import Mathlib.Data.Nat.Digits.Lemmas
import MusicComparer.Js.Text

/-!
# Number values

Library `Js`. A number type is a parameter: `JsNumber` lists the operations of ECMA-262
`Number` that callers use, with the laws of its printed form. IEEE doubles are the intended
model; `Whole` is a small exact one that evaluates.
-/

namespace MusicComparer.Js

/-- Decimal digit code units. -/
def isDigit (c : UInt16) : Bool := 48 ≤ c && c ≤ 57

/-- Units that occur in JSON number literals: digits, `+`, `-`, `.`, `E` and `e`. -/
def isNumberUnit (c : UInt16) : Bool :=
  isDigit c || c == 43 || c == 45 || c == 46 || c == 69 || c == 101

/-- A nonempty run of digits. -/
def digitRun (s : JsString) : Bool := !s.isEmpty && s.all isDigit

/-- Value of a run of digits. -/
def readNat (s : JsString) : Nat := Nat.ofDigits 10 (s.reverse.map fun c ↦ c.toNat - 48)

/-- The exponent of a JSON number: absent, or `e`/`E`, an optional sign and digits. -/
def exponentPart : JsString → Bool
  | [] => true
  | [_] => false
  | e :: c :: r => (e == 69 || e == 101) && digitRun (if c == 43 || c == 45 then r else c :: r)

/-- The part of a JSON number after its integer digits. -/
def fractionPart : JsString → Bool
  | [] => true
  | c :: r =>
    if c == 46 then !(r.takeWhile isDigit).isEmpty && exponentPart (r.dropWhile isDigit)
    else exponentPart (c :: r)

/-- Integer digits of a JSON number: one digit, or several without a leading zero. -/
def integerPart : JsString → Bool
  | [] => false
  | [c] => isDigit c
  | c :: _ => c != 48

/-- The number without its sign. -/
def unsigned : JsString → JsString
  | [] => []
  | c :: r => if c == 45 then r else c :: r

/-- JSON number literals, `-? int frac? exp?`. -/
def isNumberLexeme (s : JsString) : Bool :=
  integerPart ((unsigned s).takeWhile isDigit) && fractionPart ((unsigned s).dropWhile isDigit)

private theorem isNumberUnit_of_isDigit {c : UInt16} (h : isDigit c = true) :
    isNumberUnit c = true := by
  simp [isNumberUnit, h]

private theorem digitRun_units {s : JsString} (h : digitRun s = true) :
    ∀ c ∈ s, isNumberUnit c = true := by
  intro c hc
  simp only [digitRun, Bool.and_eq_true, List.all_eq_true] at h
  exact isNumberUnit_of_isDigit (h.2 c hc)

private theorem exponentPart_units {s : JsString} (h : exponentPart s = true) :
    ∀ c ∈ s, isNumberUnit c = true := by
  match s with
  | [] => simp
  | [_] => simp [exponentPart] at h
  | e :: c :: r =>
    simp only [exponentPart, Bool.and_eq_true, Bool.or_eq_true, beq_iff_eq] at h
    obtain ⟨he, hr⟩ := h
    intro d hd
    rcases List.mem_cons.mp hd with rfl | hd
    · rcases he with rfl | rfl <;> rfl
    · split at hr
      · next hc =>
        rcases List.mem_cons.mp hd with rfl | hd
        · rcases hc with rfl | rfl <;> rfl
        · exact digitRun_units hr d hd
      · exact digitRun_units hr d hd

private theorem takeWhile_units (s : JsString) :
    ∀ c ∈ s.takeWhile isDigit, isNumberUnit c = true := fun _ hc ↦
  isNumberUnit_of_isDigit (List.mem_takeWhile_imp hc)

private theorem fractionPart_units {s : JsString} (h : fractionPart s = true) :
    ∀ c ∈ s, isNumberUnit c = true := by
  cases s with
  | nil => simp
  | cons c r =>
    simp only [fractionPart] at h
    split at h
    · next hc =>
      simp only [Bool.and_eq_true] at h
      intro d hd
      rcases List.mem_cons.mp hd with rfl | hd
      · rw [beq_iff_eq] at hc
        subst hc
        rfl
      · rw [← List.takeWhile_append_dropWhile (p := isDigit) (l := r), List.mem_append] at hd
        rcases hd with hd | hd
        · exact takeWhile_units r d hd
        · exact exponentPart_units h.2 d hd
    · exact exponentPart_units h

private theorem unsigned_units {s : JsString} (h : ∀ c ∈ unsigned s, isNumberUnit c = true) :
    ∀ c ∈ s, isNumberUnit c = true := by
  cases s with
  | nil => simp
  | cons c r =>
    simp only [unsigned] at h
    split at h
    · next hc =>
      intro d hd
      rcases List.mem_cons.mp hd with rfl | hd
      · rw [beq_iff_eq] at hc
        subst hc
        rfl
      · exact h d hd
    · exact h

/-- Every unit of a number literal is a number unit. -/
theorem isNumberLexeme_units {s : JsString} (h : isNumberLexeme s = true) :
    ∀ c ∈ s, isNumberUnit c = true := by
  simp only [isNumberLexeme, Bool.and_eq_true] at h
  apply unsigned_units
  intro c hc
  rw [← List.takeWhile_append_dropWhile (p := isDigit) (l := unsigned s), List.mem_append] at hc
  rcases hc with hc | hc
  · exact takeWhile_units _ c hc
  · exact fractionPart_units h.2 c hc

/-- A number literal starts with a digit or a minus sign. -/
theorem isNumberLexeme_head {s : JsString} (h : isNumberLexeme s = true) :
    ∃ c r, s = c :: r ∧ (isDigit c = true ∨ c = 45) := by
  simp only [isNumberLexeme, Bool.and_eq_true] at h
  cases s with
  | nil => simp [unsigned, integerPart] at h
  | cons c r =>
    refine ⟨c, r, rfl, ?_⟩
    by_cases hm : c = 45
    · exact Or.inr hm
    · left
      cases hd : isDigit c with
      | true => rfl
      | false => simp [unsigned, hm, hd, integerPart] at h

/-- The operations of ECMA-262 numbers that the modelled programs use. The laws are those
of the printed form: a finite number prints as a JSON literal, and reading that literal back
gives a finite number that prints alike (`-0`, printed `0`, is the only double it changes).
The last law is that `0` is a zero. -/
class JsNumber (ν : Type) where
  ofString : JsString → ν
  toStr : ν → JsString
  ofNat : Nat → ν
  nan : ν
  isFinite : ν → Bool
  isNaN : ν → Bool
  isZero : ν → Bool
  div : ν → ν → ν
  gt : ν → ν → Bool
  toFixed : ν → Nat → JsString
  toStr_lexeme : ∀ n, isFinite n = true → isNumberLexeme (toStr n) = true
  reread_finite : ∀ n, isFinite n = true → isFinite (ofString (toStr n)) = true
  reread_toStr : ∀ n, isFinite n = true → toStr (ofString (toStr n)) = toStr n
  isZero_zero : isZero (ofNat 0) = true

/-- Number types in which every JSON literal denotes a finite number that printing and reading
recover. Doubles satisfy this for all literals but the overflowing ones and negative zero. -/
class LawfulJsNumber (ν : Type) [JsNumber ν] : Prop where
  literal_finite : ∀ s, isNumberLexeme s = true → JsNumber.isFinite (JsNumber.ofString s : ν) = true
  literal_reread : ∀ s, isNumberLexeme s = true →
    JsNumber.ofString (JsNumber.toStr (JsNumber.ofString s : ν)) = (JsNumber.ofString s : ν)

/-- Multiplication and `Number.prototype.toPrecision`, for the programs that print percentages. -/
class JsPrecision (ν : Type) [JsNumber ν] where
  mul : ν → ν → ν
  toPrecision : ν → Nat → JsString

/-! ### Whole numbers -/

/-- Integers, and one value for the texts that are no number: the number format that rounds every
literal to its integer digits. -/
inductive Whole where
  | nan
  | int (z : Int)
  deriving DecidableEq, Repr

namespace Whole

/-- Decimal digits of a natural number, most significant first. -/
def showNat (n : Nat) : JsString :=
  if n = 0 then [48] else (Nat.digits 10 n).reverse.map fun d ↦ (48 + d).toUInt16

/-- The printed form, `NaN` for the value that is not an integer. -/
def render : Whole → JsString
  | nan => js "NaN"
  | int z => if z < 0 then 45 :: showNat z.natAbs else showNat z.natAbs

/-- The number of a string: the empty string is zero, other texts than literals are `nan`. -/
def ofText (s : JsString) : Whole :=
  if isNumberLexeme s then
    let n : Int := readNat ((unsigned s).takeWhile isDigit)
    int (if s.head? = some 45 then -n else n)
  else if s = [] then int 0 else nan

private theorem toNat_digit {d : Nat} (h : d < 10) : (48 + d).toUInt16.toNat = 48 + d := by
  rw [Nat.toUInt16_eq, UInt16.toNat_ofNat']
  omega

private theorem isDigit_digit {d : Nat} (h : d < 10) : isDigit (48 + d).toUInt16 = true := by
  simp only [isDigit, Bool.and_eq_true, decide_eq_true_eq, UInt16.le_iff_toNat_le, toNat_digit h,
    UInt16.reduceToNat]
  omega

private theorem readNat_showNat (n : Nat) : readNat (showNat n) = n := by
  unfold showNat
  split
  · next h => subst h; rfl
  · simp only [readNat, List.map_reverse, List.reverse_reverse, List.map_map]
    have hd : (Nat.digits 10 n).map ((fun c : UInt16 ↦ c.toNat - 48) ∘ fun d ↦ (48 + d).toUInt16) =
        Nat.digits 10 n := by
      have hid : ∀ d ∈ Nat.digits 10 n,
          ((fun c : UInt16 ↦ c.toNat - 48) ∘ fun d ↦ (48 + d).toUInt16) d = id d := by
        intro d hd
        change (48 + d).toUInt16.toNat - 48 = d
        rw [toNat_digit (Nat.digits_lt_base (by decide) hd), Nat.add_sub_cancel_left]
      rw [List.map_congr_left hid, List.map_id]
    rw [hd, Nat.ofDigits_digits]

private theorem digitRun_showNat (n : Nat) : digitRun (showNat n) = true := by
  unfold showNat
  split
  · rfl
  · next h =>
    simp only [digitRun, Bool.and_eq_true, List.all_eq_true, List.mem_map, List.mem_reverse]
    constructor
    · simp [Nat.digits_eq_nil_iff_eq_zero, h]
    · rintro c ⟨d, hd, rfl⟩
      exact isDigit_digit (Nat.digits_lt_base (by decide) hd)

private theorem integerPart_showNat (n : Nat) : integerPart (showNat n) = true := by
  have hrun := digitRun_showNat n
  unfold showNat at hrun ⊢
  split
  · rfl
  · next h =>
    rw [if_neg h] at hrun
    have hne : (Nat.digits 10 n).reverse ≠ [] := by simpa [Nat.digits_eq_nil_iff_eq_zero] using h
    have hlast := Nat.getLast_digit_ne_zero 10 h
    rw [← List.head_reverse hne] at hlast
    have hlt : ∀ d ∈ (Nat.digits 10 n).reverse, d < 10 := fun d hd ↦
      Nat.digits_lt_base (by decide) (List.mem_reverse.mp hd)
    match hr : (Nat.digits 10 n).reverse with
    | [] => exact absurd hr hne
    | [d] => simpa [integerPart] using isDigit_digit (hlt d (by simp [hr]))
    | d :: e :: r =>
      simp only [hr, List.head_cons] at hlast
      simp only [List.map_cons, integerPart, bne_iff_ne, ne_eq, ← UInt16.toNat_inj,
        toNat_digit (hlt d (by simp [hr])), UInt16.reduceToNat]
      omega

private theorem takeWhile_showNat (n : Nat) : (showNat n).takeWhile isDigit = showNat n := by
  have h := digitRun_showNat n
  simp only [digitRun, Bool.and_eq_true, List.all_eq_true] at h
  exact List.takeWhile_eq_self_iff.mpr h.2

private theorem dropWhile_showNat (n : Nat) : (showNat n).dropWhile isDigit = [] := by
  have h := digitRun_showNat n
  simp only [digitRun, Bool.and_eq_true, List.all_eq_true] at h
  exact List.dropWhile_eq_nil_iff.mpr h.2

private theorem showNat_head (n : Nat) : ∃ c r, showNat n = c :: r ∧ c ≠ 45 := by
  have h := digitRun_showNat n
  cases hs : showNat n with
  | nil => simp [hs, digitRun] at h
  | cons c r =>
    refine ⟨c, r, rfl, ?_⟩
    rintro rfl
    simp [hs, digitRun, isDigit] at h

private theorem unsigned_showNat (n : Nat) : unsigned (showNat n) = showNat n := by
  obtain ⟨c, r, hs, hc⟩ := showNat_head n
  simp [hs, unsigned, hc]

private theorem unsigned_render (z : Int) : unsigned (render (int z)) = showNat z.natAbs := by
  simp only [render]
  split
  · rfl
  · exact unsigned_showNat _

private theorem render_lexeme (z : Int) : isNumberLexeme (render (int z)) = true := by
  rw [isNumberLexeme, unsigned_render, takeWhile_showNat, dropWhile_showNat, integerPart_showNat]
  rfl

private theorem ofText_render (z : Int) : ofText (render (int z)) = int z := by
  have hs : (render (int z)).head? = some 45 ↔ z < 0 := by
    obtain ⟨c, r, hs, hc⟩ := showNat_head z.natAbs
    simp only [render]
    split <;> simp_all
  rw [ofText, if_pos (render_lexeme z), unsigned_render, takeWhile_showNat, readNat_showNat]
  simp only [hs, int.injEq]
  split <;> omega

/-- Whole numbers as a number type: quotients are exact when they are integers. -/
instance : JsNumber Whole where
  ofString := ofText
  toStr := render
  ofNat n := int n
  nan := nan
  isFinite n := n != nan
  isNaN n := n == nan
  isZero n := n == int 0
  div
    | int a, int b => if b ≠ 0 ∧ b ∣ a then int (a / b) else nan
    | _, _ => nan
  gt
    | int a, int b => decide (b < a)
    | _, _ => false
  toFixed n _ := render n ++ js ".0"
  toStr_lexeme n h := by
    cases n with
    | nan => simp at h
    | int z => exact render_lexeme z
  reread_finite n h := by
    cases n with
    | nan => simp at h
    | int z => simp [ofText_render]
  reread_toStr n h := by
    cases n with
    | nan => simp at h
    | int z => rw [ofText_render]
  isZero_zero := rfl

/-- Every literal rounds to an integer, which is its own reading. -/
instance : LawfulJsNumber Whole where
  literal_finite s h := by
    change (ofText s != nan) = true
    simp [ofText, h]
  literal_reread s h := by
    obtain ⟨z, hz⟩ : ∃ z, ofText s = int z := by simp [ofText, h]
    change ofText (render (ofText s)) = ofText s
    rw [hz, ofText_render]

/-- A natural number to `p` significant digits: with zeros after the point where its own digits are
fewer, in exponential form where they are more. -/
def precise (n p : Nat) : JsString :=
  let digits := showNat n
  if digits.length = p then digits
  else if digits.length < p then digits ++ 46 :: List.replicate (p - digits.length) 48
  else
    let unit := 10 ^ (digits.length - p)
    let rounded := (n + unit / 2) / unit
    let shown := showNat rounded
    -- rounding up may give one digit more, which is a zero
    let exponent := digits.length - 1 + (shown.length - p)
    let fraction := (shown.drop 1).take (p - 1)
    shown.take 1 ++ (if fraction.isEmpty then [] else 46 :: fraction) ++ js "e+" ++ showNat exponent

instance : JsPrecision Whole where
  mul
    | int a, int b => int (a * b)
    | _, _ => nan
  toPrecision
    | nan, _ => js "NaN"
    | int z, p => if z < 0 then 45 :: precise z.natAbs p else precise z.natAbs p

end Whole
end MusicComparer.Js
