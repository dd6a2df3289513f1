import MusicComparer.Js.JsonText

/-!
# Values, coercions and thrown errors

Library `Js`. The values are `undefined` and the JSON values: what a program obtains from
`JSON.parse` and from property reads on it. Reads on `undefined` and `null` throw, and so does
the string conversion of an object whose own `toString` property hides the inherited one.
-/

namespace MusicComparer.Js

section Throwing

variable {ε α β : Type} {x : Except ε α} {f : α → Except ε β}

/-- A sequence of two calls returns when both do. -/
theorem bind_eq_ok_iff {b : β} : (x >>= f) = .ok b ↔ ∃ a, x = .ok a ∧ f a = .ok b := by
  cases x with
  | error e => simp [bind, Except.bind]
  | ok a => simp [bind, Except.bind]

/-- A sequence of two calls throws when the first does, or the second after it. -/
theorem bind_eq_error_iff {e : ε} :
    (x >>= f) = .error e ↔ x = .error e ∨ ∃ a, x = .ok a ∧ f a = .error e := by
  cases x with
  | error e => simp [bind, Except.bind]
  | ok a => simp [bind, Except.bind]

/-- A call returns or does not. -/
theorem isOk_iff : x.isOk = true ↔ ∃ a, x = .ok a := by
  cases x with
  | error e => simp [Except.isOk, Except.toBool]
  | ok a => simp [Except.isOk, Except.toBool]

end Throwing

/-- A value: `none` is `undefined`. -/
abbrev Val (ν : Type) := Option (Json ν)

/-- Thrown errors. A system error carries its own enumerable fields (`code`, `errno`, ...). -/
inductive JsError (ν : Type) where
  | typeError
  | syntaxError
  | error (message : JsString)
  | system (message : JsString) (fields : Properties ν)
  deriving DecidableEq, Repr

/-- The call throws nothing but a `TypeError`. -/
def ThrowsTypeError {ν α : Type} (x : Except (JsError ν) α) : Prop :=
  ∀ e, x = .error e → e = .typeError

namespace ThrowsTypeError

variable {ν α β : Type}

theorem ok (a : α) : ThrowsTypeError (.ok a : Except (JsError ν) α) := by
  intro e h
  cases h

theorem typeError : ThrowsTypeError (.error .typeError : Except (JsError ν) α) := by
  intro e h
  cases h
  rfl

theorem bind {x : Except (JsError ν) α} {f : α → Except (JsError ν) β} (hx : ThrowsTypeError x)
    (hf : ∀ a, ThrowsTypeError (f a)) : ThrowsTypeError (x >>= f) := by
  intro e h
  rcases bind_eq_error_iff.mp h with h | ⟨a, -, h⟩
  · exact hx e h
  · exact hf a e h

end ThrowsTypeError

namespace JsError

variable {ν : Type}

/-- The `code` property of an error. -/
def code : JsError ν → Val ν
  | system _ fields => Json.lookup fields (js "code")
  | _ => none

/-- The own enumerable properties, which are what `JSON.stringify` prints. -/
def fields : JsError ν → Properties ν
  | system _ fields => fields
  | _ => []

end JsError

namespace Json

variable {ν : Type} [JsNumber ν]

/-- `JSON.parse` as a call that throws. -/
def parseOrThrow (s : JsString) : Except (JsError ν) (Json ν) :=
  match parse s with
  | some j => .ok j
  | none => .error .syntaxError

/-- The value is `null`. -/
def isNull : Json ν → Bool
  | null => true
  | _ => false

mutual

/-- String conversion of a JSON value. -/
def toText : Json ν → Except (JsError ν) JsString
  | null => .ok (js "null")
  | bool true => .ok (js "true")
  | bool false => .ok (js "false")
  | num n => .ok (JsNumber.toStr n)
  | str s => .ok s
  | arr xs => joinText xs
  | obj ps =>
    match lookup ps (js "toString") with
    | some _ => .error .typeError
    | none => .ok (js "[object Object]")

/-- `Array.prototype.join` with commas: `null` elements are empty. -/
def joinText : List (Json ν) → Except (JsError ν) JsString
  | [] => .ok []
  | [x] => if isNull x then .ok [] else toText x
  | x :: y :: ys => do
    let s ← (if isNull x then .ok [] else toText x)
    let t ← joinText (y :: ys)
    pure (s ++ 44 :: t)

end

mutual

/-- String conversion throws nothing but a `TypeError`. -/
theorem throwsTypeError_toText : (j : Json ν) → ThrowsTypeError (toText j)
  | null | num _ | str _ => by
    rw [toText]
    exact .ok _
  | bool b => by
    cases b <;> rw [toText] <;> exact .ok _
  | arr xs => by
    rw [toText]
    exact throwsTypeError_joinText xs
  | obj ps => by
    rw [toText]
    split
    · exact .typeError
    · exact .ok _

private theorem throwsTypeError_joinText : (xs : List (Json ν)) → ThrowsTypeError (joinText xs)
  | [] => by
    rw [joinText]
    exact .ok _
  | [x] => by
    rw [joinText]
    split
    · exact .ok _
    · exact throwsTypeError_toText x
  | x :: y :: ys => by
    have hx := throwsTypeError_toText x
    have hys := throwsTypeError_joinText (y :: ys)
    rw [joinText]
    refine .bind ?_ fun s ↦ .bind hys fun t ↦ .ok _
    split
    · exact .ok _
    · exact hx

end

end Json

namespace Val

variable {ν : Type} [JsNumber ν]

/-- `ToBoolean`. -/
def truthy : Val ν → Bool
  | none => false
  | some .null => false
  | some (.bool b) => b
  | some (.num n) => !(JsNumber.isZero n || JsNumber.isNaN n)
  | some (.str s) => !s.isEmpty
  | some (.arr _) => true
  | some (.obj _) => true

/-- The `||` operator. -/
def orElse (v w : Val ν) : Val ν := if truthy v then v else w

/-- `v === s` for a string `s`. -/
def isString (v : Val ν) (s : JsString) : Bool :=
  match v with
  | some (.str t) => t == s
  | _ => false

/-- Property read `v[k]`: indices and `length` of arrays and strings, own properties of objects,
and `undefined` for the other primitives. -/
def get (v : Val ν) (k : JsString) : Except (JsError ν) (Val ν) :=
  match v with
  | none => .error .typeError
  | some .null => .error .typeError
  | some (.bool _) => .ok none
  | some (.num _) => .ok none
  | some (.str s) =>
    match arrayIndex? k with
    | some i => .ok (s[i]?.map fun c ↦ .str [c])
    | none => .ok (if k = js "length" then some (.num (JsNumber.ofNat s.length)) else none)
  | some (.arr xs) =>
    match arrayIndex? k with
    | some i => .ok xs[i]?
    | none => .ok (if k = js "length" then some (.num (JsNumber.ofNat xs.length)) else none)
  | some (.obj ps) => .ok (Json.lookup ps k)

/-- `ToString`. -/
def toText : Val ν → Except (JsError ν) JsString
  | none => .ok (js "undefined")
  | some j => j.toText

/-- `ToNumber`: arrays and objects go through their text. -/
def toNumber : Val ν → Except (JsError ν) ν
  | none => .ok JsNumber.nan
  | some .null => .ok (JsNumber.ofNat 0)
  | some (.bool b) => .ok (JsNumber.ofNat b.toNat)
  | some (.num n) => .ok n
  | some (.str s) => .ok (JsNumber.ofString s)
  | some j => (j.toText).map JsNumber.ofString

/-- Neither `undefined` nor `null`: the values whose properties can be read. -/
def readable : Val ν → Bool
  | none => false
  | some .null => false
  | _ => true

/-- The property value that a read gives, `undefined` where the read throws. -/
def member (v : Val ν) (k : JsString) : Val ν := (v.get k).toOption.getD none

/-- Reading succeeds exactly on readable values. -/
theorem get_eq (v : Val ν) (k : JsString) :
    v.get k = if v.readable then .ok (v.member k) else .error .typeError := by
  unfold member
  match v with
  | none | some .null | some (.bool _) | some (.num _) | some (.obj _) => rfl
  | some (.str s) =>
    rw [get]
    cases arrayIndex? k <;> rfl
  | some (.arr xs) =>
    rw [get]
    cases arrayIndex? k <;> rfl

omit [JsNumber ν] in
/-- Only the string itself is strictly equal to it. -/
theorem isString_iff {v : Val ν} {s : JsString} : v.isString s = true ↔ v = some (.str s) := by
  unfold isString
  split
  · simp
  · next h => exact ⟨Bool.noConfusion, fun he ↦ absurd he (h s)⟩

/-- A truthy value needs no default. -/
theorem orElse_of_truthy {v : Val ν} (h : v.truthy = true) (w : Val ν) : v.orElse w = v :=
  if_pos h

/-- A falsy value is replaced by the default. -/
theorem orElse_of_falsy {v : Val ν} (h : v.truthy = false) (w : Val ν) : v.orElse w = w := by
  rw [orElse, h, if_neg Bool.false_ne_true]

/-- A falsy value converts to a string: only objects do not, and arrays of them. -/
theorem toText_isOk_of_falsy {v : Val ν} (h : v.truthy = false) : v.toText.isOk = true := by
  match v with
  | none | some .null | some (.num _) | some (.str _) => rfl
  | some (.bool b) => cases b <;> rfl
  | some (.arr _) | some (.obj _) => cases h

/-- Reading returns the member of a readable value. -/
theorem get_eq_ok_iff {v w : Val ν} {k : JsString} :
    v.get k = .ok w ↔ v.readable = true ∧ v.member k = w := by
  rw [get_eq]
  split
  · next h => simp [h]
  · next h => simp [h]

/-- The conversion to a number throws exactly when the conversion to a string does. -/
theorem toNumber_isOk (v : Val ν) : v.toNumber.isOk = v.toText.isOk := by
  match v with
  | none => rfl
  | some .null | some (.num _) | some (.str _) => rfl
  | some (.bool b) => cases b <;> rfl
  | some (.arr xs) =>
    change (Except.map _ (Json.arr xs).toText).isOk = (Json.arr xs).toText.isOk
    cases (Json.arr xs).toText <;> rfl
  | some (.obj ps) =>
    change (Except.map _ (Json.obj ps).toText).isOk = (Json.obj ps).toText.isOk
    cases (Json.obj ps).toText <;> rfl

/-- A property read throws nothing but a `TypeError`. -/
theorem throwsTypeError_get (v : Val ν) (k : JsString) : ThrowsTypeError (v.get k) := by
  rw [get_eq]
  split
  · exact .ok _
  · exact .typeError

/-- String conversion throws nothing but a `TypeError`. -/
theorem throwsTypeError_toText (v : Val ν) : ThrowsTypeError v.toText := by
  cases v with
  | none => exact .ok _
  | some j => exact j.throwsTypeError_toText

/-- Number conversion throws nothing but a `TypeError`. -/
theorem throwsTypeError_toNumber (v : Val ν) : ThrowsTypeError v.toNumber := by
  have hmap : ∀ j : Json ν, ThrowsTypeError ((j.toText).map (JsNumber.ofString (ν := ν))) := by
    intro j e h
    cases ht : j.toText with
    | error d =>
      rw [ht] at h
      cases h
      exact j.throwsTypeError_toText _ ht
    | ok s =>
      rw [ht] at h
      cases h
  match v with
  | none | some .null | some (.bool _) | some (.num _) | some (.str _) => exact .ok _
  | some (.arr _) | some (.obj _) => exact hmap _

end Val
end MusicComparer.Js
