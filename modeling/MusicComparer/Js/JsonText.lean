import MusicComparer.Js.Json

/-!
# JSON texts

Library `Js`. `stringify` and `parse` follow ECMA-262 `JSON.stringify` without replacer or
indentation and `JSON.parse` without reviver. The parser is a recursive descent over the code
units; every call below a value consumes at least one unit, so the length of the text bounds
the depth. `parse` answers `none` exactly where `JSON.parse` throws a `SyntaxError`.
-/

namespace MusicComparer.Js.Json

variable {ν : Type} [JsNumber ν]

/-- Lower-case hexadecimal digit. -/
def hexDigit (d : Nat) : UInt16 := if d < 10 then (48 + d).toUInt16 else (87 + d).toUInt16

/-- The quoted form of one unit: the short escapes, `\u00xx` for other control units. -/
def escapeUnit (c : UInt16) : JsString :=
  if c = 34 then [92, 34]
  else if c = 92 then [92, 92]
  else if c = 8 then [92, 98]
  else if c = 12 then [92, 102]
  else if c = 10 then [92, 110]
  else if c = 13 then [92, 114]
  else if c = 9 then [92, 116]
  else if c < 32 then [92, 117, 48, 48, hexDigit (c.toNat / 16), hexDigit (c.toNat % 16)]
  else [c]

/-- A string literal after its opening quote. -/
def quoteTail (s : JsString) : JsString := s.flatMap escapeUnit ++ [34]

mutual

/-- `JSON.stringify`. -/
def stringify : Json ν → JsString
  | null => js "null"
  | bool true => js "true"
  | bool false => js "false"
  | num n => if JsNumber.isFinite n then JsNumber.toStr n else js "null"
  | str s => 34 :: quoteTail s
  | arr [] => [91, 93]
  | arr (x :: xs) => 91 :: (stringify x ++ stringifyElements xs)
  | obj [] => [123, 125]
  | obj ((k, v) :: ps) => 123 :: 34 :: (quoteTail k ++ 58 :: (stringify v ++ stringifyMembers ps))

/-- An array after one of its elements. -/
def stringifyElements : List (Json ν) → JsString
  | [] => [93]
  | x :: xs => 44 :: (stringify x ++ stringifyElements xs)

/-- An object after one of its members. -/
def stringifyMembers : Properties ν → JsString
  | [] => [125]
  | (k, v) :: ps => 44 :: 34 :: (quoteTail k ++ 58 :: (stringify v ++ stringifyMembers ps))

end

/-- JSON white space: tab, line feed, carriage return and space. -/
def isJsonSpace (c : UInt16) : Bool := c == 9 || c == 10 || c == 13 || c == 32

/-- Skip white space between tokens. -/
def skipSpace (s : JsString) : JsString := s.dropWhile isJsonSpace

/-- Value of a hexadecimal digit of either case. -/
def hexValue (c : UInt16) : Option Nat :=
  if 48 ≤ c ∧ c ≤ 57 then some (c.toNat - 48)
  else if 97 ≤ c ∧ c ≤ 102 then some (c.toNat - 87)
  else if 65 ≤ c ∧ c ≤ 70 then some (c.toNat - 55)
  else none

/-- The unit written by a one-letter escape. -/
def shortEscape (e : UInt16) : Option UInt16 :=
  if e = 34 ∨ e = 92 ∨ e = 47 then some e
  else if e = 98 then some 8
  else if e = 102 then some 12
  else if e = 110 then some 10
  else if e = 114 then some 13
  else if e = 116 then some 9
  else none

/-- The unit of four hexadecimal digits. -/
def hexUnit (a b c d : UInt16) : Option UInt16 := do
  let a ← hexValue a
  let b ← hexValue b
  let c ← hexValue c
  let d ← hexValue d
  pure (((a * 16 + b) * 16 + c) * 16 + d).toUInt16

/-- A string literal after its opening quote, and the text after its closing quote. -/
def stringTail : JsString → Option (JsString × JsString)
  | [] => none
  | [c] => if c = 34 then some ([], []) else none
  | c :: e :: r =>
    if c = 34 then some ([], e :: r)
    else if c = 92 then
      if e = 117 then
        match r with
        | a :: b :: c :: d :: r => do
          let u ← hexUnit a b c d
          let (t, r) ← stringTail r
          pure (u :: t, r)
        | _ => none
      else do
        let u ← shortEscape e
        let (t, r) ← stringTail r
        pure (u :: t, r)
    else if c < 32 then none
    else do
      let (t, r) ← stringTail (e :: r)
      pure (c :: t, r)

/-- A number literal: the longest run of number units has to be one. -/
def number (s : JsString) : Option (ν × JsString) :=
  if isNumberLexeme (s.takeWhile isNumberUnit) then
    some (JsNumber.ofString (s.takeWhile isNumberUnit), s.dropWhile isNumberUnit)
  else none

/-- The rest of the text after a fixed word. -/
def word (w s : JsString) : Option JsString := if w <+: s then some (s.drop w.length) else none

mutual

/-- One value at the start of the text, with the text after it. -/
def value : Nat → JsString → Option (Json ν × JsString)
  | 0, _ => none
  | n + 1, s =>
    match skipSpace s with
    | [] => none
    | c :: r =>
      if c = 34 then (stringTail r).map fun p ↦ (str p.1, p.2)
      else if c = 91 then
        match skipSpace r with
        | [] => none
        | d :: r' =>
          if d = 93 then some (arr [], r')
          else do
            let (x, r) ← value n r
            let (xs, r) ← elements n r
            pure (arr (x :: xs), r)
      else if c = 123 then
        match skipSpace r with
        | [] => none
        | d :: r' =>
          if d = 125 then some (obj [], r')
          else do
            let (m, r) ← member n (d :: r')
            let (ms, r) ← members n r
            pure (obj (ofMembers (m :: ms)), r)
      else if c = 110 then (word (js "null") (c :: r)).map fun r ↦ (null, r)
      else if c = 116 then (word (js "true") (c :: r)).map fun r ↦ (bool true, r)
      else if c = 102 then (word (js "false") (c :: r)).map fun r ↦ (bool false, r)
      else (number (c :: r)).map fun p ↦ (num p.1, p.2)

/-- The elements of an array after one of them, up to the closing bracket. -/
def elements : Nat → JsString → Option (List (Json ν) × JsString)
  | 0, _ => none
  | n + 1, s =>
    match skipSpace s with
    | [] => none
    | c :: r =>
      if c = 93 then some ([], r)
      else if c = 44 then do
        let (x, r) ← value n r
        let (xs, r) ← elements n r
        pure (x :: xs, r)
      else none

/-- One member of an object: a quoted key, a colon and a value. -/
def member : Nat → JsString → Option ((JsString × Json ν) × JsString)
  | 0, _ => none
  | n + 1, s =>
    match skipSpace s with
    | [] => none
    | c :: r =>
      if c = 34 then do
        let (k, r) ← stringTail r
        match skipSpace r with
        | [] => none
        | d :: r =>
          if d = 58 then do
            let (v, r) ← value n r
            pure ((k, v), r)
          else none
      else none

/-- The members of an object after one of them, up to the closing brace. -/
def members : Nat → JsString → Option (List (JsString × Json ν) × JsString)
  | 0, _ => none
  | n + 1, s =>
    match skipSpace s with
    | [] => none
    | c :: r =>
      if c = 125 then some ([], r)
      else if c = 44 then do
        let (m, r) ← member n r
        let (ms, r) ← members n r
        pure (m :: ms, r)
      else none

end

/-- `JSON.parse`: one value, and nothing but white space after it. -/
def parse (s : JsString) : Option (Json ν) :=
  match value s.length s with
  | some (j, r) => if skipSpace r = [] then some j else none
  | none => none

end MusicComparer.Js.Json
