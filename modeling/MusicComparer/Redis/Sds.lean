import Mathlib.Data.List.TakeWhile
import MusicComparer.Redis.Protocol

/-!
# Quoted arguments

Library `Redis`, from `redis-2.8.19/src/sds.c`: a line is split into arguments by `sdssplitargs`,
and `sdscatrepr` writes a string in quotes. The characters are those of the C locale.
-/

namespace MusicComparer.Redis

/-- `p[i]` in a string that ends with a zero. -/
def byteAt (p : Bytes) (i : Nat) : UInt8 := p.getD i 0

/-- `isspace`. -/
def isspace (c : UInt8) : Bool := c = 32 || (9 ≤ c && c ≤ 13)

/-- `isprint`. -/
def isprint (c : UInt8) : Bool := 32 ≤ c && c ≤ 126

/-- `is_hex_digit`, `sds.c:771–774`. -/
def isHexDigit (c : UInt8) : Bool :=
  (48 ≤ c && c ≤ 57) || (97 ≤ c && c ≤ 102) || (65 ≤ c && c ≤ 70)

/-- `hex_digit_to_int`, `sds.c:778–798`. -/
def hexDigitToInt (c : UInt8) : UInt8 :=
  if 48 ≤ c && c ≤ 57 then c - 48
  else if 97 ≤ c && c ≤ 102 then c - 87
  else if 65 ≤ c && c ≤ 70 then c - 55
  else 0

/-- The character behind a backslash, `sds.c:851–858`. -/
def unescape (c : UInt8) : UInt8 :=
  if c = 110 then 10 else if c = 114 then 13 else if c = 116 then 9 else if c = 98 then 8
  else if c = 97 then 7 else c

/-- `inq` and `insq`. -/
inductive Quotes where
  | plain
  | double
  | single
  deriving DecidableEq, Repr

/-- What an iteration for a token does: bytes are appended and `p` moves on, or the token is done,
or the line is not well formed. -/
inductive Lexed where
  | more (quotes : Quotes) (bytes p : Bytes)
  | done (p : Bytes)
  | err
  deriving DecidableEq, Repr

/-- A closing quote is followed by a space or by nothing. -/
def closeQuote (p : Bytes) : Lexed :=
  if byteAt p 1 != 0 && !isspace (byteAt p 1) then .err else .done (p.drop 1)

/-- One iteration of the loop for a token, `sds.c:835–907`. -/
def lexByte (p : Bytes) : Quotes → Lexed
  | .double =>
    if byteAt p 0 = 92 && byteAt p 1 = 120 && isHexDigit (byteAt p 2) &&
        isHexDigit (byteAt p 3) then
      .more .double [hexDigitToInt (byteAt p 2) * 16 + hexDigitToInt (byteAt p 3)] (p.drop 4)
    else if byteAt p 0 = 92 && byteAt p 1 != 0 then
      .more .double [unescape (byteAt p 1)] (p.drop 2)
    else if byteAt p 0 = 34 then closeQuote p
    else if byteAt p 0 = 0 then .err
    else .more .double [byteAt p 0] (p.drop 1)
  | .single =>
    if byteAt p 0 = 92 && byteAt p 1 = 39 then .more .single [39] (p.drop 2)
    else if byteAt p 0 = 39 then closeQuote p
    else if byteAt p 0 = 0 then .err
    else .more .single [byteAt p 0] (p.drop 1)
  | .plain =>
    if byteAt p 0 ∈ [32, 10, 13, 9, 0] then .done (p.drop 1)
    else if byteAt p 0 = 34 then .more .double [] (p.drop 1)
    else if byteAt p 0 = 39 then .more .single [] (p.drop 1)
    else .more .plain [byteAt p 0] (p.drop 1)

/-- The loop for a token; every iteration but the last one moves on. -/
def lexToken : Nat → Quotes → Bytes → Bytes → Option (Bytes × Bytes)
  | 0, _, _, _ => none
  | fuel + 1, quotes, current, p =>
    match lexByte p quotes with
    | .more quotes bytes p => lexToken fuel quotes (current ++ bytes) p
    | .done p => some (current, p)
    | .err => none

/-- The loop of `sdssplitargs`, `sds.c:825–918`. -/
def splitFrom : Nat → Bytes → Option (List Bytes)
  | 0, _ => none
  | fuel + 1, p =>
    let p := p.dropWhile isspace
    if p.isEmpty then some []
    else
      match lexToken (p.length + 1) .plain [] p with
      | some (token, p) => (splitFrom fuel p).map (token :: ·)
      | none => none

/-- `sdssplitargs`: the arguments of a line, or `NULL` if its quotes are not well formed. -/
def sdssplitargs (line : Bytes) : Option (List Bytes) :=
  let p := line.takeWhile (· != 0)
  splitFrom (p.length + 1) p

/-- `%x` of a digit. -/
def hexByte (d : UInt8) : UInt8 := if d < 10 then 48 + d else 87 + d

/-- A byte inside quotes, `sds.c:747–763`. -/
def reprByte (c : UInt8) : Bytes :=
  if c = 92 || c = 34 then [92, c]
  else if c = 10 then [92, 110]
  else if c = 13 then [92, 114]
  else if c = 9 then [92, 116]
  else if c = 7 then [92, 97]
  else if c = 8 then [92, 98]
  else if isprint c then [c]
  else [92, 120, hexByte (c / 16), hexByte (c % 16)]

/-- `sdscatrepr`, `sds.c:744–767`. -/
def sdscatrepr (s p : Bytes) : Bytes := s ++ [34] ++ p.flatMap reprByte ++ [34]

/-! ### Reading a quoted string -/

/-- What holds for all numbers below 256 holds for all bytes. -/
private theorem forall_byte {P : UInt8 → Prop} (h : ∀ n < 256, P (UInt8.ofNat n)) (c : UInt8) :
    P c := by
  have hc := h c.toNat c.toNat_lt
  rwa [UInt8.ofNat_toNat] at hc

private theorem hex_byte (c : UInt8) :
    isHexDigit (hexByte (c / 16)) = true ∧ isHexDigit (hexByte (c % 16)) = true ∧
      hexDigitToInt (hexByte (c / 16)) * 16 + hexDigitToInt (hexByte (c % 16)) = c := by
  revert c
  exact forall_byte (by decide +kernel)

private theorem zero_notMem_reprByte (c : UInt8) : 0 ∉ reprByte c := by
  revert c
  exact forall_byte (by decide +kernel)

/-- The three ways to write a byte: behind a backslash, as it is, and in hexadecimal. -/
private theorem reprByte_cases (c : UInt8) :
    (reprByte c = [92, byteAt (reprByte c) 1] ∧ byteAt (reprByte c) 1 ≠ 120 ∧
        byteAt (reprByte c) 1 ≠ 0 ∧ unescape (byteAt (reprByte c) 1) = c) ∨
      (reprByte c = [c] ∧ c ≠ 92 ∧ c ≠ 34 ∧ c ≠ 0) ∨
      reprByte c = [92, 120, hexByte (c / 16), hexByte (c % 16)] := by
  revert c
  exact forall_byte (by decide +kernel)

/-- Inside quotes the bytes that stand for a byte are read as that byte. -/
private theorem lexByte_reprByte (c : UInt8) (p : Bytes) :
    lexByte (reprByte c ++ p) .double = .more .double [c] p := by
  rcases reprByte_cases c with ⟨hrepr, h120, h0, hc⟩ | ⟨hrepr, h92, h34, h0⟩ | hrepr
  · generalize byteAt (reprByte c) 1 = e at hrepr h120 h0 hc
    rw [hrepr]
    simp [lexByte, byteAt, h120, h0, hc]
  · rw [hrepr]
    simp [lexByte, byteAt, h92, h34, h0]
  · obtain ⟨hhigh, hlow, hbyte⟩ := hex_byte c
    rw [hrepr]
    simp [lexByte, byteAt, hhigh, hlow, hbyte]

/-- The text behind a closing quote. -/
private def Closes (p : Bytes) : Prop := p = [] ∨ ∃ s, p = 32 :: s

/-- A quoted string is read up to its closing quote. -/
private theorem lexToken_quoted (s : Bytes) {fuel : Nat} {current p : Bytes} (hp : Closes p)
    (hfuel : s.length < fuel) :
    lexToken fuel .double current (s.flatMap reprByte ++ 34 :: p) = some (current ++ s, p) := by
  induction s generalizing fuel current with
  | nil =>
    obtain ⟨fuel, rfl⟩ : ∃ n, fuel = n + 1 := ⟨fuel - 1, by omega⟩
    have hclose : lexByte (34 :: p) .double = .done p := by
      rcases hp with rfl | ⟨s, rfl⟩ <;> rfl
    rw [List.flatMap_nil, List.nil_append, lexToken, hclose, List.append_nil]
  | cons c s ih =>
    obtain ⟨fuel, rfl⟩ : ∃ n, fuel = n + 1 := ⟨fuel - 1, by omega⟩
    rw [List.length_cons] at hfuel
    rw [List.flatMap_cons, List.append_assoc, lexToken, lexByte_reprByte]
    dsimp only
    rw [ih (by omega), List.append_assoc, List.singleton_append]

private theorem length_le_flatMap {α : Type} {f : α → Bytes} (hf : ∀ a, f a ≠ []) (l : List α) :
    l.length ≤ (l.flatMap f).length := by
  induction l with
  | nil => exact Nat.le_refl 0
  | cons a l ih =>
    have hpos := List.length_pos_iff.mpr (hf a)
    rw [List.flatMap_cons, List.length_append, List.length_cons]
    omega

private theorem reprByte_ne_nil (c : UInt8) : reprByte c ≠ [] := by
  rcases reprByte_cases c with ⟨hrepr, -⟩ | ⟨hrepr, -⟩ | hrepr <;> rw [hrepr] <;> simp

/-- A quoted string is a token. -/
private theorem lexToken_repr (s : Bytes) {p : Bytes} (hp : Closes p) :
    lexToken ((sdscatrepr [] s ++ p).length + 1) .plain [] (sdscatrepr [] s ++ p) =
      some (s, p) := by
  have hline : sdscatrepr [] s ++ p = 34 :: (s.flatMap reprByte ++ 34 :: p) := by
    simp [sdscatrepr]
  have hopen : lexByte (34 :: (s.flatMap reprByte ++ 34 :: p)) .plain =
      .more .double [] (s.flatMap reprByte ++ 34 :: p) := rfl
  have hlen := length_le_flatMap reprByte_ne_nil s
  rw [hline, lexToken, hopen]
  dsimp only
  rw [lexToken_quoted s hp (by simp only [List.length_cons, List.length_append]; omega)]
  rfl

/-- Quoted strings with a space before each. -/
private def spaced (argv : List Bytes) : Bytes := argv.flatMap fun a ↦ 32 :: sdscatrepr [] a

private theorem closes_spaced (argv : List Bytes) : Closes (spaced argv) := by
  cases argv with
  | nil => exact Or.inl rfl
  | cons a argv => exact Or.inr ⟨_, rfl⟩

/-- The first token of a line, and then the others. -/
private theorem splitFrom_repr {fuel : Nat} {p : Bytes} {a : Bytes} {argv : List Bytes}
    (hp : p.dropWhile isspace = sdscatrepr [] a ++ spaced argv) :
    splitFrom (fuel + 1) p = (splitFrom fuel (spaced argv)).map (a :: ·) := by
  rw [splitFrom, hp, if_neg (by simp [sdscatrepr]), lexToken_repr a (closes_spaced argv)]

private theorem dropWhile_repr (a p : Bytes) :
    (sdscatrepr [] a ++ p).dropWhile isspace = sdscatrepr [] a ++ p := rfl

private theorem dropWhile_spaced (a : Bytes) (argv : List Bytes) :
    (spaced (a :: argv)).dropWhile isspace = sdscatrepr [] a ++ spaced argv := rfl

private theorem splitFrom_spaced (argv : List Bytes) {fuel : Nat} (hfuel : argv.length < fuel) :
    splitFrom fuel (spaced argv) = some argv := by
  induction argv generalizing fuel with
  | nil =>
    obtain ⟨fuel, rfl⟩ : ∃ n, fuel = n + 1 := ⟨fuel - 1, by omega⟩
    rfl
  | cons a argv ih =>
    obtain ⟨fuel, rfl⟩ : ∃ n, fuel = n + 1 := ⟨fuel - 1, by omega⟩
    rw [List.length_cons] at hfuel
    rw [splitFrom_repr (dropWhile_spaced a argv), ih (by omega)]
    rfl

private theorem intercalate_repr (a : Bytes) (argv : List Bytes) :
    List.intercalate [32] ((a :: argv).map (sdscatrepr [])) = sdscatrepr [] a ++ spaced argv := by
  induction argv generalizing a with
  | nil => simp [List.intercalate, spaced]
  | cons b argv ih =>
    have hb := ih b
    simp only [List.map_cons, List.intercalate, List.intersperse_cons_cons,
      List.flatten_cons] at hb ⊢
    rw [hb]
    rfl

/-- A quoted string has no zero, so that the line ends where it ends. -/
private theorem ne_zero_of_mem_spaced {a : Bytes} {argv : List Bytes} :
    ∀ b ∈ sdscatrepr [] a ++ spaced argv, b ≠ 0 := by
  have hrepr : ∀ s, ∀ b ∈ sdscatrepr [] s, b ≠ 0 := by
    intro s b hb
    simp only [sdscatrepr, List.nil_append, List.mem_append, List.mem_singleton,
      List.mem_flatMap] at hb
    rcases hb with (rfl | ⟨c, -, hc⟩) | rfl
    · decide
    · exact fun hb ↦ zero_notMem_reprByte c (hb ▸ hc)
    · decide
  intro b hb
  rcases List.mem_append.mp hb with hb | hb
  · exact hrepr a b hb
  · obtain ⟨s, -, hs⟩ := List.mem_flatMap.mp hb
    rcases List.mem_cons.mp hs with rfl | hs
    · decide
    · exact hrepr s b hs

/-- For all strings of bytes: written with `sdscatrepr` and separated by spaces, they are the
arguments that `sdssplitargs` finds. -/
theorem sdssplitargs_repr (argv : List Bytes) :
    sdssplitargs (List.intercalate [32] (argv.map (sdscatrepr []))) = some argv := by
  cases argv with
  | nil => rfl
  | cons a argv =>
    have hlen : argv.length ≤ (spaced argv).length :=
      length_le_flatMap (fun _ ↦ List.cons_ne_nil _ _) argv
    rw [intercalate_repr, sdssplitargs,
      List.takeWhile_eq_self_iff.mpr fun b hb ↦ by simpa using ne_zero_of_mem_spaced b hb,
      splitFrom_repr (dropWhile_repr a (spaced argv)), splitFrom_spaced argv]
    · rfl
    · simp only [List.length_append, sdscatrepr, List.length_cons]
      omega

/-- A quote, a backslash before an `x`, a zero and a line end in one argument, and an empty one. -/
example :
    sdssplitargs (List.intercalate [32] [sdscatrepr [] [34, 92, 120, 0, 10], sdscatrepr [] []]) =
      some [[34, 92, 120, 0, 10], []] := by
  decide +kernel

end MusicComparer.Redis
