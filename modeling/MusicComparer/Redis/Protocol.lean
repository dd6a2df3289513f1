import Mathlib.Algebra.Ring.Nat

/-!
# The wire format of redis

Library `Redis`. A command is sent as the number of its arguments and each argument behind its
length, `redisFormatCommandArgv` in `redis-2.8.19/deps/hiredis/hiredis.c`. The server reads the
numbers with `string2ll` in `redis-2.8.19/src/util.c`.
-/

namespace MusicComparer.Redis

/-- A string of bytes. -/
abbrev Bytes := List UInt8

/-- The character of a decimal digit. -/
def digitByte (d : Nat) : UInt8 := (48 + d).toUInt8

/-- The digits of a number, with as much fuel as the number. -/
def decimalFrom : Nat → Nat → Bytes
  | 0, n => [digitByte n]
  | fuel + 1, n =>
    if n < 10 then [digitByte n] else decimalFrom fuel (n / 10) ++ [digitByte (n % 10)]

/-- A number as `sprintf` writes it with `%d` and `%zu`. -/
def decimal (n : Nat) : Bytes := decimalFrom n n

/-- The loop of `intlen`, `hiredis.c:668–675`. -/
def intlenFrom : Nat → Nat → Nat
  | 0, _ => 1
  | fuel + 1, n => if n / 10 = 0 then 1 else 1 + intlenFrom fuel (n / 10)

/-- `intlen`: the number of digits. -/
def intlen (n : Nat) : Nat := intlenFrom n n

/-- `bulklen`, `hiredis.c:682–684`. -/
def bulklen (len : Nat) : Nat := 1 + intlen len + 2 + len + 2

/-- An argument as it is written, `hiredis.c:960–964`. -/
def bulk (arg : Bytes) : Bytes := [36] ++ decimal arg.length ++ [13, 10] ++ arg ++ [13, 10]

/-- A command as it is written, `hiredis.c:957–965`. -/
def multibulk (argv : List Bytes) : Bytes :=
  [42] ++ decimal argv.length ++ [13, 10] ++ argv.flatMap bulk

/-- `redisFormatCommandArgv`, `hiredis.c:939–971`: the buffer is as long as computed before, or the
assertion fails. -/
def formatCommandArgv (argv : List Bytes) : Option Bytes :=
  let totlen := 1 + intlen argv.length + 2 + (argv.map fun arg ↦ bulklen arg.length).sum
  let cmd := multibulk argv
  if cmd.length = totlen then some cmd else none

/-- `redisAppendCommandArgv`, `hiredis.c:1298–1315`: the command is appended to the output buffer.
-/
def appendCommandArgv (obuf : Bytes) (argv : List Bytes) : Option Bytes :=
  (formatCommandArgv argv).map (obuf ++ ·)

/-- `strchr` on a buffer that ends with a zero: the index of the first `c` before any zero. -/
def strchr (c : UInt8) : Bytes → Option Nat
  | [] => none
  | b :: s => if b = c then some 0 else if b = 0 then none else (strchr c s).map (· + 1)

/-- The loop of `string2ll`, `util.c:343–357`: `none` when the value does not fit into 64 bits or a
byte is left that is no digit. -/
def string2llFrom : Nat → Bytes → Option Nat
  | v, [] => some v
  | v, b :: s =>
    if 48 ≤ b && b ≤ 57 then
      if (2 ^ 64 - 1) / 10 < v then none
      else if 2 ^ 64 - 1 - (b.toNat - 48) < v * 10 then none
      else string2llFrom (v * 10 + (b.toNat - 48)) s
    else none

/-- The digits of `string2ll`, `util.c:332–357`: the first one is not zero. -/
def string2llDigits : Bytes → Option Nat
  | [] => none
  | b :: s => if 49 ≤ b && b ≤ 57 then string2llFrom (b.toNat - 48) s else none

/-- `string2ll`, `util.c:308–369`. -/
def string2ll (s : Bytes) : Option Int :=
  if s = [48] then some 0
  else if s.head? = some 45 then
    match string2llDigits s.tail with
    | some v => if 2 ^ 63 < v then none else some (-v)
    | none => none
  else
    match string2llDigits s with
    | some v => if 2 ^ 63 - 1 < v then none else some v
    | none => none

/-! ### Numbers -/

theorem toNat_digitByte {d : Nat} (h : d < 10) : (digitByte d).toNat = 48 + d := by
  rw [digitByte, Nat.toUInt8, UInt8.toNat_ofNat']
  omega

theorem digitByte_mem {d : Nat} (h : d < 10) : 48 ≤ digitByte d ∧ digitByte d ≤ 57 := by
  have hd := toNat_digitByte h
  rw [UInt8.le_iff_toNat_le, UInt8.le_iff_toNat_le, hd]
  exact ⟨Nat.le_add_right 48 d, by change 48 + d ≤ 57; omega⟩

/-- A number is written with digits only. -/
theorem isDigit_of_mem_decimal (n : Nat) : ∀ b ∈ decimal n, 48 ≤ b ∧ b ≤ 57 := by
  have hloop : ∀ fuel n, n ≤ fuel → ∀ b ∈ decimalFrom fuel n, 48 ≤ b ∧ b ≤ 57 := by
    intro fuel
    induction fuel with
    | zero =>
      intro n hn b hb
      rw [decimalFrom, List.mem_singleton] at hb
      exact hb ▸ digitByte_mem (by omega)
    | succ fuel ih =>
      intro n hn b hb
      rw [decimalFrom] at hb
      split at hb
      · next h10 =>
        rw [List.mem_singleton] at hb
        exact hb ▸ digitByte_mem h10
      · rcases List.mem_append.mp hb with hb | hb
        · exact ih (n / 10) (by omega) b hb
        · rw [List.mem_singleton] at hb
          exact hb ▸ digitByte_mem (by omega)
  exact hloop n n (Nat.le_refl n)

/-- `intlen` is the number of characters. -/
theorem length_decimal (n : Nat) : (decimal n).length = intlen n := by
  have hloop : ∀ fuel n, n ≤ fuel → (decimalFrom fuel n).length = intlenFrom fuel n := by
    intro fuel
    induction fuel with
    | zero => exact fun n _ ↦ rfl
    | succ fuel ih =>
      intro n hn
      rw [decimalFrom, intlenFrom]
      split
      · rw [if_pos (by omega), List.length_singleton]
      · rw [if_neg (by omega), List.length_append, ih (n / 10) (by omega), List.length_singleton,
          Nat.add_comm]
  exact hloop n n (Nat.le_refl n)

/-- A number below a power of ten has no more digits than that. -/
theorem length_decimal_le {n k : Nat} (hk : 0 < k) (h : n < 10 ^ k) : (decimal n).length ≤ k := by
  have hloop : ∀ fuel n k, n ≤ fuel → 0 < k → n < 10 ^ k → (decimalFrom fuel n).length ≤ k := by
    intro fuel
    induction fuel with
    | zero => exact fun n k _ hk _ ↦ hk
    | succ fuel ih =>
      intro n k hn hk h
      rw [decimalFrom]
      split
      · exact hk
      · next h10 =>
        obtain ⟨k, rfl⟩ : ∃ j, k = j + 1 := ⟨k - 1, by omega⟩
        rw [Nat.pow_succ] at h
        have hk' : 0 < k := by
          rcases Nat.eq_zero_or_pos k with rfl | hk'
          · omega
          · exact hk'
        have hdiv := ih (n / 10) k (by omega) hk' (by omega)
        rw [List.length_append, List.length_singleton]
        omega
  exact hloop n n k (Nat.le_refl n) hk h

private theorem string2llFrom_append (v : Nat) (s t : Bytes) :
    string2llFrom v (s ++ t) = (string2llFrom v s).bind fun v ↦ string2llFrom v t := by
  induction s generalizing v with
  | nil => rfl
  | cons b s ih =>
    simp only [List.cons_append, string2llFrom]
    split
    · split
      · rfl
      · split
        · rfl
        · exact ih _
    · rfl

/-- The digits of a number from its first one on. -/
private theorem decimal_read {n : Nat} (hpos : 0 < n) (h : n < 2 ^ 64) :
    ∃ d s, decimal n = digitByte d :: s ∧ 0 < d ∧ d < 10 ∧ string2llFrom d s = some n := by
  have hloop : ∀ fuel n, n ≤ fuel → 0 < n → n < 2 ^ 64 →
      ∃ d s, decimalFrom fuel n = digitByte d :: s ∧ 0 < d ∧ d < 10 ∧
        string2llFrom d s = some n := by
    intro fuel
    induction fuel with
    | zero => exact fun n hn hpos ↦ by omega
    | succ fuel ih =>
      intro n hn hpos h
      rw [decimalFrom]
      split
      · next h10 => exact ⟨n, [], rfl, hpos, h10, rfl⟩
      · obtain ⟨d, s, hs, hd, hd10, hread⟩ := ih (n / 10) (by omega) (by omega) (by omega)
        refine ⟨d, s ++ [digitByte (n % 10)], by rw [hs, List.cons_append], hd, hd10, ?_⟩
        have hdigit := digitByte_mem (d := n % 10) (by omega)
        have hnat := toNat_digitByte (d := n % 10) (by omega)
        rw [string2llFrom_append, hread, Option.bind_some, string2llFrom,
          if_pos (by simp [hdigit.1, hdigit.2]), hnat, if_neg (by omega), if_neg (by omega),
          string2llFrom]
        congr 1
        omega
  exact hloop n n (Nat.le_refl n) hpos h

/-- `string2ll` reads what `sprintf` has written. -/
theorem string2ll_decimal {n : Nat} (h : n < 2 ^ 63) : string2ll (decimal n) = some (n : Int) := by
  rcases Nat.eq_zero_or_pos n with rfl | hpos
  · rfl
  obtain ⟨d, s, hs, hd, hd10, hread⟩ := decimal_read hpos (by omega)
  have hnat := toNat_digitByte hd10
  have hfirst : (49 ≤ digitByte d && digitByte d ≤ 57) = true := by
    have hle := (digitByte_mem hd10).2
    rw [Bool.and_eq_true, decide_eq_true_eq, decide_eq_true_eq, UInt8.le_iff_toNat_le, hnat]
    exact ⟨by change 49 ≤ 48 + d; omega, hle⟩
  have hdigits : string2llDigits (decimal n) = some n := by
    rw [hs, string2llDigits, if_pos hfirst, hnat, Nat.add_sub_cancel_left, hread]
  have hne : ∀ c : UInt8, c.toNat < 49 → digitByte d ≠ c := by
    intro c hc heq
    rw [← heq, hnat] at hc
    omega
  have hzero : decimal n ≠ [48] := by
    intro heq
    rw [hs] at heq
    exact hne 48 (by decide) (List.cons.inj heq).1
  have hminus : (decimal n).head? ≠ some 45 := by
    rw [hs, List.head?_cons]
    exact fun heq ↦ hne 45 (by decide) (Option.some.inj heq)
  rw [string2ll, if_neg hzero, if_neg hminus]
  simp only [hdigits]
  rw [if_neg (by omega)]

/-! ### Commands -/

theorem length_bulk (arg : Bytes) : (bulk arg).length = bulklen arg.length := by
  simp only [bulk, bulklen, List.length_append, length_decimal, List.length_cons, List.length_nil]

/-- The assertion of `redisFormatCommandArgv` holds. -/
theorem formatCommandArgv_eq (argv : List Bytes) :
    formatCommandArgv argv = some (multibulk argv) := by
  have hargs : (argv.flatMap bulk).length = (argv.map fun arg ↦ bulklen arg.length).sum := by
    rw [List.length_flatMap]
    congr 1
    exact List.map_congr_left fun arg _ ↦ length_bulk arg
  rw [formatCommandArgv, if_pos]
  simp only [multibulk, List.length_append, length_decimal, List.length_cons, List.length_nil,
    hargs]

/-- The output buffer after commands. -/
theorem foldlM_appendCommandArgv (obuf : Bytes) (cmds : List (List Bytes)) :
    cmds.foldlM appendCommandArgv obuf = some (obuf ++ cmds.flatMap multibulk) := by
  induction cmds generalizing obuf with
  | nil => rw [List.flatMap_nil, List.append_nil, List.foldlM_nil, Option.pure_def]
  | cons argv cmds ih =>
    rw [List.foldlM_cons, appendCommandArgv, formatCommandArgv_eq, Option.map_some,
      Option.bind_eq_bind, Option.bind_some, ih, List.flatMap_cons, List.append_assoc]

/-- A beginning of a text that has been cut, when it is before the cut. -/
theorem arrived {s rest u t : Bytes} (h : s ++ rest = u ++ t) (hle : u.length ≤ s.length) :
    ∃ x, s = u ++ x ∧ x ++ rest = t := by
  rcases List.append_eq_append_iff.mp h with ⟨a, hu, hr⟩ | ⟨a, hs, ht⟩
  · have ha : a = [] := by
      rw [hu, List.length_append] at hle
      exact List.eq_nil_of_length_eq_zero (by omega)
    subst ha
    exact ⟨[], by rw [hu, List.append_nil, List.append_nil], hr⟩
  · exact ⟨a, hs, ht.symm⟩

/-- In a text that has been cut somewhere, `strchr` finds the first `c` exactly if it is before the
cut. -/
theorem strchr_of_append {c : UInt8} {s rest h t : Bytes} (hs : s ++ rest = h ++ c :: t)
    (hc : ∀ b ∈ h, b ≠ c ∧ b ≠ 0) :
    strchr c s = if h.length < s.length then some h.length else none := by
  induction h generalizing s with
  | nil =>
    cases s with
    | nil => rfl
    | cons b s =>
      rw [List.nil_append, List.cons_append] at hs
      rw [strchr, if_pos (List.cons.inj hs).1, if_pos (by simp)]
      rfl
  | cons b' h ih =>
    cases s with
    | nil => rfl
    | cons b s =>
      obtain ⟨rfl, htail⟩ := List.cons.inj hs
      obtain ⟨hb, h0⟩ := hc b List.mem_cons_self
      rw [strchr, if_neg hb, if_neg h0, ih htail fun x hx ↦ hc x (List.mem_cons_of_mem _ hx)]
      simp only [List.length_cons, Nat.add_lt_add_iff_right]
      split <;> rfl

end MusicComparer.Redis
