import MusicComparer.Redis.Networking

/-!
# Commands arrive however the bytes are cut

Library `Redis`. What a client writes with `redisFormatCommandArgv` is read by the server in pieces
of any length up to what it asks for. The invariant says, between any two reads, which part of which
command is still to come.
-/

namespace MusicComparer.Redis

open MusicComparer.System

/-- A command that the server takes: it has arguments, not more than 1024 * 1024, each of at most
512 megabytes, and does not end the connection. -/
structure Sendable (argv : List Bytes) : Prop where
  argc : 0 < argv.length ∧ argv.length ≤ 1024 * 1024
  lengths : ∀ arg ∈ argv, arg.length ≤ 512 * 1024 * 1024
  stays : isQuit (argv.headD []) = false

/-! ### What has arrived -/

/-- The line with a number, as far as it has arrived. -/
private theorem read_line {b : UInt8} {n : Nat} {s rest t : Bytes} (hb : b ≠ 13 ∧ b ≠ 0)
    (hs : s ++ rest = b :: (decimal n ++ 13 :: 10 :: t)) :
    (strchr 13 s = if (decimal n).length + 1 < s.length then some ((decimal n).length + 1)
      else none) ∧
      ((decimal n).length + 3 ≤ s.length → byteAt s 0 = b ∧
        (s.drop 1).take (decimal n).length = decimal n ∧
        s.drop ((decimal n).length + 3) ++ rest = t) := by
  have hline : s ++ rest = (b :: decimal n) ++ 13 :: 10 :: t := by rw [hs, List.cons_append]
  refine ⟨strchr_of_append hline ?_, ?_⟩
  · intro x hx
    rcases List.mem_cons.mp hx with rfl | hx
    · exact hb
    · have hdigit := isDigit_of_mem_decimal n x hx
      constructor
      · rintro rfl
        exact absurd hdigit (by decide)
      · rintro rfl
        exact absurd hdigit (by decide)
  · intro hlen
    obtain ⟨x, rfl, hx⟩ := arrived (u := b :: (decimal n ++ [13, 10])) (t := t) (by simpa using hs)
      (by simp only [List.length_cons, List.length_append, List.length_nil]; omega)
    refine ⟨rfl, ?_, ?_⟩
    · rw [List.cons_append, List.drop_succ_cons, List.drop_zero, List.append_assoc,
        List.take_left]
    · have hdrop : ((decimal n).length + 3) = (b :: (decimal n ++ [13, 10])).length := by
        simp only [List.length_cons, List.length_append, List.length_nil]
      rw [hdrop, List.drop_left]
      exact hx

/-! ### A command that is being read -/

/-- The last arguments `args` of a command are still to be read, and `log` is from before it. -/
private structure Mid (log : List NetEvent) (argv args : List Bytes) (c : NetClient) : Prop where
  log : c.log = log
  closing : c.closing = false
  freed : c.freed = false
  reqtype : c.reqtype = .multibulk
  multibulklen : c.multibulklen = args.length
  split : argv = c.argv ++ args
  room : c.room = argv.length

/-- The text that is still to be read, with `t` behind the command. -/
private def Input (args : List Bytes) (t : Bytes) : Option Nat → Bytes → Prop
  | none, input => input = args.flatMap bulk ++ t
  | some len, input =>
    ∃ arg args', args = arg :: args' ∧ len = arg.length ∧
      input = arg ++ 13 :: 10 :: (args'.flatMap bulk ++ t)

/-- What has arrived is not enough to go on. -/
private def Waits (args : List Bytes) : Option Nat → Bytes → Prop
  | none, s => ∀ arg args', args = arg :: args' → s.length < (decimal arg.length).length + 3
  | some len, s => s.length < len + 2

/-- The buffer is not too long for the count of bytes that it may hold before a line end. -/
private def Fits (c : NetClient) : Prop :=
  c.querybuf.length ≤ 64 * 1024 ∨
    ∃ len, c.bulklen = some len ∧ 32 * 1024 ≤ len ∧ c.querybuf.length ≤ len + 2

variable {log : List NetEvent} {argv args : List Bytes} {t rest arg : Bytes} {c : NetClient}
  {pos : Nat}

/-- Before a line end the buffer is short. -/
private theorem Fits.short (h : Fits c) (hnone : c.bulklen = none) :
    c.querybuf.length ≤ 64 * 1024 := by
  rcases h with hle | ⟨len, hlen, -⟩
  · exact hle
  · rw [hnone] at hlen
    cases hlen

/-- Without an argument to be read no length is known. -/
private theorem Input.bulklen_eq_none {bulklen : Option Nat} {s : Bytes}
    (h : Input [] t bulklen s) : bulklen = none := by
  cases bulklen with
  | none => rfl
  | some len =>
    obtain ⟨arg, args, heq, -⟩ := h
    cases heq

private theorem bulk_append (arg t : Bytes) :
    bulk arg ++ t = 36 :: (decimal arg.length ++ 13 :: 10 :: (arg ++ 13 :: 10 :: t)) := by
  simp only [bulk, List.append_assoc, List.cons_append, List.nil_append]

/-- The length of an argument is read when its line has arrived. -/
private theorem readBulklen_spec (hnone : c.bulklen = none) (hpos : pos ≤ c.querybuf.length)
    (hfits : c.querybuf.length ≤ 64 * 1024) (harg : arg.length ≤ 512 * 1024 * 1024)
    (hin : c.querybuf.drop pos ++ rest = bulk arg ++ t) :
    ((c.querybuf.drop pos).length < (decimal arg.length).length + 3 ∧
        readBulklen pos c = some (.stop, c)) ∨
      ∃ pos' s, readBulklen pos c =
          some (.go pos', { c with querybuf := s, bulklen := some arg.length }) ∧
        pos' ≤ s.length ∧ s.length ≤ c.querybuf.length ∧
        s.drop pos' ++ rest = arg ++ 13 :: 10 :: t := by
  rw [bulk_append] at hin
  obtain ⟨hchr, hread⟩ := read_line (by decide) hin
  have hlen : (c.querybuf.drop pos).length = c.querybuf.length - pos := List.length_drop
  rw [readBulklen, hnone]
  dsimp only
  rw [if_neg (by omega), hchr]
  by_cases hline : (decimal arg.length).length + 3 ≤ (c.querybuf.drop pos).length
  · obtain ⟨hdollar, hdigits, hrest⟩ := hread hline
    have hbyte : byteAt c.querybuf pos = 36 := by
      rw [← hdollar, byteAt, byteAt, List.getD_eq_getElem?_getD, List.getD_eq_getElem?_getD,
        List.getElem?_drop, Nat.add_zero]
    have hnumber : string2ll ((c.querybuf.drop (pos + 1)).take
        (pos + ((decimal arg.length).length + 1) - (pos + 1))) = some (arg.length : Int) := by
      rw [← List.drop_drop, show pos + ((decimal arg.length).length + 1) - (pos + 1) =
        (decimal arg.length).length by omega, hdigits]
      exact string2ll_decimal (by omega)
    have hbehind : pos + ((decimal arg.length).length + 1) + 2 =
        pos + ((decimal arg.length).length + 3) := by omega
    right
    rw [if_pos (by omega)]
    dsimp only
    rw [if_neg (by omega), if_neg (by rw [hbyte]; decide), hnumber]
    dsimp only
    rw [if_neg (by omega), Int.toNat_natCast, hbehind]
    split
    · refine ⟨0, c.querybuf.drop (pos + ((decimal arg.length).length + 3)), rfl, Nat.zero_le _,
        ?_, ?_⟩
      · rw [List.length_drop]
        omega
      · rw [List.drop_zero, ← List.drop_drop]
        exact hrest
    · refine ⟨pos + ((decimal arg.length).length + 3), c.querybuf, rfl, by omega, Nat.le_refl _, ?_⟩
      rw [← List.drop_drop]
      exact hrest
  · refine Or.inl ⟨by omega, ?_⟩
    split
    · next i hi =>
      rw [if_neg (by omega)]
    · next i hi =>
      split at hi
      · cases hi
        rw [if_pos (by omega)]
      · cases hi

/-- An argument is read when all of it has arrived. -/
private theorem readBulk_spec (hlen : c.bulklen = some arg.length) (hpos : pos ≤ c.querybuf.length)
    (hroom : c.argv.length < c.room)
    (hin : c.querybuf.drop pos ++ rest = arg ++ 13 :: 10 :: t) :
    ((c.querybuf.drop pos).length < arg.length + 2 ∧ readBulk pos c = some (none, c)) ∨
      ∃ pos' s, readBulk pos c = some (some pos', { c with
          querybuf := s, bulklen := none, multibulklen := c.multibulklen - 1
          argv := c.argv ++ [arg] }) ∧
        pos' ≤ s.length ∧ s.length ≤ c.querybuf.length ∧
        (32 * 1024 ≤ arg.length → pos = 0 → c.querybuf.length ≤ arg.length + 2 → s = []) ∧
        s.drop pos' ++ rest = t := by
  have hdrop : (c.querybuf.drop pos).length = c.querybuf.length - pos := List.length_drop
  rw [readBulk, hlen]
  dsimp only
  rw [if_neg (by omega)]
  by_cases hall : arg.length + 2 ≤ (c.querybuf.drop pos).length
  · right
    obtain ⟨x, hx, hrest⟩ := arrived (u := arg ++ [13, 10]) (t := t) (by simpa using hin)
      (by simpa using hall)
    have htake : (c.querybuf.drop pos).take arg.length = arg := by
      rw [hx, List.append_assoc, List.take_left]
    have hpush : ∀ a, pushArg c a = some { c with argv := c.argv ++ [a] } :=
      fun a ↦ if_pos hroom
    rw [if_neg (by omega)]
    split
    · next hbig =>
      simp only [Bool.and_eq_true, decide_eq_true_eq] at hbig
      obtain ⟨⟨rfl, -⟩, hexact⟩ := hbig
      rw [List.drop_zero] at hx htake
      rw [htake, hpush]
      have hnil : x = [] := by
        have := congrArg List.length hx
        simp only [List.length_append, List.length_cons, List.length_nil] at this
        exact List.eq_nil_of_length_eq_zero (by omega)
      refine ⟨0, [], rfl, Nat.le_refl 0, Nat.zero_le _, fun _ _ _ ↦ rfl, ?_⟩
      rw [← hrest, hnil]
      rfl
    · next hbig =>
      simp only [Bool.and_eq_true, decide_eq_true_eq, not_and] at hbig
      rw [htake, hpush]
      refine ⟨pos + (arg.length + 2), c.querybuf, rfl, by omega, Nat.le_refl _, ?_, ?_⟩
      · intro hlong hzero hle
        exact absurd (by omega) (hbig ⟨hzero, hlong⟩)
      · rw [← List.drop_drop, hx, ← hrest]
        congr 1
        exact List.drop_left' (by simp)
  · exact Or.inl ⟨by omega, by rw [if_pos (by omega)]⟩

/-- How far the arguments have been read. -/
private def Outcome (log : List NetEvent) (argv : List Bytes) (t rest : Bytes)
    (r : Option (Option Nat × NetClient)) : Prop :=
  ∃ pos c args, r = some (some pos, c) ∧ Mid log argv args c ∧ pos ≤ c.querybuf.length ∧
    Input args t c.bulklen (c.querybuf.drop pos ++ rest) ∧
    (args ≠ [] → Waits args c.bulklen (c.querybuf.drop pos)) ∧
    (args = [] → c.querybuf.length ≤ 64 * 1024)

/-- An argument whose length is known is read, and the others after it. -/
private theorem readBulks_of_bulklen {c₀ : NetClient} {pos₀ : Nat}
    (ih : ∀ {c : NetClient} {pos : Nat}, Mid log argv args c → pos ≤ c.querybuf.length →
      Input args t c.bulklen (c.querybuf.drop pos ++ rest) →
      c.querybuf.length ≤ 64 * 1024 ∨ pos = 0 ∧ Fits c →
      Outcome log argv t rest (readBulks args.length pos c))
    (hgo : readBulklen pos₀ c₀ = some (.go pos, c)) (hc : Mid log argv (arg :: args) c)
    (hpos : pos ≤ c.querybuf.length) (hlen : c.bulklen = some arg.length)
    (hin : c.querybuf.drop pos ++ rest = arg ++ 13 :: 10 :: (args.flatMap bulk ++ t))
    (hfits : c.querybuf.length ≤ 64 * 1024 ∨
      pos = 0 ∧ 32 * 1024 ≤ arg.length ∧ c.querybuf.length ≤ arg.length + 2) :
    Outcome log argv t rest (readBulks (args.length + 1) pos₀ c₀) := by
  have hroom : c.argv.length < c.room := by
    rw [hc.room, hc.split, List.length_append, List.length_cons]
    omega
  rcases readBulk_spec hlen hpos hroom hin with ⟨hwait, hread⟩ |
    ⟨pos', s, hread, hpos', hle, hbig, hrest⟩
  · rw [readBulks_of_wait hgo hread]
    refine ⟨pos, c, arg :: args, rfl, hc, hpos, ?_, ?_, fun h ↦ by cases h⟩
    · rw [hlen]
      exact ⟨arg, args, rfl, rfl, hin⟩
    · intro _
      rw [hlen]
      exact hwait
  · rw [readBulks_of_read hgo hread]
    have hmid : Mid log argv args { c with
        querybuf := s, bulklen := none, multibulklen := c.multibulklen - 1
        argv := c.argv ++ [arg] } := by
      refine ⟨hc.log, hc.closing, hc.freed, hc.reqtype, ?_, ?_, hc.room⟩
      · change c.multibulklen - 1 = args.length
        rw [hc.multibulklen, List.length_cons, Nat.add_sub_cancel]
      · rw [List.append_assoc, List.singleton_append]
        exact hc.split
    refine ih hmid hpos' hrest (Or.inl ?_)
    rcases hfits with hfits | ⟨hzero, hlong, hshort⟩
    · exact Nat.le_trans hle hfits
    · rw [hbig hlong hzero hshort]
      exact Nat.zero_le _

/-- The arguments are read as far as they have arrived. -/
private theorem readBulks_spec (hargs : ∀ arg ∈ args, arg.length ≤ 512 * 1024 * 1024)
    (hc : Mid log argv args c) (hpos : pos ≤ c.querybuf.length)
    (hin : Input args t c.bulklen (c.querybuf.drop pos ++ rest))
    (hfits : c.querybuf.length ≤ 64 * 1024 ∨ pos = 0 ∧ Fits c) :
    Outcome log argv t rest (readBulks args.length pos c) := by
  have hshort : c.bulklen = none → c.querybuf.length ≤ 64 * 1024 :=
    fun hnone ↦ hfits.elim id fun h ↦ h.2.short hnone
  induction args generalizing c pos with
  | nil =>
    exact ⟨pos, c, [], rfl, hc, hpos, hin, fun h ↦ absurd rfl h,
      fun _ ↦ hshort hin.bulklen_eq_none⟩
  | cons arg args ih =>
    have hothers : ∀ {c : NetClient} {pos : Nat}, Mid log argv args c →
        pos ≤ c.querybuf.length → Input args t c.bulklen (c.querybuf.drop pos ++ rest) →
        c.querybuf.length ≤ 64 * 1024 ∨ pos = 0 ∧ Fits c →
        Outcome log argv t rest (readBulks args.length pos c) :=
      fun hc hpos hin hfits ↦ ih (fun a ha ↦ hargs a (List.mem_cons_of_mem _ ha)) hc hpos hin hfits
        fun hnone ↦ hfits.elim id fun h ↦ h.2.short hnone
    cases hlen : c.bulklen with
    | some len =>
      rw [hlen] at hin
      obtain ⟨arg', args', heq, rfl, hin⟩ := hin
      cases heq
      refine readBulks_of_bulklen hothers (by rw [readBulklen, hlen]) hc hpos hlen hin ?_
      rcases hfits with hle | ⟨hzero, hle | ⟨len, hsome, hlong, hle⟩⟩
      · exact Or.inl hle
      · exact Or.inl hle
      · rw [hlen] at hsome
        cases hsome
        exact Or.inr ⟨hzero, hlong, hle⟩
    | none =>
      rw [hlen] at hin
      have hbulk : c.querybuf.drop pos ++ rest = bulk arg ++ (args.flatMap bulk ++ t) := by
        rw [← List.append_assoc, ← List.flatMap_cons]
        exact hin
      rcases readBulklen_spec hlen hpos (hshort hlen) (hargs arg List.mem_cons_self) hbulk with
        ⟨hwait, hread⟩ | ⟨pos', s, hread, hpos', hle, hrest⟩
      · rw [List.length_cons, readBulks_of_stop hread]
        refine ⟨pos, c, arg :: args, rfl, hc, hpos, ?_, ?_, fun h ↦ by cases h⟩
        · rw [hlen]
          exact hin
        · intro _
          rw [hlen]
          rintro a as heq
          cases heq
          exact hwait
      · exact readBulks_of_bulklen hothers hread
          ⟨hc.log, hc.closing, hc.freed, hc.reqtype, hc.multibulklen, hc.split, hc.room⟩
          hpos' rfl hrest (Or.inl (Nat.le_trans hle (hshort hlen)))

/-- The arguments of a command are read as far as they have arrived, and the buffer is trimmed. -/
private theorem processBulks_spec (hargs : ∀ arg ∈ args, arg.length ≤ 512 * 1024 * 1024)
    (hne : args ≠ []) (hc : Mid log argv args c) (hpos : pos ≤ c.querybuf.length)
    (hin : Input args t c.bulklen (c.querybuf.drop pos ++ rest))
    (hfits : c.querybuf.length ≤ 64 * 1024 ∨ pos = 0 ∧ Fits c) :
    ∃ c' args', processBulks pos c = some (args'.isEmpty, c') ∧ Mid log argv args' c' ∧
      Input args' t c'.bulklen (c'.querybuf ++ rest) ∧
      (args' ≠ [] → Waits args' c'.bulklen c'.querybuf) ∧
      (args' = [] → c'.querybuf.length ≤ 64 * 1024) := by
  obtain ⟨pos', c', args', hread, hc', -, hin', hwait, hshort⟩ :=
    readBulks_spec hargs hc hpos hin hfits
  have hpositive : 0 < c.multibulklen := by
    rw [hc.multibulklen]
    exact List.length_pos_iff.mpr hne
  have hrun := processBulks_of_read hpositive (hc.multibulklen ▸ hread)
  refine ⟨{ c' with querybuf := c'.querybuf.drop pos' }, args', ?_, ?_, hin', hwait, ?_⟩
  · rw [hrun, hc'.multibulklen]
    cases args' <;> rfl
  · exact ⟨hc'.log, hc'.closing, hc'.freed, hc'.reqtype, hc'.multibulklen, hc'.split, hc'.room⟩
  · intro h
    change (c'.querybuf.drop pos').length ≤ 64 * 1024
    rw [List.length_drop]
    have := hshort h
    omega

/-! ### Between commands -/

/-- No command is being read. -/
private structure Idle (log : List NetEvent) (c : NetClient) : Prop where
  log : c.log = log
  closing : c.closing = false
  freed : c.freed = false
  reqtype : c.reqtype ≠ .inline
  multibulklen : c.multibulklen = 0
  bulklen : c.bulklen = none
  argv : c.argv = []

private theorem multibulk_append (argv : List Bytes) (t : Bytes) :
    multibulk argv ++ t = 42 :: (decimal argv.length ++ 13 :: 10 :: (argv.flatMap bulk ++ t)) := by
  simp only [multibulk, List.append_assoc, List.cons_append, List.nil_append]

/-- The number of arguments is read when its line has arrived. -/
private theorem readMultibulklen_spec (hargc : 0 < argv.length ∧ argv.length ≤ 1024 * 1024)
    (hc : Idle log c) (hfits : c.querybuf.length ≤ 64 * 1024)
    (hin : c.querybuf ++ rest = multibulk argv ++ t) :
    (c.querybuf.length < (decimal argv.length).length + 3 ∧
        readMultibulklen c = some (.err, c)) ∨
      ∃ pos, readMultibulklen c = some (.go pos, { c with
          multibulklen := argv.length, room := argv.length }) ∧
        pos ≤ c.querybuf.length ∧ c.querybuf.drop pos ++ rest = argv.flatMap bulk ++ t := by
  rw [multibulk_append] at hin
  obtain ⟨hchr, hread⟩ := read_line (by decide) hin
  rw [readMultibulklen, if_neg (by simp [hc.argv]), hchr]
  by_cases hline : (decimal argv.length).length + 3 ≤ c.querybuf.length
  · obtain ⟨hstar, hdigits, hrest⟩ := hread hline
    right
    rw [if_pos (by omega)]
    dsimp only
    rw [if_neg (by omega), if_neg (by rw [hstar]; decide), Nat.add_sub_cancel, hdigits,
      string2ll_decimal (by omega)]
    dsimp only
    rw [if_neg (by omega), if_neg (by omega), Int.toNat_natCast]
    exact ⟨_, rfl, hline, hrest⟩
  · refine Or.inl ⟨by omega, ?_⟩
    split
    · rw [if_neg (by omega)]
    · next i hi =>
      split at hi
      · cases hi
        rw [if_pos (by omega)]
      · cases hi

/-- Commands that have been executed, one that is being read, and those to come. -/
private inductive Stage where
  | idle (executed todo : List (List Bytes))
  | mid (executed : List (List Bytes)) (argv : List Bytes) (todo : List (List Bytes))
      (args : List Bytes)

/-- The buffer and the bytes that have not been read are what is left of the commands. -/
private def Stage.Holds (cmds : List (List Bytes)) (rest : Bytes) (c : NetClient) : Stage → Prop
  | idle executed todo =>
    cmds = executed ++ todo ∧ Idle (executed.map .command) c ∧
      c.querybuf ++ rest = todo.flatMap multibulk
  | mid executed argv todo args =>
    cmds = executed ++ argv :: todo ∧ args ≠ [] ∧ Mid (executed.map .command) argv args c ∧
      Input args (todo.flatMap multibulk) c.bulklen (c.querybuf ++ rest)

/-- The buffer has not enough bytes to go on. -/
private def Stage.Stuck (c : NetClient) : Stage → Prop
  | idle _ todo =>
    ∀ argv todo', todo = argv :: todo' → c.querybuf.length < (decimal argv.length).length + 3
  | mid _ _ _ args => Waits args c.bulklen c.querybuf

/-- Something of a command is left before the text behind it. -/
private theorem Input.length_lt {b : Option Nat} {input : Bytes} (hne : args ≠ [])
    (h : Input args t b input) : t.length < input.length := by
  cases b with
  | none =>
    obtain ⟨arg, args', rfl⟩ := List.exists_cons_of_ne_nil hne
    rw [show input = _ from h, List.flatMap_cons, bulk]
    simp only [List.length_append, List.length_cons]
    omega
  | some len =>
    obtain ⟨arg, args', -, -, rfl⟩ := h
    simp only [List.length_append, List.length_cons]
    omega

private theorem stuck_of_nil {st : Stage} (h : c.querybuf = []) : st.Stuck c := by
  cases st with
  | idle executed todo =>
    intro argv todo' _
    rw [h, List.length_nil]
    omega
  | mid executed argv todo args =>
    rw [Stage.Stuck, h]
    cases c.bulklen with
    | none => exact fun arg args' _ ↦ by rw [List.length_nil]; omega
    | some len => exact Nat.succ_pos _

/-- A command that has been read is executed, and the client is reset. -/
private theorem finishRequest_spec (hargv : Sendable argv) (hc : Mid log argv [] c) :
    Idle (log ++ [.command argv]) (finishRequest c) ∧ (finishRequest c).querybuf = c.querybuf := by
  have hall : c.argv = argv := by rw [hc.split, List.append_nil]
  have hne : c.argv ≠ [] := by
    rw [hall]
    exact List.length_pos_iff.mp hargv.argc.1
  have hcommand : processCommand c = (true, { c with log := c.log ++ [.command c.argv] }) := by
    rw [processCommand, hall, hargv.stays]
    rfl
  rw [finishRequest, if_neg hne, hcommand]
  refine ⟨⟨?_, hc.closing, hc.freed, by simp [NetClient.reset], rfl, rfl, rfl⟩, rfl⟩
  change c.log ++ [.command c.argv] = _
  rw [hc.log, hall]

/-- The next read asks for bytes, and gets no more of them than the buffer may hold. -/
private def ReadFits (c : NetClient) : Prop :=
  0 < c.readlen ∧ ∀ s : Bytes, s.length ≤ c.readlen →
    Fits { c with querybuf := c.querybuf ++ s } ∧ (c.querybuf ++ s).length ≤ 1024 * 1024 * 1024

/-- A short buffer and sixteen kilobytes more are not too long. -/
private theorem readFits_of_short (hread : c.readlen = 16 * 1024)
    (hle : c.querybuf.length ≤ 32 * 1024 + 1) : ReadFits c := by
  refine ⟨by omega, fun s hs ↦ ⟨Or.inl ?_, ?_⟩⟩
  · change (c.querybuf ++ s).length ≤ 64 * 1024
    rw [List.length_append]
    omega
  · rw [List.length_append]
    omega

/-- What an iteration of `processInputBuffer` does: a command has been read to its end, or the
buffer is used up. -/
private def Passed (cmds : List (List Bytes)) (rest : Bytes) (c : NetClient) (b : Bool)
    (c' : NetClient) : Prop :=
  if b then ∃ executed argv todo, cmds = executed ++ argv :: todo ∧
    c.log = executed.map .command ∧
    Mid (executed.map .command) argv [] c' ∧ c'.bulklen = none ∧
    c'.querybuf.length ≤ 64 * 1024 ∧ c'.querybuf ++ rest = todo.flatMap multibulk ∧
    c'.querybuf.length < c.querybuf.length
  else c'.log = c.log ∧ ∃ st : Stage, st.Holds cmds rest c' ∧ st.Stuck c'

section

variable {cmds executed todo : List (List Bytes)} (hcmds : ∀ argv ∈ cmds, Sendable argv)
include hcmds

/-- The arguments of a command are read to its end, or the buffer is used up. -/
private theorem processBulks_passed (heq : cmds = executed ++ argv :: todo) (hne : args ≠ [])
    (hc : Mid (executed.map .command) argv args c) (hpos : pos ≤ c.querybuf.length)
    (hin : Input args (todo.flatMap multibulk) c.bulklen (c.querybuf.drop pos ++ rest))
    (hfits : c.querybuf.length ≤ 64 * 1024 ∨ pos = 0 ∧ Fits c) :
    ∃ b c', processBulks pos c = some (b, c') ∧ Passed cmds rest c b c' := by
  have hargs : ∀ arg ∈ args, arg.length ≤ 512 * 1024 * 1024 := by
    intro arg harg
    apply (hcmds argv (by rw [heq]; simp)).lengths
    rw [hc.split]
    exact List.mem_append_right _ harg
  obtain ⟨c', args', hrun, hc', hin', hwait, hshort⟩ :=
    processBulks_spec hargs hne hc hpos hin hfits
  refine ⟨_, c', hrun, ?_⟩
  cases args' with
  | nil =>
    have hnone := hin'.bulklen_eq_none
    rw [hnone] at hin'
    refine ⟨executed, argv, todo, heq, hc.log, hc', hnone, hshort rfl, hin', ?_⟩
    have hlt := hin.length_lt hne
    have hlen := congrArg List.length (show c'.querybuf ++ rest = todo.flatMap multibulk from hin')
    rw [List.length_append, List.length_drop] at hlt
    rw [List.length_append] at hlen
    omega
  | cons arg args' =>
    exact ⟨hc'.log.trans hc.log.symm, .mid executed argv todo (arg :: args'),
      ⟨heq, by simp, hc', hin'⟩, hwait (by simp)⟩

/-- A command begins. -/
private theorem processMultibulkBuffer_idle (hst : (Stage.idle executed todo).Holds cmds rest c)
    (hfits : Fits c) (hbuf : c.querybuf ≠ []) :
    c.withReqtype.reqtype = .multibulk ∧
      ∃ b c', processMultibulkBuffer c.withReqtype = some (b, c') ∧ Passed cmds rest c b c' := by
  obtain ⟨heq, hc, hin⟩ := hst
  have hshort := hfits.short hc.bulklen
  obtain ⟨b, s, hb⟩ := List.exists_cons_of_ne_nil hbuf
  cases todo with
  | nil =>
    rw [hb] at hin
    cases hin
  | cons argv todo =>
    rw [List.flatMap_cons] at hin
    have hstar : byteAt c.querybuf 0 = 42 := by
      rw [hb, multibulk_append] at hin
      rw [hb]
      exact (List.cons.inj hin).1
    have hreq : c.withReqtype = { c with reqtype := .multibulk } := by
      rw [NetClient.withReqtype]
      cases hr : c.reqtype with
      | unknown => rw [if_pos rfl, if_pos hstar]
      | inline => exact absurd hr hc.reqtype
      | multibulk => rw [if_neg (by decide), ← hr]
    rw [hreq]
    refine ⟨rfl, ?_⟩
    have hargc := (hcmds argv (by rw [heq]; simp)).argc
    have hidle : Idle (executed.map .command) { c with reqtype := .multibulk } :=
      ⟨hc.log, hc.closing, hc.freed, by simp, hc.multibulklen, hc.bulklen, hc.argv⟩
    rw [processMultibulkBuffer, if_pos hc.multibulklen]
    rcases readMultibulklen_spec hargc hidle hshort hin with
      ⟨hwait, hread⟩ | ⟨pos, hread, hpos, hrest⟩
    · rw [hread]
      refine ⟨false, _, rfl, rfl, .idle executed (argv :: todo), ⟨heq, hidle, ?_⟩, ?_⟩
      · rw [List.flatMap_cons]
        exact hin
      · intro argv' todo' h
        cases h
        exact hwait
    · rw [hread]
      have hmid : Mid (executed.map .command) argv argv { c with
          reqtype := .multibulk, multibulklen := argv.length, room := argv.length } :=
        ⟨hc.log, hc.closing, hc.freed, rfl, rfl, by rw [hc.argv]; rfl, rfl⟩
      exact processBulks_passed hcmds heq (List.length_pos_iff.mp hargc.1) hmid hpos
        (by rw [hc.bulklen]; exact hrest) (Or.inl hshort)

/-- A command goes on. -/
private theorem processMultibulkBuffer_mid
    (hst : (Stage.mid executed argv todo args).Holds cmds rest c) (hfits : Fits c) :
    c.withReqtype.reqtype = .multibulk ∧
      ∃ b c', processMultibulkBuffer c.withReqtype = some (b, c') ∧ Passed cmds rest c b c' := by
  obtain ⟨heq, hne, hc, hin⟩ := hst
  have hreq : c.withReqtype = c := by
    rw [NetClient.withReqtype, if_neg (by simp [hc.reqtype])]
  have hleft : c.multibulklen ≠ 0 := by
    rw [hc.multibulklen]
    exact fun h ↦ hne (List.eq_nil_of_length_eq_zero h)
  rw [hreq, processMultibulkBuffer, if_neg hleft]
  exact ⟨hc.reqtype, processBulks_passed hcmds heq hne hc (Nat.zero_le _) hin (Or.inr ⟨rfl, hfits⟩)⟩

/-- An iteration of `processInputBuffer` with bytes in the buffer. -/
private theorem processMultibulkBuffer_spec {st : Stage} (hst : st.Holds cmds rest c)
    (hfits : Fits c) (hbuf : c.querybuf ≠ []) :
    c.withReqtype.reqtype = .multibulk ∧
      ∃ b c', processMultibulkBuffer c.withReqtype = some (b, c') ∧ Passed cmds rest c b c' := by
  cases st with
  | idle executed todo => exact processMultibulkBuffer_idle hcmds hst hfits hbuf
  | mid executed argv todo args => exact processMultibulkBuffer_mid hcmds hst hfits

/-- All commands that have arrived are executed. -/
private theorem processInputBufferFrom_spec {fuel : Nat} {st : Stage} (hst : st.Holds cmds rest c)
    (hfits : Fits c) (hfuel : c.querybuf.length ≤ fuel) :
    ∃ c' st', processInputBufferFrom fuel c = some c' ∧ c.log <+: c'.log ∧
      Stage.Holds cmds rest c' st' ∧ st'.Stuck c' := by
  induction fuel generalizing c st with
  | zero =>
    have hnil : c.querybuf = [] := List.eq_nil_of_length_eq_zero (by omega)
    exact ⟨c, st, rfl, List.prefix_rfl, hst, stuck_of_nil hnil⟩
  | succ fuel ih =>
    rw [processInputBufferFrom]
    by_cases hnil : c.querybuf = []
    · rw [if_pos (by simp [hnil])]
      exact ⟨c, st, rfl, List.prefix_rfl, hst, stuck_of_nil hnil⟩
    obtain ⟨hreq, b, c', hrun, hstage⟩ := processMultibulkBuffer_spec hcmds hst hfits hnil
    have hopen : c.closing = false := by
      cases st with
      | idle executed todo => exact hst.2.1.closing
      | mid executed argv todo args => exact hst.2.2.1.closing
    rw [if_neg (by simp [hnil, hopen])]
    dsimp only
    rw [if_neg (by rw [hreq]; decide), hrun]
    cases b with
    | false =>
      obtain ⟨hlog, st', hholds, hstuck⟩ := hstage
      exact ⟨c', st', rfl, hlog ▸ List.prefix_rfl, hholds, hstuck⟩
    | true =>
      obtain ⟨executed, argv, todo, heq, hlog, hc, hnone, hshort, hin, hlt⟩ := hstage
      obtain ⟨hfinish, hbuf⟩ := finishRequest_spec (hcmds argv (by rw [heq]; simp)) hc
      have hnext : (Stage.idle (executed ++ [argv]) todo).Holds cmds rest (finishRequest c') := by
        refine ⟨?_, ?_, ?_⟩
        · rw [heq, List.append_assoc, List.singleton_append]
        · rw [List.map_append]
          exact hfinish
        · rw [hbuf]
          exact hin
      obtain ⟨c'', st', hrun', hprefix, hholds⟩ :=
        ih hnext (Or.inl (by rw [hbuf]; exact hshort)) (by rw [hbuf]; omega)
      refine ⟨c'', st', hrun', List.IsPrefix.trans ?_ hprefix, hholds⟩
      rw [hlog, hfinish.log]
      exact List.prefix_append _ _

private theorem readFits {st : Stage} (hst : st.Holds cmds rest c) (hstuck : st.Stuck c) :
    ReadFits c := by
  cases st with
  | idle executed todo =>
    obtain ⟨heq, hc, hin⟩ := hst
    apply readFits_of_short
    · rw [NetClient.readlen, hc.bulklen]
    · cases todo with
      | nil =>
        have hnil := (List.append_eq_nil_iff.mp hin).1
        rw [hnil]
        exact Nat.zero_le _
      | cons argv todo =>
        have hargc := (hcmds argv (by rw [heq]; simp)).argc.2
        have hdigits := length_decimal_le (k := 7) (by decide) (show argv.length < 10 ^ 7 by omega)
        have hlt := hstuck argv todo rfl
        omega
  | mid executed argv todo args =>
    obtain ⟨heq, hne, hc, hin⟩ := hst
    obtain ⟨arg, args', rfl⟩ := List.exists_cons_of_ne_nil hne
    have harg : arg.length ≤ 512 * 1024 * 1024 := by
      apply (hcmds argv (by rw [heq]; simp)).lengths
      rw [hc.split]
      simp
    rw [Stage.Stuck] at hstuck
    cases hlen : c.bulklen with
    | none =>
      rw [hlen] at hstuck
      have hdigits := length_decimal_le (k := 9) (by decide) (show arg.length < 10 ^ 9 by omega)
      have hlt := hstuck arg args' rfl
      exact readFits_of_short (by rw [NetClient.readlen, hlen]) (by omega)
    | some len =>
      rw [hlen] at hin hstuck
      obtain ⟨arg', args'', h, rfl, -⟩ := hin
      cases h
      have hlt : c.querybuf.length < arg.length + 2 := hstuck
      have hread : c.readlen = if 32 * 1024 ≤ arg.length then
          min (arg.length + 2 - c.querybuf.length) (16 * 1024) else 16 * 1024 := by
        rw [NetClient.readlen, hlen]
        simp [hc.reqtype, hc.multibulklen]
      by_cases hbig : 32 * 1024 ≤ arg.length
      · rw [if_pos hbig] at hread
        refine ⟨by omega, fun s hs ↦ ⟨Or.inr ⟨arg.length, hlen, hbig, ?_⟩, ?_⟩⟩
        · change (c.querybuf ++ s).length ≤ arg.length + 2
          rw [List.length_append]
          omega
        · rw [List.length_append]
          omega
      · rw [if_neg hbig] at hread
        exact readFits_of_short hread (by omega)

/-- A read keeps the invariant. -/
private theorem readQueryFromClient_spec {st : Stage} {s : Bytes}
    (hst : st.Holds cmds (s ++ rest) c) (hstuck : st.Stuck c) (hne : s ≠ [])
    (hs : s.length ≤ c.readlen) :
    ∃ c' st', readQueryFromClient c s = some c' ∧ c.log <+: c'.log ∧
      Stage.Holds cmds rest c' st' ∧ st'.Stuck c' := by
  obtain ⟨hfits, hmax⟩ := (readFits hcmds hst hstuck).2 s hs
  have hst' : st.Holds cmds rest { c with querybuf := c.querybuf ++ s } := by
    cases st with
    | idle executed todo =>
      obtain ⟨heq, hc, hin⟩ := hst
      refine ⟨heq,
        ⟨hc.log, hc.closing, hc.freed, hc.reqtype, hc.multibulklen, hc.bulklen, hc.argv⟩, ?_⟩
      rw [List.append_assoc]
      exact hin
    | mid executed argv todo args =>
      obtain ⟨heq, hne, hc, hin⟩ := hst
      refine ⟨heq, hne,
        ⟨hc.log, hc.closing, hc.freed, hc.reqtype, hc.multibulklen, hc.split, hc.room⟩, ?_⟩
      rw [List.append_assoc]
      exact hin
  rw [readQueryFromClient, if_neg hne]
  dsimp only
  rw [if_neg (by omega)]
  exact processInputBufferFrom_spec hcmds hst' hfits (Nat.le_refl _)

private theorem serve_spec (ns : List Nat) {st : Stage} (hst : st.Holds cmds rest c)
    (hstuck : st.Stuck c) :
    ∃ rest' c' st', serve ns rest c = some (rest', c') ∧ Stage.Holds cmds rest' c' st' ∧
      st'.Stuck c' ∧ rest'.length ≤ rest.length - ns.length := by
  induction ns generalizing rest c st with
  | nil => exact ⟨rest, c, st, rfl, hst, hstuck, Nat.le_refl _⟩
  | cons n ns ih =>
    rw [serve]
    by_cases hnil : rest = []
    · rw [if_pos (by simp [hnil])]
      exact ⟨rest, c, st, rfl, hst, hstuck, by rw [hnil]; exact Nat.zero_le _⟩
    have hopen : c.freed = false := by
      cases st with
      | idle executed todo => exact hst.2.1.freed
      | mid executed argv todo args => exact hst.2.2.1.freed
    have hpos := (readFits hcmds hst hstuck).1
    rw [if_neg (by simp [hnil, hopen])]
    dsimp only
    have hsplit : st.Holds cmds
        (rest.take (min (n + 1) c.readlen) ++ rest.drop (min (n + 1) c.readlen)) c := by
      rw [List.take_append_drop]
      exact hst
    have htake : rest.take (min (n + 1) c.readlen) ≠ [] := by
      rw [ne_eq, List.take_eq_nil_iff, not_or]
      exact ⟨by omega, hnil⟩
    obtain ⟨c', st', hread, -, hst', hstuck'⟩ := readQueryFromClient_spec hcmds hsplit hstuck htake
      (by rw [List.length_take]; omega)
    rw [hread]
    obtain ⟨rest', c'', st'', hrun, hst'', hstuck'', hle⟩ := ih hst' hstuck'
    refine ⟨rest', c'', st'', hrun, hst'', hstuck'', ?_⟩
    rw [List.length_drop] at hle
    rw [List.length_cons]
    omega

omit hcmds in
/-- When all bytes have been read, all commands have been executed. -/
private theorem all_executed {st : Stage} (hst : st.Holds cmds [] c) (hstuck : st.Stuck c) :
    Idle (cmds.map .command) c ∧ c.querybuf = [] := by
  cases st with
  | idle executed todo =>
    obtain ⟨heq, hc, hin⟩ := hst
    rw [List.append_nil] at hin
    cases todo with
    | nil =>
      rw [heq, List.append_nil]
      exact ⟨hc, hin⟩
    | cons argv todo =>
      have hlt := hstuck argv todo rfl
      rw [hin, List.flatMap_cons, multibulk_append] at hlt
      simp only [List.length_cons, List.length_append] at hlt
      omega
  | mid executed argv todo args =>
    obtain ⟨heq, hne, hc, hin⟩ := hst
    obtain ⟨arg, args', rfl⟩ := List.exists_cons_of_ne_nil hne
    rw [Stage.Stuck] at hstuck
    rw [List.append_nil] at hin
    cases hlen : c.bulklen with
    | none =>
      rw [hlen] at hin hstuck
      have hlt := hstuck arg args' rfl
      rw [show c.querybuf = _ from hin, List.flatMap_cons, List.append_assoc, bulk_append] at hlt
      simp only [List.length_cons, List.length_append] at hlt
      omega
    | some len =>
      rw [hlen] at hin hstuck
      obtain ⟨arg', args'', h, rfl, hbuf⟩ := hin
      have hlt : c.querybuf.length < arg'.length + 2 := hstuck
      rw [hbuf] at hlt
      simp only [List.length_cons, List.length_append] at hlt
      omega

end

/-- The commands that have been executed so far. -/
private theorem executed_of_holds {cmds : List (List Bytes)} {st : Stage}
    (hst : st.Holds cmds rest c) :
    ∃ executed todo, cmds = executed ++ todo ∧ c.log = executed.map .command ∧
      c.closing = false ∧ c.freed = false := by
  cases st with
  | idle executed todo =>
    obtain ⟨heq, hc, -⟩ := hst
    exact ⟨executed, todo, heq, hc.log, hc.closing, hc.freed⟩
  | mid executed argv todo args =>
    obtain ⟨heq, -, hc, -⟩ := hst
    exact ⟨executed, argv :: todo, heq, hc.log, hc.closing, hc.freed⟩

/-- A connection on which commands have been sent: the first ones have been executed, and for the
next one the server waits. -/
def Receives (cmds : List (List Bytes)) (rest : Bytes) (executed : List (List Bytes))
    (c : NetClient) : Prop :=
  c.log = executed.map .command ∧ ∃ st : Stage, st.Holds cmds rest c ∧ st.Stuck c

theorem receives_create : Receives [] [] [] NetClient.create :=
  ⟨rfl, .idle [] [], ⟨rfl, ⟨rfl, rfl, rfl, by decide, rfl, rfl, rfl⟩, rfl⟩, stuck_of_nil rfl⟩

private theorem map_command_inj {xs ys : List (List Bytes)}
    (h : xs.map NetEvent.command = ys.map NetEvent.command) : xs = ys :=
  (List.map_inj_right fun _ _ h ↦ NetEvent.command.inj h).mp h

/-- The client sends one more command. -/
theorem Receives.send {cmds executed : List (List Bytes)} (h : Receives cmds rest executed c)
    (argv : List Bytes) : Receives (cmds ++ [argv]) (rest ++ multibulk argv) executed c := by
  obtain ⟨hlog, st, hst, hstuck⟩ := h
  refine ⟨hlog, ?_⟩
  cases st with
  | idle executed' todo =>
    obtain ⟨heq, hc, hin⟩ := hst
    refine ⟨.idle executed' (todo ++ [argv]), ⟨?_, hc, ?_⟩, ?_⟩
    · rw [heq, List.append_assoc]
    · rw [← List.append_assoc, hin, List.flatMap_append, List.flatMap_singleton]
    · cases todo with
      | nil => exact stuck_of_nil (List.append_eq_nil_iff.mp hin).1
      | cons argv' todo =>
        intro argv'' todo' heq'
        obtain ⟨rfl, -⟩ := List.cons.inj heq'
        exact hstuck argv' todo rfl
  | mid executed' argv' todo args =>
    obtain ⟨heq, hne, hc, hin⟩ := hst
    refine ⟨.mid executed' argv' (todo ++ [argv]) args, ⟨?_, hne, hc, ?_⟩, hstuck⟩
    · rw [heq, List.append_assoc, List.cons_append]
    · rw [← List.append_assoc]
      cases hlen : c.bulklen with
      | none =>
        rw [hlen] at hin
        rw [Input, show c.querybuf ++ rest = _ from hin, List.flatMap_append,
          List.flatMap_singleton, List.append_assoc]
      | some len =>
        rw [hlen] at hin
        obtain ⟨arg, args', hargs, hlen', hbytes⟩ := hin
        refine ⟨arg, args', hargs, hlen', ?_⟩
        rw [hbytes, List.flatMap_append, List.flatMap_singleton]
        simp only [List.append_assoc, List.cons_append]

/-- The server reads bytes and executes the commands that are complete. -/
theorem Receives.read {cmds executed : List (List Bytes)} {s : Bytes}
    (hcmds : ∀ argv ∈ cmds, Sendable argv) (h : Receives cmds (s ++ rest) executed c) (hne : s ≠ [])
    (hs : s.length ≤ c.readlen) :
    ∃ c' new, readQueryFromClient c s = some c' ∧ c'.log = c.log ++ new.map .command ∧
      Receives cmds rest (executed ++ new) c' := by
  obtain ⟨hlog, st, hst, hstuck⟩ := h
  obtain ⟨c', st', hread, hprefix, hst', hstuck'⟩ :=
    readQueryFromClient_spec hcmds hst hstuck hne hs
  obtain ⟨executed', todo, -, hlog', -⟩ := executed_of_holds hst'
  rw [hlog, hlog', List.prefix_map_iff] at hprefix
  obtain ⟨executed'', ⟨new, rfl⟩, hmap⟩ := hprefix
  obtain rfl := map_command_inj hmap
  refine ⟨c', new, hread, ?_, hlog', st', hst', hstuck'⟩
  rw [hlog', hlog, List.map_append]

/-- The commands that have been executed are the first ones, and all when all bytes have been
read. -/
theorem Receives.executed {cmds executed : List (List Bytes)}
    (hcmds : ∀ argv ∈ cmds, Sendable argv) (h : Receives cmds rest executed c) :
    ∃ todo, cmds = executed ++ todo ∧ c.closing = false ∧ c.freed = false ∧ 0 < c.readlen ∧
      (rest = [] → todo = [] ∧ c.querybuf = []) := by
  obtain ⟨hlog, st, hst, hstuck⟩ := h
  obtain ⟨executed', todo, heq, hlog', hclosing, hfreed⟩ := executed_of_holds hst
  obtain rfl := map_command_inj (hlog.symm.trans hlog')
  refine ⟨todo, heq, hclosing, hfreed, (readFits hcmds hst hstuck).1, ?_⟩
  rintro rfl
  obtain ⟨hidle, hbuf⟩ := all_executed hst hstuck
  have hall := map_command_inj (hlog.symm.trans hidle.log)
  refine ⟨?_, hbuf⟩
  rw [heq] at hall
  exact List.append_right_eq_self.mp hall.symm

end MusicComparer.Redis
