import MusicComparer.Redis.Networking

/-!
# Any bytes at all

Library `Redis`. Whatever a client sends and however it is cut into reads, the server does not fail
an assertion, stays inside its buffers and the argument vector, and leaves nothing in the buffer
that it could go on with.
-/

namespace MusicComparer.Redis

open MusicComparer.System

variable {c c' : NetClient} {pos n : Nat}

/-- With the rest of the buffer an argument, or the line before it, cannot be read. -/
private def Stopped (s : Bytes) : Option Nat → Prop
  | none => strchr 13 s = none ∧ s.length ≤ 64 * 1024 ∨ ∃ i, strchr 13 s = some i ∧ s.length < i + 2
  | some len => s.length < len + 2

/-! ### Arguments -/

/-- Reading the length of an argument ends with an error, or for want of data, or behind it. -/
private theorem readBulklen_cases (hpos : pos ≤ c.querybuf.length) :
    (∃ e p, readBulklen pos c = some (.err, c.protocolError e p) ∧ c.bulklen = none) ∨
      (readBulklen pos c = some (.stop, c) ∧ c.bulklen = none ∧
        Stopped (c.querybuf.drop pos) none) ∨
      ∃ pos' s len, readBulklen pos c =
          some (.go pos', { c with querybuf := s, bulklen := some len }) ∧
        pos' ≤ s.length ∧ s.length - pos' ≤ c.querybuf.length - pos := by
  cases hlen : c.bulklen with
  | some len =>
    refine Or.inr (Or.inr ⟨pos, c.querybuf, len, ?_, hpos, Nat.le_refl _⟩)
    rw [readBulklen, hlen]
    dsimp only
    rw [← hlen]
  | none =>
    rw [readBulklen, hlen]
    dsimp only
    rw [if_neg (by omega)]
    have hdrop : (c.querybuf.drop pos).length = c.querybuf.length - pos := List.length_drop
    cases hchr : strchr 13 (c.querybuf.drop pos) with
    | none =>
      dsimp only
      split
      · exact Or.inl ⟨_, _, rfl, rfl⟩
      · exact Or.inr (Or.inl ⟨rfl, rfl, Or.inl ⟨hchr, by omega⟩⟩)
    | some i =>
      dsimp only
      split
      · exact Or.inr (Or.inl ⟨rfl, rfl, Or.inr ⟨i, hchr, by omega⟩⟩)
      · split
        · exact Or.inl ⟨_, _, rfl, rfl⟩
        · split
          · exact Or.inl ⟨_, _, rfl, rfl⟩
          · split
            · exact Or.inl ⟨_, _, rfl, rfl⟩
            · split
              · refine Or.inr (Or.inr ⟨0, _, _, rfl, Nat.zero_le _, ?_⟩)
                rw [List.length_drop]
                omega
              · exact Or.inr (Or.inr ⟨_, _, _, rfl, by omega, by omega⟩)

/-- Reading an argument ends for want of data, or behind it. -/
private theorem readBulk_cases {len : Nat} (hlen : c.bulklen = some len)
    (hpos : pos ≤ c.querybuf.length) (hroom : c.argv.length < c.room) :
    (readBulk pos c = some (none, c) ∧ Stopped (c.querybuf.drop pos) (some len)) ∨
      ∃ pos' s arg, readBulk pos c = some (some pos', { c with
          querybuf := s, bulklen := none, multibulklen := c.multibulklen - 1
          argv := c.argv ++ [arg] }) ∧
        pos' ≤ s.length ∧ s.length - pos' < c.querybuf.length - pos := by
  have hpush : ∀ a, pushArg c a = some { c with argv := c.argv ++ [a] } := fun a ↦ if_pos hroom
  rw [readBulk, hlen]
  dsimp only
  rw [if_neg (by omega)]
  split
  · refine Or.inl ⟨rfl, ?_⟩
    rw [Stopped, List.length_drop]
    omega
  · right
    split
    · rw [hpush]
      exact ⟨0, [], _, rfl, Nat.le_refl 0, by rw [List.length_nil]; omega⟩
    · rw [hpush]
      exact ⟨_, c.querybuf, _, rfl, by omega, by omega⟩

/-- A multi bulk request of which `n` arguments are left, with a place for each of them. -/
private structure Busy (n : Nat) (c : NetClient) : Prop where
  left : c.multibulklen = n
  room : c.argv.length + n ≤ c.room
  reqtype : c.reqtype = .multibulk
  closing : c.closing = false
  freed : c.freed = false

/-- The connection will be closed, and no argument is being read. -/
private structure Ending (c : NetClient) : Prop where
  closing : c.closing = true
  bulklen : c.bulklen = none
  freed : c.freed = false

/-- The arguments are read as far as possible, and each of them takes bytes from the buffer. -/
private theorem readBulks_safe (hc : Busy n c) (hpos : pos ≤ c.querybuf.length)
    (hlen : n = 0 → c.bulklen = none) :
    (∃ c', readBulks n pos c = some (none, c') ∧ Ending c') ∨
      ∃ pos' c' n', readBulks n pos c = some (some pos', c') ∧ Busy n' c' ∧
        pos' ≤ c'.querybuf.length ∧ c'.argv.length + n' = c.argv.length + n ∧
        c'.querybuf.length - pos' + (n - n') ≤ c.querybuf.length - pos ∧
        (n' = 0 → c'.bulklen = none) ∧ (n' ≠ 0 → Stopped (c'.querybuf.drop pos') c'.bulklen) := by
  induction n generalizing c pos with
  | zero =>
    exact Or.inr ⟨pos, c, 0, rfl, hc, hpos, rfl, Nat.le_refl _, hlen, fun h ↦ absurd rfl h⟩
  | succ n ih =>
    rcases readBulklen_cases hpos with ⟨e, p, herr, hnone⟩ | ⟨hstop, hnone, hs⟩ |
      ⟨pos', s, len, hgo, hpos', hle⟩
    · exact Or.inl ⟨_, readBulks_of_err herr, ⟨rfl, hnone, hc.freed⟩⟩
    · refine Or.inr ⟨pos, c, n + 1, readBulks_of_stop hstop, hc, hpos, rfl, by omega,
        fun h ↦ by omega, fun _ ↦ ?_⟩
      rw [hnone]
      exact hs
    have hroom := hc.room
    rcases readBulk_cases (c := { c with querybuf := s, bulklen := some len }) rfl hpos'
      (show c.argv.length < c.room by omega) with ⟨hwait, hs⟩ | ⟨pos'', s', arg, hread, hpos'', hlt⟩
    · exact Or.inr ⟨pos', _, n + 1, readBulks_of_wait hgo hwait,
        ⟨hc.left, hc.room, hc.reqtype, hc.closing, hc.freed⟩, hpos', rfl, by dsimp only; omega,
        fun h ↦ by omega, fun _ ↦ hs⟩
    · rw [readBulks_of_read hgo hread]
      have hcount : (c.argv ++ [arg]).length = c.argv.length + 1 := List.length_append
      have hbusy : Busy n { c with
          querybuf := s', bulklen := none, multibulklen := c.multibulklen - 1
          argv := c.argv ++ [arg] } := by
        refine ⟨?_, ?_, hc.reqtype, hc.closing, hc.freed⟩
        · change c.multibulklen - 1 = n
          rw [hc.left, Nat.add_sub_cancel]
        · change (c.argv ++ [arg]).length + n ≤ c.room
          omega
      rcases ih hbusy hpos'' (fun _ ↦ rfl) with ⟨c', hrun, hend⟩ |
        ⟨p, c', n', hrun, hbusy', hp, hargs, hbytes, hdone, hstopped⟩
      · exact Or.inl ⟨c', hrun, hend⟩
      · dsimp only at hargs hbytes hlt
        exact Or.inr ⟨p, c', n', hrun, hbusy', hp, by omega, by omega, hdone, hstopped⟩

/-- Where the arguments have stopped, they stop again. -/
private theorem processBulks_of_stopped (hc : Busy n c) (hn : n ≠ 0)
    (hs : Stopped c.querybuf c.bulklen) : processBulks 0 c = some (false, c) := by
  obtain ⟨n, rfl⟩ : ∃ k, n = k + 1 := ⟨n - 1, by omega⟩
  have hread : readBulks (n + 1) 0 c = some (some 0, c) := by
    cases hlen : c.bulklen with
    | none =>
      apply readBulks_of_stop
      rw [hlen] at hs
      rw [readBulklen, hlen]
      dsimp only
      rw [if_neg (by omega), List.drop_zero]
      rcases hs with ⟨hchr, hle⟩ | ⟨i, hchr, hlt⟩
      · rw [hchr]
        dsimp only
        rw [if_neg (by omega)]
      · rw [hchr]
        dsimp only
        rw [if_pos (by omega)]
    | some len =>
      rw [hlen] at hs
      have hlt : c.querybuf.length < len + 2 := hs
      have hgo : readBulklen 0 c = some (.go 0, c) := by rw [readBulklen, hlen]
      apply readBulks_of_wait hgo
      rw [readBulk, hlen]
      dsimp only
      rw [if_neg (by omega), if_pos (by omega)]
  have hpositive : 0 < c.multibulklen := by
    rw [hc.left]
    omega
  have hrun := processBulks_of_read hpositive (hc.left ▸ hread)
  rw [List.drop_zero, decide_eq_false (by omega)] at hrun
  exact hrun

/-- All arguments have been read, or the client waits for data, or the connection will be closed. -/
private theorem processBulks_safe (hc : Busy n c) (hn : n ≠ 0) (hpos : pos ≤ c.querybuf.length) :
    ∃ b c', processBulks pos c = some (b, c') ∧
      if b then Busy 0 c' ∧ c'.bulklen = none ∧ c'.argv ≠ [] ∧
        c'.querybuf.length < c.querybuf.length
      else Ending c' ∨ ∃ n', n' ≠ 0 ∧ Busy n' c' ∧ Stopped c'.querybuf c'.bulklen := by
  have hpositive : 0 < c.multibulklen := by
    rw [hc.left]
    omega
  rcases readBulks_safe hc hpos (fun h ↦ absurd h hn) with ⟨c', hread, hend⟩ |
    ⟨pos', c', n', hread, hbusy, hpos', hargs, hbytes, hdone, hstopped⟩
  · exact ⟨false, c', processBulks_of_err hpositive (hc.left ▸ hread), Or.inl hend⟩
  refine ⟨_, _, processBulks_of_read hpositive (hc.left ▸ hread), ?_⟩
  have htrim : Busy n' { c' with querybuf := c'.querybuf.drop pos' } :=
    ⟨hbusy.left, hbusy.room, hbusy.reqtype, hbusy.closing, hbusy.freed⟩
  by_cases h0 : n' = 0
  · subst h0
    rw [decide_eq_true hbusy.left]
    refine ⟨htrim, hdone rfl, ?_, ?_⟩
    · intro hnil
      rw [hnil, List.length_nil] at hargs
      omega
    · change (c'.querybuf.drop pos').length < c.querybuf.length
      rw [List.length_drop]
      omega
  · rw [decide_eq_false (hbusy.left ▸ h0)]
    exact Or.inr ⟨n', h0, htrim, hstopped h0⟩

/-! ### Requests -/

/-- No request is being read; a multi bulk request starts with its star. -/
private structure Fresh (c : NetClient) : Prop where
  left : c.multibulklen = 0
  bulklen : c.bulklen = none
  argv : c.argv = []
  closing : c.closing = false
  freed : c.freed = false
  star : c.reqtype = .multibulk → byteAt c.querybuf 0 = 42

/-- The client before an iteration of `processInputBuffer`. -/
private def Ready (c : NetClient) : Prop :=
  Ending c ∨ (∃ n, n ≠ 0 ∧ Busy n c) ∨ Fresh c

/-- The reading of a request in an iteration of `processInputBuffer`. -/
private def readRequest (c : NetClient) : Option (Bool × NetClient) :=
  if c.withReqtype.reqtype = .inline then processInlineBuffer c.withReqtype
  else processMultibulkBuffer c.withReqtype

/-- `processInputBuffer` has nothing more to do. -/
private structure Resting (c : NetClient) : Prop where
  ready : Ready c
  stops : c.closing = true ∨ c.querybuf = [] ∨ readRequest c = some (false, c)
  waits : ∀ len, c.bulklen = some len → c.querybuf.length < len + 2

private theorem Ending.resting (hc : Ending c) : Resting c :=
  ⟨Or.inl hc, Or.inl hc.closing, fun len h ↦ by rw [hc.bulklen] at h; cases h⟩

private theorem withReqtype_idem (c : NetClient) : c.withReqtype.withReqtype = c.withReqtype := by
  unfold NetClient.withReqtype
  split
  · split <;> rfl
  · rfl

/-- A client that waits with what it has been given. -/
private theorem resting_of_wait (hc : Fresh c.withReqtype)
    (h : readRequest c = some (false, c.withReqtype)) : Resting c.withReqtype := by
  refine ⟨Or.inr (Or.inr hc), Or.inr (Or.inr ?_), fun len hlen ↦ ?_⟩
  · rw [readRequest, withReqtype_idem]
    exact h
  · rw [hc.bulklen] at hlen
    cases hlen

/-- After a request the client is as new, or the connection will be closed. -/
private theorem finishRequest_safe (hlen : c.bulklen = none) (hclosing : c.closing = false)
    (hfreed : c.freed = false) :
    Ready (finishRequest c) ∧ (finishRequest c).querybuf = c.querybuf := by
  have hreset : ∀ log, Fresh { c with log := log }.reset := fun log ↦
    ⟨rfl, rfl, rfl, hclosing, hfreed, fun h ↦ by cases h⟩
  rw [finishRequest]
  by_cases hargv : c.argv = []
  · rw [if_pos hargv]
    exact ⟨Or.inr (Or.inr (hreset c.log)), rfl⟩
  rw [if_neg hargv, processCommand]
  cases isQuit (c.argv.headD []) with
  | true => exact ⟨Or.inl ⟨rfl, hlen, hfreed⟩, rfl⟩
  | false => exact ⟨Or.inr (Or.inr (hreset _)), rfl⟩

/-- What a request leads to: the next one, or a client that waits. -/
private def Handled (c : NetClient) (r : Option (Bool × NetClient)) : Prop :=
  ∃ b c', r = some (b, c') ∧
    if b then Ready (finishRequest c') ∧ (finishRequest c').querybuf.length < c.querybuf.length
    else Resting c'

private theorem handled_of_ending {c' : NetClient} (h : Ending c') : Handled c (some (false, c')) :=
  ⟨false, c', rfl, h.resting⟩

private theorem handled_of_finished {c' : NetClient} (hlen : c'.bulklen = none)
    (hclosing : c'.closing = false) (hfreed : c'.freed = false)
    (hlt : c'.querybuf.length < c.querybuf.length) : Handled c (some (true, c')) := by
  obtain ⟨hready, hbuf⟩ := finishRequest_safe hlen hclosing hfreed
  exact ⟨true, c', rfl, hready, by rw [hbuf]; exact hlt⟩

private theorem handled_of_bulks (hc : Busy n c') (hn : n ≠ 0) (hpos : pos ≤ c'.querybuf.length)
    (hle : c'.querybuf.length ≤ c.querybuf.length) : Handled c (processBulks pos c') := by
  obtain ⟨b, c'', hrun, hb⟩ := processBulks_safe hc hn hpos
  rw [hrun]
  cases b with
  | true =>
    obtain ⟨hbusy, hlen, -, hlt⟩ := hb
    exact handled_of_finished hlen hbusy.closing hbusy.freed (by omega)
  | false =>
    rcases hb with hend | ⟨n', hn', hbusy, hstopped⟩
    · exact handled_of_ending hend
    · have hreq : c''.withReqtype = c'' := by
        rw [NetClient.withReqtype, if_neg (by rw [hbusy.reqtype]; decide)]
      refine ⟨false, c'', rfl, Or.inr (Or.inl ⟨n', hn', hbusy⟩), Or.inr (Or.inr ?_), ?_⟩
      · rw [readRequest, hreq, if_neg (by rw [hbusy.reqtype]; decide), processMultibulkBuffer,
          if_neg (by rw [hbusy.left]; exact hn')]
        exact processBulks_of_stopped hbusy hn' hstopped
      · intro len hlen
        rw [hlen] at hstopped
        exact hstopped

private theorem Fresh.withReqtype (hc : Fresh c) : Fresh c.withReqtype := by
  unfold NetClient.withReqtype
  split
  · refine ⟨hc.left, hc.bulklen, hc.argv, hc.closing, hc.freed, fun h ↦ ?_⟩
    by_contra hstar
    rw [if_neg hstar] at h
    cases h
  · exact hc

private theorem querybuf_withReqtype (c : NetClient) : c.withReqtype.querybuf = c.querybuf := by
  unfold NetClient.withReqtype
  split <;> rfl

private theorem reqtype_withReqtype (c : NetClient) :
    c.withReqtype.reqtype = .inline ∨ c.withReqtype.reqtype = .multibulk := by
  rw [NetClient.withReqtype]
  cases hr : c.reqtype with
  | unknown =>
    rw [if_pos rfl]
    dsimp only
    split
    · exact Or.inr rfl
    · exact Or.inl rfl
  | inline => exact Or.inl (by rw [if_neg (by decide), hr])
  | multibulk => exact Or.inr (by rw [if_neg (by decide), hr])

/-- An inline request waits for its line end, or is not well formed, or is taken from the buffer. -/
private theorem processInlineBuffer_cases (c : NetClient) :
    processInlineBuffer c = some (false, c) ∨
      (∃ e p, processInlineBuffer c = some (false, c.protocolError e p)) ∨
      ∃ k argv room, processInlineBuffer c = some (true, { c with
        querybuf := c.querybuf.drop (k + 2), argv := argv, room := room }) := by
  unfold processInlineBuffer
  split
  · split
    · exact Or.inr (Or.inl ⟨_, _, rfl⟩)
    · exact Or.inl rfl
  · dsimp only
    split
    · exact Or.inr (Or.inl ⟨_, _, rfl⟩)
    · exact Or.inr (Or.inr ⟨_, _, _, rfl⟩)

/-- The number of arguments waits for its line end, or is not valid, or is not positive, or is the
number of places. -/
private theorem readMultibulklen_cases (hargv : c.argv = []) (hstar : byteAt c.querybuf 0 = 42) :
    readMultibulklen c = some (.err, c) ∨
      (∃ e p, readMultibulklen c = some (.err, c.protocolError e p)) ∨
      (∃ k, readMultibulklen c = some (.ok, { c with querybuf := c.querybuf.drop (k + 2) })) ∨
      ∃ pos n, readMultibulklen c = some (.go pos, { c with multibulklen := n, room := n }) ∧
        n ≠ 0 ∧ pos ≤ c.querybuf.length := by
  rw [readMultibulklen, if_neg (by simp [hargv])]
  cases strchr 13 c.querybuf with
  | none =>
    dsimp only
    split
    · exact Or.inr (Or.inl ⟨_, _, rfl⟩)
    · exact Or.inl rfl
  | some newline =>
    dsimp only
    split
    · exact Or.inl rfl
    · rw [if_neg (by rw [hstar]; decide)]
      split
      · exact Or.inr (Or.inl ⟨_, _, rfl⟩)
      · split
        · exact Or.inr (Or.inl ⟨_, _, rfl⟩)
        · split
          · exact Or.inr (Or.inr (Or.inl ⟨_, rfl⟩))
          · exact Or.inr (Or.inr (Or.inr ⟨_, _, rfl, by omega, by omega⟩))

/-- A request that has just begun. -/
private theorem handled_of_fresh (hc : Fresh c) (hbuf : c.querybuf ≠ []) :
    Handled c (readRequest c) := by
  have hwait : readRequest c = some (false, c.withReqtype) → Handled c (readRequest c) :=
    fun h ↦ ⟨false, _, h, resting_of_wait hc.withReqtype h⟩
  have hfresh := hc.withReqtype
  have hsame := querybuf_withReqtype c
  have hpos := List.length_pos_iff.mpr hbuf
  have hshorter : ∀ k, (c.withReqtype.querybuf.drop (k + 2)).length < c.querybuf.length := by
    intro k
    rw [List.length_drop, hsame]
    omega
  have hend : ∀ e p, Ending (c.withReqtype.protocolError e p) :=
    fun e p ↦ ⟨rfl, hfresh.bulklen, hfresh.freed⟩
  by_cases hreq : c.withReqtype.reqtype = .inline
  · have hread : readRequest c = processInlineBuffer c.withReqtype := if_pos hreq
    rcases processInlineBuffer_cases c.withReqtype with h | ⟨e, p, h⟩ | ⟨k, argv, room, h⟩
    · exact hwait (hread.trans h)
    · rw [hread, h]
      exact handled_of_ending (hend e p)
    · rw [hread, h]
      exact handled_of_finished hfresh.bulklen hfresh.closing hfresh.freed (hshorter k)
  · have hmulti : c.withReqtype.reqtype = .multibulk :=
      (reqtype_withReqtype c).resolve_left hreq
    have hread : readRequest c = processMultibulkBuffer c.withReqtype := if_neg hreq
    rw [processMultibulkBuffer, if_pos hfresh.left] at hread
    rcases readMultibulklen_cases hfresh.argv (hfresh.star hmulti) with
      h | ⟨e, p, h⟩ | ⟨k, h⟩ | ⟨pos, n, h, hn, hpos⟩
    · rw [h] at hread
      exact hwait hread
    · rw [h] at hread
      rw [hread]
      exact handled_of_ending (hend e p)
    · rw [h] at hread
      rw [hread]
      exact handled_of_finished hfresh.bulklen hfresh.closing hfresh.freed (hshorter k)
    · rw [h] at hread
      rw [hread]
      have hbusy : Busy n { c.withReqtype with multibulklen := n, room := n } := by
        refine ⟨rfl, ?_, hmulti, hfresh.closing, hfresh.freed⟩
        change c.withReqtype.argv.length + n ≤ n
        rw [hfresh.argv, List.length_nil]
        omega
      exact handled_of_bulks hbusy hn hpos (Nat.le_of_eq (congrArg List.length hsame))

/-- Every request is handled. -/
private theorem handled_of_ready (hc : Ready c) (hclosing : c.closing = false)
    (hbuf : c.querybuf ≠ []) : Handled c (readRequest c) := by
  rcases hc with hend | ⟨n, hn, hbusy⟩ | hfresh
  · rw [hend.closing] at hclosing
    cases hclosing
  · have hreq : c.withReqtype = c := by
      rw [NetClient.withReqtype, if_neg (by rw [hbusy.reqtype]; decide)]
    rw [readRequest, hreq, if_neg (by rw [hbusy.reqtype]; decide), processMultibulkBuffer,
      if_neg (by rw [hbusy.left]; exact hn)]
    exact handled_of_bulks hbusy hn (Nat.zero_le _) (Nat.le_refl _)
  · exact handled_of_fresh hfresh hbuf

/-! ### Connections -/

private theorem processInputBufferFrom_safe {fuel : Nat} (hc : Ready c)
    (hfuel : c.querybuf.length ≤ fuel) :
    ∃ c', processInputBufferFrom fuel c = some c' ∧ Resting c' := by
  induction fuel generalizing c with
  | zero =>
    have hnil : c.querybuf = [] := List.eq_nil_of_length_eq_zero (by omega)
    refine ⟨c, rfl, hc, Or.inr (Or.inl hnil), fun len _ ↦ ?_⟩
    rw [hnil, List.length_nil]
    omega
  | succ fuel ih =>
    rw [processInputBufferFrom]
    by_cases hclosing : c.closing = true
    · rw [if_pos (by simp [hclosing])]
      rcases hc with hend | ⟨n, -, hbusy⟩ | hfresh
      · exact ⟨c, rfl, hend.resting⟩
      · rw [hbusy.closing] at hclosing
        cases hclosing
      · rw [hfresh.closing] at hclosing
        cases hclosing
    by_cases hnil : c.querybuf = []
    · rw [if_pos (by simp [hnil])]
      refine ⟨c, rfl, hc, Or.inr (Or.inl hnil), fun len _ ↦ ?_⟩
      rw [hnil, List.length_nil]
      omega
    rw [if_neg (by simp [hclosing, hnil])]
    obtain ⟨b, c', hread, hb⟩ := handled_of_ready hc (by simpa using hclosing) hnil
    rw [readRequest] at hread
    dsimp only
    rw [hread]
    cases b with
    | false => exact ⟨c', rfl, hb⟩
    | true => exact ih hb.1 (by have := hb.2; omega)

/-- The next read asks for bytes. -/
private theorem Resting.readlen_pos (hc : Resting c) : 0 < c.readlen := by
  rw [NetClient.readlen]
  cases hlen : c.bulklen with
  | none => exact Nat.zero_lt_succ _
  | some len =>
    have hlt := hc.waits len hlen
    dsimp only
    split
    · omega
    · exact Nat.zero_lt_succ _

/-- Nothing happens without new bytes. -/
private theorem Resting.processInputBuffer (hc : Resting c) : processInputBuffer c = some c := by
  rw [Redis.processInputBuffer]
  cases c.querybuf.length with
  | zero => rfl
  | succ fuel =>
    rw [processInputBufferFrom]
    by_cases hstop : (c.querybuf = [] || c.closing) = true
    · rw [if_pos hstop]
    rw [if_neg hstop]
    rcases hc.stops with h | h | h
    · exact absurd (by simp [h]) hstop
    · exact absurd (by simp [h]) hstop
    · rw [readRequest] at h
      dsimp only
      rw [h]

private theorem Ready.append (hc : Ready c) (s : Bytes) :
    Ready { c with querybuf := c.querybuf ++ s } := by
  rcases hc with hend | ⟨n, hn, hbusy⟩ | hfresh
  · exact Or.inl ⟨hend.closing, hend.bulklen, hend.freed⟩
  · exact Or.inr (Or.inl ⟨n, hn, hbusy.left, hbusy.room, hbusy.reqtype, hbusy.closing, hbusy.freed⟩)
  · refine Or.inr (Or.inr ⟨hfresh.left, hfresh.bulklen, hfresh.argv, hfresh.closing, hfresh.freed,
      fun h ↦ ?_⟩)
    have hstar := hfresh.star h
    change byteAt (c.querybuf ++ s) 0 = 42
    cases hbuf : c.querybuf with
    | nil =>
      rw [hbuf] at hstar
      cases hstar
    | cons b querybuf =>
      rw [hbuf] at hstar
      exact hstar

private theorem Ready.freed (hc : Ready c) : c.freed = false := by
  rcases hc with hend | ⟨n, hn, hbusy⟩ | hfresh
  · exact hend.freed
  · exact hbusy.freed
  · exact hfresh.freed

/-- The client between two reads: closed because of its buffer, or waiting for bytes. -/
private def Kept (c : NetClient) : Prop :=
  c.freed = true ∧ 1024 * 1024 * 1024 < c.querybuf.length ∨ c.freed = false ∧ Resting c

private theorem readQueryFromClient_safe {s : Bytes} (hc : Resting c) (hs : s ≠ []) :
    ∃ c', readQueryFromClient c s = some c' ∧ Kept c' := by
  rw [readQueryFromClient, if_neg hs]
  dsimp only
  split
  · next hbig => exact ⟨_, rfl, Or.inl ⟨rfl, hbig⟩⟩
  · obtain ⟨c', hrun, hc'⟩ := processInputBufferFrom_safe (hc.ready.append s) (Nat.le_refl _)
    exact ⟨c', hrun, Or.inr ⟨hc'.ready.freed, hc'⟩⟩

private theorem serve_safe (ns : List Nat) (stream : Bytes) (hc : Kept c) :
    ∃ rest c', serve ns stream c = some (rest, c') ∧ Kept c' := by
  induction ns generalizing stream c with
  | nil => exact ⟨stream, c, rfl, hc⟩
  | cons n ns ih =>
    rw [serve]
    by_cases hstop : (stream = [] || c.freed) = true
    · rw [if_pos hstop]
      exact ⟨stream, c, rfl, hc⟩
    rw [if_neg hstop]
    rw [Bool.or_eq_true, not_or, decide_eq_true_eq] at hstop
    rcases hc with ⟨hfreed, -⟩ | ⟨-, hc⟩
    · exact absurd hfreed hstop.2
    have hpos := hc.readlen_pos
    obtain ⟨c', hread, hc'⟩ :=
      readQueryFromClient_safe (s := stream.take (min (n + 1) c.readlen)) hc (by
        rw [ne_eq, List.take_eq_nil_iff, not_or]
        exact ⟨by omega, hstop.1⟩)
    dsimp only
    rw [hread]
    exact ih _ hc'

/-- For all bytes and however they are cut into reads: no assertion fails and no access is out of
bounds. `readQueryFromClient` frees the client only for a buffer of more than a gigabyte; else the
next read asks for bytes, and without them nothing is left to do. -/
theorem any_input_safe (ns : List Nat) (stream : Bytes) :
    ∃ rest c, serve ns stream NetClient.create = some (rest, c) ∧
      (c.freed = true → 1024 * 1024 * 1024 < c.querybuf.length) ∧
      (c.freed = false → 0 < c.readlen ∧ processInputBuffer c = some c) := by
  have hstart : Kept NetClient.create := by
    refine Or.inr ⟨rfl, Or.inr (Or.inr ⟨rfl, rfl, rfl, rfl, rfl, fun h ↦ by cases h⟩),
      Or.inr (Or.inl rfl), fun len h ↦ by cases h⟩
  obtain ⟨rest, c, hrun, hc⟩ := serve_safe ns stream hstart
  refine ⟨rest, c, hrun, ?_⟩
  rcases hc with ⟨hfreed, hbig⟩ | ⟨hfreed, hc⟩
  · exact ⟨fun _ ↦ hbig, fun h ↦ by rw [hfreed] at h; cases h⟩
  · exact ⟨fun h ↦ (by rw [hfreed] at h; cases h), fun _ ↦ ⟨hc.readlen_pos, hc.processInputBuffer⟩⟩

end MusicComparer.Redis
