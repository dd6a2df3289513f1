import Mathlib.Algebra.Ring.Int.Defs
import MusicComparer.Redis.Reader

/-!
# Replies from a stream of bytes

Library `Redis`. The replies of the server arrive in pieces of any size, and `redisReaderGetReply`
is called until it has no more. A reply is given when its last byte has arrived, and not before.

The invariant is about the place in the reply: the item that is read, and for each array around it
the elements that come after it.
-/

namespace MusicComparer.Redis

/-! ### Lines and numbers -/

/-- In a text that has been cut somewhere, the end of a line is found exactly if it is before the
cut. -/
theorem seekNewline_of_append {s u rest t : Bytes} (hs : seekNewline s = none)
    (hu : u ++ rest = s ++ 13 :: 10 :: t) :
    seekNewline u = if s.length + 2 ≤ u.length then some s.length else none := by
  induction s generalizing u with
  | nil =>
    rcases u with _ | ⟨a, _ | ⟨b, u⟩⟩
    · rfl
    · rfl
    · simp only [List.nil_append, List.cons_append, List.cons.injEq] at hu
      obtain ⟨rfl, rfl, -⟩ := hu
      simp [seekNewline]
  | cons c s ih =>
    rcases u with _ | ⟨a, _ | ⟨b, u⟩⟩
    · rfl
    · rfl
    · simp only [List.cons_append, List.cons.injEq] at hu
      obtain ⟨rfl, hu⟩ := hu
      have hnot : ¬ (a = 13 && b = 10) = true ∧ seekNewline s = none := by
        cases s with
        | nil =>
          simp only [List.nil_append, List.cons.injEq] at hu
          exact ⟨by simp [hu.1], rfl⟩
        | cons d s =>
          simp only [List.cons_append, List.cons.injEq] at hu
          obtain ⟨rfl, -⟩ := hu
          rw [seekNewline] at hs
          split at hs
          · cases hs
          · next hnot => exact ⟨hnot, Option.map_eq_none_iff.mp hs⟩
      rw [seekNewline, if_neg hnot.1, ih hnot.2 hu]
      simp only [List.length_cons]
      by_cases hle : s.length + 2 ≤ u.length + 1
      · rw [if_pos hle, if_pos (by omega)]
        rfl
      · rw [if_neg hle, if_neg (by omega)]
        rfl

private theorem seekNewline_of_notMem {s : Bytes} (h : 13 ∉ s) : seekNewline s = none := by
  induction s with
  | nil => rfl
  | cons a s ih =>
    rw [List.mem_cons, not_or] at h
    cases s with
    | nil => rfl
    | cons b s => rw [seekNewline, if_neg (by simp [Ne.symm h.1]), ih h.2, Option.map_none]

private theorem seekNewline_decimal (n : Nat) : seekNewline (decimal n) = none := by
  apply seekNewline_of_notMem
  intro h
  have hdigit := (isDigit_of_mem_decimal n 13 h).1
  revert hdigit
  decide

private theorem seekNewline_decimalInt (n : Int) : seekNewline (decimalInt n) = none := by
  apply seekNewline_of_notMem
  have hnat : (13 : UInt8) ∉ decimal n.natAbs := by
    intro h
    have hdigit := (isDigit_of_mem_decimal _ 13 h).1
    revert hdigit
    decide
  rw [decimalInt]
  split
  · simp [hnat]
  · exact hnat

/-- The digits of a number are read up to the end of the line. -/
private theorem readDigits_decimal (mult : Int) (n : Nat) (t : Bytes) :
    readDigits mult 0 (decimal n ++ 13 :: t) = mult * n := by
  have hloop : ∀ fuel n, n ≤ fuel → ∀ (v : Int) (s : Bytes),
      readDigits mult v (decimalFrom fuel n ++ s) =
        readDigits mult (v * 10 ^ (decimalFrom fuel n).length + n) s := by
    have hone : ∀ d : Nat, d < 10 → ∀ (v : Int) (s : Bytes),
        readDigits mult v (digitByte d :: s) = readDigits mult (v * 10 + d) s := by
      intro d hd v s
      have hmem := digitByte_mem hd
      have hnat := toNat_digitByte hd
      have hne : digitByte d ≠ 13 := by
        intro heq
        rw [heq] at hmem
        exact absurd hmem.1 (by decide)
      rw [readDigits, if_neg hne, if_pos (by simp [hmem.1, hmem.2]), hnat, Nat.add_sub_cancel_left]
    intro fuel
    induction fuel with
    | zero =>
      intro n hn v s
      rw [decimalFrom, List.singleton_append, hone _ (by omega), List.length_singleton, pow_one]
    | succ fuel ih =>
      intro n hn v s
      rw [decimalFrom]
      split
      · next h10 => rw [List.singleton_append, hone _ h10, List.length_singleton, pow_one]
      · rw [List.append_assoc, ih (n / 10) (by omega), List.singleton_append, hone _ (by omega),
          List.length_append, List.length_singleton, pow_succ, ← mul_assoc]
        congr 1
        omega
  rw [decimal, hloop n n (Nat.le_refl n), zero_mul, zero_add, readDigits, if_pos rfl]

private theorem readLongLong_decimal (n : Nat) (t : Bytes) :
    readLongLong (decimal n ++ 13 :: t) = n := by
  have hread := readDigits_decimal 1 n t
  rw [one_mul] at hread
  have hdigits := isDigit_of_mem_decimal n
  cases hs : decimal n with
  | nil =>
    rw [hs] at hread
    rw [← hread, List.nil_append, readLongLong, if_neg (by decide), if_neg (by decide)]
  | cons c s =>
    have hc := (hdigits c (by rw [hs]; exact List.mem_cons_self)).1
    have hne : ∀ b : UInt8, b < 48 → c ≠ b := by
      rintro b hb rfl
      exact absurd hc (by simpa using hb)
    rw [hs] at hread
    rw [List.cons_append, readLongLong, if_neg (hne 45 (by decide)), if_neg (hne 43 (by decide)),
      ← List.cons_append, hread]

private theorem readLongLong_decimalInt (n : Int) (t : Bytes) :
    readLongLong (decimalInt n ++ 13 :: t) = n := by
  rw [decimalInt]
  split
  · rw [List.cons_append, readLongLong, if_pos rfl, readDigits_decimal]
    omega
  · rw [readLongLong_decimal]
    omega

/-! ### The arrays that are being read -/

theorem encodeAll_append (xs ys : List WireReply) :
    encodeAll (xs ++ ys) = encodeAll xs ++ encodeAll ys := by
  induction xs with
  | nil => rfl
  | cons x xs ih => rw [List.cons_append, encodeAll, encodeAll, ih, List.append_assoc]

/-- The tasks of the arrays, from the innermost one on, with the elements that come after the item.
-/
private abbrev Frames := List (ReadTask × List WireReply)

/-- An item with an index is in the first array, that one in the second, and so on. -/
private def Linked : Int → Frames → Prop
  | _, [] => True
  | idx, (task, todo) :: frames =>
    task.type = some .array ∧ idx = task.obj.length ∧
      task.elements = task.obj.length + 1 + todo.length ∧
      (∀ x ∈ todo, x.Valid (8 - (frames.length + 1))) ∧ Linked task.idx frames

/-- The reply when the item is the given one. -/
private def plug : Frames → RedisReply → RedisReply
  | [], obj => obj
  | (task, todo) :: frames, obj => plug frames (.array (task.obj ++ obj :: toReplies todo))

/-- The bytes after the item. -/
private def todoBytes : Frames → Bytes
  | [] => []
  | (_, todo) :: frames => encodeAll todo ++ todoBytes frames

private def Frames.tasks (frames : Frames) : List ReadTask := frames.map Prod.fst

/-- A task whose type is not known. -/
private def newTask (idx : Int) : ReadTask :=
  { type := none, elements := -1, idx := idx, obj := [] }

/-- A complete item is followed by another one, or completes the reply. -/
private theorem finishItem_spec (obj : RedisReply) {idx : Int} {frames : Frames}
    (h : Linked idx frames) :
    (finishItem obj idx frames.tasks = some (some (plug frames obj), []) ∧ todoBytes frames = []) ∨
    ∃ (idx' : Int) (x : WireReply) (frames' : Frames), finishItem obj idx frames.tasks =
        some (none, newTask idx' :: frames'.tasks) ∧ Linked idx' frames' ∧
      x.Valid (8 - frames'.length) ∧ todoBytes frames = x.encode ++ todoBytes frames' ∧
      plug frames' x.toReply = plug frames obj := by
  induction frames generalizing obj idx with
  | nil => exact Or.inl ⟨rfl, rfl⟩
  | cons frame frames ih =>
    obtain ⟨task, todo⟩ := frame
    obtain ⟨htype, hidx, helements, hvalid, hlinked⟩ := h
    have htasks : Frames.tasks ((task, todo) :: frames) = task :: Frames.tasks frames := rfl
    rw [htasks, finishItem, if_neg (not_not_intro htype), if_neg (by omega)]
    cases todo with
    | nil =>
      rw [List.length_nil] at helements
      rw [if_pos (by omega)]
      exact ih _ hlinked
    | cons x todo =>
      rw [List.length_cons] at helements
      obtain ⟨hx, htodo⟩ := List.forall_mem_cons.mp hvalid
      rw [if_neg (by omega)]
      refine Or.inr ⟨idx + 1, x, ({ task with obj := task.obj ++ [obj] }, todo) :: frames, rfl, ?_,
        hx, ?_, ?_⟩
      · refine ⟨htype, ?_, ?_, htodo, hlinked⟩
        · rw [List.length_append, List.length_singleton]
          omega
        · change task.elements = _
          rw [List.length_append, List.length_singleton]
          omega
      · rw [todoBytes, todoBytes, encodeAll, List.append_assoc]
      · rw [plug, plug, toReplies, List.append_assoc]
        rfl

/-! ### One item -/

/-- The type of a reply. -/
private def WireReply.type : WireReply → ReplyType
  | .bulk _ | .nullbulk => .string
  | .multibulk _ | .nullmultibulk => .array
  | .integer _ => .integer
  | .status _ => .status
  | .error _ => .error

/-- The bytes behind the first one. -/
private def WireReply.body : WireReply → Bytes
  | .bulk s => decimal s.length ++ 13 :: 10 :: (s ++ [13, 10])
  | .nullbulk => decimalInt (-1) ++ [13, 10]
  | .multibulk elements => decimal elements.length ++ 13 :: 10 :: encodeAll elements
  | .nullmultibulk => decimalInt (-1) ++ [13, 10]
  | .integer n => decimalInt n ++ [13, 10]
  | .status s => s ++ [13, 10]
  | .error s => s ++ [13, 10]

/-- The first byte says which type it is. -/
private theorem encode_eq (x : WireReply) :
    ∃ b, x.encode = b :: x.body ∧ Reader.itemType b = some x.type := by
  cases x <;> exact ⟨_, rfl, rfl⟩

/-- The bytes of an item that have not been used. -/
private def itemBytes (cur : ReadTask) (x : WireReply) : Bytes :=
  if cur.type.isSome then x.body else x.encode

/-- A reader in the middle of a reply: it is at the item `x` in the arrays `frames`. -/
private structure Reading (cur : ReadTask) (x : WireReply) (frames : Frames) (more rest : Bytes)
    (r : Reader) : Prop where
  rstack : r.rstack = cur :: frames.tasks
  type : cur.type = none ∨ cur.type = some x.type
  obj : cur.obj = []
  linked : Linked cur.idx frames
  valid : x.Valid (8 - frames.length)
  bytes : r.unread ++ rest = itemBytes cur x ++ (todoBytes frames ++ more)
  pos : r.pos ≤ r.buf.length
  err : r.err = none
  reply : r.reply = none

/-- A reader that has completed a reply. -/
private structure Complete (reply : RedisReply) (more rest : Bytes) (r : Reader) : Prop where
  rstack : r.rstack = []
  reply : r.reply = some reply
  bytes : r.unread ++ rest = more
  pos : r.pos ≤ r.buf.length
  err : r.err = none

/-- A reader is further on with a reply. -/
private def Further (reply : RedisReply) (more rest : Bytes) (r : Reader) : Prop :=
  Complete reply more rest r ∨
    ∃ cur x frames, Reading cur x frames more rest r ∧ plug frames x.toReply = reply

variable {cur : ReadTask} {x : WireReply} {frames : Frames} {more rest : Bytes} {r : Reader}

private theorem drop_pos (r : Reader) (k : Nat) : r.buf.drop (r.pos + k) = r.unread.drop k := by
  rw [Reader.unread, List.drop_drop]

private theorem pos_add_le (h : r.pos ≤ r.buf.length) {k : Nat} (hk : k ≤ r.unread.length) :
    r.pos + k ≤ r.buf.length := by
  rw [Reader.unread, List.length_drop] at hk
  omega

/-- The bytes of an item without elements have been found. -/
private theorem further_finish (h : Reading cur x frames more rest r) {k : Nat}
    (hk : k ≤ r.unread.length) (hbytes : r.unread.drop k ++ rest = todoBytes frames ++ more) :
    ∃ r', r.finish cur frames.tasks x.toReply (r.pos + k) = some (true, r') ∧
      r'.unread = r.unread.drop k ∧ Further (plug frames x.toReply) more rest r' := by
  have hunread := drop_pos r k
  have hpos := pos_add_le h.pos hk
  rw [Reader.finish]
  rcases finishItem_spec x.toReply h.linked with ⟨hfinish, htodo⟩ |
    ⟨idx, y, frames', hfinish, hlinked, hvalid, htodo, hplug⟩
  · rw [hfinish]
    refine ⟨_, rfl, hunread, Or.inl ⟨rfl, rfl, ?_, hpos, h.err⟩⟩
    rw [Reader.unread, hunread, hbytes, htodo, List.nil_append]
  · rw [hfinish]
    refine ⟨_, rfl, hunread, Or.inr ⟨newTask idx, y, frames', ⟨rfl, Or.inl rfl, rfl, hlinked,
      hvalid, ?_, hpos, h.err, h.reply⟩, hplug⟩⟩
    rw [Reader.unread, hunread, hbytes, htodo, List.append_assoc]
    rfl

/-- The number of elements of an array has been found, and the first of them comes next. -/
private theorem further_enter {y : WireReply} {ys : List WireReply}
    (h : Reading cur (.multibulk (y :: ys)) frames more rest r) (htype : cur.type = some .array)
    (hvalid : ∀ x ∈ y :: ys, x.Valid (8 - frames.length - 1)) {k : Nat} (hk : k ≤ r.unread.length)
    (hbytes : r.unread.drop k ++ rest = encodeAll (y :: ys) ++ (todoBytes frames ++ more)) :
    Further (plug frames (WireReply.multibulk (y :: ys)).toReply) more rest { r with
      pos := r.pos + k
      rstack := newTask 0 :: { cur with elements := (y :: ys).length } :: frames.tasks } := by
  obtain ⟨hy, hys⟩ := List.forall_mem_cons.mp hvalid
  refine Or.inr ⟨newTask 0, y, ({ cur with elements := (y :: ys).length }, ys) :: frames,
    ⟨rfl, Or.inl rfl, rfl, ⟨htype, ?_, ?_, hys, h.linked⟩, hy, ?_, pos_add_le h.pos hk, h.err,
      h.reply⟩, ?_⟩
  · rw [h.obj]
    rfl
  · change ((y :: ys).length : Int) = _
    rw [h.obj, List.length_cons, List.length_nil]
    omega
  · rw [Reader.unread, drop_pos, hbytes, encodeAll, todoBytes]
    simp only [List.append_assoc]
    rfl
  · rw [plug, h.obj, WireReply.toReply, toReplies, List.nil_append]

/-- What the processing of an item leads to: it waits for more bytes, or is further on. -/
private def Processed (x : WireReply) (frames : Frames) (more rest : Bytes) (r : Reader)
    (result : Option (Bool × Reader)) : Prop :=
  (result = some (false, r) ∧ r.unread.length < x.body.length) ∨
    ∃ r', result = some (true, r') ∧ r'.unread.length < r.unread.length ∧
      Further (plug frames x.toReply) more rest r'

/-- An item of one line waits for the end of the line, or its object is made of the line. -/
private theorem processed_line (h : Reading cur x frames more rest r)
    (htype : cur.type = some x.type) {s : Bytes} (hs : seekNewline s = none)
    (hbody : x.body = s ++ [13, 10]) :
    (seekNewline r.unread = none ∧ r.unread.length < x.body.length) ∨
      ∃ t r', seekNewline r.unread = some s.length ∧ r.unread = s ++ 13 :: 10 :: t ∧
        r.finish cur frames.tasks x.toReply (r.pos + (s.length + 2)) = some (true, r') ∧
        r'.unread.length < r.unread.length ∧ Further (plug frames x.toReply) more rest r' := by
  have hbytes : r.unread ++ rest = (s ++ [13, 10]) ++ (todoBytes frames ++ more) := by
    rw [h.bytes, itemBytes, htype, hbody]
    rfl
  rw [seekNewline_of_append hs (t := todoBytes frames ++ more) (by rw [hbytes]; simp)]
  by_cases hlen : s.length + 2 ≤ r.unread.length
  · obtain ⟨t, hunread, ht⟩ := arrived hbytes (by simpa using hlen)
    have hdrop : r.unread.drop (s.length + 2) = t := by
      rw [hunread, List.drop_left' (by simp)]
    obtain ⟨r', hrun, hunread', hfurther⟩ := further_finish h hlen (by rw [hdrop, ht])
    refine Or.inr ⟨t, r', if_pos hlen, by rw [hunread]; simp, hrun, ?_, hfurther⟩
    rw [hunread', List.length_drop]
    omega
  · refine Or.inl ⟨if_neg hlen, ?_⟩
    rw [hbody, List.length_append]
    change _ < s.length + 2
    omega

/-- A string. -/
private theorem processed_bulk (s : Bytes) (h : Reading cur (.bulk s) frames more rest r)
    (htype : cur.type = some .string) :
    Processed (.bulk s) frames more rest r (r.processBulkItem cur frames.tasks) := by
  have hbytes : r.unread ++ rest =
      decimal s.length ++ 13 :: 10 :: (s ++ [13, 10] ++ (todoBytes frames ++ more)) := by
    rw [h.bytes, itemBytes, htype]
    simp [WireReply.body]
  have hbody : (WireReply.bulk s).body.length = (decimal s.length).length + 2 + (s.length + 2) := by
    simp only [WireReply.body, List.length_append, List.length_cons, List.length_nil]
    omega
  rw [Reader.processBulkItem, seekNewline_of_append (seekNewline_decimal _) hbytes]
  have hpos := h.pos
  have hlength : r.unread.length = r.buf.length - r.pos := by rw [Reader.unread, List.length_drop]
  by_cases hlen : (decimal s.length).length + 2 ≤ r.unread.length
  · obtain ⟨t, hunread, ht⟩ := arrived (u := decimal s.length ++ [13, 10])
      (t := s ++ [13, 10] ++ (todoBytes frames ++ more)) (by rw [hbytes]; simp)
      (by simpa using hlen)
    have hnum : readLongLong r.unread = s.length := by
      rw [hunread, List.append_assoc]
      exact readLongLong_decimal _ _
    have hdrop : r.unread.drop ((decimal s.length).length + 2) = t := by
      rw [hunread, List.drop_left' (by simp)]
    have hlengths : r.unread.length = (decimal s.length).length + 2 + t.length := by
      rw [hunread, List.length_append, List.length_append]
      rfl
    rw [if_pos hlen]
    dsimp only
    rw [hnum, if_neg (by omega), Int.toNat_natCast]
    by_cases hall : s.length + 2 ≤ t.length
    · rw [if_pos (by omega)]
      obtain ⟨t', rfl, ht'⟩ := arrived ht (by simpa using hall)
      have hall' : r.unread.drop ((decimal s.length).length + 2 + (s.length + 2)) = t' := by
        rw [← List.drop_drop, hdrop, List.drop_left' (by simp)]
      obtain ⟨r', hrun, hunread', hfurther⟩ := further_finish h
        (k := (decimal s.length).length + 2 + (s.length + 2)) (by omega) (by rw [hall', ht'])
      refine Or.inr ⟨r', ?_, ?_, hfurther⟩
      · rw [hdrop, List.append_assoc, List.take_left]
        exact hrun
      · rw [hunread', List.length_drop]
        omega
    · rw [if_neg (by omega)]
      exact Or.inl ⟨rfl, by omega⟩
  · rw [if_neg hlen]
    exact Or.inl ⟨rfl, by omega⟩

/-- An array is not too deep, and its elements are valid one level below. -/
private theorem valid_elements {d : Nat} {elements : List WireReply}
    (h : (WireReply.multibulk elements).Valid d) :
    0 < d ∧ ∀ x ∈ elements, x.Valid (d - 1) := by
  cases d with
  | zero => exact h.elim
  | succ d => exact ⟨Nat.succ_pos d, h⟩

/-- An array: the reader goes on with its first element. -/
private theorem processed_multibulk (elements : List WireReply)
    (h : Reading cur (.multibulk elements) frames more rest r) (htype : cur.type = some .array) :
    Processed (.multibulk elements) frames more rest r
      (r.processMultiBulkItem cur frames.tasks) := by
  have hbytes : r.unread ++ rest = decimal elements.length ++ 13 :: 10 ::
      (encodeAll elements ++ (todoBytes frames ++ more)) := by
    rw [h.bytes, itemBytes, htype]
    simp [WireReply.body]
  obtain ⟨hdepth, hvalid⟩ := valid_elements h.valid
  rw [Reader.processMultiBulkItem, if_neg (by rw [Frames.tasks, List.length_map]; omega),
    seekNewline_of_append (seekNewline_decimal _) hbytes]
  by_cases hlen : (decimal elements.length).length + 2 ≤ r.unread.length
  · obtain ⟨t, hunread, ht⟩ := arrived (u := decimal elements.length ++ [13, 10])
      (t := encodeAll elements ++ (todoBytes frames ++ more)) (by rw [hbytes]; simp)
      (by simpa using hlen)
    have hnum : readLongLong r.unread = elements.length := by
      rw [hunread, List.append_assoc]
      exact readLongLong_decimal _ _
    have hdrop : r.unread.drop ((decimal elements.length).length + 2) = t := by
      rw [hunread, List.drop_left' (by simp)]
    rw [if_pos hlen]
    dsimp only
    rw [hnum, if_neg (by omega)]
    cases elements with
    | nil =>
      rw [if_neg (by simp)]
      obtain ⟨r', hrun, hunread', hfurther⟩ := further_finish h hlen (by rw [hdrop, ht]; rfl)
      refine Or.inr ⟨r', hrun, ?_, hfurther⟩
      rw [hunread', List.length_drop]
      omega
    | cons y ys =>
      rw [if_pos (by rw [List.length_cons]; omega)]
      refine Or.inr ⟨_, rfl, ?_, further_enter h htype hvalid hlen (by rw [hdrop, ht])⟩
      rw [Reader.unread, drop_pos, List.length_drop]
      omega
  · rw [if_neg hlen]
    refine Or.inl ⟨rfl, ?_⟩
    simp only [WireReply.body, List.length_append, List.length_cons]
    omega

/-- An integer, a status or an error. -/
private theorem processed_lineItem (h : Reading cur x frames more rest r)
    (htype : cur.type = some x.type) {s : Bytes} (hs : seekNewline s = none)
    (hbody : x.body = s ++ [13, 10])
    (hobj : ∀ t, Reader.lineObject (some x.type) (s ++ 13 :: 10 :: t) s.length = x.toReply) :
    Processed x frames more rest r (r.processLineItem cur frames.tasks) := by
  rw [Reader.processLineItem]
  rcases processed_line h htype hs hbody with
    ⟨hseek, hshort⟩ | ⟨t, r', hseek, hunread, hrun, hfurther⟩
  · rw [hseek]
    exact Or.inl ⟨rfl, hshort⟩
  · rw [hseek]
    dsimp only
    rw [htype, hunread, hobj]
    exact Or.inr ⟨r', hrun, hfurther⟩

/-- An item whose type is known. -/
private theorem processed_typed (h : Reading cur x frames more rest r)
    (htype : cur.type = some x.type) :
    Processed x frames more rest r (r.processTyped cur frames.tasks) := by
  have hvalid := h.valid
  generalize hd : 8 - frames.length = d at hvalid
  rw [Reader.processTyped, htype]
  cases x with
  | bulk s => exact processed_bulk s h htype
  | nullbulk =>
    change Processed _ _ _ _ _ (r.processBulkItem cur frames.tasks)
    rw [Reader.processBulkItem]
    rcases processed_line h htype (seekNewline_decimalInt (-1)) rfl with
      ⟨hseek, hshort⟩ | ⟨t, r', hseek, hunread, hrun, hfurther⟩
    · rw [hseek]
      exact Or.inl ⟨rfl, hshort⟩
    · rw [hseek]
      dsimp only
      rw [if_pos (by rw [hunread, readLongLong_decimalInt]; decide)]
      exact Or.inr ⟨r', hrun, hfurther⟩
  | multibulk elements => exact processed_multibulk elements h htype
  | nullmultibulk =>
    change Processed _ _ _ _ _ (r.processMultiBulkItem cur frames.tasks)
    cases d with
    | zero => exact hvalid.elim
    | succ d =>
      rw [Reader.processMultiBulkItem, if_neg (by rw [Frames.tasks, List.length_map]; omega)]
      rcases processed_line h htype (seekNewline_decimalInt (-1)) rfl with
        ⟨hseek, hshort⟩ | ⟨t, r', hseek, hunread, hrun, hfurther⟩
      · rw [hseek]
        exact Or.inl ⟨rfl, hshort⟩
      · rw [hseek]
        dsimp only
        rw [if_pos (by rw [hunread, readLongLong_decimalInt])]
        exact Or.inr ⟨r', hrun, hfurther⟩
  | integer n =>
    exact processed_lineItem h htype (seekNewline_decimalInt n) rfl fun t ↦
      congrArg RedisReply.integer (readLongLong_decimalInt n _)
  | status s =>
    have hs : seekNewline s = none := by cases d <;> exact hvalid
    exact processed_lineItem h htype hs rfl fun t ↦ congrArg RedisReply.status List.take_left
  | error s =>
    have hs : seekNewline s = none := by cases d <;> exact hvalid
    exact processed_lineItem h htype hs rfl fun t ↦ congrArg RedisReply.error List.take_left

/-- Any item: it waits in the same place, or is further on. -/
private theorem processItem_spec (h : Reading cur x frames more rest r) :
    (∃ cur' r', r.processItem = some (false, r') ∧ Reading cur' x frames more rest r' ∧
        r'.unread.length < (itemBytes cur' x).length) ∨
      ∃ r', r.processItem = some (true, r') ∧ r'.unread.length < r.unread.length ∧
        Further (plug frames x.toReply) more rest r' := by
  rw [Reader.processItem, h.rstack]
  dsimp only
  rcases h.type with htype | htype
  · rw [if_neg (by simp [htype])]
    obtain ⟨b, hencode, hb⟩ := encode_eq x
    have hbytes := h.bytes
    rw [itemBytes, htype, if_neg (by simp), hencode] at hbytes
    cases hunread : r.unread with
    | nil =>
      refine Or.inl ⟨cur, r, rfl, h, ?_⟩
      rw [hunread, itemBytes, htype, if_neg (by simp), hencode]
      exact Nat.succ_pos _
    | cons b' u =>
      rw [hunread, List.cons_append, List.cons_append, List.cons.injEq] at hbytes
      obtain ⟨rfl, hbytes⟩ := hbytes
      have hlength : r.buf.length - r.pos = u.length + 1 := by
        have hlen := congrArg List.length hunread
        rwa [Reader.unread, List.length_drop, List.length_cons] at hlen
      have hunread' : r.buf.drop (r.pos + 1) = u := by
        rw [drop_pos, hunread, List.drop_one, List.tail_cons]
      have hreading : Reading { cur with type := some x.type } x frames more rest
          { r with pos := r.pos + 1, rstack := { cur with type := some x.type } :: frames.tasks } :=
        ⟨rfl, Or.inr rfl, h.obj, h.linked, h.valid, by rw [Reader.unread, hunread']; exact hbytes,
          by change r.pos + 1 ≤ r.buf.length; omega, h.err, h.reply⟩
      dsimp only
      rw [hb]
      dsimp only
      rcases processed_typed hreading rfl with ⟨hrun, hshort⟩ | ⟨r', hrun, hlt, hfurther⟩
      · rw [hrun]
        exact Or.inl ⟨_, _, rfl, hreading, hshort⟩
      · rw [hrun]
        refine Or.inr ⟨r', rfl, ?_, hfurther⟩
        change r'.unread.length < (r.buf.drop (r.pos + 1)).length at hlt
        rw [hunread'] at hlt
        rw [List.length_cons]
        omega
  · rw [if_pos (by simp [htype])]
    rcases processed_typed h htype with ⟨hrun, hshort⟩ | ⟨r', hrun, hlt, hfurther⟩
    · rw [hrun]
      refine Or.inl ⟨cur, r, rfl, h, ?_⟩
      rw [itemBytes, htype]
      exact hshort
    · rw [hrun]
      exact Or.inr ⟨r', rfl, hlt, hfurther⟩

/-! ### Whole replies -/

/-- The loop completes the reply, or waits for more bytes. -/
private theorem processItems_spec {fuel : Nat} (h : Reading cur x frames more rest r)
    (hfuel : r.unread.length < fuel) :
    ∃ r', Reader.processItems fuel r = some r' ∧
      (Complete (plug frames x.toReply) more rest r' ∨
        ∃ cur' x' frames', Reading cur' x' frames' more rest r' ∧
          plug frames' x'.toReply = plug frames x.toReply ∧
          r'.unread.length < (itemBytes cur' x').length) := by
  induction fuel generalizing cur x frames r with
  | zero => exact absurd hfuel (Nat.not_lt_zero _)
  | succ fuel ih =>
    rw [Reader.processItems, if_neg (by simp [h.rstack])]
    rcases processItem_spec h with ⟨cur', r', hrun, hreading, hshort⟩ | ⟨r', hrun, hlt, hfurther⟩
    · rw [hrun]
      exact ⟨r', rfl, Or.inr ⟨cur', x, frames, hreading, rfl, hshort⟩⟩
    · rw [hrun]
      rcases hfurther with hcomplete | ⟨cur', x', frames', hreading, hplug⟩
      · refine ⟨r', ?_, Or.inl hcomplete⟩
        change Reader.processItems fuel r' = some r'
        cases fuel with
        | zero => rfl
        | succ fuel => rw [Reader.processItems, if_pos (by simp [hcomplete.rstack])]
      · rw [← hplug]
        exact ih hreading (by omega)

/-- A reader that is not in a reply. It may have made a task for the next one. -/
private structure Idling (todo : List WireReply) (rest : Bytes) (r : Reader) : Prop where
  rstack : r.rstack = [] ∨ r.rstack = [newTask (-1)]
  bytes : r.unread ++ rest = encodeAll todo
  pos : r.pos ≤ r.buf.length
  err : r.err = none
  reply : r.reply = none

/-- The reader gets these replies when the rest of the bytes has arrived. -/
def Expects (todo : List WireReply) (rest : Bytes) (r : Reader) : Prop :=
  (∀ x ∈ todo, x.Valid 8) ∧ (Idling todo rest r ∨
    ∃ y todo' cur x frames, todo = y :: todo' ∧ Reading cur x frames (encodeAll todo') rest r ∧
      plug frames x.toReply = y.toReply)

/-- The first reply that is expected has not arrived completely. -/
def Starved (todo : List WireReply) (rest : Bytes) : Prop :=
  ∀ y todo', todo = y :: todo' → (encodeAll todo').length < rest.length

private theorem starved_of_short (h : Reading cur x frames more rest r)
    (hshort : r.unread.length < (itemBytes cur x).length) : more.length < rest.length := by
  have hlen := congrArg List.length h.bytes
  simp only [List.length_append] at hlen
  omega

private theorem length_itemBytes_pos (cur : ReadTask) (x : WireReply) :
    0 < (itemBytes cur x).length := by
  rw [itemBytes]
  split
  · cases x <;> simp only [WireReply.body, List.length_append, List.length_cons] <;> omega
  · obtain ⟨b, hencode, -⟩ := encode_eq x
    rw [hencode]
    exact Nat.succ_pos _

variable {todo : List WireReply}

/-- Without bytes nothing is complete. -/
private theorem starved_of_nil (h : Expects todo rest r) (hnil : r.unread = []) :
    Starved todo rest := by
  rintro y todo' rfl
  rcases h.2 with hidle | ⟨y', todo'', cur, x, frames, heq, hreading, -⟩
  · have hbytes := hidle.bytes
    obtain ⟨b, hencode, -⟩ := encode_eq y
    rw [hnil, List.nil_append, encodeAll, hencode] at hbytes
    rw [hbytes, List.length_append, List.length_cons]
    omega
  · obtain ⟨rfl, rfl⟩ := List.cons.inj heq
    refine starved_of_short hreading ?_
    rw [hnil]
    exact length_itemBytes_pos cur x

private theorem unread_discard (r : Reader) : r.discard.unread = r.unread := by
  rw [Reader.discard]
  split
  · exact List.drop_zero
  · rfl

private theorem pos_discard (h : r.pos ≤ r.buf.length) : r.discard.pos ≤ r.discard.buf.length := by
  rw [Reader.discard]
  split
  · exact Nat.zero_le _
  · exact h

private theorem discard_fields (r : Reader) :
    r.discard.rstack = r.rstack ∧ r.discard.reply = r.reply ∧ r.discard.err = r.err := by
  rw [Reader.discard]
  split <;> exact ⟨rfl, rfl, rfl⟩

/-- A reader in the middle of a reply completes it, or waits for more bytes. -/
private theorem getReply_reading (h : Reading cur x frames more rest r)
    (hne : r.buf.isEmpty = false) :
    ∃ r', (r.getReply = some (some (plug frames x.toReply), r') ∧ r'.rstack = [] ∧
        r'.unread ++ rest = more ∧ r'.pos ≤ r'.buf.length ∧ r'.err = none ∧ r'.reply = none) ∨
      (r.getReply = some (none, r') ∧ ∃ cur' x' frames', Reading cur' x' frames' more rest r' ∧
        plug frames' x'.toReply = plug frames x.toReply ∧
        r'.unread.length < (itemBytes cur' x').length) := by
  obtain ⟨r', hrun, hresult⟩ := processItems_spec h (Nat.lt_succ_self _)
  obtain ⟨hrstack, hreply, herr⟩ := discard_fields r'
  rw [Reader.getReply, h.err, if_neg (by simp), hne, if_neg (by simp)]
  dsimp only
  rw [if_neg (by simp [h.rstack]), hrun]
  dsimp only
  rcases hresult with hcomplete | ⟨cur', x', frames', hreading, hplug, hshort⟩
  · rw [hcomplete.err, if_neg (by simp), hrstack, hcomplete.rstack, if_pos (by simp), hreply,
      hcomplete.reply]
    refine ⟨_, Or.inl ⟨rfl, rfl, ?_, pos_discard hcomplete.pos,
      herr.trans hcomplete.err, rfl⟩⟩
    rw [← hcomplete.bytes, ← unread_discard r']
    rfl
  · rw [hreading.err, if_neg (by simp), hrstack, hreading.rstack, if_neg (by simp)]
    refine ⟨_, Or.inr ⟨rfl, cur', x', frames', ⟨?_, hreading.type, hreading.obj, hreading.linked,
      hreading.valid, ?_, pos_discard hreading.pos, herr.trans hreading.err,
      hreply.trans hreading.reply⟩, hplug, ?_⟩⟩
    · rw [hrstack, hreading.rstack]
    · rw [unread_discard, hreading.bytes]
    · rw [unread_discard]
      exact hshort

/-- A reader that is not in a reply starts with the next one. -/
private theorem getReply_idling (h : Idling todo rest r) (hne : r.buf.isEmpty = false) :
    r.getReply = Reader.getReply { r with rstack := [newTask (-1)] } := by
  rcases h.rstack with hstack | hstack
  · rw [Reader.getReply, Reader.getReply, h.err, hne, hstack]
    rfl
  · have hsame : { r with rstack := [newTask (-1)] } = r := by rw [← hstack]
    rw [hsame]

/-- There is no byte for the type of the next reply. -/
private theorem getReply_nil (hstack : r.rstack = [newTask (-1)]) (herr : r.err = none)
    (hne : r.buf.isEmpty = false) (hnil : r.unread = []) : r.getReply = some (none, r.discard) := by
  have hitem : r.processItem = some (false, r) := by
    rw [Reader.processItem, hstack]
    dsimp only
    rw [if_neg (by simp [newTask]), hnil]
  have hitems : Reader.processItems (r.unread.length + 1) r = some r := by
    rw [Reader.processItems, if_neg (by simp [hstack]), hitem]
  rw [Reader.getReply, herr, if_neg (by simp), hne, if_neg (by simp)]
  dsimp only
  rw [if_neg (by simp [hstack]), hitems]
  dsimp only
  rw [herr, if_neg (by simp), (discard_fields r).1, hstack, if_neg (by simp)]

/-- What a call gives: there is no complete reply, or the next one is given. -/
private def Gives (todo : List WireReply) (rest : Bytes) (r : Reader) : Prop :=
  (∃ r', r.getReply = some (none, r') ∧ Expects todo rest r' ∧ Starved todo rest) ∨
    ∃ y todo' r', todo = y :: todo' ∧ r.getReply = some (some y.toReply, r') ∧
      Expects todo' rest r' ∧ r'.unread.length < r.unread.length

private theorem gives_reading {y : WireReply} (hvalid : ∀ x ∈ y :: todo, x.Valid 8)
    (h : Reading cur x frames (encodeAll todo) rest r) (hplug : plug frames x.toReply = y.toReply)
    (hne : r.buf.isEmpty = false) : Gives (y :: todo) rest r := by
  obtain ⟨r', ⟨hrun, hstack, hbytes, hpos, herr, hreply⟩ |
    ⟨hrun, cur', x', frames', hreading, hplug', hshort⟩⟩ := getReply_reading h hne
  · refine Or.inr ⟨y, todo, r', rfl, by rw [hrun, hplug], ⟨?_, Or.inl ⟨Or.inl hstack, hbytes, hpos,
      herr, hreply⟩⟩, ?_⟩
    · exact fun x hx ↦ hvalid x (List.mem_cons_of_mem _ hx)
    · have hlen := congrArg List.length h.bytes
      have hlen' := congrArg List.length hbytes
      have hitem := length_itemBytes_pos cur x
      simp only [List.length_append] at hlen hlen'
      omega
  · refine Or.inl ⟨r', hrun, ⟨hvalid, Or.inr ⟨y, todo, cur', x', frames', rfl, hreading,
      hplug'.trans hplug⟩⟩, ?_⟩
    rintro y' todo' heq
    obtain ⟨-, rfl⟩ := List.cons.inj heq
    exact starved_of_short hreading hshort

private theorem getReply_spec (h : Expects todo rest r) : Gives todo rest r := by
  cases hne : r.buf.isEmpty with
  | true =>
    have hnil : r.unread = [] := by
      rw [Reader.unread, List.isEmpty_iff.mp hne]
      exact List.drop_nil
    have herr : r.err = none := by
      rcases h.2 with hidle | ⟨_, _, _, _, _, _, hreading, _⟩
      · exact hidle.err
      · exact hreading.err
    refine Or.inl ⟨r, ?_, h, starved_of_nil h hnil⟩
    rw [Reader.getReply, herr, if_neg (by simp), hne, if_pos rfl]
  | false =>
    obtain ⟨hvalid, hidle | ⟨y, todo', cur, x, frames, rfl, hreading, hplug⟩⟩ := h
    · have hstart := getReply_idling hidle hne
      cases todo with
      | nil =>
        have hnil : r.unread = [] := (List.append_eq_nil_iff.mp hidle.bytes).1
        obtain ⟨hrstack, hreply, herr⟩ := discard_fields { r with rstack := [newTask (-1)] }
        refine Or.inl ⟨Reader.discard { r with rstack := [newTask (-1)] }, ?_, ⟨hvalid, Or.inl ⟨?_,
          ?_, pos_discard hidle.pos, herr.trans hidle.err, hreply.trans hidle.reply⟩⟩, ?_⟩
        · rw [hstart]
          exact getReply_nil rfl hidle.err hne hnil
        · exact Or.inr hrstack
        · rw [unread_discard]
          exact hidle.bytes
        · rintro y todo' ⟨⟩
      | cons y todo =>
        have hreading : Reading (newTask (-1)) y [] (encodeAll todo) rest
            { r with rstack := [newTask (-1)] } :=
          ⟨rfl, Or.inl rfl, rfl, trivial, hvalid y List.mem_cons_self, hidle.bytes, hidle.pos,
            hidle.err, hidle.reply⟩
        rw [Gives, hstart]
        exact gives_reading hvalid hreading rfl hne
    · exact gives_reading hvalid hreading hplug hne

theorem toReplies_append (xs ys : List WireReply) :
    toReplies (xs ++ ys) = toReplies xs ++ toReplies ys := by
  induction xs with
  | nil => rfl
  | cons x xs ih => rw [List.cons_append, toReplies, toReplies, ih, List.cons_append]

/-- Replies are given in their order until the next one is not complete. -/
theorem getReplies_spec {fuel : Nat} (h : Expects todo rest r)
    (hfuel : r.unread.length < fuel) :
    ∃ done todo' r', Reader.getReplies fuel r = some (toReplies done, r') ∧ todo = done ++ todo' ∧
      Expects todo' rest r' ∧ Starved todo' rest := by
  induction fuel generalizing todo r with
  | zero => exact absurd hfuel (Nat.not_lt_zero _)
  | succ fuel ih =>
    rw [Reader.getReplies]
    rcases getReply_spec h with ⟨r', hrun, hexpects, hstarved⟩ |
      ⟨y, todo', r', rfl, hrun, hexpects, hlt⟩
    · rw [hrun]
      exact ⟨[], todo, r', rfl, rfl, hexpects, hstarved⟩
    · obtain ⟨done, todo'', r'', hrest, rfl, hexpects', hstarved⟩ := ih hexpects (by omega)
      rw [hrun]
      dsimp only
      rw [hrest]
      exact ⟨y :: done, todo'', r'', rfl, rfl, hexpects', hstarved⟩

/-- Bytes that arrive are unread. -/
theorem expects_feed {bytes : Bytes} (h : Expects todo (bytes ++ rest) r) :
    Expects todo rest (r.feed bytes) := by
  obtain ⟨hvalid, hidle | ⟨y, todo', cur, x, frames, rfl, hreading, hplug⟩⟩ := h
  · have hunread : ({ r with buf := r.buf ++ bytes } : Reader).unread = r.unread ++ bytes :=
      List.drop_append_of_le_length hidle.pos
    rw [Reader.feed, hidle.err, if_neg (by simp)]
    refine ⟨hvalid, Or.inl ⟨hidle.rstack, ?_, ?_, rfl, hidle.reply⟩⟩
    · rw [← hidle.bytes, ← List.append_assoc, ← hunread]
      rfl
    · exact Nat.le_trans hidle.pos (by simp)
  · have hunread : ({ r with buf := r.buf ++ bytes } : Reader).unread = r.unread ++ bytes :=
      List.drop_append_of_le_length hreading.pos
    rw [Reader.feed, hreading.err, if_neg (by simp)]
    refine ⟨hvalid, Or.inr ⟨y, todo', cur, x, frames, rfl, ⟨hreading.rstack, hreading.type,
      hreading.obj, hreading.linked, hreading.valid, ?_, ?_, rfl, hreading.reply⟩, hplug⟩⟩
    · rw [← hreading.bytes, ← List.append_assoc, ← hunread]
      rfl
    · exact Nat.le_trans hreading.pos (by simp)

theorem expects_create : Expects [] [] Reader.create :=
  ⟨fun _ hx ↦ absurd hx List.not_mem_nil, Or.inl ⟨Or.inl rfl, rfl, Nat.le_refl _, rfl, rfl⟩⟩

/-- The server replies once more. -/
theorem expects_append (h : Expects todo rest r) {x : WireReply} (hx : x.Valid 8) :
    Expects (todo ++ [x]) (rest ++ x.encode) r := by
  obtain ⟨hvalid, hidle | ⟨y, todo', cur, x', frames, rfl, hreading, hplug⟩⟩ := h
  · refine ⟨?_, Or.inl ⟨hidle.rstack, ?_, hidle.pos, hidle.err, hidle.reply⟩⟩
    · exact List.forall_mem_append.mpr ⟨hvalid, List.forall_mem_singleton.mpr hx⟩
    · rw [← List.append_assoc, hidle.bytes, encodeAll_append, encodeAll, encodeAll, List.append_nil]
  · refine ⟨?_, Or.inr ⟨y, todo' ++ [x], cur, x', frames, rfl, ⟨hreading.rstack, hreading.type,
      hreading.obj, hreading.linked, hreading.valid, ?_, hreading.pos, hreading.err,
      hreading.reply⟩, hplug⟩⟩
    · exact List.forall_mem_append.mpr ⟨hvalid, List.forall_mem_singleton.mpr hx⟩
    · rw [← List.append_assoc, hreading.bytes, encodeAll_append, encodeAll, encodeAll,
        List.append_nil]
      simp only [List.append_assoc]

theorem starved_append (h : Starved todo rest) (x : WireReply) :
    Starved (todo ++ [x]) (rest ++ x.encode) := by
  intro y todo' heq
  cases todo with
  | nil =>
    obtain ⟨rfl, rfl⟩ := List.cons.inj heq
    obtain ⟨b, hencode, -⟩ := encode_eq x
    rw [hencode, List.length_append, List.length_cons, encodeAll, List.length_nil]
    omega
  | cons y' todo =>
    rw [List.cons_append] at heq
    obtain ⟨rfl, rfl⟩ := List.cons.inj heq
    have hlt := h y' todo rfl
    rw [encodeAll_append, List.length_append, List.length_append, encodeAll, encodeAll,
      List.append_nil]
    omega

/-- One piece after the other. -/
private theorem readAll_spec (pieces : List Bytes) (h : Expects todo (pieces.flatten ++ rest) r)
    (hstarved : Starved todo (pieces.flatten ++ rest)) :
    ∃ done todo' r', Reader.readAll pieces r = some (toReplies done, r') ∧ todo = done ++ todo' ∧
      Expects todo' rest r' ∧ Starved todo' rest := by
  induction pieces generalizing todo r with
  | nil => exact ⟨[], todo, r, rfl, rfl, h, hstarved⟩
  | cons bytes pieces ih =>
    rw [List.flatten_cons, List.append_assoc] at h
    obtain ⟨done, todo', r', hrun, rfl, hexpects, hstarved'⟩ :=
      getReplies_spec (expects_feed h) (Nat.lt_succ_self _)
    obtain ⟨done', todo'', r'', hrest, rfl, hexpects', hstarved''⟩ := ih hexpects hstarved'
    refine ⟨done ++ done', todo'', r'', ?_, (List.append_assoc _ _ _).symm, hexpects', hstarved''⟩
    rw [Reader.readAll]
    dsimp only
    rw [hrun]
    dsimp only
    rw [hrest, toReplies_append]
    rfl

end MusicComparer.Redis
