import Mathlib.Data.List.Basic
import MusicComparer.Redis.Protocol

/-!
# Writing replies to a connection

Library `Redis`, from `redis-2.8.19/src/networking.c`. A reply is put into a buffer of 16 kilobytes
as long as there is room, and behind it into a list of strings. The length of a multi bulk reply may
be put in after its elements. The connection takes as many bytes at a time as it likes.

A string that is `NULL` when it is sent is `none`. The client is an ordinary one, without a limit
for its output.
-/

namespace MusicComparer.Redis

/-- A node of the list `reply`; `NULL` stands for a length that is not known yet. -/
structure ReplyNode where
  id : Nat
  ptr : Option Bytes
  deriving DecidableEq, Repr

/-- The fields of `redisClient` that replies use. `buf` has the length `bufpos`, `closing` is
`REDIS_CLOSE_AFTER_REPLY`, `writable` says that the event loop calls `sendReplyToClient`, and
`fresh` is the next node. -/
structure OutClient where
  buf : Bytes
  reply : List ReplyNode
  sentlen : Nat
  closing : Bool
  writable : Bool
  freed : Bool
  fresh : Nat
  deriving DecidableEq, Repr

namespace OutClient

/-- A new connection. -/
def create : OutClient := ⟨[], [], 0, false, false, false, 0⟩

/-- Nothing is left to be sent. -/
def isIdle (c : OutClient) : Bool := c.buf.isEmpty && c.reply.isEmpty

/-- `prepareClientToWrite`, `networking.c:130–141`. -/
def prepareClientToWrite (c : OutClient) : OutClient :=
  if c.isIdle then { c with writable := true } else c

/-- `_addReplyToBuffer`, `networking.c:163–178`; `none` is `REDIS_ERR`. -/
def addReplyToBuffer (c : OutClient) (s : Bytes) : Option OutClient :=
  if c.closing then some c
  else if c.reply ≠ [] then none
  else if 16 * 1024 - c.buf.length < s.length then none
  else some { c with buf := c.buf ++ s }

/-- A node at the end of the list. -/
def addNodeTail (c : OutClient) (ptr : Option Bytes) : OutClient :=
  { c with reply := c.reply ++ [⟨c.fresh, ptr⟩], fresh := c.fresh + 1 }

/-- `_addReplyStringToList`, `networking.c:242–271`, and its likes for strings and objects. -/
def addReplyToList (c : OutClient) (s : Bytes) : OutClient :=
  if c.closing then c
  else
    match c.reply.getLast? with
    | some ⟨id, some tail⟩ =>
      if tail.length + s.length ≤ 16 * 1024 then
        { c with reply := c.reply.dropLast ++ [⟨id, some (tail ++ s)⟩] }
      else c.addNodeTail (some s)
    | _ => c.addNodeTail (some s)

/-- `addReply`, `addReplySds` and `addReplyString`, `networking.c:278–332`. -/
def addReply (c : OutClient) (s : Bytes) : OutClient :=
  let c := c.prepareClientToWrite
  (c.addReplyToBuffer s).getD (c.addReplyToList s)

/-- `addDeferredMultiBulkLength`, `networking.c:381–388`: the node, and the client with it. -/
def addDeferredMultiBulkLength (c : OutClient) : Nat × OutClient :=
  let c := c.prepareClientToWrite
  (c.fresh, c.addNodeTail none)

/-- The length of a multi bulk reply. -/
def mbulkhdr (n : Nat) : Bytes := [42] ++ decimal n ++ [13, 10]

/-- A node with a length, glued to the next node if that is known. -/
def glue (id : Nat) (s : Bytes) : List ReplyNode → List ReplyNode
  | ⟨_, some t⟩ :: nodes => ⟨id, some (s ++ t)⟩ :: nodes
  | nodes => ⟨id, some s⟩ :: nodes

/-- The nodes after a length is put in. -/
def setLength (id : Nat) (s : Bytes) : List ReplyNode → List ReplyNode
  | [] => []
  | node :: nodes => if node.id = id then glue id s nodes else node :: setLength id s nodes

/-- `setDeferredMultiBulkLength`, `networking.c:391–414`. -/
def setDeferredMultiBulkLength (c : OutClient) (id n : Nat) : OutClient :=
  { c with reply := setLength id (mbulkhdr n) c.reply }

end OutClient

/-- What a command replies: strings, and multi bulk replies whose length comes last. -/
inductive Writes where
  | done
  | add (s : Bytes) (rest : Writes)
  | deferred (body : Writes) (n : Nat) (rest : Writes)
  deriving DecidableEq, Repr

/-- The calls that build a reply. -/
def Writes.run : Writes → OutClient → OutClient
  | done, c => c
  | add s rest, c => rest.run (c.addReply s)
  | deferred body n rest, c =>
    let (id, c) := c.addDeferredMultiBulkLength
    rest.run ((body.run c).setDeferredMultiBulkLength id n)

/-- The bytes of a reply. A connection that closes gets nothing but the lengths that come last,
since `addDeferredMultiBulkLength` does not ask. -/
def Writes.bytes (closing : Bool) : Writes → Bytes
  | done => []
  | add s rest => (if closing then [] else s) ++ rest.bytes closing
  | deferred body n rest => OutClient.mbulkhdr n ++ body.bytes closing ++ rest.bytes closing

/-! ### Sending -/

/-- The result of `write`: at most so many bytes and one more, `EAGAIN`, or another error. -/
inductive WriteResult where
  | bytes (n : Nat)
  | again
  | failed
  deriving DecidableEq, Repr

namespace OutClient

/-- Empty strings at the head of the list, `networking.c:800–803`. -/
def skipEmpty (c : OutClient) : OutClient :=
  if c.buf = [] then { c with reply := c.reply.dropWhile (·.ptr = some []) } else c

/-- The bytes that `write` is given. -/
def front (c : OutClient) : Option Bytes :=
  if c.buf ≠ [] then some (c.buf.drop c.sentlen)
  else
    match c.reply with
    | [] => some []
    | node :: _ => node.ptr.map (·.drop c.sentlen)

/-- Bytes have been written, `networking.c:783–794` and `805–815`. -/
def advance (c : OutClient) (nwritten : Nat) : OutClient :=
  let sentlen := c.sentlen + nwritten
  if c.buf ≠ [] then
    if sentlen = c.buf.length then { c with buf := [], sentlen := 0 }
    else { c with sentlen := sentlen }
  else
    match c.reply with
    | ⟨_, some s⟩ :: rest =>
      if sentlen = s.length then { c with reply := rest, sentlen := 0 }
      else { c with sentlen := sentlen }
    | _ => c

end OutClient

/-- The loop of `sendReplyToClient`, `networking.c:782–829`: what is written, whether the connection
is all right, and the client. It stops after 64 kilobytes unless the server is short of memory. -/
def sendFrom (overMemory : Bool) :
    List WriteResult → Nat → OutClient → Option (Bytes × Bool × OutClient)
  | [], _, c => some ([], true, c.skipEmpty)
  | w :: ws, totwritten, c =>
    let c := c.skipEmpty
    if c.isIdle then some ([], true, c)
    else
      match c.front with
      | none => none
      | some s =>
        match w with
        | .again => some ([], true, c)
        | .failed => some ([], false, c)
        | .bytes n =>
          let nwritten := min (n + 1) s.length
          if nwritten = 0 then some ([], true, c)
          else
            let c := c.advance nwritten
            if 64 * 1024 < totwritten + nwritten && !overMemory then
              some (s.take nwritten, true, c)
            else
              (sendFrom overMemory ws (totwritten + nwritten) c).map fun (out, ok, c) ↦
                (s.take nwritten ++ out, ok, c)

/-- `sendReplyToClient`, `networking.c:774–854`. -/
def sendReplyToClient (overMemory : Bool) (ws : List WriteResult) (c : OutClient) :
    Option (Bytes × OutClient) :=
  (sendFrom overMemory ws 0 c).map fun (out, ok, c) ↦
    if !ok then (out, { c with freed := true })
    else if c.isIdle then
      (out, { c with sentlen := 0, writable := false, freed := c.closing })
    else (out, c)

/-- What happens to the output of a connection. -/
inductive OutStep where
  | reply (w : Writes)
  | close
  | send (overMemory : Bool) (ws : List WriteResult)
  deriving DecidableEq, Repr

namespace OutStep

/-- The bytes that a step adds. -/
def given (c : OutClient) : OutStep → Bytes
  | reply w => if c.freed then [] else w.bytes c.closing
  | close | send _ _ => []

/-- Take a step: the bytes that are written, and the client. -/
def run (c : OutClient) : OutStep → Option (Bytes × OutClient)
  | reply w => some ([], if c.freed then c else w.run c)
  | close => some ([], { c with closing := true })
  | send overMemory ws =>
    if c.writable && !c.freed then sendReplyToClient overMemory ws c else some ([], c)

/-- Take all steps: what is added, what is written, and the client. -/
def runAll : List OutStep → OutClient → Option (Bytes × Bytes × OutClient)
  | [], c => some ([], [], c)
  | x :: xs, c => do
    let (out, c') ← x.run c
    let (given', out', c'') ← runAll xs c'
    return (x.given c ++ given', out ++ out', c'')

end OutStep

/-! ### What the lists hold -/

/-- The bytes of a list of nodes. -/
def nodeBytes (nodes : List ReplyNode) : Bytes := nodes.flatMap fun n ↦ n.ptr.getD []

/-- No length is missing. -/
def Known (nodes : List ReplyNode) : Prop := ∀ n ∈ nodes, n.ptr.isSome = true

@[simp] private theorem nodeBytes_nil : nodeBytes [] = [] := rfl

@[simp] private theorem nodeBytes_append (xs ys : List ReplyNode) :
    nodeBytes (xs ++ ys) = nodeBytes xs ++ nodeBytes ys := List.flatMap_append

@[simp] private theorem nodeBytes_cons (n : ReplyNode) (nodes : List ReplyNode) :
    nodeBytes (n :: nodes) = n.ptr.getD [] ++ nodeBytes nodes := List.flatMap_cons

private theorem known_append {xs ys : List ReplyNode} (hx : Known xs) (hy : Known ys) :
    Known (xs ++ ys) := List.forall_mem_append.mpr ⟨hx, hy⟩

private theorem known_single (id : Nat) (s : Bytes) : Known [⟨id, some s⟩] := by
  intro n hn
  rw [List.mem_singleton] at hn
  rw [hn]
  rfl

/-- The bytes that have been added and not been sent. -/
def OutClient.pending (c : OutClient) : Bytes := (c.buf ++ nodeBytes c.reply).drop c.sentlen

/-- The string that is sent at present. -/
def OutClient.current (c : OutClient) : Bytes :=
  if c.buf ≠ [] then c.buf
  else
    match c.reply with
    | [] => []
    | n :: _ => n.ptr.getD []

/-- What holds at any time. Bytes that wait have the event loop call `sendReplyToClient`. -/
structure OutReady (c : OutClient) : Prop where
  ids : ∀ n ∈ c.reply, n.id < c.fresh
  sent : c.sentlen = 0 ∨ c.sentlen < c.current.length
  room : c.buf.length ≤ 16 * 1024
  wakes : c.isIdle = false → c.writable = true

namespace OutClient

variable {c : OutClient} {s : Bytes}

private theorem isIdle_iff : c.isIdle = true ↔ c.buf = [] ∧ c.reply = [] := by
  simp [isIdle]

@[simp] private theorem prepareClientToWrite_fields :
    c.prepareClientToWrite.buf = c.buf ∧ c.prepareClientToWrite.reply = c.reply ∧
      c.prepareClientToWrite.sentlen = c.sentlen ∧ c.prepareClientToWrite.closing = c.closing ∧
      c.prepareClientToWrite.freed = c.freed ∧ c.prepareClientToWrite.fresh = c.fresh := by
  rw [prepareClientToWrite]
  split <;> simp

/-- The handler is installed before bytes are added. -/
private theorem ready_prepare (h : OutReady c) :
    OutReady c.prepareClientToWrite ∧ c.prepareClientToWrite.writable = true := by
  rw [prepareClientToWrite]
  split
  · exact ⟨⟨h.ids, h.sent, h.room, fun _ ↦ rfl⟩, rfl⟩
  · next hidle => exact ⟨h, h.wakes (by simpa using hidle)⟩

/-- A node at the end does not come before the string that is sent. -/
private theorem sent_of_append {nodes : List ReplyNode}
    (h : c.sentlen = 0 ∨ c.sentlen < c.current.length) :
    c.sentlen = 0 ∨
      c.sentlen < ({ c with reply := c.reply ++ nodes } : OutClient).current.length := by
  refine h.imp_right fun h ↦ ?_
  rw [current] at h ⊢
  by_cases hbuf : c.buf ≠ []
  · rw [if_pos hbuf] at h ⊢
    exact h
  · rw [if_neg hbuf] at h ⊢
    cases hreply : c.reply with
    | nil =>
      rw [hreply] at h
      exact absurd h (Nat.not_lt_zero _)
    | cons n rest =>
      rw [hreply] at h
      exact h

private theorem ready_addNodeTail (h : OutReady c) (hw : c.writable = true) (ptr : Option Bytes) :
    OutReady (c.addNodeTail ptr) := by
  refine ⟨?_, sent_of_append h.sent, h.room, fun _ ↦ hw⟩
  intro n hn
  rcases List.mem_append.mp hn with hn | hn
  · exact Nat.lt_succ_of_lt (h.ids n hn)
  · rw [List.mem_singleton] at hn
    rw [hn]
    exact Nat.lt_succ_self _

end OutClient

/-! ### Replies -/

/-- Nodes to which nothing is added any more: none, or some up to a length that is missing. -/
private def Fixed (nodes : List ReplyNode) : Prop := nodes = [] ∨ ∃ f id, nodes = f ++ [⟨id, none⟩]

/-- Bytes have been added behind fixed nodes. -/
private structure Adds (fixed back : List ReplyNode) (s : Bytes) (c c' : OutClient) : Prop where
  reply : ∃ back', c'.reply = fixed ++ back' ∧ Known back' ∧
    c'.buf ++ nodeBytes back' = c.buf ++ nodeBytes back ++ s
  buf : fixed ≠ [] → c'.buf = c.buf
  ready : OutReady c'
  sentlen : c'.sentlen = c.sentlen
  closing : c'.closing = c.closing
  freed : c'.freed = c.freed
  fresh : c.fresh ≤ c'.fresh

variable {c : OutClient} {s : Bytes} {fixed back : List ReplyNode}

/-- The static buffer is used only while the list is empty. -/
private theorem adds_buffer (hready : OutReady c) (hreply : c.reply = [])
    (hroom : ¬ 16 * 1024 - c.buf.length < s.length) (hw : c.writable = true) :
    Adds [] [] s c { c with buf := c.buf ++ s } := by
  have hlen := hready.room
  refine ⟨⟨[], hreply, fun _ hn ↦ absurd hn List.not_mem_nil, ?_⟩, fun h ↦ absurd rfl h,
    ⟨hready.ids, ?_, ?_, fun _ ↦ hw⟩, rfl, rfl, rfl, Nat.le_refl _⟩
  · simp
  · refine hready.sent.imp_right fun h ↦ ?_
    rw [OutClient.current] at h ⊢
    by_cases hbuf : c.buf ≠ []
    · rw [if_pos hbuf] at h
      rw [if_pos (by simp [hbuf]), List.length_append]
      exact Nat.lt_add_right _ h
    · rw [if_neg hbuf, hreply] at h
      exact absurd h (Nat.not_lt_zero _)
  · rw [List.length_append]
    omega

/-- A new node at the end of the list. -/
private theorem adds_node (hready : OutReady c) (hw : c.writable = true)
    (hreply : c.reply = fixed ++ back) (hback : Known back) :
    Adds fixed back s c (c.addNodeTail (some s)) := by
  refine ⟨⟨back ++ [⟨c.fresh, some s⟩], ?_, known_append hback (known_single _ _), ?_⟩, fun _ ↦ rfl,
    OutClient.ready_addNodeTail hready hw _, rfl, rfl, rfl, Nat.le_succ _⟩
  · rw [OutClient.addNodeTail, hreply, List.append_assoc]
  · simp [OutClient.addNodeTail]

/-- The last string of the list gets longer. -/
private theorem adds_tail {id : Nat} {tail : Bytes} (hready : OutReady c) (hw : c.writable = true)
    (hreply : c.reply = fixed ++ (back ++ [⟨id, some tail⟩])) (hback : Known back) :
    Adds fixed (back ++ [⟨id, some tail⟩]) s c
      { c with reply := c.reply.dropLast ++ [⟨id, some (tail ++ s)⟩] } := by
  have hlast : c.reply.dropLast = fixed ++ back := by
    rw [hreply, ← List.append_assoc, List.dropLast_concat]
  have hold : c.reply = fixed ++ back ++ [⟨id, some tail⟩] := by
    rw [hreply, List.append_assoc]
  refine ⟨⟨back ++ [⟨id, some (tail ++ s)⟩], ?_, known_append hback (known_single _ _), ?_⟩,
    fun _ ↦ rfl, ⟨?_, ?_, hready.room, fun _ ↦ hw⟩, rfl, rfl, rfl, Nat.le_refl _⟩
  · rw [hlast, List.append_assoc]
  · simp
  · intro n hn
    rw [hlast] at hn
    rcases List.mem_append.mp hn with hn | hn
    · exact hready.ids n (by rw [hold]; exact List.mem_append_left _ hn)
    · rw [List.mem_singleton] at hn
      rw [hn]
      exact hready.ids ⟨id, some tail⟩ (by rw [hold]; simp)
  · refine hready.sent.imp_right fun h ↦ ?_
    rw [OutClient.current] at h ⊢
    by_cases hbuf : c.buf ≠ []
    · rw [if_pos hbuf] at h ⊢
      exact h
    · rw [if_neg hbuf, hold] at h
      rw [if_neg hbuf, hlast]
      cases hnodes : fixed ++ back with
      | nil =>
        rw [hnodes] at h
        change c.sentlen < tail.length at h
        change c.sentlen < (tail ++ s).length
        rw [List.length_append]
        omega
      | cons n rest =>
        rw [hnodes] at h
        exact h

/-- A string is added to the list, to its last string if that is possible. -/
private theorem adds_addReplyToList (hready : OutReady c) (hw : c.writable = true)
    (hopen : ¬ c.closing = true) (hreply : c.reply = fixed ++ back) (hfixed : Fixed fixed)
    (hback : Known back) : Adds fixed back s c (c.addReplyToList s) := by
  rw [OutClient.addReplyToList, if_neg hopen]
  rcases List.eq_nil_or_concat' back with rfl | ⟨back', ⟨id, ptr⟩, rfl⟩
  · rw [List.append_nil] at hreply
    rcases hfixed with rfl | ⟨f, id, rfl⟩
    · rw [hreply]
      exact adds_node hready hw (by rw [hreply]; rfl) hback
    · rw [hreply, List.getLast?_concat]
      exact adds_node hready hw (by rw [hreply, List.append_nil]) hback
  · obtain ⟨hback', hknown⟩ := List.forall_mem_append.mp hback
    rw [hreply, ← List.append_assoc, List.getLast?_concat, List.append_assoc, ← hreply]
    cases ptr with
    | none => exact absurd (hknown ⟨id, none⟩ (List.mem_singleton_self _)) (by simp)
    | some tail =>
      dsimp only
      split
      · exact adds_tail hready hw hreply hback'
      · exact adds_node hready hw hreply hback

/-- The handler is installed before. -/
private theorem adds_of_prepare {c' : OutClient} (h : Adds fixed back s c.prepareClientToWrite c') :
    Adds fixed back s c c' := by
  obtain ⟨hbuf, -, hsent, hclosing, hfreed, hfresh⟩ :=
    OutClient.prepareClientToWrite_fields (c := c)
  obtain ⟨back', hreply, hknown, hbytes⟩ := h.reply
  exact ⟨⟨back', hreply, hknown, by rw [hbytes, hbuf]⟩, fun hne ↦ (h.buf hne).trans hbuf, h.ready,
    h.sentlen.trans hsent, h.closing.trans hclosing, h.freed.trans hfreed, hfresh ▸ h.fresh⟩

/-- A string is added, unless the connection closes. -/
private theorem adds_addReply (hready : OutReady c) (hreply : c.reply = fixed ++ back)
    (hfixed : Fixed fixed) (hback : Known back) :
    Adds fixed back (if c.closing then [] else s) c (c.addReply s) := by
  obtain ⟨hready', hw⟩ := OutClient.ready_prepare hready
  obtain ⟨-, hnodes, -, hclosing, -⟩ := OutClient.prepareClientToWrite_fields (c := c)
  rw [← hnodes] at hreply
  apply adds_of_prepare
  rw [← hclosing, OutClient.addReply]
  generalize c.prepareClientToWrite = d at *
  rw [OutClient.addReplyToBuffer]
  by_cases hopen : d.closing = true
  · rw [if_pos hopen, if_pos hopen]
    exact ⟨⟨back, hreply, hback, (List.append_nil _).symm⟩, fun _ ↦ rfl, hready', rfl, rfl, rfl,
      Nat.le_refl _⟩
  rw [if_neg hopen, if_neg hopen]
  have hlist := adds_addReplyToList (s := s) hready' hw hopen hreply hfixed hback
  by_cases hempty : d.reply = []
  · rw [if_neg (not_not_intro hempty)]
    by_cases hroom : 16 * 1024 - d.buf.length < s.length
    · rw [if_pos hroom]
      exact hlist
    · rw [if_neg hroom]
      rw [hempty] at hreply
      obtain ⟨rfl, rfl⟩ := List.append_eq_nil_iff.mp hreply.symm
      exact adds_buffer hready' hempty hroom hw
  · rw [if_pos hempty]
    exact hlist

/-- The node of a length is found behind older nodes, and the next string may be glued to it. -/
private theorem setLength_spec {id : Nat} {nodes rest : List ReplyNode} (s : Bytes)
    (hids : ∀ n ∈ nodes, n.id ≠ id) (hrest : Known rest) :
    ∃ rest', OutClient.setLength id s (nodes ++ ⟨id, none⟩ :: rest) = nodes ++ rest' ∧
      Known rest' ∧ nodeBytes rest' = s ++ nodeBytes rest ∧
      ∀ n ∈ rest', n.id = id ∨ n ∈ rest := by
  induction nodes with
  | nil =>
    rw [List.nil_append, OutClient.setLength, if_pos rfl]
    rcases rest with _ | ⟨⟨id', ptr⟩, rest⟩
    · refine ⟨[⟨id, some s⟩], rfl, known_single _ _, rfl, ?_⟩
      intro n hn
      rw [List.mem_singleton] at hn
      exact Or.inl (by rw [hn])
    · cases ptr with
      | none => exact absurd (hrest ⟨id', none⟩ List.mem_cons_self) (by simp)
      | some t =>
        refine ⟨⟨id, some (s ++ t)⟩ :: rest, rfl, ?_, ?_, ?_⟩
        · exact known_append (known_single id (s ++ t)) (List.forall_mem_cons.mp hrest).2
        · simp
        · intro n hn
          rcases List.mem_cons.mp hn with hn | hn
          · exact Or.inl (by rw [hn])
          · exact Or.inr (List.mem_cons_of_mem _ hn)
  | cons n nodes ih =>
    obtain ⟨hn, hnodes⟩ := List.forall_mem_cons.mp hids
    obtain ⟨rest', hset, hrest'⟩ := ih hnodes
    refine ⟨rest', ?_, hrest'⟩
    rw [List.cons_append, OutClient.setLength, if_neg hn, hset, List.cons_append]

/-- A length that is put in does not change the string that is sent. -/
private theorem sent_of_setLength {id : Nat} {nodes rest rest' : List ReplyNode}
    (hreply : c.reply = nodes ++ ⟨id, none⟩ :: rest)
    (h : c.sentlen = 0 ∨ c.sentlen < c.current.length) :
    c.sentlen = 0 ∨
      c.sentlen < ({ c with reply := nodes ++ rest' } : OutClient).current.length := by
  refine h.imp_right fun h ↦ ?_
  rw [OutClient.current] at h ⊢
  by_cases hbuf : c.buf ≠ []
  · rw [if_pos hbuf] at h ⊢
    exact h
  · rw [if_neg hbuf, hreply] at h
    rw [if_neg hbuf]
    cases nodes with
    | nil => exact absurd h (Nat.not_lt_zero _)
    | cons n nodes => exact h

/-- One addition after another. -/
private theorem Adds.trans {c' c'' : OutClient} {t : Bytes} (h : Adds fixed back s c c')
    (h' : ∀ back', c'.reply = fixed ++ back' → Known back' → Adds fixed back' t c' c'') :
    Adds fixed back (s ++ t) c c'' := by
  obtain ⟨back', hreply, hback, hbytes⟩ := h.reply
  have hnext := h' back' hreply hback
  obtain ⟨back'', hreply', hback', hbytes'⟩ := hnext.reply
  refine ⟨⟨back'', hreply', hback', ?_⟩, fun hne ↦ (hnext.buf hne).trans (h.buf hne), hnext.ready,
    hnext.sentlen.trans h.sentlen, hnext.closing.trans h.closing, hnext.freed.trans h.freed,
    Nat.le_trans h.fresh hnext.fresh⟩
  rw [hbytes', hbytes, List.append_assoc]

/-- A length is put in after the elements, which were added behind its node. -/
private theorem adds_deferred {c' : OutClient} (hready : OutReady c)
    (hreply : c.reply = fixed ++ back) (hback : Known back) (n : Nat)
    (h : Adds (fixed ++ back ++ [⟨c.fresh, none⟩]) [] s (c.addNodeTail none) c') :
    Adds fixed back (OutClient.mbulkhdr n ++ s) c (c'.setDeferredMultiBulkLength c.fresh n) := by
  obtain ⟨elements, hreply', helements, hbytes⟩ := h.reply
  have hbuf : c'.buf = c.buf := h.buf (by simp)
  have hbytes : nodeBytes elements = s := by
    rw [hbuf] at hbytes
    exact List.append_cancel_left (hbytes.trans (by rw [nodeBytes_nil, List.append_nil]; rfl))
  rw [List.append_assoc _ [_], List.singleton_append] at hreply'
  have hids : ∀ n ∈ fixed ++ back, n.id ≠ c.fresh := by
    intro n hn
    exact Nat.ne_of_lt (hready.ids n (by rw [hreply]; exact hn))
  obtain ⟨back', hset, hback', hbytes', hmem⟩ :=
    setLength_spec (OutClient.mbulkhdr n) hids helements
  have hlength : (c'.setDeferredMultiBulkLength c.fresh n).reply = fixed ++ back ++ back' := by
    rw [OutClient.setDeferredMultiBulkLength, hreply', hset]
  refine ⟨⟨back ++ back', ?_, known_append hback hback', ?_⟩, fun _ ↦ hbuf, ?_, h.sentlen,
    h.closing, h.freed, Nat.le_trans (Nat.le_succ _) h.fresh⟩
  · rw [hlength, List.append_assoc]
  · change c'.buf ++ _ = _
    rw [hbuf, nodeBytes_append, hbytes', hbytes, List.append_assoc]
  · refine ⟨?_, ?_, h.ready.room, fun _ ↦ h.ready.wakes (by simp [OutClient.isIdle, hreply'])⟩
    · intro m hm
      rw [hlength] at hm
      change m.id < c'.fresh
      rcases List.mem_append.mp hm with hm | hm
      · exact h.ready.ids m (by rw [hreply']; exact List.mem_append_left _ hm)
      · rcases hmem m hm with hm | hm
        · rw [hm]
          exact h.fresh
        · exact h.ready.ids m (by rw [hreply']; simp [hm])
    · rw [OutClient.setDeferredMultiBulkLength, hreply', hset]
      exact sent_of_setLength (c := c') hreply' h.ready.sent

/-- For all replies: their bytes are added in order, behind nodes that are fixed. -/
private theorem adds_run (w : Writes) (hready : OutReady c) (hreply : c.reply = fixed ++ back)
    (hfixed : Fixed fixed) (hback : Known back) :
    Adds fixed back (w.bytes c.closing) c (w.run c) := by
  induction w generalizing c fixed back with
  | done =>
    exact ⟨⟨back, hreply, hback, (List.append_nil _).symm⟩, fun _ ↦ rfl, hready, rfl, rfl, rfl,
      Nat.le_refl _⟩
  | add s rest ih =>
    have h := adds_addReply (s := s) hready hreply hfixed hback
    rw [Writes.bytes, Writes.run]
    refine h.trans fun back' hreply' hback' ↦ ?_
    rw [← h.closing]
    exact ih h.ready hreply' hfixed hback'
  | deferred body n rest ihBody ihRest =>
    obtain ⟨hready', hw⟩ := OutClient.ready_prepare hready
    obtain ⟨-, hnodes, -, hclosing, -⟩ := OutClient.prepareClientToWrite_fields (c := c)
    rw [← hnodes] at hreply
    apply adds_of_prepare
    rw [← hclosing, Writes.run, OutClient.addDeferredMultiBulkLength, Writes.bytes]
    dsimp only
    generalize c.prepareClientToWrite = d at *
    -- While the body is added, the node of its length is the last one that is fixed.
    have hnode : (d.addNodeTail none).reply = (fixed ++ back ++ [⟨d.fresh, none⟩]) ++ [] := by
      rw [OutClient.addNodeTail, hreply, List.append_nil]
    have hbody := ihBody (OutClient.ready_addNodeTail hready' hw none) hnode
      (Or.inr ⟨_, _, rfl⟩) (fun _ hn ↦ absurd hn List.not_mem_nil)
    have h := adds_deferred hready' hreply hback n hbody
    refine h.trans fun back' hreply' hback' ↦ ?_
    rw [← h.closing]
    exact ihRest h.ready hreply' hfixed hback'

/-! ### Sending -/

/-- What holds when the event loop runs. -/
structure Settled (c : OutClient) : Prop extends OutReady c where
  known : Known c.reply

/-- A reply is appended to the bytes that wait. -/
theorem settled_run (w : Writes) (h : Settled c) :
    Settled (w.run c) ∧ (w.run c).pending = c.pending ++ w.bytes c.closing ∧
      (w.run c).closing = c.closing ∧ (w.run c).freed = c.freed := by
  have hadds : Adds [] c.reply (w.bytes c.closing) c (w.run c) :=
    adds_run w h.toOutReady rfl (Or.inl rfl) h.known
  obtain ⟨back', hreply, hback, hbytes⟩ := hadds.reply
  rw [List.nil_append] at hreply
  rw [← hreply] at hback hbytes
  have hle : c.sentlen ≤ (c.buf ++ nodeBytes c.reply).length := by
    rcases h.sent with hzero | hlt
    · omega
    · rw [OutClient.current] at hlt
      rw [List.length_append]
      split at hlt
      · omega
      · split at hlt
        · exact absurd hlt (Nat.not_lt_zero _)
        · next hnodes =>
          rw [hnodes, nodeBytes_cons, List.length_append]
          omega
  refine ⟨⟨hadds.ready, hback⟩, ?_, hadds.closing, hadds.freed⟩
  rw [OutClient.pending, hbytes, hadds.sentlen, List.drop_append_of_le_length hle,
    OutClient.pending]

/-- Empty strings do not matter. -/
private theorem settled_skipEmpty (h : Settled c) :
    Settled c.skipEmpty ∧ c.skipEmpty.pending = c.pending := by
  rw [OutClient.skipEmpty]
  by_cases hbuf : c.buf = []
  · rw [if_pos hbuf]
    have hdrop : ∀ nodes : List ReplyNode,
        nodeBytes (nodes.dropWhile (·.ptr = some [])) = nodeBytes nodes := by
      intro nodes
      induction nodes with
      | nil => rfl
      | cons n nodes ih =>
        rw [List.dropWhile_cons]
        split
        · next hn =>
          rw [ih, nodeBytes_cons, of_decide_eq_true hn, Option.getD_some, List.nil_append]
        · rfl
    have hsuffix := List.dropWhile_suffix (l := c.reply) (fun n ↦ decide (n.ptr = some []))
    refine ⟨⟨⟨fun n hn ↦ h.ids n (hsuffix.subset hn), ?_, h.room, ?_⟩,
      fun n hn ↦ h.known n (hsuffix.subset hn)⟩, ?_⟩
    · refine h.sent.imp_right fun hlt ↦ ?_
      rw [OutClient.current, if_neg (not_not_intro hbuf)] at hlt ⊢
      cases hreply : c.reply with
      | nil =>
        rw [hreply] at hlt
        exact absurd hlt (Nat.not_lt_zero _)
      | cons n nodes =>
        rw [hreply] at hlt
        dsimp only at hlt
        rw [List.dropWhile_cons, if_neg]
        · exact hlt
        · intro hn
          rw [of_decide_eq_true hn] at hlt
          exact absurd hlt (Nat.not_lt_zero _)
    · intro hidle
      apply h.wakes
      rw [Bool.eq_false_iff, ne_eq, OutClient.isIdle_iff] at hidle ⊢
      rintro ⟨-, hreply⟩
      exact hidle ⟨hbuf, by rw [hreply]; rfl⟩
    · rw [OutClient.pending, hdrop, OutClient.pending]
  · rw [if_neg hbuf]
    exact ⟨h, rfl⟩

/-- The string that is sent has bytes left, and comes first. -/
private structure Sends (c : OutClient) (s : Bytes) : Prop where
  front : c.front = some s
  ne_nil : s ≠ []
  pending : s <+: c.pending
  advance : ∀ n, 0 < n → n ≤ s.length →
    Settled (c.advance n) ∧ (c.advance n).pending = c.pending.drop n

/-- The static buffer is sent first. -/
private theorem sends_buf (h : Settled c) (hbuf : c.buf ≠ []) : Sends c (c.buf.drop c.sentlen) := by
  have hpos := List.length_pos_iff.mpr hbuf
  have hlt : c.sentlen < c.buf.length := by
    rcases h.sent with hzero | hlt
    · omega
    · rwa [OutClient.current, if_pos hbuf] at hlt
  have hwaits : c.isIdle = false := by
    rw [Bool.eq_false_iff, ne_eq, OutClient.isIdle_iff]
    exact fun hidle ↦ hbuf hidle.1
  have hpending : c.pending = c.buf.drop c.sentlen ++ nodeBytes c.reply := by
    rw [OutClient.pending, List.drop_append_of_le_length (Nat.le_of_lt hlt)]
  refine ⟨by rw [OutClient.front, if_pos hbuf], ?_, ⟨_, hpending.symm⟩, ?_⟩
  · rw [ne_eq, List.drop_eq_nil_iff]
    omega
  · intro n hn hle
    rw [List.length_drop] at hle
    rw [OutClient.advance, if_pos hbuf]
    split
    · next hend =>
      refine ⟨⟨⟨h.ids, Or.inl rfl, Nat.zero_le _, fun _ ↦ h.wakes hwaits⟩, h.known⟩, ?_⟩
      rw [hpending, List.drop_append, List.drop_drop, hend, List.drop_length, List.length_drop,
        show n - (c.buf.length - c.sentlen) = 0 by omega]
      rfl
    · refine ⟨⟨⟨h.ids, Or.inr ?_, h.room, fun _ ↦ h.wakes hwaits⟩, h.known⟩, ?_⟩
      · rw [OutClient.current, if_pos hbuf]
        change c.sentlen + n < c.buf.length
        omega
      · rw [OutClient.pending, OutClient.pending, List.drop_drop]

/-- Then the strings of the list are sent. -/
private theorem sends_node (h : Settled c) (hbuf : c.buf = []) {id : Nat} {t : Bytes}
    {nodes : List ReplyNode} (hreply : c.reply = ⟨id, some t⟩ :: nodes) (ht : t ≠ []) :
    Sends c (t.drop c.sentlen) := by
  have hpos := List.length_pos_iff.mpr ht
  have hlt : c.sentlen < t.length := by
    rcases h.sent with hzero | hlt
    · omega
    · rwa [OutClient.current, if_neg (not_not_intro hbuf), hreply] at hlt
  have hwaits : c.isIdle = false := by
    rw [Bool.eq_false_iff, ne_eq, OutClient.isIdle_iff, hreply]
    exact fun hidle ↦ List.cons_ne_nil _ _ hidle.2
  have hpending : c.pending = t.drop c.sentlen ++ nodeBytes nodes := by
    rw [OutClient.pending, hbuf, hreply, nodeBytes_cons, List.nil_append, Option.getD_some,
      List.drop_append_of_le_length (Nat.le_of_lt hlt)]
  have hids := h.ids
  have hknown := h.known
  rw [hreply] at hids hknown
  refine ⟨by rw [OutClient.front, if_neg (not_not_intro hbuf), hreply]; rfl, ?_,
    ⟨_, hpending.symm⟩, ?_⟩
  · rw [ne_eq, List.drop_eq_nil_iff]
    omega
  · intro n hn hle
    rw [List.length_drop] at hle
    rw [OutClient.advance, if_neg (not_not_intro hbuf), hreply]
    dsimp only
    split
    · next hend =>
      refine ⟨⟨⟨fun m hm ↦ hids m (List.mem_cons_of_mem _ hm), Or.inl rfl, h.room,
        fun _ ↦ h.wakes hwaits⟩, fun m hm ↦ hknown m (List.mem_cons_of_mem _ hm)⟩, ?_⟩
      rw [hpending, List.drop_append, List.drop_drop, hend, List.drop_length, List.length_drop,
        show n - (t.length - c.sentlen) = 0 by omega, OutClient.pending, hbuf]
      rfl
    · refine ⟨⟨⟨hids, Or.inr ?_, h.room, fun _ ↦ h.wakes hwaits⟩, hknown⟩, ?_⟩
      · rw [OutClient.current, if_neg (not_not_intro hbuf)]
        change c.sentlen + n < t.length
        omega
      · rw [OutClient.pending, OutClient.pending, List.drop_drop, hreply]

/-- Bytes that wait are sent. -/
private theorem exists_sends (h : Settled c) (hwaits : c.skipEmpty.isIdle = false) :
    ∃ s, Sends c.skipEmpty s := by
  have hskip := (settled_skipEmpty h).1
  by_cases hbuf : c.skipEmpty.buf = []
  · cases hreply : c.skipEmpty.reply with
    | nil =>
      rw [Bool.eq_false_iff, ne_eq, OutClient.isIdle_iff] at hwaits
      exact absurd ⟨hbuf, hreply⟩ hwaits
    | cons n nodes =>
      obtain ⟨id, ptr⟩ := n
      have hknown := hskip.known ⟨id, ptr⟩ (by rw [hreply]; exact List.mem_cons_self)
      obtain ⟨t, rfl⟩ := Option.isSome_iff_exists.mp hknown
      have ht : t ≠ [] := by
        rintro rfl
        have hfirst : c.buf = [] := by
          rw [OutClient.skipEmpty] at hbuf
          split at hbuf <;> assumption
        rw [OutClient.skipEmpty, if_pos hfirst] at hreply
        have hhead :=
          List.head?_dropWhile_not (fun n : ReplyNode ↦ decide (n.ptr = some [])) c.reply
        dsimp only at hreply
        rw [hreply] at hhead
        simp at hhead
      exact ⟨_, sends_node hskip hbuf hreply ht⟩
  · exact ⟨_, sends_buf hskip hbuf⟩

/-- The fields that sending leaves alone. -/
private def Same (c c' : OutClient) : Prop :=
  c'.closing = c.closing ∧ c'.writable = c.writable ∧ c'.freed = c.freed

private theorem same_skipEmpty (c : OutClient) : Same c c.skipEmpty := by
  rw [OutClient.skipEmpty]
  split <;> exact ⟨rfl, rfl, rfl⟩

private theorem same_advance (c : OutClient) (n : Nat) : Same c (c.advance n) := by
  rw [OutClient.advance]
  split
  · split <;> exact ⟨rfl, rfl, rfl⟩
  · split
    · split <;> exact ⟨rfl, rfl, rfl⟩
    · exact ⟨rfl, rfl, rfl⟩

private theorem Same.trans {c c' c'' : OutClient} (h : Same c c') (h' : Same c' c'') : Same c c'' :=
  ⟨h'.1.trans h.1, h'.2.1.trans h.2.1, h'.2.2.trans h.2.2⟩

private theorem pending_of_isIdle (hidle : c.isIdle = true) : c.pending = [] := by
  obtain ⟨hbuf, hreply⟩ := OutClient.isIdle_iff.mp hidle
  rw [OutClient.pending, hbuf, hreply]
  exact List.drop_nil

/-- What the calls of `write` have done. -/
private structure Sent (c : OutClient) (ws : List WriteResult) (out : Bytes) (ok : Bool)
    (c' : OutClient) : Prop where
  settled : Settled c'
  bytes : out ++ c'.pending = c.pending
  same : Same c c'
  failed : ok = false → .failed ∈ ws
  progress : c.pending ≠ [] → ∀ n ws', ws = .bytes n :: ws' → out ≠ []

/-- The loop writes the first bytes that wait. -/
private theorem sendFrom_spec (overMemory : Bool) (ws : List WriteResult) (totwritten : Nat)
    (h : Settled c) :
    ∃ out ok c', sendFrom overMemory ws totwritten c = some (out, ok, c') ∧
      Sent c ws out ok c' := by
  induction ws generalizing totwritten c with
  | nil =>
    obtain ⟨hskip, hpending⟩ := settled_skipEmpty h
    exact ⟨[], true, c.skipEmpty, rfl, hskip, hpending, same_skipEmpty c, (by rintro ⟨⟩),
      (by rintro - n ws' ⟨⟩)⟩
  | cons w ws ih =>
    obtain ⟨hskip, hpending⟩ := settled_skipEmpty h
    have hsame := same_skipEmpty c
    rw [sendFrom]
    by_cases hidle : c.skipEmpty.isIdle = true
    · rw [if_pos hidle]
      refine ⟨[], true, c.skipEmpty, rfl, hskip, hpending, hsame, (by rintro ⟨⟩), ?_⟩
      intro hne
      rw [← hpending] at hne
      exact absurd (pending_of_isIdle hidle) hne
    rw [if_neg hidle]
    obtain ⟨s, hs⟩ := exists_sends h (by simpa using hidle)
    rw [hs.front]
    cases w with
    | again =>
      exact ⟨[], true, c.skipEmpty, rfl, hskip, hpending, hsame, (by rintro ⟨⟩),
        (by rintro - n ws' ⟨⟩)⟩
    | failed =>
      exact ⟨[], false, c.skipEmpty, rfl, hskip, hpending, hsame, fun _ ↦ List.mem_cons_self,
        (by rintro - n ws' ⟨⟩)⟩
    | bytes n =>
      have hpos := List.length_pos_iff.mpr hs.ne_nil
      obtain ⟨hsettled, hrest⟩ := hs.advance (min (n + 1) s.length) (by omega) (by omega)
      have hsame' := hsame.trans (same_advance c.skipEmpty (min (n + 1) s.length))
      have htake : s.take (min (n + 1) s.length) = c.pending.take (min (n + 1) s.length) := by
        obtain ⟨rest, hrest⟩ := hs.pending
        rw [← hpending, ← hrest, List.take_append_of_le_length (by omega)]
      have hne : s.take (min (n + 1) s.length) ≠ [] := by
        rw [ne_eq, List.take_eq_nil_iff, not_or]
        exact ⟨by omega, hs.ne_nil⟩
      dsimp only
      rw [if_neg (by omega), htake]
      rw [htake] at hne
      generalize min (n + 1) s.length = k at *
      split
      · refine ⟨_, _, _, rfl, hsettled, ?_, hsame', (by rintro ⟨⟩), fun _ _ _ _ ↦ hne⟩
        rw [hrest, hpending, List.take_append_drop]
      · obtain ⟨out, ok, c', hrun, hsent⟩ := ih (totwritten + k) hsettled
        rw [hrun]
        refine ⟨_, _, _, rfl, hsent.settled, ?_, hsame'.trans hsent.same,
          fun h ↦ List.mem_cons_of_mem _ (hsent.failed h), fun _ _ _ _ ↦ by simp [hne]⟩
        rw [List.append_assoc, hsent.bytes, hrest, hpending, List.take_append_drop]

/-! ### Whole runs -/

/-- Whether a `write` of a step fails. -/
def OutStep.fails : OutStep → Bool
  | send _ ws => ws.contains .failed
  | reply _ | close => false

/-- What holds of the bytes that have been added and written. A connection that is open has written
the first of them, the others wait, and the next `write` gets on with them; a connection that is
closed has written all of them unless a `write` has failed. -/
structure InOrder (given out : Bytes) (failed : Bool) (c : OutClient) : Prop where
  written : out <+: given
  waiting : c.freed = false → out ++ c.pending = given
  closed : c.freed = true → failed = false → out = given
  wakes : c.freed = false → c.pending ≠ [] → c.writable = true
  progress : c.freed = false → c.pending ≠ [] → ∀ overMemory n ws, ∃ out' c',
    (OutStep.send overMemory (.bytes n :: ws)).run c = some (out', c') ∧ out' ≠ []
  room : c.buf.length ≤ 16 * 1024

/-- The invariant of the steps. -/
private structure Steady (given out : Bytes) (failed : Bool) (c : OutClient) : Prop where
  settled : Settled c
  written : out <+: given
  waiting : c.freed = false → out ++ c.pending = given
  closed : c.freed = true → failed = false → out = given

theorem wakes_of_pending (h : Settled c) (hne : c.pending ≠ []) : c.writable = true := by
  apply h.wakes
  rw [Bool.eq_false_iff]
  exact fun hidle ↦ hne (pending_of_isIdle hidle)

/-- Sending to an open connection. -/
theorem sendReplyToClient_spec (overMemory : Bool) (ws : List WriteResult) (h : Settled c)
    (hopen : c.freed = false) :
    ∃ out c', sendReplyToClient overMemory ws c = some (out, c') ∧ Settled c' ∧
      (∃ rest, out ++ rest = c.pending ∧ (c'.freed = false → c'.pending = rest) ∧
        (c'.freed = true → .failed ∉ ws → rest = [])) ∧
      (c.pending ≠ [] → ∀ n ws', ws = .bytes n :: ws' → out ≠ []) ∧
      c'.closing = c.closing ∧ (.failed ∉ ws → c.closing = false → c'.freed = false) := by
  obtain ⟨out, ok, c', hrun, hsent⟩ := sendFrom_spec overMemory ws 0 h
  have hsettled := hsent.settled
  rw [sendReplyToClient, hrun, Option.map_some]
  cases ok with
  | false =>
    refine ⟨out, { c' with freed := true }, rfl, ⟨⟨hsettled.ids, hsettled.sent, hsettled.room,
      hsettled.wakes⟩, hsettled.known⟩, ⟨c'.pending, hsent.bytes, (by rintro ⟨⟩), ?_⟩,
      hsent.progress, hsent.same.1, ?_⟩
    · exact fun _ hnot ↦ absurd (hsent.failed rfl) hnot
    · exact fun hnot ↦ absurd (hsent.failed rfl) hnot
  | true =>
    dsimp only
    rw [if_neg (by simp)]
    by_cases hidle : c'.isIdle = true
    · rw [if_pos hidle]
      have hnil := pending_of_isIdle hidle
      refine ⟨_, _, rfl, ⟨⟨hsettled.ids, Or.inl rfl, hsettled.room, ?_⟩, hsettled.known⟩,
        ⟨c'.pending, hsent.bytes, fun _ ↦ ?_, fun _ _ ↦ hnil⟩, hsent.progress, hsent.same.1,
        fun _ hclosing ↦ hsent.same.1.trans hclosing⟩
      · intro hwaits
        have hsame : c'.isIdle = false := hwaits
        rw [hidle] at hsame
        cases hsame
      · rw [hnil]
        exact pending_of_isIdle hidle
    · rw [if_neg hidle]
      refine ⟨out, c', rfl, hsettled, ⟨c'.pending, hsent.bytes, fun _ ↦ rfl, ?_⟩, hsent.progress,
        hsent.same.1, fun _ _ ↦ hsent.same.2.2.trans hopen⟩
      intro hfreed
      rw [hsent.same.2.2, hopen] at hfreed
      cases hfreed

variable {given out : Bytes} {failed : Bool}

/-- A step keeps the invariant. -/
private theorem steady_step (h : Steady given out failed c) (x : OutStep) :
    ∃ out' c', x.run c = some (out', c') ∧
      Steady (given ++ x.given c) (out ++ out') (failed || x.fails) c' := by
  cases x with
  | reply w =>
    rw [OutStep.run, OutStep.given, OutStep.fails, Bool.or_false]
    cases hfreed : c.freed with
    | true =>
      refine ⟨[], c, rfl, h.settled, ?_, fun hopen ↦ ?_, fun _ hok ↦ ?_⟩
      · rw [if_pos rfl, List.append_nil, List.append_nil]
        exact h.written
      · rw [hfreed] at hopen
        cases hopen
      · rw [if_pos rfl, List.append_nil, List.append_nil]
        exact h.closed hfreed hok
    | false =>
      obtain ⟨hsettled, hpending, -, hfreed'⟩ := settled_run w h.settled
      refine ⟨[], w.run c, rfl, hsettled, ?_, fun _ ↦ ?_, fun hclosed ↦ ?_⟩
      · rw [List.append_nil]
        exact h.written.trans (List.prefix_append _ _)
      · rw [if_neg (by simp), List.append_nil, hpending, ← List.append_assoc, h.waiting hfreed]
      · rw [hfreed', hfreed] at hclosed
        cases hclosed
  | close =>
    refine ⟨[], { c with closing := true }, rfl,
      ⟨⟨h.settled.ids, h.settled.sent, h.settled.room, h.settled.wakes⟩, h.settled.known⟩,
      ?_, ?_, ?_⟩
    all_goals rw [OutStep.given, List.append_nil, List.append_nil]
    · exact h.written
    · exact h.waiting
    · rw [OutStep.fails, Bool.or_false]
      exact h.closed
  | send overMemory ws =>
    rw [OutStep.run, OutStep.given, List.append_nil, OutStep.fails]
    split
    · next hrun =>
      rw [Bool.and_eq_true, Bool.not_eq_true'] at hrun
      obtain ⟨out', c', hsend, hsettled, ⟨rest, hbytes, hwaiting, hclosed⟩, -⟩ :=
        sendReplyToClient_spec overMemory ws h.settled hrun.2
      have hgiven := h.waiting hrun.2
      rw [← hbytes, ← List.append_assoc] at hgiven
      refine ⟨out', c', hsend, hsettled, ⟨rest, hgiven⟩, fun hopen ↦ ?_, fun hfreed hok ↦ ?_⟩
      · rw [hwaiting hopen, hgiven]
      · rw [Bool.or_eq_false_iff, List.contains_eq_mem, decide_eq_false_iff_not] at hok
        rw [← hgiven, hclosed hfreed hok.2, List.append_nil]
    · refine ⟨[], c, rfl, h.settled, ?_, fun hopen ↦ ?_, fun hfreed hok ↦ ?_⟩
      all_goals rw [List.append_nil]
      · exact h.written
      · exact h.waiting hopen
      · exact h.closed hfreed (Bool.or_eq_false_iff.mp hok).1

/-- All steps keep the invariant. -/
private theorem steady_runAll (h : Steady given out failed c) (xs : List OutStep) :
    ∃ given' out' c', OutStep.runAll xs c = some (given', out', c') ∧
      Steady (given ++ given') (out ++ out') (failed || xs.any OutStep.fails) c' := by
  induction xs generalizing given out failed c with
  | nil =>
    refine ⟨[], [], c, rfl, ?_⟩
    rw [List.append_nil, List.append_nil, List.any_nil, Bool.or_false]
    exact h
  | cons x xs ih =>
    obtain ⟨out₁, c₁, hstep, h₁⟩ := steady_step h x
    obtain ⟨given₂, out₂, c₂, hrun, h₂⟩ := ih h₁
    refine ⟨x.given c ++ given₂, out₁ ++ out₂, c₂, ?_, ?_⟩
    · rw [OutStep.runAll, hstep]
      change (OutStep.runAll xs c₁).bind _ = _
      rw [hrun]
      rfl
    · rw [List.any_cons, ← Bool.or_assoc, ← List.append_assoc, ← List.append_assoc]
      exact h₂

theorem settled_create : Settled OutClient.create :=
  ⟨⟨fun _ hn ↦ absurd hn List.not_mem_nil, Or.inl rfl, Nat.zero_le _, (by rintro ⟨⟩)⟩,
    fun _ hn ↦ absurd hn List.not_mem_nil⟩

/-- For every sequence of replies with lengths that come last, of a close and of calls of `write`
that take any number of bytes: no string is missing when it is sent, and the bytes of the replies
leave in their order, none lost and none twice. -/
theorem replies_in_order (xs : List OutStep) :
    ∃ given out c, OutStep.runAll xs .create = some (given, out, c) ∧
      InOrder given out (xs.any OutStep.fails) c := by
  have hstart : Steady [] [] false OutClient.create :=
    ⟨settled_create, List.prefix_rfl, fun _ ↦ rfl, fun _ _ ↦ rfl⟩
  obtain ⟨given, out, c, hrun, h⟩ := steady_runAll hstart xs
  refine ⟨given, out, c, hrun, h.written, h.waiting, h.closed, fun _ ↦ wakes_of_pending h.settled,
    ?_, h.settled.room⟩
  intro hopen hne overMemory n ws
  obtain ⟨out', c', hsend, -, -, hprogress, -⟩ :=
    sendReplyToClient_spec overMemory (.bytes n :: ws) h.settled hopen
  refine ⟨out', c', ?_, hprogress hne n ws rfl⟩
  rw [OutStep.run, if_pos (by simp [wakes_of_pending h.settled hne, hopen]), hsend]

end MusicComparer.Redis
