import MusicComparer.Redis.Sds
import MusicComparer.System.Program

/-!
# Reading commands from a connection

Library `Redis`, from `redis-2.8.19/src/networking.c`. The bytes of a connection arrive in pieces.
What has arrived is in the query buffer, and the client remembers how far the command that it is
reading has got. An argument of 32 kilobytes or more is read with its own buffer.

A failed assertion and an access outside of a buffer or of the argument vector are `none`. No
command blocks its client, and the commands themselves are not part of this module.
-/

namespace MusicComparer.Redis

open MusicComparer.System

/-- `reqtype`; 0 is `unknown`. -/
inductive ReqType where
  | unknown
  | inline
  | multibulk
  deriving DecidableEq, Repr

/-- The errors after which the connection is closed. -/
inductive ProtocolError where
  | tooBigInline
  | unbalancedQuotes
  | tooBigMbulkCount
  | invalidMultibulkLength
  | tooBigBulkCount
  | expectedDollar (got : UInt8)
  | invalidBulkLength
  deriving DecidableEq, Repr

/-- The text behind `-ERR ` in the reply. -/
def ProtocolError.text : ProtocolError → String
  | tooBigInline => "Protocol error: too big inline request"
  | unbalancedQuotes => "Protocol error: unbalanced quotes in request"
  | tooBigMbulkCount => "Protocol error: too big mbulk count string"
  | invalidMultibulkLength => "Protocol error: invalid multibulk length"
  | tooBigBulkCount => "Protocol error: too big bulk count string"
  | expectedDollar got =>
    "Protocol error: expected '$', got '" ++ String.singleton (Char.ofNat got.toNat) ++ "'"
  | invalidBulkLength => "Protocol error: invalid bulk length"

/-- What a connection has led to. -/
inductive NetEvent where
  | command (argv : List Bytes)
  | quit
  | error (e : ProtocolError)
  deriving DecidableEq, Repr

/-- The fields of `redisClient` that reading uses, with the number of entries of the vector `argv`.
`argc` is the length of `argv`, `bulklen` is `none` for -1, and `closing` is
`REDIS_CLOSE_AFTER_REPLY`. -/
structure NetClient where
  querybuf : Bytes
  reqtype : ReqType
  multibulklen : Nat
  bulklen : Option Nat
  argv : List Bytes
  room : Nat
  closing : Bool
  freed : Bool
  log : List NetEvent
  deriving DecidableEq, Repr

namespace NetClient

/-- A new connection. -/
def create : NetClient := ⟨[], .unknown, 0, none, [], 0, false, false, []⟩

/-- An error reply and `setProtocolError`, `networking.c:929–938`. -/
def protocolError (c : NetClient) (e : ProtocolError) (pos : Nat) : NetClient :=
  { c with querybuf := c.querybuf.drop pos, closing := true, log := c.log ++ [.error e] }

/-- `resetClient`. -/
def reset (c : NetClient) : NetClient :=
  { c with argv := [], reqtype := .unknown, multibulklen := 0, bulklen := none }

end NetClient

/-- Code that reads commands. -/
abbrev Net (α : Type) := Program NetClient α

/-! ### Multi bulk requests -/

/-- Where the reading of a number ends: with `REDIS_ERR`, with `REDIS_OK`, or at a position behind
it. -/
inductive NetStep where
  | err
  | ok
  | go (pos : Nat)
  deriving DecidableEq, Repr

/-- The number of arguments, `networking.c:945–984`. -/
def readMultibulklen : Net NetStep := fun c ↦
  if c.argv ≠ [] then none
  else
    match strchr 13 c.querybuf with
    | none =>
      if 64 * 1024 < c.querybuf.length then some (.err, c.protocolError .tooBigMbulkCount 0)
      else some (.err, c)
    | some newline =>
      if c.querybuf.length < newline + 2 then some (.err, c)
      else if byteAt c.querybuf 0 ≠ 42 then none
      else
        match string2ll ((c.querybuf.drop 1).take (newline - 1)) with
        | none => some (.err, c.protocolError .invalidMultibulkLength 0)
        | some ll =>
          if 1024 * 1024 < ll then some (.err, c.protocolError .invalidMultibulkLength 0)
          else if ll ≤ 0 then some (.ok, { c with querybuf := c.querybuf.drop (newline + 2) })
          else some (.go (newline + 2), { c with multibulklen := ll.toNat, room := ll.toNat })

/-- What an iteration for an argument leads to: the function returns, or the loop is left, or the
position moves on. -/
inductive BulkStep where
  | err
  | stop
  | go (pos : Nat)
  deriving DecidableEq, Repr

/-- The length of an argument if it is not known yet, `networking.c:988–1037`. A long argument gets
the buffer for itself. -/
def readBulklen (pos : Nat) : Net BulkStep := fun c ↦
  match c.bulklen with
  | some _ => some (.go pos, c)
  | none =>
    if c.querybuf.length < pos then none
    else
      match strchr 13 (c.querybuf.drop pos) with
      | none =>
        if 64 * 1024 < c.querybuf.length then some (.err, c.protocolError .tooBigBulkCount 0)
        else some (.stop, c)
      | some i =>
        let newline := pos + i
        if c.querybuf.length < newline + 2 then some (.stop, c)
        else if byteAt c.querybuf pos ≠ 36 then
          some (.err, c.protocolError (.expectedDollar (byteAt c.querybuf pos)) pos)
        else
          match string2ll ((c.querybuf.drop (pos + 1)).take (newline - (pos + 1))) with
          | none => some (.err, c.protocolError .invalidBulkLength pos)
          | some ll =>
            if ll < 0 ∨ 512 * 1024 * 1024 < ll then
              some (.err, c.protocolError .invalidBulkLength pos)
            else if 32 * 1024 ≤ ll then
              some (.go 0, { c with
                querybuf := c.querybuf.drop (newline + 2), bulklen := some ll.toNat })
            else some (.go (newline + 2), { c with bulklen := some ll.toNat })

/-- `c->argv[c->argc++] = ...`. -/
def pushArg (c : NetClient) (arg : Bytes) : Option NetClient :=
  if c.argv.length < c.room then some { c with argv := c.argv ++ [arg] } else none

/-- An argument whose length is known, `networking.c:1039–1065`: the position behind it, or `none`
when there is not enough data. -/
def readBulk (pos : Nat) : Net (Option Nat) := fun c ↦
  match c.bulklen with
  | none => none
  | some len =>
    if c.querybuf.length < pos then none
    else if c.querybuf.length - pos < len + 2 then some (none, c)
    else if pos = 0 && 32 * 1024 ≤ len && c.querybuf.length = len + 2 then do
      let c ← pushArg c (c.querybuf.take len)
      some (some 0, { c with
        querybuf := [], bulklen := none, multibulklen := c.multibulklen - 1 })
    else do
      let c ← pushArg c ((c.querybuf.drop pos).take len)
      some (some (pos + (len + 2)), { c with
        bulklen := none, multibulklen := c.multibulklen - 1 })

/-- The loop over the arguments that are left, `networking.c:987–1066`: the position at its end, or
`none` after an error. -/
def readBulks : Nat → Nat → Net (Option Nat)
  | 0, pos => pure (some pos)
  | n + 1, pos => do
    match ← readBulklen pos with
    | .err => return none
    | .stop => return some pos
    | .go pos =>
      match ← readBulk pos with
      | none => return some pos
      | some pos => readBulks n pos

section

variable {n pos pos' : Nat} {c c' c'' : NetClient}

theorem readBulks_of_err (h : readBulklen pos c = some (.err, c')) :
    readBulks (n + 1) pos c = some (none, c') := by
  change (readBulklen pos c).bind _ = _
  rw [h]
  rfl

theorem readBulks_of_stop (h : readBulklen pos c = some (.stop, c')) :
    readBulks (n + 1) pos c = some (some pos, c') := by
  change (readBulklen pos c).bind _ = _
  rw [h]
  rfl

theorem readBulks_of_wait (h : readBulklen pos c = some (.go pos', c'))
    (h' : readBulk pos' c' = some (none, c'')) :
    readBulks (n + 1) pos c = some (some pos', c'') := by
  change (readBulklen pos c).bind _ = _
  rw [h]
  change (readBulk pos' c').bind _ = _
  rw [h']
  rfl

theorem readBulks_of_read {pos'' : Nat} (h : readBulklen pos c = some (.go pos', c'))
    (h' : readBulk pos' c' = some (some pos'', c'')) :
    readBulks (n + 1) pos c = readBulks n pos'' c'' := by
  change (readBulklen pos c).bind _ = _
  rw [h]
  change (readBulk pos' c').bind _ = _
  rw [h']
  rfl

end

/-- The end of `processMultibulkBuffer`, `networking.c:1068–1075`. -/
def trimTo (pos : Nat) : Net Bool := fun c ↦
  some (c.multibulklen = 0, { c with querybuf := c.querybuf.drop pos })

/-- The arguments from a position on, `networking.c:986–1075`; `true` is `REDIS_OK`. -/
def processBulks (pos : Nat) : Net Bool := do
  let c ← read
  assert (0 < c.multibulklen)
  match ← readBulks c.multibulklen pos with
  | none => return false
  | some pos => trimTo pos

theorem processBulks_of_err {pos : Nat} {c c' : NetClient} (hpos : 0 < c.multibulklen)
    (h : readBulks c.multibulklen pos c = some (none, c')) :
    processBulks pos c = some (false, c') := by
  change (assert (decide (0 < c.multibulklen)) c).bind _ = _
  rw [assert, if_pos (decide_eq_true hpos)]
  change (readBulks c.multibulklen pos c).bind _ = _
  rw [h]
  rfl

theorem processBulks_of_read {pos pos' : Nat} {c c' : NetClient} (hpos : 0 < c.multibulklen)
    (h : readBulks c.multibulklen pos c = some (some pos', c')) :
    processBulks pos c =
      some (decide (c'.multibulklen = 0), { c' with querybuf := c'.querybuf.drop pos' }) := by
  change (assert (decide (0 < c.multibulklen)) c).bind _ = _
  rw [assert, if_pos (decide_eq_true hpos)]
  change (readBulks c.multibulklen pos c).bind _ = _
  rw [h]
  rfl

/-- `processMultibulkBuffer`, `networking.c:940–1076`. -/
def processMultibulkBuffer : Net Bool := fun c ↦
  if c.multibulklen = 0 then
    match readMultibulklen c with
    | none => none
    | some (.err, c) => some (false, c)
    | some (.ok, c) => some (true, c)
    | some (.go pos, c) => processBulks pos c
  else processBulks 0 c

/-! ### Inline requests -/

/-- The end of the line before `newline`, `networking.c:884–885`. -/
def inlineEnd (querybuf : Bytes) (newline : Nat) : Nat :=
  if newline ≠ 0 && byteAt querybuf (newline - 1) = 13 then newline - 1 else newline

/-- `processInlineBuffer`, `networking.c:866–924`: two bytes are removed behind the line, whether it
ends with one or with two; empty arguments are left out. -/
def processInlineBuffer : Net Bool := fun c ↦
  match strchr 10 c.querybuf with
  | none =>
    if 64 * 1024 < c.querybuf.length then some (false, c.protocolError .tooBigInline 0)
    else some (false, c)
  | some newline =>
    let querylen := inlineEnd c.querybuf newline
    match sdssplitargs (c.querybuf.take querylen) with
    | none => some (false, c.protocolError .unbalancedQuotes 0)
    | some argv =>
      some (true, { c with
        querybuf := c.querybuf.drop (querylen + 2)
        argv := argv.filter (!·.isEmpty)
        room := if argv.isEmpty then c.room else argv.length })

/-! ### The connection -/

/-- `tolower`. -/
def tolower (c : UInt8) : UInt8 := if 65 ≤ c && c ≤ 90 then c + 32 else c

/-- The comparison with `quit`, `redis.c:2029`. -/
def isQuit (s : Bytes) : Bool := (s.takeWhile (· != 0)).map tolower = [113, 117, 105, 116]

/-- `processCommand`, as far as the connection goes; `true` is `REDIS_OK`. -/
def processCommand (c : NetClient) : Bool × NetClient :=
  if isQuit (c.argv.headD []) then (false, { c with closing := true, log := c.log ++ [.quit] })
  else (true, { c with log := c.log ++ [.command c.argv] })

/-- The type of a request whose first byte has arrived, `networking.c:1089–1096`. -/
def NetClient.withReqtype (c : NetClient) : NetClient :=
  if c.reqtype = .unknown then
    { c with reqtype := if byteAt c.querybuf 0 = 42 then .multibulk else .inline }
  else c

/-- A request has been read, `networking.c:1106–1113`. -/
def finishRequest (c : NetClient) : NetClient :=
  if c.argv = [] then c.reset
  else
    match processCommand c with
    | (true, c) => c.reset
    | (false, c) => c

/-- The loop of `processInputBuffer`, `networking.c:1078–1115`. Every iteration but the last one
takes bytes from the buffer. -/
def processInputBufferFrom : Nat → NetClient → Option NetClient
  | 0, c => some c
  | fuel + 1, c =>
    if c.querybuf = [] || c.closing then some c
    else
      let c := c.withReqtype
      match if c.reqtype = .inline then processInlineBuffer c else processMultibulkBuffer c with
      | none => none
      | some (false, c) => some c
      | some (true, c) => processInputBufferFrom fuel (finishRequest c)

/-- `processInputBuffer`. -/
def processInputBuffer (c : NetClient) : Option NetClient :=
  processInputBufferFrom c.querybuf.length c

/-- How many bytes `readQueryFromClient` asks for, `networking.c:1125–1138`: never more than a long
argument has left. -/
def NetClient.readlen (c : NetClient) : Nat :=
  match c.bulklen with
  | some len =>
    if c.reqtype = .multibulk && c.multibulklen ≠ 0 && 32 * 1024 ≤ len then
      min (len + 2 - c.querybuf.length) (16 * 1024)
    else 16 * 1024
  | none => 16 * 1024

/-- `readQueryFromClient` with the bytes that `read` has returned, `networking.c:1140–1177`: no
bytes are the end of the connection. -/
def readQueryFromClient (c : NetClient) (bytes : Bytes) : Option NetClient :=
  if bytes = [] then some { c with freed := true }
  else
    let c := { c with querybuf := c.querybuf ++ bytes }
    if 1024 * 1024 * 1024 < c.querybuf.length then some { c with freed := true }
    else processInputBuffer c

/-- The connection is read as long as there are bytes. Each number is one less than what has arrived
when the bytes are read. -/
def serve : List Nat → Bytes → NetClient → Option (Bytes × NetClient)
  | [], stream, c => some (stream, c)
  | n :: ns, stream, c =>
    if stream = [] || c.freed then some (stream, c)
    else
      let nread := min (n + 1) c.readlen
      match readQueryFromClient c (stream.take nread) with
      | none => none
      | some c => serve ns (stream.drop nread) c

end MusicComparer.Redis
