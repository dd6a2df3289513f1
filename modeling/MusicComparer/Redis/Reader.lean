import MusicComparer.Redis.Sds

/-!
# Reading replies from a connection

Library `Redis`, from `redis-2.8.19/deps/hiredis/hiredis.c`. The bytes of replies arrive in pieces,
and replies are nested. The reader keeps the bytes that it has not used and a stack of tasks, one
for each array that it is in and one for the item that it reads, so that it goes on where it
stopped.

A failed assertion and an access outside of an array are `none`. The array that a task fills is kept
with the task until it is complete.
-/

namespace MusicComparer.Redis

/-- `redisReply`. -/
inductive RedisReply where
  | string (s : Bytes)
  | array (elements : List RedisReply)
  | integer (n : Int)
  | nil
  | status (s : Bytes)
  | error (s : Bytes)
  deriving Repr

/-- The types of items. -/
inductive ReplyType where
  | string
  | array
  | integer
  | status
  | error
  deriving DecidableEq, Repr

/-- `redisReadTask`; a type that is not known is -1. `obj` has the elements so far. -/
structure ReadTask where
  type : Option ReplyType
  elements : Int
  idx : Int
  obj : List RedisReply
  deriving Repr

/-- The errors of a reader. -/
inductive ReaderError where
  | protocolByte (got : UInt8)
  | depth
  deriving DecidableEq, Repr

/-- `errstr`. -/
def ReaderError.text : ReaderError → Bytes
  | protocolByte got => "Protocol error, got ".toUTF8.toList ++ sdscatrepr [] [got] ++
      " as reply type byte".toUTF8.toList
  | depth => "No support for nested multi bulk replies with depth > 7".toUTF8.toList

/-- `redisReader`. The task at the top of the stack comes first, so that `ridx` is one less than the
length of `rstack`. -/
structure Reader where
  buf : Bytes
  pos : Nat
  rstack : List ReadTask
  reply : Option RedisReply
  err : Option ReaderError
  deriving Repr

/-- `seekNewline`, `hiredis.c:260–284`: the index of the first `\r\n`. -/
def seekNewline : Bytes → Option Nat
  | [] => none
  | [_] => none
  | a :: b :: s => if a = 13 && b = 10 then some 0 else (seekNewline (b :: s)).map (· + 1)

/-- The loop of `readLongLong`: digits up to `\r`. -/
def readDigits (mult : Int) : Int → Bytes → Int
  | _, [] => -1
  | v, c :: s =>
    if c = 13 then mult * v
    else if 48 ≤ c && c ≤ 57 then readDigits mult (v * 10 + (c.toNat - 48 : Nat)) s
    else -1

/-- `readLongLong`, `hiredis.c:288–313`. -/
def readLongLong : Bytes → Int
  | [] => -1
  | c :: s =>
    if c = 45 then readDigits (-1) 0 s
    else if c = 43 then readDigits 1 0 s
    else readDigits 1 0 (c :: s)

namespace Reader

/-- `redisReaderCreate`. -/
def create : Reader := ⟨[], 0, [], none, none⟩

/-- The bytes that have not been used. -/
def unread (r : Reader) : Bytes := r.buf.drop r.pos

/-- `__redisReaderSetError`. -/
def setError (r : Reader) (e : ReaderError) : Reader :=
  { r with buf := [], pos := 0, rstack := [], reply := none, err := some e }

end Reader

/-- An item with an index is complete: its object is put into the array of its parent, and
`moveToNextTask`, `hiredis.c:330–353`, leaves the arrays that are full. Without a parent it is the
reply. -/
def finishItem : RedisReply → Int → List ReadTask → Option (Option RedisReply × List ReadTask)
  | obj, _, [] => some (some obj, [])
  | obj, idx, prv :: rest =>
    if prv.type ≠ some .array then none
    else if prv.elements ≤ idx then none
    else if idx = prv.elements - 1 then finishItem (.array (prv.obj ++ [obj])) prv.idx rest
    else
      some (none, { type := none, elements := -1, idx := idx + 1, obj := [] } ::
        { prv with obj := prv.obj ++ [obj] } :: rest)

namespace Reader

/-- The reader after an item that ends at a position. -/
def finish (r : Reader) (cur : ReadTask) (rest : List ReadTask) (obj : RedisReply) (pos : Nat) :
    Option (Bool × Reader) :=
  (finishItem obj cur.idx rest).map fun (reply, rstack) ↦
    (true, { r with pos := pos, rstack := rstack, reply := reply.or r.reply })

/-- The object that is made of a line, `hiredis.c:362–374`. -/
def lineObject (type : Option ReplyType) (p : Bytes) (len : Nat) : RedisReply :=
  match type with
  | some .integer => .integer (readLongLong p)
  | some .error => .error (p.take len)
  | _ => .status (p.take len)

/-- `processLineItem`, `hiredis.c:355–387`; `false` is `REDIS_ERR`. -/
def processLineItem (r : Reader) (cur : ReadTask) (rest : List ReadTask) : Option (Bool × Reader) :=
  match seekNewline r.unread with
  | none => some (false, r)
  | some len => r.finish cur rest (lineObject cur.type r.unread len) (r.pos + (len + 2))

/-- `processBulkItem`, `hiredis.c:389–440`. -/
def processBulkItem (r : Reader) (cur : ReadTask) (rest : List ReadTask) : Option (Bool × Reader) :=
  match seekNewline r.unread with
  | none => some (false, r)
  | some i =>
    let bytelen := i + 2
    let len := readLongLong r.unread
    if len < 0 then r.finish cur rest .nil (r.pos + bytelen)
    else if r.pos + (bytelen + (len.toNat + 2)) ≤ r.buf.length then
      r.finish cur rest (.string ((r.unread.drop bytelen).take len.toNat))
        (r.pos + (bytelen + (len.toNat + 2)))
    else some (false, r)

/-- `processMultiBulkItem`, `hiredis.c:442–505`. -/
def processMultiBulkItem (r : Reader) (cur : ReadTask) (rest : List ReadTask) :
    Option (Bool × Reader) :=
  if rest.length = 8 then some (false, r.setError .depth)
  else
    match seekNewline r.unread with
    | none => some (false, r)
    | some len =>
      let elements := readLongLong r.unread
      let pos := r.pos + (len + 2)
      if elements = -1 then r.finish cur rest .nil pos
      else if 0 < elements then
        some (true, { r with
          pos := pos
          rstack := { type := none, elements := -1, idx := 0, obj := [] } ::
            { cur with elements := elements } :: rest })
      else r.finish cur rest (.array []) pos

/-- The type that a byte stands for. -/
def itemType (b : UInt8) : Option ReplyType :=
  if b = 45 then some .error
  else if b = 43 then some .status
  else if b = 58 then some .integer
  else if b = 36 then some .string
  else if b = 42 then some .array
  else none

/-- An item whose type is known. -/
def processTyped (r : Reader) (cur : ReadTask) (rest : List ReadTask) : Option (Bool × Reader) :=
  match cur.type with
  | none => none
  | some .string => r.processBulkItem cur rest
  | some .array => r.processMultiBulkItem cur rest
  | some _ => r.processLineItem cur rest

/-- `processItem`, `hiredis.c:507–554`. -/
def processItem (r : Reader) : Option (Bool × Reader) :=
  match r.rstack with
  | [] => none
  | cur :: rest =>
    if cur.type.isSome then r.processTyped cur rest
    else
      match r.unread with
      | [] => some (false, r)
      | b :: _ =>
        match itemType b with
        | none => some (false, r.setError (.protocolByte b))
        | some type =>
          let cur := { cur with type := some type }
          processTyped { r with pos := r.pos + 1, rstack := cur :: rest } cur rest

/-- The loop of `redisReaderGetReply`; every iteration but the last one uses bytes. -/
def processItems : Nat → Reader → Option Reader
  | 0, r => some r
  | fuel + 1, r =>
    if r.rstack.isEmpty then some r
    else
      match r.processItem with
      | none => none
      | some (false, r) => some r
      | some (true, r) => processItems fuel r

/-- `redisReaderFeed`, `hiredis.c:585–615`. -/
def feed (r : Reader) (bytes : Bytes) : Reader :=
  if r.err.isSome then r else { r with buf := r.buf ++ bytes }

/-- The bytes that have been used are dropped when they are a kilobyte, `hiredis.c:652–656`. -/
def discard (r : Reader) : Reader :=
  if 1024 ≤ r.pos then { r with buf := r.buf.drop r.pos, pos := 0 } else r

/-- `redisReaderGetReply`, `hiredis.c:617–665`: a reply if one is complete. -/
def getReply (r : Reader) : Option (Option RedisReply × Reader) :=
  if r.err.isSome then some (none, r)
  else if r.buf.isEmpty then some (none, r)
  else
    let r := if r.rstack.isEmpty then
        { r with rstack := [{ type := none, elements := -1, idx := -1, obj := [] }] }
      else r
    match processItems (r.unread.length + 1) r with
    | none => none
    | some r =>
      if r.err.isSome then some (none, r)
      else
        let r := r.discard
        if r.rstack.isEmpty then some (r.reply, { r with reply := none }) else some (none, r)

/-- Replies are taken until there is none. -/
def getReplies : Nat → Reader → Option (List RedisReply × Reader)
  | 0, r => some ([], r)
  | fuel + 1, r =>
    match r.getReply with
    | none => none
    | some (none, r) => some ([], r)
    | some (some reply, r) => (getReplies fuel r).map fun (replies, r) ↦ (reply :: replies, r)

/-- Bytes arrive in pieces, and after each of them all replies are taken. -/
def readAll : List Bytes → Reader → Option (List RedisReply × Reader)
  | [], r => some ([], r)
  | bytes :: pieces, r =>
    let r := r.feed bytes
    match getReplies (r.unread.length + 1) r with
    | none => none
    | some (replies, r) => (readAll pieces r).map fun (replies', r) ↦ (replies ++ replies', r)

end Reader

/-! ### Replies of the server -/

/-- A reply as the server writes it; a missing string and a missing array are not the same there. -/
inductive WireReply where
  | bulk (s : Bytes)
  | nullbulk
  | multibulk (elements : List WireReply)
  | nullmultibulk
  | integer (n : Int)
  | status (s : Bytes)
  | error (s : Bytes)
  deriving Repr

/-- `ll2string`. -/
def decimalInt (n : Int) : Bytes := if n < 0 then 45 :: decimal n.natAbs else decimal n.natAbs

mutual

/-- The bytes of a reply: `addReplyBulk`, `addReplyMultiBulkLen`, `addReplyLongLong`,
`addReplyStatus`, `addReplyError` and the shared objects of `redis.c:1221–1240`. -/
def WireReply.encode : WireReply → Bytes
  | .bulk s => 36 :: (decimal s.length ++ 13 :: 10 :: (s ++ [13, 10]))
  | .nullbulk => [36, 45, 49, 13, 10]
  | .multibulk elements => 42 :: (decimal elements.length ++ 13 :: 10 :: encodeAll elements)
  | .nullmultibulk => [42, 45, 49, 13, 10]
  | .integer n => 58 :: (decimalInt n ++ [13, 10])
  | .status s => 43 :: (s ++ [13, 10])
  | .error s => 45 :: (s ++ [13, 10])

/-- The bytes of replies. -/
def encodeAll : List WireReply → Bytes
  | [] => []
  | x :: xs => x.encode ++ encodeAll xs

end

mutual

/-- The reply that the client gets. -/
def WireReply.toReply : WireReply → RedisReply
  | .bulk s => .string s
  | .nullbulk | .nullmultibulk => .nil
  | .multibulk elements => .array (toReplies elements)
  | .integer n => .integer n
  | .status s => .status s
  | .error s => .error s

/-- The replies that the client gets. -/
def toReplies : List WireReply → List RedisReply
  | [] => []
  | x :: xs => x.toReply :: toReplies xs

end

/-- A reply that can be read: a line has no line end inside, and arrays are nested `d` deep at
most. -/
def WireReply.Valid : Nat → WireReply → Prop
  | 0, .multibulk _ | 0, .nullmultibulk => False
  | d + 1, .multibulk elements => ∀ x ∈ elements, Valid d x
  | _, .status s | _, .error s => seekNewline s = none
  | _, .bulk _ | _, .nullbulk | _, .nullmultibulk | _, .integer _ => True

end MusicComparer.Redis
