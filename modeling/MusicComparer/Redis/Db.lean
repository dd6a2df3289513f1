import MusicComparer.Redis.Dict
import MusicComparer.Redis.Keyspace
import MusicComparer.System.Program

/-!
# The database of redis

Library `Redis`, from `redis-2.8.19/src`: the lookups and expiries of `db.c`, and the commands of
the application in `t_string.c`, `t_list.c` and `t_zset.c`. A database has one dictionary for the
values and one for the times, in milliseconds, at which keys expire. A key is removed when it is
looked up after its time (`expireIfNeeded`), or by the active expire cycle of `redis.c` at some
other time; so an expired key may be in the dictionary for long, and no command sees it.

The server is a master that is not loading and runs no script, and its strings, lists and sorted
sets are their abstract values, whatever their encoding. An assertion that fails stops the process.
-/

namespace MusicComparer.Redis

open MusicComparer.Js MusicComparer.System

/-- `redisDb` with the clock `mstime()` and the flag `dict_can_resize`. -/
structure Database (ν : Type) where
  dict : Dict JsString (Value ν)
  expires : Dict JsString Int
  now : Nat
  canResize : Bool

/-- Code that runs on the database. -/
abbrev Db (ν α : Type) := Program (Database ν) α

/-- The replies to the modelled commands. -/
inductive Reply where
  | ok
  | nil
  | int (n : Int)
  | bulk (s : JsString)
  | multi (xs : List JsString)
  | wrongType
  | invalidExpire
  deriving DecidableEq, Repr

/-- The modelled commands. A `SET` has its flags and its time to live in milliseconds; the values of
an `RPUSH` are one and further ones. -/
inductive DbCommand (ν : Type) where
  | set (nx xx : Bool) (expire : Option Int) (k v : JsString)
  | get (k : JsString)
  | expire (k : JsString) (seconds : Int)
  | rpush (k v : JsString) (vs : List JsString)
  | lrange (k : JsString) (start stop : Int)
  | zadd (k : JsString) (score : ν) (member : JsString)
  | del (ks : List JsString)

variable {ν : Type} (hash : JsString → Nat)

/-! ### `db.c` -/

/-- `dictFind(db->dict,key)`, with which `lookupKey` gets the object. -/
def findKey (k : JsString) : Db ν (Option (Value ν)) := fun s ↦
  some ((s.dict.find hash k).2, { s with dict := (s.dict.find hash k).1 })

/-- `dictFind(db->expires,key)`. -/
def findExpire (k : JsString) : Db ν (Option Int) := fun s ↦
  some ((s.expires.find hash k).2, { s with expires := (s.expires.find hash k).1 })

/-- `dictDelete(db->dict,key)`. -/
def deleteKey (k : JsString) : Db ν Bool := fun s ↦
  some ((s.dict.delete hash k).2, { s with dict := (s.dict.delete hash k).1 })

/-- `dictDelete(db->expires,key)`. -/
def deleteExpire (k : JsString) : Db ν Bool := fun s ↦
  some ((s.expires.delete hash k).2, { s with expires := (s.expires.delete hash k).1 })

/-- The object of a key is changed in place. -/
def setObject (k : JsString) (v : Value ν) : Db ν Unit := fun s ↦
  some ((), { s with dict := s.dict.setVal hash k v })

/-- `getExpire`, `db.c:770–781`; -1 is a key that does not expire. -/
def getExpire (k : JsString) : Db ν Int := do
  let s ← read
  if s.expires.size = 0 then return -1
  else
    match ← findExpire hash k with
    | none => return -1
    | some when' => do
      assert (← findKey hash k).isSome
      return when'

/-- `dbDelete`, `db.c:159–168`. -/
def dbDelete (k : JsString) : Db ν Bool := do
  let s ← read
  if 0 < s.expires.size then
    let _ ← deleteExpire hash k
    deleteKey hash k
  else deleteKey hash k

/-- `expireIfNeeded`, `db.c:807–841`. -/
def expireIfNeeded (k : JsString) : Db ν Bool := do
  let when' ← getExpire hash k
  if when' < 0 then return false
  else
    let s ← read
    if s.now ≤ when' then return false
    else dbDelete hash k

/-- `lookupKeyRead` and `lookupKeyWrite`, `db.c:58–73`. -/
def lookupKey (k : JsString) : Db ν (Option (Value ν)) := do
  let _ ← expireIfNeeded hash k
  findKey hash k

/-- `dbAdd`, `db.c:91–97`. -/
def dbAdd (k : JsString) (v : Value ν) : Db ν Unit := fun s ↦
  let (d, added) := s.dict.add hash s.canResize k v
  if added then some ((), { s with dict := d }) else none

/-- `dbOverwrite`, `db.c:104–109`. -/
def dbOverwrite (k : JsString) (v : Value ν) : Db ν Unit := do
  assert (← findKey hash k).isSome
  fun s ↦ some ((), { s with dict := s.dict.replace hash s.canResize k v })

/-- `removeExpire`, `db.c:751–756`. -/
def removeExpire (k : JsString) : Db ν Unit := do
  assert (← findKey hash k).isSome
  let _ ← deleteExpire hash k

/-- `setExpire`, `db.c:758–766`. -/
def setExpire (k : JsString) (when' : Int) : Db ν Unit := do
  assert (← findKey hash k).isSome
  fun s ↦ some ((), { s with expires := s.expires.replaceRaw hash s.canResize k when' })

/-- `setKey`, `db.c:117–126`. -/
def setKey (k : JsString) (v : Value ν) : Db ν Unit := do
  match ← lookupKey hash k with
  | none => dbAdd hash k v
  | some _ => dbOverwrite hash k v
  removeExpire hash k

/-! ### Commands -/

/-- The condition of `t_string.c:79–80`, under which `NX` or `XX` stops a `SET`. -/
def setAborted (nx xx : Bool) (k : JsString) : Db ν Bool :=
  (if nx then Option.isSome <$> lookupKey hash k else pure false) >>= fun taken ↦
    if taken then pure true
    else if xx then Option.isNone <$> lookupKey hash k else pure false

/-- `setGenericCommand`, `t_string.c:65–91`. -/
def setGenericCommand (nx xx : Bool) (expire : Option Int) (k v : JsString) : Db ν Reply := do
  if expire.any (· ≤ 0) then return .invalidExpire
  else
    let aborted ← setAborted hash nx xx k
    if aborted then return .nil
    else
      setKey hash k (.str v)
      match expire with
      | some milliseconds => do
        let s ← read
        setExpire hash k (s.now + milliseconds)
        return .ok
      | none => return .ok

/-- `getGenericCommand`, `t_string.c:145–158`. -/
def getGenericCommand (k : JsString) : Db ν Reply := do
  match ← lookupKey hash k with
  | none => return .nil
  | some (.str s) => return .bulk s
  | some _ => return .wrongType

/-- `expireCommand`, `db.c:854–902`: a time that is not in the future deletes the key. -/
def expireCommand (k : JsString) (seconds : Int) : Db ν Reply := do
  let s ← read
  let when' := seconds * 1000 + s.now
  match ← lookupKey hash k with
  | none => return .int 0
  | some _ => do
    if when' ≤ s.now then
      assert (← dbDelete hash k)
      return .int 1
    else
      setExpire hash k when'
      return .int 1

/-- `pushGenericCommand` at the tail, `t_list.c:295–321`. -/
def rpushCommand (k v : JsString) (vs : List JsString) : Db ν Reply := do
  match ← lookupKey hash k with
  | none => do
    dbAdd hash k (.list [])
    setObject hash k (.list (v :: vs))
    return .int (v :: vs).length
  | some (.list xs) => do
    setObject hash k (.list (xs ++ v :: vs))
    return .int (xs ++ v :: vs).length
  | some _ => return .wrongType

/-- The elements that `lrangeCommand` sends, `t_list.c:534–579`. -/
def listRange (xs : List JsString) (start stop : Int) : List JsString :=
  let llen : Int := xs.length
  let start := if start < 0 then llen + start else start
  let stop := if stop < 0 then llen + stop else stop
  let start := if start < 0 then 0 else start
  if stop < start || llen ≤ start then []
  else
    let stop := if llen ≤ stop then llen - 1 else stop
    let rangelen := stop - start + 1
    (xs.drop start.toNat).take rangelen.toNat

/-- `lrangeCommand`, `t_list.c:525–582`. -/
def lrangeCommand (k : JsString) (start stop : Int) : Db ν Reply := do
  match ← lookupKey hash k with
  | none => return .multi []
  | some (.list xs) => return .multi (listRange xs start stop)
  | some _ => return .wrongType

/-- `zaddGenericCommand` of one member, `t_zset.c:1174–1307`. -/
def zaddCommand (k : JsString) (score : ν) (member : JsString) : Db ν Reply := do
  match ← lookupKey hash k with
  | none => do
    dbAdd hash k (.zset [])
    setObject hash k (.zset [(member, score)])
    return .int 1
  | some (.zset ms) => do
    setObject hash k (.zset (addMember ms score member))
    return .int (if ms.any fun p ↦ p.1 = member then 0 else 1)
  | some _ => return .wrongType

/-- `delCommand`, `db.c:274–288`. -/
def delCommand : List JsString → Db ν Nat
  | [] => return 0
  | k :: ks => do
    let _ ← expireIfNeeded hash k
    let deleted ← dbDelete hash k
    let n ← delCommand ks
    return n + deleted.toNat

/-- Execute a command. -/
def execute : DbCommand ν → Db ν Reply
  | .set nx xx expire k v => setGenericCommand hash nx xx expire k v
  | .get k => getGenericCommand hash k
  | .expire k seconds => expireCommand hash k seconds
  | .rpush k v vs => rpushCommand hash k v vs
  | .lrange k start stop => lrangeCommand hash k start stop
  | .zadd k score member => zaddCommand hash k score member
  | .del ks => do
    let n ← delCommand hash ks
    return .int n

/-! ### Between commands -/

/-- `activeExpireCycleTryExpire`, `redis.c:663–679`, on the entry that the cycle has drawn. -/
def activeExpireCycleTryExpire (k : JsString) : Db ν Bool := do
  match ← findExpire hash k with
  | none => return false
  | some t => do
    let s ← read
    if t < s.now then
      let _ ← dbDelete hash k
      return true
    else return false

/-- `htNeedsResize`, `redis.c:598–605`: less than a tenth of the slots are used. -/
def htNeedsResize {κ α : Type} (d : Dict κ α) : Bool :=
  let size := d.ht0.size + d.ht1.size
  let used := d.size
  0 < size && 0 < used && 4 < size && used * 100 / size < 10

/-- `tryResizeHashTables`, `redis.c:609–614`. -/
def tryResizeHashTables : Db ν Unit := fun s ↦
  some ((), { s with
    dict := if htNeedsResize s.dict then s.dict.resize s.canResize else s.dict
    expires := if htNeedsResize s.expires then s.expires.resize s.canResize else s.expires })

/-- `incrementallyRehash`, `redis.c:623–635`, that has time for `n` calls of `dictRehash(d,100)`. -/
def incrementallyRehash (n : Nat) : Db ν Bool := fun s ↦
  if s.dict.isRehashing then some (true, { s with dict := s.dict.rehash hash (100 * n) })
  else if s.expires.isRehashing then
    some (true, { s with expires := s.expires.rehash hash (100 * n) })
  else some (false, s)

/-- `updateDictResizePolicy`, `redis.c:643–648`: no resizing while a child saves the database. -/
def updateDictResizePolicy (child : Bool) : Db ν Unit := fun s ↦
  some ((), { s with canResize := !child })

/-- What happens to a database: a command, milliseconds that pass, and what the server does
meanwhile. -/
inductive DbStep (γ : Type) where
  | command (c : γ)
  | elapse (milliseconds : Nat)
  | tryExpire (k : JsString)
  | tryResize
  | rehash (n : Nat)
  | resizePolicy (child : Bool)

/-- Take a step; a command has a reply. -/
def DbStep.run : DbStep (DbCommand ν) → Db ν (Option Reply)
  | .command c => do return some (← execute hash c)
  | .elapse milliseconds => fun s ↦ some (none, { s with now := s.now + milliseconds })
  | .tryExpire k => do
    let _ ← activeExpireCycleTryExpire hash k
    return none
  | .tryResize => do
    tryResizeHashTables
    return none
  | .rehash n => do
    let _ ← incrementallyRehash hash n
    return none
  | .resizePolicy child => do
    updateDictResizePolicy child
    return none

/-- Take all steps, and give the replies. -/
def DbStep.runAll : List (DbStep (DbCommand ν)) → Db ν (List (Option Reply))
  | [] => return []
  | x :: xs => do
    let r ← x.run hash
    let rs ← runAll xs
    return r :: rs

/-- A database when the server starts. -/
def Database.create (now : Nat) : Database ν := ⟨.create, .create, now, true⟩

end MusicComparer.Redis
