import Mathlib.Logic.Function.Basic
import MusicComparer.Js.Number

/-!
# The redis keyspace

Library `Redis`, from `redis-2.8.19/src`: `setKey` and `expireGenericCommand` in `db.c`,
`setGenericCommand` and `getGenericCommand` in `t_string.c`, `pushGenericCommand` and
`lrangeCommand` in `t_list.c`, `zaddGenericCommand` in `t_zset.c`. A key holds one typed value;
a command on a value of another type answers `WRONGTYPE` and changes nothing.
-/

namespace MusicComparer.Redis

open MusicComparer.Js

/-- A typed value: string, list, or sorted set as members with their scores. -/
inductive Value (ν : Type) where
  | str (s : JsString)
  | list (xs : List JsString)
  | zset (ms : List (JsString × ν))

/-- A value with its time to live in seconds, `none` when it does not expire. -/
structure Entry (ν : Type) where
  value : Value ν
  expiry : Option Nat

/-- The keyspace of one database. -/
abbrev Keyspace (ν : Type) := JsString → Option (Entry ν)

/-- The write commands of the modelled clients. -/
inductive Command (ν : Type) where
  | set (key value : JsString)
  | expire (key : JsString) (seconds : Nat)
  | rpush (key value : JsString)
  | zadd (key : JsString) (score : ν) (member : JsString)

variable {ν : Type}

/-- Key a command addresses. -/
def Command.key : Command ν → JsString
  | set k _ | expire k _ | rpush k _ | zadd k _ _ => k

/-- `GET`: the string under the key; `none` is the `WRONGTYPE` error. -/
def get (db : Keyspace ν) (k : JsString) : Option (Option JsString) :=
  match db k with
  | none => some none
  | some ⟨.str s, _⟩ => some (some s)
  | some _ => none

/-- The elements from index `start` to index `stop`, negative indices counting from the end. -/
def slice (xs : List JsString) (start stop : Int) : List JsString :=
  let start := max 0 (if start < 0 then xs.length + start else start)
  let stop := if stop < 0 then xs.length + stop else stop
  (xs.take (stop + 1).toNat).drop start.toNat

/-- `LRANGE`: a missing key is an empty list; `none` is the `WRONGTYPE` error. -/
def lrange (db : Keyspace ν) (k : JsString) (start stop : Int) : Option (List JsString) :=
  match db k with
  | none => some []
  | some ⟨.list xs, _⟩ => some (slice xs start stop)
  | some _ => none

/-- The members of a sorted set after `ZADD`. -/
def addMember (ms : List (JsString × ν)) (score : ν) (m : JsString) : List (JsString × ν) :=
  (m, score) :: ms.filter fun p ↦ p.1 != m

/-- The entry under the addressed key after a write; `none` is the `WRONGTYPE` error. `SET`
replaces a value of any type and clears its expiry. -/
def write (old : Option (Entry ν)) : Command ν → Option (Option (Entry ν))
  | .set _ v => some (some ⟨.str v, none⟩)
  | .expire _ n => some (old.map fun e ↦ { e with expiry := some n })
  | .rpush _ v =>
    match old with
    | none => some (some ⟨.list [v], none⟩)
    | some ⟨.list xs, t⟩ => some (some ⟨.list (xs ++ [v]), t⟩)
    | some _ => none
  | .zadd _ x m =>
    match old with
    | none => some (some ⟨.zset [(m, x)], none⟩)
    | some ⟨.zset ms, t⟩ => some (some ⟨.zset (addMember ms x m), t⟩)
    | some _ => none

/-- Execute a write command. A command that fails leaves the keyspace as it was. -/
def exec (db : Keyspace ν) (c : Command ν) : Keyspace ν :=
  match write (db c.key) c with
  | some e => Function.update db c.key e
  | none => db

/-- Remove a key, as the expiry of its time to live does. -/
def del (db : Keyspace ν) (k : JsString) : Keyspace ν := Function.update db k none

/-- The addressed key holds what the command wrote, or what it held when the command failed. -/
theorem exec_key (db : Keyspace ν) (c : Command ν) :
    exec db c c.key = (write (db c.key) c).getD (db c.key) := by
  rw [exec]
  cases h : write (db c.key) c with
  | none => rfl
  | some e => exact Function.update_self c.key e db

/-- A command changes no other key. -/
theorem exec_of_ne (db : Keyspace ν) (c : Command ν) {k : JsString} (h : k ≠ c.key) :
    exec db c k = db k := by
  rw [exec]
  cases write (db c.key) c with
  | none => rfl
  | some e => exact Function.update_of_ne h e db

/-- An entry under another key was there before the command. -/
theorem of_exec {db : Keyspace ν} {c : Command ν} {k : JsString} {e : Entry ν}
    (h : exec db c k = some e) (hk : k ≠ c.key) : db k = some e := by
  rwa [exec_of_ne db c hk] at h

/-- After `SET` the key holds the string, whatever it held before. -/
theorem exec_set (db : Keyspace ν) (k v : JsString) : exec db (.set k v) k = some ⟨.str v, none⟩ :=
  exec_key db (.set k v)

/-- Only `SET` and `EXPIRE` change the entry under a key that holds a string. -/
theorem exec_of_str {db : Keyspace ν} {k s : JsString} {t : Option Nat}
    (h : db k = some ⟨.str s, t⟩) (c : Command ν) (hs : ∀ v, c ≠ .set k v)
    (he : ∀ n, c ≠ .expire k n) : exec db c k = some ⟨.str s, t⟩ := by
  by_cases hk : k = c.key
  · subst hk
    rw [exec_key, h]
    cases c with
    | set k v => exact absurd rfl (hs v)
    | expire k n => exact absurd rfl (he n)
    | rpush k v | zadd k x m => rfl
  · rw [exec_of_ne db c hk, h]

/-- After a write `GET` replies as before, or with the string just set, or with `WRONGTYPE`. -/
theorem get_exec_cases (db : Keyspace ν) (c : Command ν) (k : JsString) :
    get (exec db c) k = get db k ∨ (∃ v, c = .set k v ∧ get (exec db c) k = some (some v)) ∨
      get (exec db c) k = none := by
  by_cases hk : k = c.key
  · subst hk
    unfold get
    rw [exec_key]
    cases c with
    | set k v => exact Or.inr (Or.inl ⟨v, rfl, rfl⟩)
    | expire k n =>
      simp only [write, Command.key]
      rcases db k with _ | ⟨s | xs | ms, t⟩
      all_goals exact Or.inl rfl
    | rpush k v | zadd k x m =>
      simp only [write, Command.key]
      rcases db k with _ | ⟨s | xs | ms, t⟩
      · exact Or.inr (Or.inr rfl)
      all_goals exact Or.inl rfl
  · left
    unfold get
    rw [exec_of_ne db c hk]

/-- A key on which `LRANGE` fails is not made a list by any write. -/
theorem lrange_exec_of_none {db : Keyspace ν} {k : JsString} {i j : Int}
    (h : lrange db k i j = none) (c : Command ν) : lrange (exec db c) k i j = none := by
  by_cases hk : k = c.key
  · subst hk
    unfold lrange at h ⊢
    rw [exec_key]
    cases c with
    | set k v => rfl
    | expire k n | rpush k v | zadd k x m =>
      simp only [write, Command.key] at h ⊢
      rcases hd : db k with _ | ⟨s | xs | ms, t⟩
      · simp [hd] at h
      · rfl
      · simp [hd] at h
      · rfl
  · unfold lrange at h ⊢
    rw [exec_of_ne db c hk]
    exact h

/-- `EXPIRE` changes no value. -/
theorem value_exec_expire {db : Keyspace ν} {k k' : JsString} {n : Nat} {e : Entry ν}
    (h : exec db (.expire k n) k' = some e) : ∃ e', db k' = some e' ∧ e'.value = e.value := by
  by_cases hk : k' = k
  · subst hk
    have he := exec_key db (.expire k' n)
    rw [Command.key, h] at he
    cases hd : db k' with
    | none => simp [write, hd] at he
    | some e' =>
      simp only [write, hd, Option.map_some, Option.getD_some, Option.some_inj] at he
      exact ⟨e', rfl, by rw [he]⟩
  · rw [exec_of_ne db (.expire k n) hk] at h
    exact ⟨e, h, rfl⟩

/-- `RPUSH` on a list or a missing key leaves a list. -/
theorem list_exec_rpush {db : Keyspace ν} {k v : JsString}
    (hl : ∀ e, db k = some e → ∃ xs, e.value = .list xs) {e : Entry ν}
    (h : exec db (.rpush k v) k = some e) : ∃ xs, e.value = .list xs := by
  have he := exec_key db (.rpush k v)
  rw [Command.key, h] at he
  cases hd : db k with
  | none =>
    simp only [write, hd, Option.getD_some, Option.some_inj] at he
    exact ⟨[v], by rw [he]⟩
  | some e' =>
    obtain ⟨value, expiry⟩ := e'
    obtain ⟨xs, hx⟩ := hl _ hd
    simp only at hx
    simp only [write, hd, hx, Option.getD_some, Option.some_inj] at he
    exact ⟨xs ++ [v], by rw [he]⟩

/-- `ZADD` on a sorted set or a missing key leaves a sorted set. -/
theorem zset_exec_zadd {db : Keyspace ν} {k m : JsString} {x : ν}
    (hz : ∀ e, db k = some e → ∃ ms, e.value = .zset ms) {e : Entry ν}
    (h : exec db (.zadd k x m) k = some e) : ∃ ms, e.value = .zset ms := by
  have he := exec_key db (.zadd k x m)
  rw [Command.key, h] at he
  cases hd : db k with
  | none =>
    simp only [write, hd, Option.getD_some, Option.some_inj] at he
    exact ⟨[(m, x)], by rw [he]⟩
  | some e' =>
    obtain ⟨value, expiry⟩ := e'
    obtain ⟨ms, hm⟩ := hz _ hd
    simp only at hm
    simp only [write, hd, hm, Option.getD_some, Option.some_inj] at he
    exact ⟨addMember ms x m, by rw [he]⟩

/-- The key is a list with these elements; a missing key is the empty list. -/
def HoldsList (db : Keyspace ν) (k : JsString) (xs : List JsString) : Prop :=
  db k = none ∧ xs = [] ∨ ∃ t, db k = some ⟨.list xs, t⟩

/-- The key is a sorted set with these members; a missing key is the empty set. -/
def HoldsZset (db : Keyspace ν) (k : JsString) (ms : List (JsString × ν)) : Prop :=
  db k = none ∧ ms = [] ∨ ∃ t, db k = some ⟨.zset ms, t⟩

/-- What a key holds is decided by its entry. -/
theorem HoldsList.congr {db db' : Keyspace ν} {k : JsString} {xs : List JsString}
    (h : HoldsList db k xs) (he : db' k = db k) : HoldsList db' k xs := by
  rwa [HoldsList, he]

theorem HoldsZset.congr {db db' : Keyspace ν} {k : JsString} {ms : List (JsString × ν)}
    (h : HoldsZset db k ms) (he : db' k = db k) : HoldsZset db' k ms := by
  rwa [HoldsZset, he]

/-- `RPUSH` appends. -/
theorem HoldsList.rpush {db : Keyspace ν} {k : JsString} {xs : List JsString}
    (h : HoldsList db k xs) (v : JsString) :
    HoldsList (exec db (.rpush k v)) k (xs ++ [v]) := by
  have he := exec_key db (.rpush k v)
  rcases h with ⟨hd, rfl⟩ | ⟨t, hd⟩
  · exact Or.inr ⟨none, by simpa [Command.key, write, hd] using he⟩
  · exact Or.inr ⟨t, by simpa [Command.key, write, hd] using he⟩

/-- `ZADD` replaces the score of a member, or adds it. -/
theorem HoldsZset.zadd {db : Keyspace ν} {k : JsString} {ms : List (JsString × ν)}
    (h : HoldsZset db k ms) (x : ν) (m : JsString) :
    HoldsZset (exec db (.zadd k x m)) k (addMember ms x m) := by
  have he := exec_key db (.zadd k x m)
  rcases h with ⟨hd, rfl⟩ | ⟨t, hd⟩
  · exact Or.inr ⟨none, by simpa [Command.key, write, hd, addMember] using he⟩
  · exact Or.inr ⟨t, by simpa [Command.key, write, hd] using he⟩

/-- `LRANGE` on a list. -/
theorem HoldsList.lrange {db : Keyspace ν} {k : JsString} {xs : List JsString}
    (h : HoldsList db k xs) (i j : Int) : lrange db k i j = some (slice xs i j) := by
  rcases h with ⟨hd, rfl⟩ | ⟨t, hd⟩
  · simp [Redis.lrange, hd, slice]
  · simp [Redis.lrange, hd]

/-- The last elements of a list, as many as there are. -/
theorem slice_last (xs : List JsString) (n : Nat) (hn : 0 < n) :
    slice xs (-n) (-1) = xs.drop (xs.length - n) := by
  have hstart : (max 0 (if (-(n : Int)) < 0 then (xs.length : Int) + -n else -n)).toNat =
      xs.length - n := by
    rw [if_pos (by omega)]
    omega
  have hstop : ((if (-1 : Int) < 0 then (xs.length : Int) + -1 else -1) + 1).toNat = xs.length := by
    rw [if_pos (by omega)]
    omega
  simp only [slice, hstart, hstop, List.take_length]

end MusicComparer.Redis
