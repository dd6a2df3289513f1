import MusicComparer.Redis.Lazy

/-!
# The requests of the application

Library `Redis`. The application writes, and reads with `GET` and `LRANGE`. Its `Keyspace` has no
clock: a key with a time to live expires at any moment. Every run of the redis code, with its clock
and its dictionaries, is a run of that keyspace.
-/

namespace MusicComparer.Redis

open MusicComparer.Js MusicComparer.System

/-- The requests of the modelled clients. -/
inductive ClientRequest (ν : Type) where
  | write (c : Command ν)
  | get (k : JsString)
  | lrange (k : JsString) (start stop : Int)

variable {ν : Type}

/-- Key a request addresses. -/
def ClientRequest.key : ClientRequest ν → JsString
  | write c => c.key
  | get k | lrange k _ _ => k

/-- The command that redis executes. -/
def ClientRequest.toDb : ClientRequest ν → DbCommand ν
  | write (.set k v) => .set false false none k v
  | write (.expire k n) => .expire k n
  | write (.rpush k v) => .rpush k v []
  | write (.zadd k x m) => .zadd k x m
  | get k => .get k
  | lrange k start stop => .lrange k start stop

/-- The reply to a `GET`. -/
def Reply.ofGet : Option (Option JsString) → Reply
  | none => wrongType
  | some none => nil
  | some (some s) => bulk s

/-- The reply to an `LRANGE`. -/
def Reply.ofLrange : Option (List JsString) → Reply
  | none => wrongType
  | some xs => multi xs

/-- A run of the keyspace: its requests and their replies, with keys that expire in between. The
reply to a write only says whether it failed. -/
inductive Serves : Keyspace ν → List (ClientRequest ν) → List Reply → Prop
  | done (db : Keyspace ν) : Serves db [] []
  | expireKey {db : Keyspace ν} {rs : List (ClientRequest ν)} {out : List Reply} {k : JsString}
      {e : Entry ν} (he : db k = some e) (ht : e.expiry.isSome = true)
      (h : Serves (del db k) rs out) : Serves db rs out
  | write {db : Keyspace ν} {rs : List (ClientRequest ν)} {out : List Reply} {c : Command ν}
      {r : Reply} (hr : r = .wrongType ↔ Redis.write (db c.key) c = none)
      (h : Serves (exec db c) rs out) :
      Serves db (.write c :: rs) (r :: out)
  | get {db : Keyspace ν} {rs : List (ClientRequest ν)} {out : List Reply} {k : JsString}
      (h : Serves db rs out) : Serves db (.get k :: rs) (.ofGet (Redis.get db k) :: out)
  | lrange {db : Keyspace ν} {rs : List (ClientRequest ν)} {out : List Reply} {k : JsString}
      {start stop : Int} (h : Serves db rs out) :
      Serves db (.lrange k start stop :: rs) (.ofLrange (Redis.lrange db k start stop) :: out)

/-! ### The two keyspaces -/

/-- An entry of the keyspace without a clock is there as long as the one with a deadline, and may be
there longer if it has a time to live. -/
private def Follows : Option (Timed ν) → Option (Entry ν) → Prop
  | none, none => True
  | none, some e => e.expiry.isSome = true
  | some _, none => False
  | some x, some e => e.value = x.value ∧ e.expiry.isSome = x.deadline.isSome

/-- Both entries are there, or none of them. -/
private def Matches (x : Option (Timed ν)) (e : Option (Entry ν)) : Prop :=
  x = none ∧ e = none ∨
    ∃ v w n, x = some ⟨v, w⟩ ∧ e = some ⟨v, n⟩ ∧ n.isSome = w.isSome

variable {m : TimedKeyspace ν} {db : Keyspace ν} {t : Nat}

/-- A key of which only the time to live is left expires before a request. -/
private theorem expire_before (h : ∀ k, Follows (m k) (db k)) (k : JsString) :
    ∃ db', (∀ k, Follows (m k) (db' k)) ∧ Matches (m k) (db' k) ∧
      ∀ rs out, Serves db' rs out → Serves db rs out := by
  have hk := h k
  rcases hm : m k with _ | ⟨v, w⟩ <;> rcases hd : db k with _ | ⟨v', n⟩
  · exact ⟨db, h, Or.inl ⟨rfl, hd⟩, fun _ _ h ↦ h⟩
  · rw [hm, hd] at hk
    have hself : del db k k = none := by rw [del, Function.update_self]
    refine ⟨del db k, ?_, Or.inl ⟨rfl, hself⟩, fun _ _ ↦ Serves.expireKey hd hk⟩
    intro k'
    by_cases he : k' = k
    · rw [he, hself, hm]
      trivial
    · rw [del, Function.update_of_ne he]
      exact h k'
  · rw [hm, hd] at hk
    exact hk.elim
  · rw [hm, hd] at hk
    obtain ⟨rfl, hn⟩ := hk
    exact ⟨db, h, Or.inr ⟨v', w, n, rfl, hd, hn⟩, fun _ _ h ↦ h⟩

/-- Entries under the other keys stay. -/
private theorem follows_update (h : ∀ k, Follows (m k) (db k)) {k : JsString}
    {x : Option (Timed ν)} {e : Option (Entry ν)} (hk : Follows x e) (k' : JsString) :
    Follows (Function.update m k x k') (Function.update db k e k') := by
  by_cases he : k' = k
  · rw [he, Function.update_self, Function.update_self]
    exact hk
  · rw [Function.update_of_ne he, Function.update_of_ne he]
    exact h k'

/-- The two keyspaces and the reply after a request. -/
private def Answered (r : ClientRequest ν) (db : Keyspace ν) (x : TimedKeyspace ν × Reply) : Prop :=
  ∃ db', (∀ k, Follows (x.1 k) (db' k)) ∧
    ∀ rs out, Serves db' rs out → Serves db (r :: rs) (x.2 :: out)

/-- A write that succeeds on both keyspaces. -/
private theorem answered_write (h : ∀ k, Follows (m k) (db k)) {c : Command ν} {r : Reply}
    (hr : r ≠ .wrongType) {d : Option (Entry ν)} {x : Option (Timed ν)} {e : Option (Entry ν)}
    (hd : db c.key = d) (he : write d c = some e) (hx : Follows x e) :
    Answered (.write c) db (Function.update m c.key x, r) := by
  rw [← hd] at he
  refine ⟨exec db c, ?_, fun _ _ ↦ Serves.write ?_⟩
  · rw [exec, he]
    exact follows_update h hx
  · rw [he]
    exact ⟨fun h ↦ absurd h hr, fun h ↦ by cases h⟩

/-- A write that fails on both keyspaces. -/
private theorem answered_failed (h : ∀ k, Follows (m k) (db k)) {c : Command ν}
    {d : Option (Entry ν)} (hd : db c.key = d) (he : write d c = none) :
    Answered (.write c) db (m, .wrongType) := by
  rw [← hd] at he
  refine ⟨exec db c, ?_, fun _ _ ↦ Serves.write ⟨fun _ ↦ he, fun _ ↦ rfl⟩⟩
  rw [exec, he]
  exact h

/-- A write with both entries there, or none of them. -/
private theorem answered_command (h : ∀ k, Follows (m k) (db k)) (c : Command ν)
    (hk : Matches (m c.key) (db c.key)) :
    Answered (.write c) db ((ClientRequest.write c).toDb.onKeyspace t m) := by
  cases c with
  | set k v => exact answered_write h (by simp) rfl rfl ⟨rfl, rfl⟩
  | expire k n =>
    rw [ClientRequest.toDb, DbCommand.onKeyspace]
    rcases hk with ⟨hm, hd⟩ | ⟨v, w, i, hm, hd, -⟩
    · rw [Command.key] at hm hd
      have hsame : Function.update m k none = m := by rw [← hm, Function.update_eq_self]
      simp only [hm]
      rw [← hsame]
      exact answered_write h (by simp) hd rfl trivial
    · rw [Command.key] at hm hd
      simp only [hm]
      split
      · exact answered_write h (by simp) hd rfl rfl
      · exact answered_write h (by simp) hd rfl ⟨rfl, rfl⟩
  | rpush k v =>
    rw [ClientRequest.toDb, DbCommand.onKeyspace]
    rcases hk with ⟨hm, hd⟩ | ⟨s | xs | ms, w, i, hm, hd, hi⟩ <;> rw [Command.key] at hm hd <;>
      simp only [hm]
    · exact answered_write h (by simp) hd rfl ⟨rfl, rfl⟩
    · exact answered_failed h hd rfl
    · exact answered_write h (by simp) hd rfl ⟨rfl, hi⟩
    · exact answered_failed h hd rfl
  | zadd k x member =>
    rw [ClientRequest.toDb, DbCommand.onKeyspace]
    rcases hk with ⟨hm, hd⟩ | ⟨s | xs | ms, w, i, hm, hd, hi⟩ <;> rw [Command.key] at hm hd <;>
      simp only [hm]
    · exact answered_write h (by simp) hd rfl ⟨rfl, rfl⟩
    · exact answered_failed h hd rfl
    · exact answered_failed h hd rfl
    · exact answered_write h (by simp) hd rfl ⟨rfl, hi⟩

/-- A request with both entries there, or none of them. -/
private theorem answered_request (h : ∀ k, Follows (m k) (db k)) (r : ClientRequest ν)
    (hk : Matches (m r.key) (db r.key)) : Answered r db (r.toDb.onKeyspace t m) := by
  cases r with
  | write c => exact answered_command h c hk
  | get k =>
    rw [ClientRequest.toDb, DbCommand.onKeyspace]
    have hserves : ∀ rs out, Serves db rs out →
        Serves db (.get k :: rs) (.ofGet (Redis.get db k) :: out) := fun _ _ ↦ Serves.get
    rw [Redis.get] at hserves
    rcases hk with ⟨hm, hd⟩ | ⟨s | xs | ms, w, i, hm, hd, -⟩ <;> rw [ClientRequest.key] at hm hd <;>
      simp only [hm] <;> simp only [hd] at hserves
    all_goals exact ⟨db, h, hserves⟩
  | lrange k start stop =>
    rw [ClientRequest.toDb, DbCommand.onKeyspace]
    have hserves : ∀ rs out, Serves db rs out → Serves db (.lrange k start stop :: rs)
        (.ofLrange (Redis.lrange db k start stop) :: out) := fun _ _ ↦ Serves.lrange
    rw [Redis.lrange] at hserves
    rcases hk with ⟨hm, hd⟩ | ⟨s | xs | ms, w, i, hm, hd, -⟩ <;> rw [ClientRequest.key] at hm hd <;>
      simp only [hm] <;> simp only [hd] at hserves
    all_goals exact ⟨db, h, hserves⟩

/-- Time that passes takes away only entries with a deadline. -/
private theorem follows_at (h : ∀ k, Follows (m k) (db k)) (t : Nat) (k : JsString) :
    Follows (m.at t k) (db k) := by
  have hk := h k
  rw [TimedKeyspace.at]
  rcases hm : m k with _ | ⟨v, w⟩ <;> rw [hm] at hk
  · exact hk
  · rw [Option.filter_some]
    split
    · exact hk
    · next hdead =>
      cases hd : db k with
      | none => trivial
      | some e =>
        rw [hd] at hk
        cases w with
        | none => exact absurd rfl hdead
        | some w => exact hk.2

/-- The request of a step. -/
def DbStep.request? : DbStep (ClientRequest ν) → Option (ClientRequest ν)
  | .command r => some r
  | _ => none

/-- The step of the database for a step with a request. -/
def DbStep.toDb : DbStep (ClientRequest ν) → DbStep (DbCommand ν)
  | .command r => .command r.toDb
  | .elapse milliseconds => .elapse milliseconds
  | .tryExpire k => .tryExpire k
  | .tryResize => .tryResize
  | .rehash n => .rehash n
  | .resizePolicy child => .resizePolicy child

/-- The keyspace with deadlines is a run of the one without a clock. -/
private theorem serves_allOnKeyspace (h : ∀ k, Follows (m k) (db k))
    (xs : List (DbStep (ClientRequest ν))) :
    Serves db (xs.filterMap DbStep.request?)
      ((DbStep.allOnKeyspace (m, t) (xs.map DbStep.toDb)).filterMap id) := by
  induction xs generalizing m db t with
  | nil => exact Serves.done db
  | cons x xs ih =>
    cases x with
    | command r =>
      obtain ⟨db', hfollows, hmatch, hserves⟩ := expire_before h r.key
      obtain ⟨db'', hfollows', hserves'⟩ := answered_request (t := t) hfollows r hmatch
      exact hserves _ _ (hserves' _ _ (ih hfollows'))
    | elapse milliseconds => exact ih (follows_at h _)
    | tryExpire k => exact ih h
    | tryResize => exact ih h
    | rehash n => exact ih h
    | resizePolicy child => exact ih h

/-- For every hash function and every sequence of requests, of milliseconds that pass and of what
the server does meanwhile: no assertion fails, and the requests have the same replies in a run of
the application's keyspace in which only keys with a time to live expire. -/
theorem redis_refines_keyspace (hash : JsString → Nat) (now : Nat)
    (xs : List (DbStep (ClientRequest ν))) :
    ∃ replies s, DbStep.runAll hash (xs.map DbStep.toDb) (Database.create now) = some (replies, s) ∧
      Serves (fun _ ↦ none : Keyspace ν) (xs.filterMap DbStep.request?) (replies.filterMap id) := by
  obtain ⟨replies, s, hrun, rfl⟩ := ensures_runAll hash now (xs.map DbStep.toDb) _ rfl
  refine ⟨_, s, hrun, serves_allOnKeyspace ?_ xs⟩
  intro k
  trivial

end MusicComparer.Redis
