import Mathlib.Data.Finset.Card
import MusicComparer.Redis.Db

/-!
# Lazy expiry is not seen

Library `Redis`. What the database is for is a keyspace in which every key is gone the moment its
time has passed. The code of `db.c` removes keys later, and moves entries between tables meanwhile;
every command still replies as on that keyspace, and no assertion fails.
-/

namespace MusicComparer.Redis

open MusicComparer.Js MusicComparer.System

/-- A value and the last millisecond in which it is there. -/
structure Timed (ν : Type) where
  value : Value ν
  deadline : Option Int

/-- A keyspace with deadlines. -/
abbrev TimedKeyspace (ν : Type) := JsString → Option (Timed ν)

variable {ν : Type}

/-- The entry has not expired. -/
def Timed.alive (t : Nat) (e : Timed ν) : Bool := e.deadline.all fun w ↦ (t : Int) ≤ w

/-- What is left of a keyspace at a time. -/
def TimedKeyspace.at (m : TimedKeyspace ν) (t : Nat) : TimedKeyspace ν := fun k ↦
  (m k).filter (·.alive t)

/-- The keyspace after a command at time `t`, and the reply. -/
def DbCommand.onKeyspace (t : Nat) (m : TimedKeyspace ν) : DbCommand ν → TimedKeyspace ν × Reply
  | .set nx xx ms k v =>
    if ms.any (· ≤ 0) then (m, .invalidExpire)
    else if nx && (m k).isSome || xx && (m k).isNone then (m, .nil)
    else (Function.update m k (some ⟨.str v, ms.map (t + ·)⟩), .ok)
  | .get k =>
    match m k with
    | none => (m, .nil)
    | some ⟨.str s, _⟩ => (m, .bulk s)
    | some _ => (m, .wrongType)
  | .expire k seconds =>
    match m k with
    | none => (m, .int 0)
    | some e =>
      if seconds ≤ 0 then (Function.update m k none, .int 1)
      else (Function.update m k (some { e with deadline := some (seconds * 1000 + t) }), .int 1)
  | .rpush k v vs =>
    match m k with
    | none => (Function.update m k (some ⟨.list (v :: vs), none⟩), .int (v :: vs).length)
    | some ⟨.list xs, w⟩ =>
      (Function.update m k (some ⟨.list (xs ++ v :: vs), w⟩), .int (xs ++ v :: vs).length)
    | some _ => (m, .wrongType)
  | .lrange k start stop =>
    match m k with
    | none => (m, .multi [])
    | some ⟨.list xs, _⟩ => (m, .multi (slice xs start stop))
    | some _ => (m, .wrongType)
  | .zadd k x member =>
    match m k with
    | none => (Function.update m k (some ⟨.zset [(member, x)], none⟩), .int 1)
    | some ⟨.zset ms, w⟩ =>
      (Function.update m k (some ⟨.zset (addMember ms x member), w⟩),
        .int (if ms.any fun p ↦ p.1 = member then 0 else 1))
    | some _ => (m, .wrongType)
  | .del ks =>
    (fun k ↦ if k ∈ ks then none else m k, .int (ks.toFinset.filter fun k ↦ (m k).isSome).card)

/-- The keyspace and the time after a step; what the server does meanwhile changes nothing. -/
def DbStep.onKeyspace :
    TimedKeyspace ν × Nat → DbStep (DbCommand ν) → (TimedKeyspace ν × Nat) × Option Reply
  | (m, t), .command c => (((c.onKeyspace t m).1, t), some (c.onKeyspace t m).2)
  | (m, t), .elapse milliseconds => ((m.at (t + milliseconds), t + milliseconds), none)
  | s, _ => (s, none)

/-- Take all steps on the keyspace. -/
def DbStep.allOnKeyspace : TimedKeyspace ν × Nat → List (DbStep (DbCommand ν)) → List (Option Reply)
  | _, [] => []
  | s, x :: xs => (x.onKeyspace s).2 :: allOnKeyspace (x.onKeyspace s).1 xs

/-! ### The dictionaries -/

/-- The entry of a value and its time in the two dictionaries, if it has not expired. -/
private def seen (t : Nat) (v : Option (Value ν)) (w : Option Int) : Option (Timed ν) :=
  (v.map fun v ↦ ⟨v, w⟩).filter (·.alive t)

/-- The two dictionaries have these values and times, and a time only for a key that is there. -/
private structure Rep (hash : JsString → Nat) (V : JsString → Option (Value ν))
    (E : JsString → Option Int) (t : Nat) (s : Database ν) : Prop where
  dict : s.dict.Represents hash V
  expires : s.expires.Represents hash E
  keys : ∀ k, (E k).isSome = true → (V k).isSome = true
  nonneg : ∀ k w, E k = some w → 0 ≤ w
  now : s.now = t

variable {hash : JsString → Nat} {V : JsString → Option (Value ν)} {E : JsString → Option Int}
  {t : Nat} {k : JsString} {m : TimedKeyspace ν}

private theorem findKey_spec : Ensures (Rep hash V E t) (findKey hash k)
    fun r s ↦ r = V k ∧ Rep hash V E t s := by
  intro s hs
  obtain ⟨hd, hr⟩ := hs.dict.find k
  exact ⟨_, _, rfl, hr, ⟨hd, hs.expires, hs.keys, hs.nonneg, hs.now⟩⟩

private theorem findExpire_spec : Ensures (Rep hash V E t) (findExpire hash k)
    fun r s ↦ r = E k ∧ Rep hash V E t s := by
  intro s hs
  obtain ⟨hd, hr⟩ := hs.expires.find k
  exact ⟨_, _, rfl, hr, ⟨hs.dict, hd, hs.keys, hs.nonneg, hs.now⟩⟩

private theorem deleteExpire_spec : Ensures (Rep hash V E t) (deleteExpire hash k)
    fun _ s ↦ Rep hash V (Function.update E k none) t s := by
  intro s hs
  refine ⟨_, _, rfl, ⟨hs.dict, (hs.expires.delete k).2, ?_, ?_, hs.now⟩⟩
  · intro k' hk'
    by_cases he : k' = k
    · rw [he, Function.update_self] at hk'
      cases hk'
    · rw [Function.update_of_ne he] at hk'
      exact hs.keys k' hk'
  · intro k' w hk'
    by_cases he : k' = k
    · rw [he, Function.update_self] at hk'
      cases hk'
    · rw [Function.update_of_ne he] at hk'
      exact hs.nonneg k' w hk'

private theorem deleteKey_spec (hE : E k = none) : Ensures (Rep hash V E t) (deleteKey hash k)
    fun r s ↦ r = (V k).isSome ∧ Rep hash (Function.update V k none) E t s := by
  intro s hs
  obtain ⟨hr, hd⟩ := hs.dict.delete k
  refine ⟨_, _, rfl, hr, ⟨hd, hs.expires, ?_, hs.nonneg, hs.now⟩⟩
  intro k' hk'
  by_cases he : k' = k
  · rw [he, hE] at hk'
    cases hk'
  · rw [Function.update_of_ne he]
    exact hs.keys k' hk'

/-- An empty dictionary has no times. -/
private theorem Rep.expires_eq_none {s : Database ν} (hs : Rep hash V E t s)
    (h : s.expires.size = 0) (k : JsString) : E k = none := by
  have hnil : s.expires.entries = [] :=
    List.eq_nil_of_length_eq_zero (hs.expires.wf.size_eq.symm.trans h)
  have hempty := hs.expires.lists
  rw [hnil] at hempty
  exact hempty.eq_none k

private theorem getExpire_spec : Ensures (Rep hash V E t) (getExpire hash k)
    fun r s ↦ r = (E k).getD (-1) ∧ Rep hash V E t s := by
  apply Ensures.read_bind
  intro s hs
  refine Ensures.ite ?_ ?_
  · intro hsize
    apply Ensures.pure
    rintro _ rfl
    exact ⟨by rw [hs.expires_eq_none hsize k]; rfl, hs⟩
  · intro _
    refine Ensures.bind (findExpire_spec.mono (fun _ h ↦ h ▸ hs) fun _ _ h ↦ h) fun r ↦ ?_
    apply Ensures.of_fact
    rintro rfl
    cases hE : E k with
    | none =>
      apply Ensures.pure
      exact fun s hs ↦ ⟨rfl, hs⟩
    | some w =>
      refine Ensures.bind findKey_spec fun r ↦ ?_
      apply Ensures.of_fact
      rintro rfl
      intro s hs
      have hV : (V k).isSome = true := hs.keys k (by rw [hE]; rfl)
      exact Ensures.bind (Ensures.assert hV fun _ h ↦ h)
        (fun _ ↦ Ensures.pure fun _ h ↦ ⟨rfl, h⟩) s hs

private theorem dbDelete_rep : Ensures (Rep hash V E t) (dbDelete hash k)
    fun r s ↦ r = (V k).isSome ∧
      Rep hash (Function.update V k none) (Function.update E k none) t s := by
  apply Ensures.read_bind
  intro s hs
  refine Ensures.ite ?_ ?_
  · intro _
    refine Ensures.bind (deleteExpire_spec.mono (fun _ h ↦ h ▸ hs) fun _ _ h ↦ h) fun _ ↦ ?_
    exact deleteKey_spec (Function.update_self k none E)
  · intro hsize
    have hE : E k = none := hs.expires_eq_none (by omega) k
    rw [← hE, Function.update_eq_self]
    exact (deleteKey_spec hE).mono (fun _ h ↦ h ▸ hs) fun _ _ h ↦ h

/-! ### The keyspace -/

/-- The database shows the keyspace: what it has beyond the keyspace has expired. -/
private def Shows (hash : JsString → Nat) (m : TimedKeyspace ν) (t : Nat) (s : Database ν) : Prop :=
  ∃ V E, Rep hash V E t s ∧ ∀ k, m k = seen t (V k) (E k)

/-- The database shows the keyspace, and has nothing that has expired under the key. -/
private def ShowsAt (hash : JsString → Nat) (m : TimedKeyspace ν) (t : Nat) (k : JsString)
    (s : Database ν) : Prop :=
  ∃ V E, Rep hash V E t s ∧ (∀ k, m k = seen t (V k) (E k)) ∧
    V k = (m k).map (·.value) ∧ E k = (m k).bind (·.deadline)

private theorem ShowsAt.shows {s : Database ν} (h : ShowsAt hash m t k s) : Shows hash m t s := by
  obtain ⟨V, E, hs, hm, -, -⟩ := h
  exact ⟨V, E, hs, hm⟩

private theorem Shows.now {s : Database ν} (h : Shows hash m t s) : s.now = t := by
  obtain ⟨V, E, hs, -⟩ := h
  exact hs.now

/-- A key that has not expired is seen with its time. -/
private theorem seen_of_alive {v : Option (Value ν)} {w : Option Int}
    (h : w.all (fun w ↦ (t : Int) ≤ w) = true) : seen t v w = v.map fun v ↦ ⟨v, w⟩ := by
  cases v with
  | none => rfl
  | some v => exact Option.filter_some_pos h

/-- The entry under the key is replaced by one that has not expired. -/
private theorem Rep.showsAt {s : Database ν} {e : Option (Timed ν)}
    (hm : ∀ k, m k = seen t (V k) (E k)) (he : e.all (·.alive t) = true)
    (hs : Rep hash (Function.update V k (e.map (·.value)))
      (Function.update E k (e.bind (·.deadline))) t s) :
    ShowsAt hash (Function.update m k e) t k s := by
  refine ⟨_, _, hs, ?_, by simp only [Function.update_self], by simp only [Function.update_self]⟩
  intro k'
  by_cases hk : k' = k
  · subst hk
    simp only [Function.update_self]
    cases e with
    | none => rfl
    | some e => exact (seen_of_alive (v := some e.value) (w := e.deadline) he).symm
  · simp only [Function.update_of_ne hk]
    exact hm k'

/-- What a database shows has not expired. -/
private theorem Shows.alive {s : Database ν} (h : Shows hash m t s) (k : JsString) :
    (m k).all (·.alive t) = true := by
  obtain ⟨V, E, -, hm⟩ := h
  rw [hm k, seen]
  cases hv : Option.filter (·.alive t) ((V k).map fun v ↦ (⟨v, E k⟩ : Timed ν)) with
  | none => rfl
  | some e => exact (Option.filter_eq_some_iff.mp hv).2

/-- Under a key that has not expired nothing has to be removed. -/
private theorem Rep.showsAt_of_alive {s : Database ν} (hs : Rep hash V E t s)
    (hm : ∀ k, m k = seen t (V k) (E k)) (hw : (E k).all (fun w ↦ (t : Int) ≤ w) = true) :
    ShowsAt hash m t k s := by
  have hk : m k = (V k).map fun v ↦ ⟨v, E k⟩ := (hm k).trans (seen_of_alive hw)
  refine ⟨V, E, hs, hm, ?_, ?_⟩
  · rw [hk]
    cases V k <;> rfl
  · rw [hk]
    cases hV : V k with
    | none =>
      have := hs.keys k
      rw [hV] at this
      simpa using this
    | some v => rfl

/-- A key that has expired is removed, and nothing of it was seen. -/
private theorem Rep.showsAt_of_expired {s : Database ν}
    (hs : Rep hash (Function.update V k none) (Function.update E k none) t s)
    (hm : ∀ k, m k = seen t (V k) (E k)) {w : Int} (hE : E k = some w) (hw : w < t) :
    ShowsAt hash m t k s := by
  have hnone : m k = none := by
    rw [hm k, hE, seen]
    cases V k with
    | none => rfl
    | some v => exact Option.filter_some_neg (by simpa [Timed.alive] using hw)
  have hupdate := Rep.showsAt (e := none) hm rfl hs
  rwa [← hnone, Function.update_eq_self] at hupdate

/-- `expireIfNeeded` is not seen, and leaves nothing that has expired. -/
private theorem expireIfNeeded_spec : Ensures (Shows hash m t) (expireIfNeeded hash k)
    fun _ s ↦ ShowsAt hash m t k s := by
  refine Ensures.of_exists fun V ↦ Ensures.of_exists fun E ↦ ?_
  refine Ensures.bind (Ensures.with_fact getExpire_spec) fun r ↦ ?_
  refine Ensures.of_fact fun hm ↦ Ensures.of_fact ?_
  rintro rfl
  cases hE : E k with
  | none =>
    rw [Option.getD_none, if_pos (by omega)]
    apply Ensures.pure
    intro s hs
    exact hs.showsAt_of_alive hm (by rw [hE]; rfl)
  | some w =>
    refine Ensures.ite ?_ fun _ ↦ Ensures.read_bind fun s hs ↦ ?_
    · intro hneg s hs
      have := hs.nonneg k w hE
      rw [Option.getD_some] at hneg
      omega
    rw [hs.now, Option.getD_some]
    refine Ensures.ite ?_ ?_
    · intro hw
      apply Ensures.pure
      rintro _ rfl
      exact hs.showsAt_of_alive hm (by rw [hE]; exact decide_eq_true hw)
    · intro hw
      refine dbDelete_rep.mono (fun _ h ↦ h ▸ hs) ?_
      intro r s' h
      exact h.2.showsAt_of_expired hm hE (by omega)

/-- The lookup under a key where nothing has expired. -/
private theorem findKey_at : Ensures (ShowsAt hash m t k) (findKey hash k)
    fun r s ↦ r = (m k).map (·.value) ∧ ShowsAt hash m t k s := by
  rintro s ⟨V, E, hs, hm, hV, hE⟩
  obtain ⟨r, s', hrun, hr, hs'⟩ := findKey_spec s hs
  exact ⟨r, s', hrun, hr.trans hV, V, E, hs', hm, hV, hE⟩

/-- `lookupKey` finds what the keyspace has. -/
private theorem lookupKey_spec : Ensures (Shows hash m t) (lookupKey hash k)
    fun r s ↦ r = (m k).map (·.value) ∧ ShowsAt hash m t k s :=
  Ensures.bind expireIfNeeded_spec fun _ ↦ findKey_at

/-- The assertion that a key is there. -/
private theorem assert_present {α : Type} {p : Db ν α} {Q : α → Database ν → Prop} {e : Timed ν}
    (he : m k = some e) (h : Ensures (ShowsAt hash m t k) p Q) :
    Ensures (ShowsAt hash m t k) (do assert (← findKey hash k).isSome; p) Q := by
  refine Ensures.bind findKey_at fun r ↦ Ensures.of_fact ?_
  rintro rfl
  exact Ensures.bind (Ensures.assert (by rw [he]; rfl) fun _ hs ↦ hs) fun _ ↦ h

/-- Giving a key a value takes no key away. -/
private theorem isSome_update {v : Value ν} (h : ∀ k, (E k).isSome = true → (V k).isSome = true)
    (k' : JsString) (hk' : (E k').isSome = true) :
    (Function.update V k (some v) k').isSome = true := by
  by_cases he : k' = k
  · rw [he, Function.update_self, Option.isSome_some]
  · rw [Function.update_of_ne he]
    exact h k' hk'

/-- A value is written to the dictionary, and the time of the key stays. -/
private theorem showsAt_of_setDict {s : Database ν} {d : Dict JsString (Value ν)} {e : Timed ν}
    (hs : Rep hash V E t s) (hm : ∀ k, m k = seen t (V k) (E k)) (hE : E k = e.deadline)
    (he : e.alive t = true) (hd : d.Represents hash (Function.update V k (some e.value))) :
    ShowsAt hash (Function.update m k (some e)) t k { s with dict := d } := by
  refine Rep.showsAt (V := V) (E := E) hm he ?_
  rw [Option.bind_some, ← hE, Function.update_eq_self]
  exact ⟨hd, hs.expires, isSome_update hs.keys, hs.nonneg, hs.now⟩

/-- The time of a key is written, and its value stays. -/
private theorem showsAt_of_setExpires {s : Database ν} {e : Timed ν}
    (hm : ∀ k, m k = seen t (V k) (E k)) (hV : V k = some e.value) (he : e.alive t = true)
    (hs : Rep hash V (Function.update E k e.deadline) t s) :
    ShowsAt hash (Function.update m k (some e)) t k s := by
  refine Rep.showsAt (V := V) (E := E) hm he ?_
  rw [Option.map_some, ← hV, Function.update_eq_self]
  exact hs

private theorem dbAdd_spec {v : Value ν} (hk : m k = none) :
    Ensures (ShowsAt hash m t k) (dbAdd hash k v)
      fun _ s ↦ ShowsAt hash (Function.update m k (some ⟨v, none⟩)) t k s := by
  rintro s ⟨V, E, hs, hm, hV, hE⟩
  rw [hk] at hV hE
  obtain ⟨hadded, hd⟩ := hs.dict.add s.canResize k v
  rw [hV] at hadded hd
  refine ⟨(), _, ?_, showsAt_of_setDict hs hm hE rfl hd⟩
  simp only [dbAdd, hadded, Option.map_none, Option.isNone_none, if_true]

private theorem setObject_spec {v : Value ν} {e : Timed ν} (hk : m k = some e) :
    Ensures (ShowsAt hash m t k) (setObject hash k v)
      fun _ s ↦ ShowsAt hash (Function.update m k (some { e with value := v })) t k s := by
  intro s hat
  have halive := hat.shows.alive k
  obtain ⟨V, E, hs, hm, hV, hE⟩ := hat
  rw [hk] at hV hE halive
  exact ⟨(), _, rfl, showsAt_of_setDict hs hm hE halive (hs.dict.setVal (by rw [hV]; rfl) v)⟩

private theorem dbOverwrite_spec {v : Value ν} {e : Timed ν} (hk : m k = some e) :
    Ensures (ShowsAt hash m t k) (dbOverwrite hash k v)
      fun _ s ↦ ShowsAt hash (Function.update m k (some { e with value := v })) t k s := by
  apply assert_present hk
  intro s hat
  have halive := hat.shows.alive k
  obtain ⟨V, E, hs, hm, hV, hE⟩ := hat
  rw [hk] at hE halive
  exact ⟨(), _, rfl, showsAt_of_setDict hs hm hE halive (hs.dict.replace s.canResize k v)⟩

private theorem removeExpire_spec {e : Timed ν} (hk : m k = some e) :
    Ensures (ShowsAt hash m t k) (removeExpire hash k)
      fun _ s ↦ ShowsAt hash (Function.update m k (some { e with deadline := none })) t k s := by
  refine assert_present hk (Ensures.bind ?_ fun _ ↦ Ensures.pure fun _ h ↦ h)
  rintro s ⟨V, E, hs, hm, hV, hE⟩
  obtain ⟨r, s', hrun, hs'⟩ := deleteExpire_spec (k := k) s hs
  rw [hk] at hV
  exact ⟨r, s', hrun, showsAt_of_setExpires hm hV rfl hs'⟩

private theorem setExpire_spec {e : Timed ν} {w : Int} (hk : m k = some e) (hw : t ≤ w) :
    Ensures (ShowsAt hash m t k) (setExpire hash k w)
      fun _ s ↦ ShowsAt hash (Function.update m k (some { e with deadline := some w })) t k s := by
  apply assert_present hk
  rintro s ⟨V, E, hs, hm, hV, hE⟩
  rw [hk] at hV
  refine ⟨(), _, rfl, showsAt_of_setExpires hm hV (decide_eq_true hw) ?_⟩
  refine ⟨hs.dict, hs.expires.replaceRaw s.canResize k w, ?_, ?_, hs.now⟩
  · intro k' hk'
    by_cases he : k' = k
    · rw [he, hV]
      rfl
    · rw [Function.update_of_ne he] at hk'
      exact hs.keys k' hk'
  · intro k' w' hk'
    by_cases he : k' = k
    · rw [he, Function.update_self] at hk'
      cases hk'
      omega
    · rw [Function.update_of_ne he] at hk'
      exact hs.nonneg k' w' hk'

private theorem dbDelete_spec : Ensures (ShowsAt hash m t k) (dbDelete hash k)
    fun r s ↦ r = (m k).isSome ∧ ShowsAt hash (Function.update m k none) t k s := by
  rintro s ⟨V, E, hs, hm, hV, -⟩
  obtain ⟨r, s', hrun, hr, hs'⟩ := dbDelete_rep (k := k) s hs
  refine ⟨r, s', hrun, ?_, Rep.showsAt (e := none) hm rfl hs'⟩
  rw [hr, hV, Option.isSome_map]

/-- `setKey` leaves the value and no time, whatever was there. -/
private theorem setKey_spec {v : Value ν} : Ensures (Shows hash m t) (setKey hash k v)
    fun _ s ↦ ShowsAt hash (Function.update m k (some ⟨v, none⟩)) t k s := by
  refine Ensures.bind lookupKey_spec fun r ↦ Ensures.of_fact ?_
  rintro rfl
  have hremove : ∀ {w : Option Int},
      Ensures (ShowsAt hash (Function.update m k (some ⟨v, w⟩)) t k) (removeExpire hash k)
        fun _ s ↦ ShowsAt hash (Function.update m k (some ⟨v, none⟩)) t k s := by
    intro w
    have hself := Function.update_self k (some (⟨v, w⟩ : Timed ν)) m
    have hremove : Ensures (ShowsAt hash _ t k) _ _ := removeExpire_spec hself
    rwa [Function.update_idem] at hremove
  cases hk : m k with
  | none => exact Ensures.bind (dbAdd_spec hk) fun _ ↦ hremove
  | some e => exact Ensures.bind (dbOverwrite_spec hk) fun _ ↦ hremove

/-! ### The commands -/

/-- The reply and the keyspace after a command. -/
private def Post (hash : JsString → Nat) (t : Nat) (x : TimedKeyspace ν × Reply) (r : Reply)
    (s : Database ν) : Prop :=
  r = x.2 ∧ Shows hash x.1 t s

/-- A command that ends with a reply and leaves the keyspace. -/
private theorem ensures_reply {r : Reply} :
    Ensures (ShowsAt hash m t k) (pure r : Db ν Reply) (Post hash t (m, r)) :=
  Ensures.pure fun _ hs ↦ ⟨rfl, hs.shows⟩

private theorem getGenericCommand_spec : Ensures (Shows hash m t) (getGenericCommand hash k)
    (Post hash t ((DbCommand.get k).onKeyspace t m)) := by
  refine Ensures.bind lookupKey_spec fun r ↦ Ensures.of_fact ?_
  rintro rfl
  rw [DbCommand.onKeyspace]
  rcases m k with _ | ⟨v | xs | ms, w⟩
  all_goals exact ensures_reply

/-- `lrangeCommand` sends the elements from the one index to the other. -/
theorem listRange_eq_slice (xs : List JsString) (start stop : Int) :
    listRange xs start stop = slice xs start stop := by
  unfold listRange slice
  dsimp only
  generalize (if start < 0 then (xs.length : Int) + start else start) = i
  generalize (if stop < 0 then (xs.length : Int) + stop else stop) = j
  rw [show (if i < 0 then 0 else i) = max 0 i by split <;> omega, List.drop_take]
  have hpos : 0 ≤ max 0 i := Int.le_max_left 0 i
  generalize max 0 i = i at hpos ⊢
  split
  · next hempty =>
    rw [Bool.or_eq_true, decide_eq_true_eq, decide_eq_true_eq] at hempty
    rcases hempty with hlt | hlt
    · rw [show (j + 1).toNat - i.toNat = 0 by omega, List.take_zero]
    · rw [List.drop_eq_nil_of_le (by omega), List.take_nil]
  · split
    · rw [List.take_of_length_le (by rw [List.length_drop]; omega),
        List.take_of_length_le (by rw [List.length_drop]; omega)]
    · rw [show (j - i + 1).toNat = (j + 1).toNat - i.toNat by omega]

private theorem lrangeCommand_spec {start stop : Int} :
    Ensures (Shows hash m t) (lrangeCommand hash k start stop)
      (Post hash t ((DbCommand.lrange k start stop).onKeyspace t m)) := by
  simp only [lrangeCommand, listRange_eq_slice]
  refine Ensures.bind lookupKey_spec fun r ↦ Ensures.of_fact ?_
  rintro rfl
  rw [DbCommand.onKeyspace]
  rcases m k with _ | ⟨v | xs | ms, w⟩
  all_goals exact ensures_reply

/-- The object of a key that was just added. -/
private theorem setObject_added {v v' : Value ν} :
    Ensures (ShowsAt hash (Function.update m k (some ⟨v, none⟩)) t k) (setObject hash k v')
      fun _ s ↦ ShowsAt hash (Function.update m k (some ⟨v', none⟩)) t k s := by
  have hself := Function.update_self k (some (⟨v, none⟩ : Timed ν)) m
  have hset : Ensures (ShowsAt hash _ t k) (setObject hash k v') _ := setObject_spec hself
  rwa [Function.update_idem] at hset

private theorem rpushCommand_spec {v : JsString} {vs : List JsString} :
    Ensures (Shows hash m t) (rpushCommand hash k v vs)
      (Post hash t ((DbCommand.rpush k v vs).onKeyspace t m)) := by
  refine Ensures.bind lookupKey_spec fun r ↦ Ensures.of_fact ?_
  rintro rfl
  rw [DbCommand.onKeyspace]
  rcases hk : m k with _ | ⟨v' | xs | ms, w⟩
  · exact Ensures.bind (dbAdd_spec hk) fun _ ↦
      Ensures.bind setObject_added fun _ ↦ ensures_reply
  · exact ensures_reply
  · exact Ensures.bind (setObject_spec hk) fun _ ↦ ensures_reply
  · exact ensures_reply

private theorem zaddCommand_spec {x : ν} {member : JsString} :
    Ensures (Shows hash m t) (zaddCommand hash k x member)
      (Post hash t ((DbCommand.zadd k x member).onKeyspace t m)) := by
  refine Ensures.bind lookupKey_spec fun r ↦ Ensures.of_fact ?_
  rintro rfl
  rw [DbCommand.onKeyspace]
  rcases hk : m k with _ | ⟨v' | xs | ms, w⟩
  · exact Ensures.bind (dbAdd_spec hk) fun _ ↦
      Ensures.bind setObject_added fun _ ↦ ensures_reply
  · exact ensures_reply
  · exact ensures_reply
  · exact Ensures.bind (setObject_spec hk) fun _ ↦ ensures_reply

private theorem expireCommand_spec {seconds : Int} :
    Ensures (Shows hash m t) (expireCommand hash k seconds)
      (Post hash t ((DbCommand.expire k seconds).onKeyspace t m)) := by
  refine Ensures.read_bind fun s hs ↦ ?_
  rw [hs.now]
  refine Ensures.bind (lookupKey_spec.mono (fun _ h ↦ h ▸ hs) fun _ _ h ↦ h) fun r ↦ ?_
  apply Ensures.of_fact
  rintro rfl
  rw [DbCommand.onKeyspace]
  rcases hk : m k with _ | e
  · exact ensures_reply
  · refine Ensures.ite ?_ ?_
    · intro hle
      simp only [show seconds ≤ 0 by omega, if_true]
      refine Ensures.bind dbDelete_spec fun r ↦ Ensures.of_fact ?_
      rintro rfl
      exact Ensures.bind (Ensures.assert (by rw [hk]; rfl) fun _ h ↦ h) fun _ ↦ ensures_reply
    · intro hlt
      simp only [show ¬ seconds ≤ 0 by omega, if_false]
      exact Ensures.bind (setExpire_spec hk (by omega)) fun _ ↦ ensures_reply

/-- The lookups of `NX` and `XX` leave the keyspace. -/
private theorem setAborted_spec {nx xx : Bool} :
    Ensures (Shows hash m t) (setAborted hash nx xx k) fun r s ↦
      r = (nx && (m k).isSome || xx && (m k).isNone) ∧ Shows hash m t s := by
  have hlookup : Ensures (Shows hash m t) (lookupKey hash k) fun r s ↦
      r = (m k).map (·.value) ∧ Shows hash m t s :=
    lookupKey_spec.mono (fun _ h ↦ h) fun _ _ h ↦ ⟨h.1, h.2.shows⟩
  refine Ensures.bind (Q := fun r s ↦ r = (nx && (m k).isSome) ∧ Shows hash m t s) ?_
    fun r ↦ Ensures.of_fact ?_
  · refine Ensures.ite ?_ ?_
    · rintro rfl
      refine Ensures.map (hlookup.mono (fun _ h ↦ h) fun r s h ↦ ⟨?_, h.2⟩)
      rw [h.1, Option.isSome_map, Bool.true_and]
    · intro hnx
      rw [Bool.eq_false_of_not_eq_true hnx]
      exact Ensures.pure fun _ hs ↦ ⟨rfl, hs⟩
  rintro rfl
  refine Ensures.ite ?_ fun htaken ↦ Ensures.ite ?_ ?_
  · intro htaken
    rw [htaken]
    exact Ensures.pure fun _ hs ↦ ⟨rfl, hs⟩
  · rintro rfl
    rw [Bool.eq_false_of_not_eq_true htaken]
    refine Ensures.map (hlookup.mono (fun _ h ↦ h) fun r s h ↦ ⟨?_, h.2⟩)
    rw [h.1, Option.isNone_map, Bool.true_and, Bool.false_or]
  · intro hxx
    rw [Bool.eq_false_of_not_eq_true htaken, Bool.eq_false_of_not_eq_true hxx]
    exact Ensures.pure fun _ hs ↦ ⟨rfl, hs⟩

private theorem setGenericCommand_spec {nx xx : Bool} {ms : Option Int} {v : JsString} :
    Ensures (Shows hash m t) (setGenericCommand hash nx xx ms k v)
      (Post hash t ((DbCommand.set nx xx ms k v).onKeyspace t m)) := by
  rw [DbCommand.onKeyspace]
  refine Ensures.ite ?_ ?_
  · intro hinvalid
    rw [if_pos hinvalid]
    exact Ensures.pure fun _ hs ↦ ⟨rfl, hs⟩
  intro hvalid
  rw [if_neg hvalid]
  refine Ensures.bind setAborted_spec fun r ↦ Ensures.of_fact ?_
  rintro rfl
  refine Ensures.ite ?_ ?_
  · intro haborted
    rw [if_pos haborted]
    exact Ensures.pure fun _ hs ↦ ⟨rfl, hs⟩
  intro haborted
  rw [if_neg haborted]
  refine Ensures.bind setKey_spec fun _ ↦ ?_
  cases ms with
  | none => exact ensures_reply
  | some ms =>
    refine Ensures.read_bind fun s hs ↦ ?_
    have hms : 0 < ms := by simpa using hvalid
    have hself := Function.update_self k (some (⟨.str v, none⟩ : Timed ν)) m
    have hset : Ensures (ShowsAt hash _ t k) (setExpire hash k (t + ms)) _ :=
      setExpire_spec hself (by omega)
    rw [Function.update_idem] at hset
    rw [hs.shows.now]
    exact Ensures.bind (hset.mono (fun _ h ↦ h ▸ hs) fun _ _ h ↦ h) fun _ ↦ ensures_reply

/-- One of the keys is counted first, and then the others. -/
private theorem card_present (m : TimedKeyspace ν) (k : JsString) (S : Finset JsString) :
    ((insert k S).filter fun k ↦ (m k).isSome).card =
      (S.filter fun k' ↦ (Function.update m k none k').isSome).card + (m k).isSome.toNat := by
  have hnot : k ∉ S.filter fun k' ↦ (Function.update m k none k').isSome := by
    simp
  have hothers : (insert k S).filter (fun k ↦ (m k).isSome) =
      if (m k).isSome then insert k (S.filter fun k' ↦ (Function.update m k none k').isSome)
      else S.filter fun k' ↦ (Function.update m k none k').isSome := by
    ext k'
    by_cases hk : k' = k
    · subst hk
      cases hm : (m k').isSome <;> simp [hm]
    · cases hm : (m k).isSome <;> simp [hk]
  rw [hothers]
  cases (m k).isSome with
  | false => rfl
  | true => exact Finset.card_insert_of_notMem hnot

/-- `DEL` removes the keys, and counts each of them once. -/
private theorem delCommand_spec {ks : List JsString} :
    Ensures (Shows hash m t) (delCommand hash ks) fun n s ↦
      n = (ks.toFinset.filter fun k ↦ (m k).isSome).card ∧
        Shows hash (fun k ↦ if k ∈ ks then none else m k) t s := by
  induction ks generalizing m with
  | nil =>
    refine Ensures.pure fun _ hs ↦ ⟨rfl, ?_⟩
    simpa using hs
  | cons k ks ih =>
    refine Ensures.bind expireIfNeeded_spec fun _ ↦ ?_
    refine Ensures.bind dbDelete_spec fun r ↦ Ensures.of_fact ?_
    rintro rfl
    refine Ensures.bind (ih.mono (fun _ hs ↦ hs.shows) fun _ _ h ↦ h) fun n ↦ Ensures.of_fact ?_
    rintro rfl
    refine Ensures.pure fun s hs ↦ ⟨?_, ?_⟩
    · rw [List.toFinset_cons, card_present]
    · convert hs using 1
      ext1 k'
      by_cases hk : k' = k
      · simp [hk]
      · simp [hk]

/-- Every command replies as on the keyspace. -/
private theorem execute_spec (c : DbCommand ν) :
    Ensures (Shows hash m t) (execute hash c) (Post hash t (c.onKeyspace t m)) := by
  cases c with
  | set nx xx ms k v => exact setGenericCommand_spec
  | get k => exact getGenericCommand_spec
  | expire k seconds => exact expireCommand_spec
  | rpush k v vs => exact rpushCommand_spec
  | lrange k start stop => exact lrangeCommand_spec
  | zadd k x member => exact zaddCommand_spec
  | del ks =>
    refine Ensures.bind delCommand_spec fun n ↦ Ensures.of_fact ?_
    rintro rfl
    exact Ensures.pure fun _ hs ↦ ⟨rfl, hs⟩

/-! ### Runs -/

/-- What has expired stays so while time passes. -/
private theorem Shows.elapse {s : Database ν} (h : Shows hash m t s) (milliseconds : Nat) :
    Shows hash (m.at (t + milliseconds)) (t + milliseconds)
      { s with now := s.now + milliseconds } := by
  obtain ⟨V, E, hs, hm⟩ := h
  refine ⟨V, E, ⟨hs.dict, hs.expires, hs.keys, hs.nonneg, by rw [hs.now]⟩, ?_⟩
  intro k
  rw [TimedKeyspace.at, hm k, seen, seen, Option.filter_filter]
  congr 1
  ext1 e
  rw [Bool.and_eq_right_iff_imp]
  intro he
  unfold Timed.alive at he ⊢
  cases hw : e.deadline with
  | none => rfl
  | some w =>
    rw [hw] at he
    have hle := of_decide_eq_true he
    exact decide_eq_true (by omega)

private theorem tryExpire_spec : Ensures (Shows hash m t) (activeExpireCycleTryExpire hash k)
    fun _ s ↦ Shows hash m t s := by
  refine Ensures.of_exists fun V ↦ Ensures.of_exists fun E ↦ ?_
  refine Ensures.bind (Ensures.with_fact findExpire_spec) fun r ↦ ?_
  refine Ensures.of_fact fun hm ↦ Ensures.of_fact ?_
  rintro rfl
  cases hE : E k with
  | none => exact Ensures.pure fun s hs ↦ ⟨V, E, hs, hm⟩
  | some w =>
    refine Ensures.read_bind fun s hs ↦ ?_
    rw [hs.now]
    refine Ensures.ite ?_ ?_
    · intro hw
      refine Ensures.bind (dbDelete_rep.mono (fun _ h ↦ h ▸ hs) fun _ _ h ↦ h) fun r ↦ ?_
      exact Ensures.pure fun s' h ↦ (h.2.showsAt_of_expired hm hE hw).shows
    · intro _
      apply Ensures.pure
      rintro _ rfl
      exact ⟨V, E, hs, hm⟩

/-- Tables that are resized or rehashed show the same. -/
private theorem Shows.withDicts {s : Database ν} (h : Shows hash m t s) {b : Bool}
    {d : Dict JsString (Value ν)} {d' : Dict JsString Int}
    (hd : ∀ V, s.dict.Represents hash V → d.Represents hash V)
    (hd' : ∀ E, s.expires.Represents hash E → d'.Represents hash E) :
    Shows hash m t ⟨d, d', s.now, b⟩ := by
  obtain ⟨V, E, hs, hm⟩ := h
  exact ⟨V, E, ⟨hd V hs.dict, hd' E hs.expires, hs.keys, hs.nonneg, hs.now⟩, hm⟩

private theorem tryResize_spec : Ensures (Shows hash m t) tryResizeHashTables
    fun _ s ↦ Shows hash m t s := by
  intro s hs
  refine ⟨(), _, rfl, hs.withDicts ?_ ?_⟩
  · intro V hV
    split
    · exact ⟨(hV.wf.resize _).1, by rw [(hV.wf.resize _).2]; exact hV.lists⟩
    · exact hV
  · intro E hE
    split
    · exact ⟨(hE.wf.resize _).1, by rw [(hE.wf.resize _).2]; exact hE.lists⟩
    · exact hE

private theorem incrementallyRehash_spec {n : Nat} :
    Ensures (Shows hash m t) (incrementallyRehash hash n) fun _ s ↦ Shows hash m t s := by
  intro s hs
  unfold incrementallyRehash
  split
  · refine ⟨_, _, rfl, hs.withDicts ?_ fun _ h ↦ h⟩
    exact fun V hV ↦ ⟨(hV.wf.rehash _).1, hV.lists.perm (hV.wf.rehash _).2⟩
  · split
    · refine ⟨_, _, rfl, hs.withDicts (fun _ h ↦ h) ?_⟩
      exact fun E hE ↦ ⟨(hE.wf.rehash _).1, hE.lists.perm (hE.wf.rehash _).2⟩
    · exact ⟨_, s, rfl, hs⟩

/-- Every step replies as on the keyspace. -/
private theorem run_spec (x : DbStep (DbCommand ν)) :
    Ensures (Shows hash m t) (x.run hash) fun r s ↦
      r = (x.onKeyspace (m, t)).2 ∧
        Shows hash (x.onKeyspace (m, t)).1.1 (x.onKeyspace (m, t)).1.2 s := by
  have hquiet : ∀ {α : Type} {p : Db ν α}, Ensures (Shows hash m t) p (fun _ s ↦ Shows hash m t s) →
      Ensures (Shows hash m t) (do let _ ← p; return (none : Option Reply)) fun r s ↦
        r = none ∧ Shows hash m t s :=
    fun h ↦ Ensures.bind h fun _ ↦ Ensures.pure fun _ hs ↦ ⟨rfl, hs⟩
  cases x with
  | command c =>
    exact Ensures.bind (execute_spec c) fun r ↦ Ensures.pure fun s hs ↦ ⟨by rw [hs.1]; rfl, hs.2⟩
  | elapse milliseconds => exact fun s hs ↦ ⟨_, _, rfl, rfl, hs.elapse milliseconds⟩
  | tryExpire k => exact hquiet tryExpire_spec
  | tryResize => exact hquiet tryResize_spec
  | rehash n => exact hquiet incrementallyRehash_spec
  | resizePolicy child =>
    exact hquiet fun s hs ↦ ⟨(), _, rfl, hs.withDicts (fun _ h ↦ h) fun _ h ↦ h⟩

private theorem runAll_spec (xs : List (DbStep (DbCommand ν))) :
    Ensures (Shows hash m t) (DbStep.runAll hash xs) fun rs _ ↦
      rs = DbStep.allOnKeyspace (m, t) xs := by
  induction xs generalizing m t with
  | nil => exact Ensures.pure fun _ _ ↦ rfl
  | cons x xs ih =>
    refine Ensures.bind (run_spec x) fun r ↦ Ensures.of_fact ?_
    rintro rfl
    exact Ensures.bind ih fun rs ↦ Ensures.pure fun _ h ↦ by rw [h]; rfl

/-- A run from the start of the server. -/
theorem ensures_runAll (hash : JsString → Nat) (now : Nat) (xs : List (DbStep (DbCommand ν))) :
    Ensures (· = Database.create now) (DbStep.runAll hash xs) fun rs _ ↦
      rs = DbStep.allOnKeyspace (fun _ ↦ none, now) xs := by
  apply (runAll_spec xs).mono
  · rintro _ rfl
    exact ⟨fun _ ↦ none, fun _ ↦ none, ⟨Dict.represents_create hash, Dict.represents_create hash,
      fun _ h ↦ h, fun _ _ h ↦ (by cases h), rfl⟩, fun _ ↦ rfl⟩
  · exact fun _ _ h ↦ h

/-- A key is not seen from the millisecond after its time on, though it is still in the dictionary,
and a new value does not get the old time. -/
example : DbStep.allOnKeyspace (ν := Nat) (fun _ ↦ none, 7)
    [.command (.set false false (some 5) [1] [2]), .elapse 5, .command (.get [1]), .elapse 1,
      .command (.get [1]), .command (.rpush [1] [3] []), .elapse 9, .command (.lrange [1] 0 (-1))] =
    [some .ok, none, some (.bulk [2]), none, some .nil, some (.int 1), none,
      some (.multi [[3]])] := by
  decide +kernel

end MusicComparer.Redis
