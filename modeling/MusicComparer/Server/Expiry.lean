import MusicComparer.Server.Authentication
import MusicComparer.Server.Cache

/-!
# The time to live of cached answers

`api.js:128–130` writes a cache entry with two commands: a `SET`, which leaves the key without a
time to live, and an `EXPIRE` behind it on the same connection. Between their executions the entry
is permanent, and a process that ends there leaves it so. Hits do not renew the entry, so nothing
later repairs it.
-/

namespace MusicComparer.Server

open MusicComparer.Js MusicComparer.Upstream MusicComparer.Redis MusicComparer.Api
open MusicComparer.System

variable {ν : Type} [JsNumber ν] {lower : JsString → JsString} {keys : ApiKeys}
  {w w' : World ν} {act : Action ν}

/-- Every cached answer expires within 10000 seconds. -/
def Expiring (w : World ν) : Prop :=
  ∀ q e, w.redis (artistKey q) = some e → ∃ t ≤ 10000, e.expiry = some t

/-- The last command executed for `api.js` was a `SET`: its `EXPIRE` is the next. -/
def World.betweenSetAndExpire (w : World ν) : Bool :=
  match w.apiQueue with
  | .expire _ _ :: _ => true
  | _ => false

/-- The commands of whole blocks, `api.js:128–137`: behind each `SET` of a cache key is its
`EXPIRE`. -/
inductive Aligned : List (Command ν) → Prop where
  | nil : Aligned []
  | pair (q v : JsString) (cs : List (Command ν)) (h : Aligned cs) :
      Aligned (.set (artistKey q) v :: .expire (artistKey q) 10000 :: cs)
  | rpush (v : JsString) (cs : List (Command ν)) (h : Aligned cs) :
      Aligned (.rpush (js "latestsearches") v :: cs)
  | zadd (x : ν) (m : JsString) (cs : List (Command ν)) (h : Aligned cs) :
      Aligned (.zadd (js "highpf") x m :: cs)

omit [JsNumber ν] in
private theorem Aligned.append {cs ds : List (Command ν)} (hc : Aligned cs) (hd : Aligned ds) :
    Aligned (cs ++ ds) := by
  induction hc with
  | nil => exact hd
  | pair q v cs h ih => exact .pair q v _ ih
  | rpush v cs h ih => exact .rpush v _ ih
  | zadd x m cs h ih => exact .zadd x m _ ih

omit [JsNumber ν] in
private theorem aligned_of_insertions {cs : List (Command ν)}
    (h : ∀ c ∈ cs, (∃ v, c = .rpush (js "latestsearches") v) ∨
      ∃ x m, c = .zadd (js "highpf") x m) : Aligned cs := by
  induction cs with
  | nil => exact .nil
  | cons c cs ih =>
    rw [List.forall_mem_cons] at h
    rcases h.1 with ⟨v, rfl⟩ | ⟨x, m, rfl⟩
    · exact .rpush v cs (ih h.2)
    · exact .zadd x m cs (ih h.2)

/-- The blocks of answers are aligned. -/
private theorem aligned_commands (query : JsString) (rs : List (Retrieved ν)) :
    Aligned (rs.flatMap (commands query)) := by
  induction rs with
  | nil => exact .nil
  | cons r rs ih =>
    obtain ⟨rest, hc, hrest⟩ := commands_eq query r
    rw [List.flatMap_cons, hc]
    exact (Aligned.pair query _ rest (aligned_of_insertions hrest)).append ih

omit [JsNumber ν] in
/-- What the first command of whole blocks can be. -/
private theorem aligned_cons {c : Command ν} {cs : List (Command ν)} (h : Aligned (c :: cs)) :
    (∃ q v ds, c = .set (artistKey q) v ∧ cs = .expire (artistKey q) 10000 :: ds ∧ Aligned ds) ∨
      (c.key = js "latestsearches" ∨ c.key = js "highpf") ∧ Aligned cs := by
  cases h with
  | pair q v ds h => exact Or.inl ⟨q, v, ds, rfl, rfl, h⟩
  | rpush v cs h => exact Or.inr ⟨Or.inl rfl, h⟩
  | zadd x m cs h => exact Or.inr ⟨Or.inr rfl, h⟩

/-- How a step changes the keyspace together with the commands waiting for `api.js`. -/
inductive ApiStep (w : World ν) (act : Action ν) (w' : World ν) : Prop where
  | kept (hr : w'.redis = w.redis) (hq : w'.apiQueue = w.apiQueue)
  | callback (a : Answer ν) (ha : .set a ∈ w.appQueue)
      (hr : w'.redis = exec w.redis (.set a.name a.text)) (hq : w'.apiQueue = w.apiQueue)
  | queued (key : JsString) (rs : List (Retrieved ν)) (hr : w'.redis = w.redis)
      (hq : w'.apiQueue = w.apiQueue ++ rs.flatMap (commands key))
  | executed (c : Command ν) (hc : w.apiQueue = c :: w'.apiQueue)
      (hr : w'.redis = exec w.redis c)
  | expired (key : JsString) (e : Redis.Entry ν) (he : w.redis key = some e)
      (ht : e.expiry.isSome = true) (hr : w'.redis = del w.redis key)
      (hq : w'.apiQueue = w.apiQueue)
  | lost (ha : act = .stop) (hr : w'.redis = w.redis) (hq : w'.apiQueue = [])

private theorem Transition.apiStep (h : Transition lower keys w act w') : ApiStep w act w' := by
  cases h with
  | execSet a cs hc => exact .callback a (by simp [hc]) rfl rfl
  | respond id request query reply e => exact .queued (queryString lower query) e.ticks rfl rfl
  | execApi c cs hc => exact .executed c hc rfl
  | expireKey key e he ht => exact .expired key e he ht rfl rfl
  | stop => exact .lost rfl rfl rfl
  | _ => exact .kept rfl rfl

/-- Where the execution of the blocks stands: between two of their insertions or blocks, or between
a `SET` and its `EXPIRE`, with the key without a time to live. -/
inductive Stands (w : World ν) : Prop where
  | aligned (h : Aligned w.apiQueue)
  | halfway (q text : JsString) (cs : List (Command ν))
      (hq : w.apiQueue = .expire (artistKey q) 10000 :: cs) (h : Aligned cs)
      (hr : w.redis (artistKey q) = some ⟨.str text, none⟩)

/-- A callback for a name without the prefix changes no cache key. -/
private theorem exec_callback {a : Answer ν} (ha : ¬ js "artist:" <+: a.name) (q : JsString) :
    exec w.redis (.set a.name a.text) (artistKey q) = w.redis (artistKey q) :=
  exec_of_ne w.redis (.set a.name a.text) (artistKey_ne ha q)

private theorem stands_step (hw : Stands w) (hn : Authentic w)
    (h : Transition lower keys w act w') : Stands w' := by
  cases h.apiStep with
  | kept hr hq =>
    cases hw with
    | aligned h => exact .aligned (by rwa [hq])
    | halfway q text cs hq' h hr' => exact .halfway q text cs (hq.trans hq') h (by rwa [hr])
  | callback a ha hr hq =>
    cases hw with
    | aligned h => exact .aligned (by rwa [hq])
    | halfway q text cs hq' h hr' =>
      exact .halfway q text cs (hq.trans hq') h (by rwa [hr, exec_callback (hn.queued a ha)])
  | queued key rs hr hq =>
    have hrs := aligned_commands key rs
    cases hw with
    | aligned h => exact .aligned (by rw [hq]; exact h.append hrs)
    | halfway q text cs hq' h hr' =>
      exact .halfway q text _ (by rw [hq, hq', List.cons_append]) (h.append hrs) (by rwa [hr])
  | executed c hc hr =>
    cases hw with
    | aligned h =>
      rw [hc] at h
      rcases aligned_cons h with ⟨q, v, ds, rfl, hds, h⟩ | ⟨-, h⟩
      · exact .halfway q v ds hds h (by rw [hr]; exact exec_set _ _ _)
      · exact .aligned h
    | halfway q text cs hq' h hr' =>
      rw [hc, List.cons.injEq] at hq'
      exact .aligned (by rwa [hq'.2])
  | expired key e he ht hr hq =>
    cases hw with
    | aligned h => exact .aligned (by rwa [hq])
    | halfway q text cs hq' h hr' =>
      have hne : artistKey q ≠ key := by
        rintro rfl
        rw [hr', Option.some_inj] at he
        subst he
        cases ht
      refine .halfway q text cs (hq.trans hq') h ?_
      rwa [hr, del, Function.update_of_ne hne]
  | lost ha hr hq => exact .aligned (by rw [hq]; exact .nil)

/-- A cached answer expires, or its `EXPIRE` is the next command. -/
def Timed (w : World ν) : Prop :=
  ∀ q e, w.redis (artistKey q) = some e → (∃ t ≤ 10000, e.expiry = some t) ∨
    ∃ cs, w.apiQueue = .expire (artistKey q) 10000 :: cs

/-- Executing a command of a block keeps every answer timed. -/
private theorem timed_exec (hw : Timed w) (hs : Stands w) {c : Command ν}
    (hc : w.apiQueue = c :: w'.apiQueue) (hr : w'.redis = exec w.redis c) : Timed w' := by
  intro q e he
  rw [hr] at he
  cases hs with
  | aligned h =>
    rw [hc] at h
    rcases aligned_cons h with ⟨q', v, ds, rfl, hds, -⟩ | ⟨hk, -⟩
    · by_cases hq : q = q'
      · subst hq
        exact Or.inr ⟨ds, hds⟩
      · rcases hw q e (of_exec he fun h ↦ hq (artistKey_inj h)) with ht | ⟨cs, hcs⟩
        · exact Or.inl ht
        · rw [hc] at hcs
          cases hcs
    · have hne : artistKey q ≠ c.key := by
        rcases hk with hk | hk
        · rw [hk]
          exact artistKey_ne_latestsearches q
        · rw [hk]
          exact artistKey_ne_highpf q
      rcases hw q e (of_exec he hne) with ht | ⟨cs, hcs⟩
      · exact Or.inl ht
      · rw [hc, List.cons.injEq] at hcs
        rw [hcs.1] at hne
        exact absurd rfl hne
  | halfway q' text cs hq' h hr' =>
    rw [hc, List.cons.injEq] at hq'
    obtain ⟨rfl, -⟩ := hq'
    by_cases hq : q = q'
    · subst hq
      have hkey := exec_key w.redis (.expire (artistKey q) 10000)
      rw [Command.key, he, hr'] at hkey
      simp only [write, Option.map_some, Option.getD_some, Option.some_inj] at hkey
      exact Or.inl ⟨10000, Nat.le_refl _, by rw [hkey]⟩
    · rcases hw q e (of_exec he fun h ↦ hq (artistKey_inj h)) with ht | ⟨ds, hds⟩
      · exact Or.inl ht
      · rw [hc] at hds
        cases hds
        exact absurd rfl hq

/-- A step other than a stop between the two commands keeps every answer timed. -/
private theorem timed_step (hw : Timed w) (hs : Stands w) (hn : Authentic w)
    (hstop : act = .stop → w.betweenSetAndExpire = false)
    (h : Transition lower keys w act w') : Timed w' := by
  have hold : w'.redis = w.redis → w'.apiQueue = w.apiQueue → Timed w' := by
    intro hr hq q e he
    rw [hr] at he
    rw [hq]
    exact hw q e he
  cases h.apiStep with
  | kept hr hq => exact hold hr hq
  | callback a ha hr hq =>
    intro q e he
    rw [hr, exec_callback (hn.queued a ha)] at he
    rw [hq]
    exact hw q e he
  | queued key rs hr hq =>
    intro q e he
    rw [hr] at he
    rw [hq]
    rcases hw q e he with ht | ⟨cs, hcs⟩
    · exact Or.inl ht
    · exact Or.inr ⟨_, by rw [hcs, List.cons_append]⟩
  | executed c hc hr => exact timed_exec hw hs hc hr
  | expired key e' he' ht hr hq =>
    intro q e he
    rw [hr, del] at he
    by_cases hk : artistKey q = key
    · rw [hk, Function.update_self] at he
      cases he
    · rw [Function.update_of_ne hk] at he
      rw [hq]
      exact hw q e he
  | lost ha hr hq =>
    intro q e he
    rw [hr] at he
    rcases hw q e he with ht | ⟨cs, hcs⟩
    · exact Or.inl ht
    · have hb := hstop ha
      rw [World.betweenSetAndExpire, hcs] at hb
      cases hb

/-- In every state reached, the execution stands between commands or between the two of a pair. -/
private theorem stands_of_run {as : List (Action ν)} (hn : ∀ act ∈ as, Unprefixed act)
    (h : run (step lower keys) World.init as = some w) : Stands w :=
  run_invariant_within (C := fun _ _ ↦ True)
    (fun _ _ hb hr ↦ authentic_of_run (fun act hact ↦ hn act (hb.mem hact)) hr)
    (fun _ _ _ ha hw _ hstep ↦ stands_step hw ha (transition_of_step hstep))
    (.aligned .nil) (along_of_forall fun _ _ ↦ trivial) h

/-- In every state reached without a stop between the two commands, every answer is timed. -/
private theorem timed_of_run {as : List (Action ν)} (hn : ∀ act ∈ as, Unprefixed act)
    (hstop : Along (step lower keys) (fun u act ↦ act = .stop → u.betweenSetAndExpire = false)
      World.init as)
    (h : run (step lower keys) World.init as = some w) : Timed w := by
  refine run_invariant_within (J := fun w : World ν ↦ Stands w ∧ Authentic w) ?_ ?_ ?_ hstop h
  · intro bs u hb hr
    have hbs : ∀ act ∈ bs, Unprefixed act := fun act hact ↦ hn act (hb.mem hact)
    exact ⟨stands_of_run hbs hr, authentic_of_run hbs hr⟩
  · intro u act v ⟨hs, ha⟩ hw hact hstep
    exact timed_step hw hs ha hact (transition_of_step hstep)
  · intro q e he
    cases he

/-- Once nothing waits for `api.js`, the answers that are timed expire. -/
private theorem expiring_of_timed (hw : Timed w) (hq : w.apiQueue = []) : Expiring w := by
  intro q e he
  rcases hw q e he with ht | ⟨cs, hcs⟩
  · exact ht
  · rw [hq] at hcs
    cases hcs

/-- Between the two commands there is an answer without a time to live. -/
private theorem not_expiring_of_between (hs : Stands w) (hb : w.betweenSetAndExpire = true) :
    ¬ Expiring w := by
  intro he
  cases hs with
  | aligned h =>
    rw [World.betweenSetAndExpire] at hb
    split at hb
    · next hq =>
      rw [hq] at h
      cases h
    · cases hb
  | halfway q text cs hq h hr =>
    obtain ⟨t, -, ht⟩ := he q _ hr
    cases ht

/-- Over every run of searches, other requests and stops: the cached answers that the stops leave
expire within 10000 seconds if and only if no stop comes between a `SET` and its `EXPIRE`. -/
theorem expiring_after_stop_iff {as : List (Action ν)} (hn : ∀ act ∈ as, Unprefixed act) :
    (∀ bs u, bs ++ [.stop] <+: as → run (step lower keys) World.init (bs ++ [.stop]) = some u →
        Expiring u) ↔
      ∀ bs u, bs ++ [.stop] <+: as → run (step lower keys) World.init bs = some u →
        u.betweenSetAndExpire = false := by
  constructor
  · intro hexp bs u hb hu
    have hstopped : run (step lower keys) World.init (bs ++ [.stop]) = some u.stop :=
      run_append.mpr ⟨u, hu, rfl⟩
    have hs : Stands u := stands_of_run
      (fun act hact ↦ hn act (hb.mem (List.mem_append_left _ hact))) hu
    -- a stop does not change the keyspace
    have hu' : Expiring u := hexp bs u.stop hb hstopped
    rw [← Bool.not_eq_true]
    intro htrue
    exact not_expiring_of_between hs htrue hu'
  · intro hbetween bs u hb hu
    have hmem : ∀ act ∈ bs ++ [.stop], Unprefixed act := fun act hact ↦ hn act (hb.mem hact)
    have hstop : Along (step lower keys)
        (fun u act ↦ act = .stop → u.betweenSetAndExpire = false) World.init (bs ++ [.stop]) := by
      apply along_of_prefixes
      rintro cs act v hc hv rfl
      exact hbetween cs v (hc.trans hb) hv
    have ht := timed_of_run hmem hstop hu
    obtain ⟨v, -, hv⟩ := run_append.mp hu
    cases hv
    exact expiring_of_timed ht rfl

/-- Two searches for the same artist, answered before either is cached, and a stop after this many
commands. -/
def cherStopped (n : Nat) : List (Action Whole) :=
  [.post (js "Cher"), .post (js "cher"), .lookup 0, .lookup 1, .respond 0 onlySpotify,
    .respond 1 onlySpotify] ++ List.replicate n .execApi ++ [.stop]

/-- Stopped after the first pair, the server leaves an answer that expires. -/
theorem expiring_after_cherStopped : ∃ u e,
    run (step LowerCase.ascii.lower ⟨[], []⟩) World.init (cherStopped 2) = some u ∧
      u.redis (artistKey (js "cher")) = some e ∧ Expiring u := by
  have hr : run (step LowerCase.ascii.lower ⟨[], []⟩) World.init (cherStopped 2) =
      some ((run (step LowerCase.ascii.lower ⟨[], []⟩) World.init (cherStopped 2)).getD
        World.init) :=
    run_eq_getD World.init (by decide +kernel)
  obtain ⟨e, he⟩ := Option.isSome_iff_exists.mp
    (by decide +kernel : (((run (step LowerCase.ascii.lower ⟨[], []⟩) World.init
      (cherStopped 2)).getD World.init).redis (artistKey (js "cher"))).isSome = true)
  refine ⟨_, e, hr, he, (expiring_after_stop_iff (by decide +kernel)).mpr ?_ _ _
    List.prefix_rfl hr⟩
  intro bs u hb hu
  rw [List.prefix_concat_iff] at hb
  rcases hb with hb | hb
  · have hbetween := congrArg (Option.map World.betweenSetAndExpire) hu
    have hvalue : (run (step LowerCase.ascii.lower ⟨[], []⟩) World.init bs).map
        World.betweenSetAndExpire = some false := by
      rw [List.append_cancel_right hb]
      decide +kernel
    rw [hvalue, Option.map_some, Option.some_inj] at hbetween
    exact hbetween.symm
  · have hmem := hb.mem (List.mem_append_right bs (List.mem_singleton_self Action.stop))
    simp at hmem

/-- Stopped between the two commands, it leaves an answer that never expires. -/
theorem not_expiring_after_cherStopped : ∃ u,
    run (step LowerCase.ascii.lower ⟨[], []⟩) World.init (cherStopped 1) = some u ∧
      ¬ Expiring u := by
  refine ⟨_, run_eq_getD World.init (by decide +kernel), ?_⟩
  intro he
  obtain ⟨e, hm, ht⟩ := Option.map_eq_some_iff.mp
    (by decide +kernel : (((run (step LowerCase.ascii.lower ⟨[], []⟩) World.init
      (cherStopped 1)).getD World.init).redis (artistKey (js "cher"))).map
        Redis.Entry.expiry = some none)
  obtain ⟨t, -, ht'⟩ := he _ e hm
  rw [ht] at ht'
  cases ht'

end MusicComparer.Server
