import MusicComparer.Server.Cache
import MusicComparer.Server.Provenance

/-!
# The types of the shared keys

The keyspace is flat: `latestsearches` (`api.js:51,131`, `index.js:43,56`), `highpf`
(`api.js:136`) and the cache keys `artist:…` (`api.js:68,129`) lie beside the user names of
`app.js:93`, which are used as they come. A `SET` replaces a value of any type, so the types of the
shared keys last exactly as long as no user has one of these names.
-/

namespace MusicComparer.Server

open MusicComparer.Js MusicComparer.Upstream MusicComparer.Redis MusicComparer.Api
open MusicComparer.System

variable {ν : Type} [JsNumber ν] {lower : JsString → JsString} {keys : ApiKeys}
  {w w' : World ν} {act : Action ν}

/-- The names that are keys of other parts of the application. -/
def Reserved (u : JsString) : Prop :=
  u = js "latestsearches" ∨ u = js "highpf" ∨ js "artist:" <+: u

/-- The shared keys hold what their own operations write: a list, a sorted set, and under a cache
key the two entries that a search answered for that query. -/
structure WellTyped (w : World ν) : Prop where
  latestsearches : ∀ e, w.redis (js "latestsearches") = some e → ∃ xs, e.value = .list xs
  highpf : ∀ e, w.redis (js "highpf") = some e → ∃ ms, e.value = .zset ms
  artist : Cached w

/-- Every command of the application on a shared key succeeds, and a cached text parses. -/
structure Serves (w : World ν) : Prop where
  lrange : ∀ i j, (lrange w.redis (js "latestsearches") i j).isSome = true
  rpush : ∀ v,
    (write (w.redis (js "latestsearches")) (.rpush (js "latestsearches") v)).isSome = true
  zadd : ∀ x m, (write (w.redis (js "highpf")) (.zadd (js "highpf") x m)).isSome = true
  get : ∀ q, ∃ reply, Redis.get w.redis (artistKey q) = some reply ∧
    ∀ text, reply = some text → ∃ json : Json ν, Json.parse text = some json

private theorem latestsearches_ne_highpf : js "latestsearches" ≠ js "highpf" := by decide

/-- Well-typed keys serve all commands. -/
theorem WellTyped.serves (hw : WellTyped w) (hs : Searched w) : Serves w := by
  constructor
  · intro i j
    cases he : w.redis (js "latestsearches") with
    | none => simp [Redis.lrange, he]
    | some e =>
      obtain ⟨xs, hx⟩ := hw.latestsearches e he
      obtain ⟨value, expiry⟩ := e
      simp only at hx
      simp [Redis.lrange, he, hx]
  · intro v
    cases he : w.redis (js "latestsearches") with
    | none => rfl
    | some e =>
      obtain ⟨xs, hx⟩ := hw.latestsearches e he
      obtain ⟨value, expiry⟩ := e
      simp only at hx
      simp [write, hx]
  · intro x m
    cases he : w.redis (js "highpf") with
    | none => rfl
    | some e =>
      obtain ⟨ms, hm⟩ := hw.highpf e he
      obtain ⟨value, expiry⟩ := e
      simp only at hm
      simp [write, hm]
  · intro q
    cases he : w.redis (artistKey q) with
    | none => exact ⟨none, by simp [Redis.get, he], fun text ht ↦ by cases ht⟩
    | some e =>
      obtain ⟨r, hr, hv⟩ := hw.artist q e he
      obtain ⟨value, expiry⟩ := e
      simp only at hv
      refine ⟨some r.toJson.stringify, by simp [Redis.get, he, hv], ?_⟩
      rintro text ht
      cases ht
      exact ⟨_, Json.parse_stringify (hs.parsed q r hr).wf⟩

/-- The part of the types that only the writes to the two fixed keys can change. -/
private structure FixedKeys (w : World ν) : Prop where
  latestsearches : ∀ e, w.redis (js "latestsearches") = some e → ∃ xs, e.value = .list xs
  highpf : ∀ e, w.redis (js "highpf") = some e → ∃ ms, e.value = .zset ms

private theorem fixedKeys_search (hw : FixedKeys w) {log : List (Event ν)} {c : Command ν}
    (hc : SearchCommand log c) (hr : w'.redis = exec w.redis c) : FixedKeys w' := by
  obtain ⟨key, r, -, hc⟩ := hc
  constructor
  · intro e he
    rw [hr] at he
    rcases mem_commands hc with rfl | rfl | ⟨text, rfl⟩ | ⟨x, rfl⟩
    · exact hw.latestsearches e (of_exec he (artistKey_ne_latestsearches key).symm)
    · exact hw.latestsearches e (of_exec he (artistKey_ne_latestsearches key).symm)
    · exact list_exec_rpush hw.latestsearches he
    · exact hw.latestsearches e (of_exec he latestsearches_ne_highpf)
  · intro e he
    rw [hr] at he
    rcases mem_commands hc with rfl | rfl | ⟨text, rfl⟩ | ⟨x, rfl⟩
    · exact hw.highpf e (of_exec he (artistKey_ne_highpf key).symm)
    · exact hw.highpf e (of_exec he (artistKey_ne_highpf key).symm)
    · exact hw.highpf e (of_exec he latestsearches_ne_highpf.symm)
    · exact zset_exec_zadd hw.highpf he

/-- A step keeps the types of the fixed keys if it stores no user under them. -/
private theorem fixedKeys_step (hs : Searched w) (hw : FixedKeys w)
    (h : Transition lower keys w act w') (hn : ∀ a, .authenticated a ∈ w'.log → ¬ Reserved a.name) :
    FixedKeys w' := by
  cases h.written with
  | kept hr hl =>
    constructor
    · rw [hr]
      exact hw.latestsearches
    · rw [hr]
      exact hw.highpf
  | callback a cs hc hr hl =>
    have hname := hn a (by simp [hl])
    constructor
    · intro e he
      rw [hr] at he
      exact hw.latestsearches e (of_exec he fun h ↦ hname (Or.inl h.symm))
    · intro e he
      rw [hr] at he
      exact hw.highpf e (of_exec he fun h ↦ hname (Or.inr (Or.inl h.symm)))
  | search c cs hc hr hl => exact fixedKeys_search hw (hs.queued c (by simp [hc])) hr
  | expired key e he ht hr hl =>
    have hold : ∀ u e, w'.redis u = some e → w.redis u = some e := by
      intro u e hu
      rw [hr, del] at hu
      by_cases hk : u = key
      · rw [hk, Function.update_self] at hu
        cases hu
      · rwa [Function.update_of_ne hk] at hu
    exact ⟨fun e he ↦ hw.latestsearches e (hold _ e he), fun e he ↦ hw.highpf e (hold _ e he)⟩

private theorem wellTyped_of_run {as : List (Action ν)}
    (h : run (step lower keys) World.init as = some w)
    (hn : ∀ a, .authenticated a ∈ w.log → ¬ Reserved a.name) : WellTyped w := by
  have hfixed : FixedKeys w := by
    refine run_invariant_within (I := fun w : World ν ↦
      (∀ a, .authenticated a ∈ w.log → ¬ Reserved a.name) → FixedKeys w) (C := fun _ _ ↦ True)
      (fun _ _ _ hr ↦ searched_of_run hr) ?_ ?_ (along_of_forall fun _ _ ↦ trivial) h hn
    · intro w act w' hs hw _ hstep hn
      have ht := transition_of_step hstep
      exact fixedKeys_step hs (hw fun a ha ↦ hn a (ht.mem_log ha)) ht hn
    · intro _
      constructor
      all_goals
        intros
        contradiction
  have hcached : Cached w := cached_of_run h fun a ha hp ↦ hn a ha (Or.inr (Or.inr hp))
  exact ⟨hfixed.latestsearches, hfixed.highpf, hcached⟩

/-- What a callback has stored was in redis right after its `SET`. -/
private theorem stored_at_some_point {as : List (Action ν)} {a : Answer ν}
    (h : run (step lower keys) w as = some w') (ha : .authenticated a ∈ w'.log) :
    .authenticated a ∈ w.log ∨ ∃ bs u, bs <+: as ∧ run (step lower keys) w bs = some u ∧
      u.redis a.name = some ⟨.str a.text, none⟩ := by
  induction as generalizing w with
  | nil =>
    cases h
    exact Or.inl ha
  | cons act as ih =>
    obtain ⟨v, hv, h⟩ := run_cons.mp h
    rcases ih h with hm | ⟨bs, u, hbs, hu, hredis⟩
    · cases (transition_of_step hv).written with
      | kept hr hl =>
        obtain ⟨es, hl, hes⟩ := hl
        rw [hl, List.mem_append] at hm
        exact Or.inl (hm.resolve_left (hes a))
      | callback b cs hc hr hl =>
        rw [hl, List.mem_cons] at hm
        rcases hm with he | hm
        · cases he
          refine Or.inr ⟨[act], v, List.prefix_cons_inj act |>.mpr List.nil_prefix,
            run_cons.mpr ⟨v, hv, rfl⟩, ?_⟩
          rw [hr]
          exact exec_set ..
        · exact Or.inl hm
      | search c cs hc hr hl => exact Or.inl (hl ▸ hm)
      | expired key e he ht hr hl => exact Or.inl (hl ▸ hm)
    · exact Or.inr ⟨act :: bs, u, (List.prefix_cons_inj act).mpr hbs,
        run_cons.mpr ⟨v, hv, hu⟩, hredis⟩

/-- The record of a user is not a list, a sorted set, or a search result. -/
private theorem not_wellTyped_of_stored (hs : Searched w) {a : Answer ν} (hn : Reserved a.name)
    (h : w.redis a.name = some ⟨.str a.text, none⟩) : ¬ WellTyped w := by
  intro hw
  rcases hn with hn | hn | ⟨q, hn⟩
  · rw [hn] at h
    obtain ⟨xs, hx⟩ := hw.latestsearches _ h
    cases hx
  · rw [hn] at h
    obtain ⟨ms, hm⟩ := hw.highpf _ h
    cases hm
  · rw [← hn] at h
    obtain ⟨r, hr, hv⟩ := hw.artist q _ h
    have htext : a.text = r.toJson.stringify := by simpa using hv
    obtain ⟨json, hp, hk⟩ := a.parse_text
    rw [htext, Json.parse_stringify (hs.parsed q r hr).wf, Option.some_inj] at hp
    rw [← hp, sessionField_retrieved] at hk
    cases hk

/-- At every point of a run the shared keys hold what their own operations write, and serve every
command of the application, if and only if no callback has been executed for a reserved name. -/
theorem wellTyped_iff_unreserved {as : List (Action ν)}
    (h : run (step lower keys) World.init as = some w) :
    (∀ bs u, bs <+: as → run (step lower keys) World.init bs = some u → WellTyped u ∧ Serves u) ↔
      ∀ a, .authenticated a ∈ w.log → ¬ Reserved a.name := by
  constructor
  · intro hall a ha hn
    rcases stored_at_some_point h ha with hm | ⟨bs, u, hbs, hu, hredis⟩
    · cases hm
    · exact not_wellTyped_of_stored (searched_of_run hu) hn hredis (hall bs u hbs hu).1
  · rintro hn bs u ⟨cs, rfl⟩ hu
    obtain ⟨u', hu', hw⟩ := run_append.mp h
    rw [hu, Option.some_inj] at hu'
    subst hu'
    have hlog : ∀ e ∈ u.log, e ∈ w.log := fun e he ↦
      run_induction (I := fun v : World ν ↦ e ∈ v.log)
        (fun _ _ _ he hst ↦ (transition_of_step hst).mem_log he) he hw
    have ht := wellTyped_of_run hu fun a ha ↦ hn a (hlog _ ha)
    exact ⟨ht, ht.serves (searched_of_run hu)⟩

/-- After the login of `ann` the shared keys are well typed. -/
theorem wellTyped_after_ann : WellTyped annLoggedIn ∧ Serves annLoggedIn := by
  have hr : run (step LowerCase.ascii.lower ⟨[], []⟩) World.init (completeCallback 0 0 ann) =
      some annLoggedIn := run_eq_getD World.init (by decide +kernel)
  have hlog : annLoggedIn.log = [.created 0 1 ann, .authenticated ann, .answered 0 ann] := by
    decide +kernel
  have hname : ¬ (ann.name = js "latestsearches" ∨ ann.name = js "highpf" ∨
      js "artist:" <+: ann.name) := by
    decide +kernel
  refine (wellTyped_iff_unreserved hr).mpr ?_ _ _ List.prefix_rfl hr
  intro a ha
  rw [hlog] at ha
  have he : a = ann := by simpa using ha
  rw [he]
  exact hname

/-- The answer of Last.fm for a user called `latestsearches`. -/
def userLatestsearches : Answer Whole :=
  (Answer.ofBody (js
    "\x7b\"session\":\x7b\"name\":\"latestsearches\",\"key\":\"k1\"\x7d\x7d")).get
    (by decide +kernel)

/-- The state after that user has logged in. -/
def latestsearchesLoggedIn : World Whole :=
  (run (step LowerCase.ascii.lower ⟨[], []⟩) World.init
    (completeCallback 0 0 userLatestsearches)).getD World.init

/-- The login of this user makes a string of the list, and `LRANGE` fails from then on. -/
theorem not_wellTyped_after_latestsearches :
    (∃ as, run (step LowerCase.ascii.lower ⟨[], []⟩) World.init as = some latestsearchesLoggedIn) ∧
      ¬ WellTyped latestsearchesLoggedIn ∧ latestsearchesLoggedIn.latestsearches = none := by
  have hl : latestsearchesLoggedIn.latestsearches = none := by decide +kernel
  refine ⟨⟨_, run_eq_getD World.init (by decide +kernel)⟩, ?_, hl⟩
  intro hw
  cases he : latestsearchesLoggedIn.redis (js "latestsearches") with
  | none => simp [World.latestsearches, lrange, he] at hl
  | some e =>
    obtain ⟨xs, hx⟩ := hw.latestsearches e he
    obtain ⟨value, expiry⟩ := e
    simp only at hx
    simp [World.latestsearches, lrange, he, hx] at hl

end MusicComparer.Server
