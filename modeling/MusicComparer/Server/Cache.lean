import MusicComparer.Server.Writes

/-!
# What the search cache serves

Under a cache key redis holds the text of a fresh answer for that query, provided no user name is
one of these keys. So every `{data: …}` response, from the cache or fresh, carries a fresh answer
for its query, up to the reading back of its numbers.
-/

namespace MusicComparer.Server

open MusicComparer.Js MusicComparer.Upstream MusicComparer.Redis MusicComparer.Api
open MusicComparer.System

variable {ν : Type} [JsNumber ν] {lower : JsString → JsString} {keys : ApiKeys}
  {w w' : World ν} {act : Action ν}

/-- Every cache key is absent or holds the two entries that a search answered for the query. -/
def Cached (w : World ν) : Prop :=
  ∀ q e, w.redis (artistKey q) = some e →
    ∃ r, .fresh q r ∈ w.log ∧ e.value = .str r.toJson.stringify

/-- Cache keys are different for different queries, and from keys without the prefix. -/
theorem artistKey_inj {q q' : JsString} (h : artistKey q = artistKey q') : q = q' :=
  List.append_cancel_left h

theorem artistKey_ne {u : JsString} (h : ¬ js "artist:" <+: u) (q : JsString) :
    artistKey q ≠ u := by
  rintro rfl
  exact h (List.prefix_append _ _)

theorem artistKey_ne_latestsearches (q : JsString) : artistKey q ≠ js "latestsearches" :=
  artistKey_ne (by decide) q

theorem artistKey_ne_highpf (q : JsString) : artistKey q ≠ js "highpf" :=
  artistKey_ne (by decide) q

/-- The command of a search leaves the cache keys holding answers. -/
private theorem cached_search (hw : Cached w) {c : Command ν} (hc : SearchCommand w.log c)
    (hr : w'.redis = exec w.redis c) (hl : w'.log = w.log) : Cached w' := by
  obtain ⟨key, r, hf, hc⟩ := hc
  intro q e he
  rw [hl]
  rw [hr] at he
  rcases mem_commands hc with rfl | rfl | ⟨text, rfl⟩ | ⟨x, rfl⟩
  · by_cases hq : q = key
    · subst hq
      rw [exec_set, Option.some_inj] at he
      exact ⟨r, hf, by rw [← he]⟩
    · exact hw q e (of_exec he fun h ↦ hq (artistKey_inj h))
  · obtain ⟨e', he', hv⟩ := value_exec_expire he
    rw [← hv]
    exact hw q e' he'
  · exact hw q e (of_exec he (artistKey_ne_latestsearches q))
  · exact hw q e (of_exec he (artistKey_ne_highpf q))

/-- A step keeps the cache if it stores no user name with the prefix. -/
private theorem cached_step (hs : Searched w) (hw : Cached w) (h : Transition lower keys w act w')
    (hn : ∀ a, .authenticated a ∈ w'.log → ¬ js "artist:" <+: a.name) : Cached w' := by
  have hold : ∀ q e, w.redis (artistKey q) = some e →
      ∃ r, .fresh q r ∈ w'.log ∧ e.value = .str r.toJson.stringify := by
    intro q e he
    obtain ⟨r, hr, hv⟩ := hw q e he
    exact ⟨r, h.mem_log hr, hv⟩
  cases h.written with
  | kept hr hl =>
    intro q e he
    rw [hr] at he
    exact hold q e he
  | callback a cs hc hr hl =>
    intro q e he
    rw [hr] at he
    exact hold q e (of_exec he (artistKey_ne (hn a (by simp [hl])) q))
  | search c cs hc hr hl => exact cached_search hw (hs.queued c (by simp [hc])) hr hl
  | expired key e he ht hr hl =>
    intro q e' he'
    rw [hr, del] at he'
    by_cases hk : artistKey q = key
    · rw [hk, Function.update_self] at he'
      cases he'
    · rw [Function.update_of_ne hk] at he'
      exact hold q e' he'

/-- In every state reached without such a user name the cache keys hold answers. -/
theorem cached_of_run {as : List (Action ν)} (h : run (step lower keys) World.init as = some w)
    (hn : ∀ a, .authenticated a ∈ w.log → ¬ js "artist:" <+: a.name) : Cached w := by
  refine run_invariant_within (C := fun _ _ ↦ True) (I := fun w : World ν ↦
    (∀ a, .authenticated a ∈ w.log → ¬ js "artist:" <+: a.name) → Cached w)
    (fun _ _ _ hr ↦ searched_of_run hr) ?_ ?_ (along_of_forall fun _ _ ↦ trivial) h hn
  · intro w act w' hs hw _ hstep hn
    have ht := transition_of_step hstep
    exact cached_step hs (hw fun a ha ↦ hn a (ht.mem_log ha)) ht hn
  · intro _ q e he
    cases he

/-- A response body that carries a fresh answer for this query. -/
def Carries (log : List (Event ν)) (key : JsString) (body : Json ν) : Prop :=
  body.WF ∧ ∃ r, .fresh key r ∈ log ∧ body.reload = (dataBody r.toJson).reload

/-- The searches in flight: a hit has the text of an answer for the query, and a response with
status 200 carries one. -/
structure Served (lower : JsString → JsString) (w : World ν) : Prop where
  looked : ∀ id query d, w.searches id = some (.looked query (.ok (some d))) →
    ∃ r, .fresh (queryString lower query) r ∈ w.log ∧ d = r.toJson.stringify
  answered : ∀ id query responses, w.searches id = some (.answered query responses) →
    ∀ x ∈ responses, x.status = 200 → Carries w.log (queryString lower query) x.body

/-- The text that `GET` finds under a cache key. -/
private theorem fresh_of_get (hc : Cached w) {q d : JsString}
    (h : Redis.get w.redis (artistKey q) = some (some d)) :
    ∃ r, .fresh q r ∈ w.log ∧ d = r.toJson.stringify := by
  unfold Redis.get at h
  split at h
  · cases h
  · next s t he =>
    cases h
    obtain ⟨r, hr, hv⟩ := hc q _ he
    exact ⟨r, hr, by simpa using hv⟩
  · cases h

private theorem reload_dataBody (j : Json ν) : (dataBody j).reload = dataBody j.reload := by
  simp [dataBody, Json.reload, Json.reloadProperties]

/-- The responses of a search, cached or fresh. -/
private theorem carries_of_respond (hs : Searched w) {request : Request ν} {query : JsString}
    {reply : Except (JsError ν) (Option JsString)} {e : Effects ν}
    (he : Chain.effects (search2 lower keys request query reply) Effects.start = e)
    (hlooked : ∀ d, reply = .ok (some d) →
      ∃ r, .fresh (queryString lower query) r ∈ w.log ∧ d = r.toJson.stringify)
    {x : Response ν} (hx : x ∈ e.responses) (h200 : x.status = 200) :
    Carries (e.ticks.map (.fresh (queryString lower query)) ++ w.log) (queryString lower query)
      x.body := by
  have ho := search2_outcome lower keys request query reply
  rw [he] at ho
  cases ho with
  | cached d j hc hp =>
    rw [List.mem_singleton] at hx
    subst hx
    have hreply : reply = .ok (some d) := by
      unfold cachedText at hc
      split at hc
      · split at hc
        · cases hc
        · cases hc
          rfl
      · cases hc
    obtain ⟨r, hr, rfl⟩ := hlooked d hreply
    rw [Json.parse_stringify (hs.parsed _ r hr).wf, Option.some_inj] at hp
    refine ⟨wf_dataBody (hp ▸ (hs.parsed _ r hr).wf.reload), r, List.mem_append_right _ hr, ?_⟩
    rw [← hp, reload_dataBody, reload_dataBody, Json.reload_reload]
  | fresh r hc hr =>
    rw [List.mem_singleton] at hx
    subst hx
    exact ⟨wf_dataBody hr.wf, r, by simp, rfl⟩
  | reported rs hrs =>
    rw [hrs x hx] at h200
    cases h200
  | silent => cases hx

/-- How a step changes the searches in flight. -/
inductive Searching (lower : JsString → JsString) (keys : ApiKeys) (w w' : World ν) (id : Nat) :
    Search ν → Prop where
  | kept (x : Search ν) (hx : w.searches id = some x) : Searching lower keys w w' id x
  | posted (query : JsString) (hi : id = w.nextRid) : Searching lower keys w w' id (.posted query)
  | looked (query : JsString) (reply : Except (JsError ν) (Option JsString))
      (hx : w.searches id = some (.posted query))
      (hr : ∀ data, reply = .ok data →
        Redis.get w.redis (artistKey (queryString lower query)) = some data) :
      Searching lower keys w w' id (.looked query reply)
  | answered (query : JsString) (reply : Except (JsError ν) (Option JsString))
      (request : Request ν) (e : Effects ν) (hx : w.searches id = some (.looked query reply))
      (he : Chain.effects (search2 lower keys request query reply) Effects.start = e)
      (hl : w'.log = e.ticks.map (.fresh (queryString lower query)) ++ w.log) :
      Searching lower keys w w' id (.answered query e.responses)

/-- Every search of the next state has such an origin. -/
theorem Transition.searching (h : Transition lower keys w act w') {id : Nat} {x : Search ν}
    (hx : w'.searches id = some x) : Searching lower keys w w' id x := by
  cases h with
  | post query =>
    rcases of_update_some hx with hx | ⟨rfl, rfl⟩
    · exact .kept x hx
    · exact .posted query rfl
  | lookup id' query reply hs hr =>
    rcases of_update_some hx with hx | ⟨rfl, rfl⟩
    · exact .kept x hx
    · exact .looked query reply hs hr
  | respond id' request query reply e hs he =>
    rcases of_update_some hx with hx | ⟨rfl, rfl⟩
    · exact .kept x hx
    · exact .answered query reply request e hs he rfl
  | stop => cases hx
  | _ => exact .kept x hx

private theorem served_step (hs : Searched w) (hc : Cached w) (hw : Served lower w)
    (h : Transition lower keys w act w') : Served lower w' := by
  constructor
  · intro id query d hx
    have hold : (∃ r, .fresh (queryString lower query) r ∈ w.log ∧ d = r.toJson.stringify) →
        ∃ r, .fresh (queryString lower query) r ∈ w'.log ∧ d = r.toJson.stringify := by
      rintro ⟨r, hr, hd⟩
      exact ⟨r, h.mem_log hr, hd⟩
    apply hold
    generalize hy : Search.looked query (Except.ok (some d)) = y at hx
    cases h.searching hx with
    | kept _ hx =>
      subst hy
      exact hw.looked id query d hx
    | posted query' hi => cases hy
    | looked query' reply hx hr =>
      cases hy
      exact fresh_of_get hc (hr (some d) rfl)
    | answered query' reply request e hx he hl => cases hy
  · intro id query responses hx x hm h200
    generalize hy : Search.answered query responses = y at hx
    cases h.searching hx with
    | kept _ hx =>
      subst hy
      obtain ⟨hwf, r, hr, hb⟩ := hw.answered id query responses hx x hm h200
      exact ⟨hwf, r, h.mem_log hr, hb⟩
    | posted query' hi => cases hy
    | looked query' reply hx hr => cases hy
    | answered query' reply request e hx he hl =>
      cases hy
      rw [hl]
      apply carries_of_respond hs he ?_ hm h200
      rintro d rfl
      exact hw.looked id query d hx

/-- In every state reached without such a user name the responses carry fresh answers. -/
theorem served_of_run {as : List (Action ν)} (h : run (step lower keys) World.init as = some w)
    (hn : ∀ a, .authenticated a ∈ w.log → ¬ js "artist:" <+: a.name) : Served lower w := by
  refine run_invariant_within (C := fun _ _ ↦ True) (J := fun w : World ν ↦ Searched w ∧
      ((∀ a, .authenticated a ∈ w.log → ¬ js "artist:" <+: a.name) → Cached w))
    (I := fun w : World ν ↦
      (∀ a, .authenticated a ∈ w.log → ¬ js "artist:" <+: a.name) → Served lower w)
    (fun _ _ _ hr ↦ ⟨searched_of_run hr, cached_of_run hr⟩) ?_ ?_
    (along_of_forall fun _ _ ↦ trivial) h hn
  · intro w act w' ⟨hs, hc⟩ hw _ hstep hn
    have ht := transition_of_step hstep
    have hn' : ∀ a, .authenticated a ∈ w.log → ¬ js "artist:" <+: a.name := fun a ha ↦
      hn a (ht.mem_log ha)
    exact served_step hs (hc hn') (hw hn') ht
  · intro _
    constructor
    all_goals
      intros
      contradiction

/-- A fresh answer is observed exactly when a search that found nothing cached sends it. -/
theorem fresh_sent (h : Transition lower keys w act w') {key : JsString} {r : Retrieved ν}
    (hf : .fresh key r ∈ w'.log) (hnew : .fresh key r ∉ w.log) :
    ∃ id query reply, w.searches id = some (.looked query reply) ∧ cachedText reply = none ∧
      key = queryString lower query ∧
      w'.searches id = some (.answered query [⟨200, dataBody r.toJson⟩]) := by
  cases h with
  | respond id request query reply e hs he =>
    rcases List.mem_append.mp hf with hf | hf
    · obtain ⟨r', hr', he'⟩ := List.mem_map.mp hf
      cases he'
      have ho := search2_outcome lower keys request query reply
      rw [he] at ho
      cases ho with
      | cached => cases hr'
      | fresh r'' hc hr =>
        rw [List.mem_singleton] at hr'
        subst hr'
        exact ⟨id, query, reply, hs, hc, rfl, Function.update_self ..⟩
      | reported => cases hr'
      | silent => cases hr'
    · exact absurd hf hnew
  | tokenRejected =>
    simp only [World.reject, World.note, World.setRequest, List.mem_cons, reduceCtorEq,
      false_or] at hf
    exact absurd hf hnew
  | answer | tokenAccepted | listed | listRejected | anonymous | execSet | execDestroy =>
    rcases List.mem_cons.mp hf with he | hf
    · cases he
    · exact absurd hf hnew
  | _ => exact absurd hf hnew

end MusicComparer.Server
