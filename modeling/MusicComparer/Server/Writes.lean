import MusicComparer.Server.World

/-!
# What is written to redis

The keyspace is written by the callbacks, one `SET` each, and by the deferred blocks of the
searches. The commands waiting on the connection of `api.js` are commands of blocks whose answer is
in the log.
-/

namespace MusicComparer.Server

open MusicComparer.Js MusicComparer.Upstream MusicComparer.Redis MusicComparer.Api
open MusicComparer.System

variable {ν : Type} [JsNumber ν] {lower : JsString → JsString} {keys : ApiKeys}
  {w w' : World ν} {act : Action ν}

/-- How a step changes the keyspace, and the callbacks it records. -/
inductive Written (w w' : World ν) : Prop where
  | kept (hr : w'.redis = w.redis)
      (hl : ∃ es, w'.log = es ++ w.log ∧ ∀ a, .authenticated a ∉ es)
  | callback (a : Answer ν) (cs : List (AppCommand ν)) (hc : w.appQueue = .set a :: cs)
      (hr : w'.redis = exec w.redis (.set a.name a.text)) (hl : w'.log = .authenticated a :: w.log)
  | search (c : Command ν) (cs : List (Command ν)) (hc : w.apiQueue = c :: cs)
      (hr : w'.redis = exec w.redis c) (hl : w'.log = w.log)
  | expired (key : JsString) (e : Redis.Entry ν) (he : w.redis key = some e)
      (ht : e.expiry.isSome = true) (hr : w'.redis = del w.redis key) (hl : w'.log = w.log)

/-- Every step changes the keyspace in one of these ways. -/
theorem Transition.written (h : Transition lower keys w act w') : Written w w' := by
  cases h with
  | execSet a cs hc => exact .callback a cs hc rfl rfl
  | execApi c cs hc => exact .search c cs hc rfl rfl
  | expireKey key e he ht => exact .expired key e he ht rfl rfl
  | answer rid a => exact .kept rfl ⟨[_], rfl, by simp⟩
  | tokenAccepted rid q => exact .kept rfl ⟨[_], rfl, by simp⟩
  | tokenRejected rid q => exact .kept rfl ⟨[_, _], rfl, by simp⟩
  | listed rid q => exact .kept rfl ⟨[_], rfl, by simp⟩
  | listRejected rid q => exact .kept rfl ⟨[_], rfl, by simp⟩
  | anonymous rid q => exact .kept rfl ⟨[_], rfl, by simp⟩
  | execDestroy rid => exact .kept rfl ⟨[_], rfl, by simp⟩
  | respond id request => exact .kept rfl ⟨_, rfl, by simp⟩
  | _ => exact .kept rfl ⟨[], rfl, by simp⟩

/-- The commands of the deferred blocks whose answers are in the log. -/
def SearchCommand (log : List (Event ν)) (c : Command ν) : Prop :=
  ∃ key r, .fresh key r ∈ log ∧ c ∈ commands key r

/-- The fresh answers contain parsed values, and only their blocks wait for execution. Only cache
keys have a time to live. -/
structure Searched (w : World ν) : Prop where
  parsed : ∀ key r, .fresh key r ∈ w.log → r.Parsed
  queued : ∀ c ∈ w.apiQueue, SearchCommand w.log c
  expiry : ∀ k e, w.redis k = some e → e.expiry.isSome = true → js "artist:" <+: k

/-- The text of a search result has no session key. -/
theorem sessionField_retrieved (r : Retrieved ν) (field : JsString) :
    sessionField r.toJson.reload field = .error .typeError := by
  simp [Retrieved.toJson, Json.reload, sessionField, Val.get, bind, Except.bind,
    show arrayIndex? (js "session") = none by decide, show js "session" ≠ js "length" by decide]

/-- A block is queued only for an answer with parsed values. -/
private theorem parsed_of_tick {request : Request ν} {query : JsString}
    {reply : Except (JsError ν) (Option JsString)} {r : Retrieved ν}
    (h : r ∈ (Chain.effects (search2 lower keys request query reply) Effects.start).ticks) :
    r.Parsed := by
  generalize hE : Chain.effects (search2 lower keys request query reply) Effects.start = E at h
  have ho := search2_outcome lower keys request query reply
  rw [hE] at ho
  cases ho with
  | cached => cases h
  | fresh r' _ hr =>
    rw [List.mem_singleton] at h
    rw [h]
    exact hr
  | reported => cases h
  | silent => cases h

/-- A search adds its answers to the log. -/
private theorem parsed_step (hw : Searched w) (h : Transition lower keys w act w') {key : JsString}
    {r : Retrieved ν} (hr : .fresh key r ∈ w'.log) : r.Parsed := by
  cases h with
  | respond id request query reply e hs he =>
    subst he
    rcases List.mem_append.mp hr with hr | hr
    · obtain ⟨r', hr', he⟩ := List.mem_map.mp hr
      cases he
      exact parsed_of_tick hr'
    · exact hw.parsed key r hr
  | tokenRejected rid q =>
    rcases List.mem_cons.mp hr with he | hr
    · cases he
    · rcases List.mem_cons.mp hr with he | hr
      · cases he
      · exact hw.parsed key r hr
  | answer | tokenAccepted | listed | listRejected | anonymous | execSet | execDestroy =>
    rcases List.mem_cons.mp hr with he | hr
    · cases he
    · exact hw.parsed key r hr
  | _ => exact hw.parsed key r hr

/-- A search adds the commands of its block to the queue. -/
private theorem queued_step (hw : Searched w) (h : Transition lower keys w act w') {c : Command ν}
    (hc : c ∈ w'.apiQueue) : SearchCommand w'.log c := by
  have hold : c ∈ w.apiQueue → SearchCommand w'.log c := by
    intro hc
    obtain ⟨key, r, hr, hc⟩ := hw.queued c hc
    exact ⟨key, r, h.mem_log hr, hc⟩
  cases h with
  | respond id request query reply e hs he =>
    rcases List.mem_append.mp hc with hc | hc
    · exact hold hc
    · obtain ⟨r, hr, hc⟩ := List.mem_flatMap.mp hc
      exact ⟨_, r, List.mem_append_left _ (List.mem_map_of_mem hr), hc⟩
  | execApi c' cs hc' =>
    apply hold
    rw [hc']
    exact List.mem_cons_of_mem c' hc
  | stop => cases hc
  | _ => exact hold hc

/-- Only the `EXPIRE` of a search gives a key a time to live. -/
private theorem expiry_exec {db : Keyspace ν} {log : List (Event ν)} {c : Command ν}
    (hc : SearchCommand log c)
    (h : ∀ k e, db k = some e → e.expiry.isSome = true → js "artist:" <+: k) {k : JsString}
    {e : Redis.Entry ν} (he : exec db c k = some e) (ht : e.expiry.isSome = true) :
    js "artist:" <+: k := by
  by_cases hk : k = c.key
  · subst hk
    rw [exec_key] at he
    obtain ⟨key, r, -, hc⟩ := hc
    rcases mem_commands hc with rfl | rfl | ⟨text, rfl⟩ | ⟨x, rfl⟩
    · exact List.prefix_append _ _
    · exact List.prefix_append _ _
    · simp only [write, Command.key] at he
      split at he
      · cases he
        cases ht
      · next xs t hl =>
        cases he
        exact h _ _ hl ht
      · exact h _ _ he ht
    · simp only [write, Command.key] at he
      split at he
      · cases he
        cases ht
      · next ms t hl =>
        cases he
        exact h _ _ hl ht
      · exact h _ _ he ht
  · rw [exec_of_ne db c hk] at he
    exact h k e he ht

private theorem expiry_step (hw : Searched w) (h : Transition lower keys w act w') {k : JsString}
    {e : Redis.Entry ν} (he : w'.redis k = some e) (ht : e.expiry.isSome = true) :
    js "artist:" <+: k := by
  cases h.written with
  | kept hr hl =>
    rw [hr] at he
    exact hw.expiry k e he ht
  | callback a cs hc hr hl =>
    rw [hr] at he
    by_cases hk : k = a.name
    · rw [hk, exec_set] at he
      cases he
      cases ht
    · rw [exec_of_ne w.redis (.set a.name a.text) hk] at he
      exact hw.expiry k e he ht
  | search c cs hc hr hl =>
    rw [hr] at he
    apply expiry_exec (hw.queued c _) hw.expiry he ht
    rw [hc]
    exact List.mem_cons_self
  | expired key e' he' ht' hr hl =>
    rw [hr, del] at he
    by_cases hk : k = key
    · rw [hk, Function.update_self] at he
      cases he
    · rw [Function.update_of_ne hk] at he
      exact hw.expiry k e he ht

/-- In every reachable state the waiting commands of `api.js` come from fresh answers. -/
theorem searched_of_run {as : List (Action ν)} (h : run (step lower keys) World.init as = some w) :
    Searched w := by
  refine run_induction (I := Searched) ?_ ?_ h
  · intro w act w' hw hstep
    have ht := transition_of_step hstep
    exact ⟨fun _ _ ↦ parsed_step hw ht, fun _ ↦ queued_step hw ht, fun _ _ ↦ expiry_step hw ht⟩
  · constructor
    all_goals
      intros
      contradiction

end MusicComparer.Server
