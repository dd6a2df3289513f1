import MusicComparer.Server.InFlight
import MusicComparer.Server.Provenance
import MusicComparer.Server.Writes

/-!
# Who is given the index page

`index.js:31–61` renders the index page in two places: after the token check, and at once for a
session without credentials. A rejected session keeps `loggedin` and its token and loses its user
name, so it is let in by the second place on its next request. As long as that branch is not taken,
the page is given only to sessions that the check of the same request accepted; and a session that
was rejected has to wait for a callback that stores its token again.
-/

namespace MusicComparer.Server

open MusicComparer.Js MusicComparer.Upstream MusicComparer.Redis MusicComparer.Api
open MusicComparer.System

variable {ν : Type} [JsNumber ν] {lower : JsString → JsString} {keys : ApiKeys}
  {w w' : World ν} {act : Action ν}

/-- The session holds a user name and a token, and in this request redis replied for the user name
with JSON whose session key is the token. -/
def Authorised (log : List (Event ν)) (rid : Nat) (s : Session) : Prop :=
  ∃ u t text, ∃ json : Json ν, s.username = some u ∧ s.token = some t ∧
    .checked rid u (some (some text)) ∈ log ∧ Json.parse text = some json ∧
    sessionField json (js "key") = .ok (some (.str t))

/-- The session was rejected before request `rid` started, and no callback has stored this key for
this user name since. -/
def Refused (log : List (Event ν)) (rid sid : Nat) (u t : JsString) : Prop :=
  ∃ l₁ l₂ rid' next, log = l₁ ++ .rejected rid' sid next :: l₂ ∧ next ≤ rid ∧
    ∀ a, .authenticated a ∈ l₁ → ¬ (a.name = u ∧ a.key = t)

/-- `GET /application` does not start on a logged-in session without credentials, so the second
branch of `index.js:33` is not taken. -/
def Credentialed (w : World ν) : Action ν → Prop
  | .start .application cookie =>
    ∀ s ∈ w.store cookie, s.loggedin = true → s.hasCredentials = true
  | _ => True

/-- What a newer observation does to a refusal. -/
private theorem refused_cons {e : Event ν} {log : List (Event ν)} {rid sid : Nat} {u t : JsString}
    (h : Refused (e :: log) rid sid u t) :
    (∃ rid' next, e = .rejected rid' sid next ∧ next ≤ rid) ∨
      Refused log rid sid u t ∧ ∀ a, e = .authenticated a → ¬ (a.name = u ∧ a.key = t) := by
  obtain ⟨l₁, l₂, rid', next, hl, hn, ha⟩ := h
  cases l₁ with
  | nil =>
    cases hl
    exact Or.inl ⟨rid', next, rfl, hn⟩
  | cons e' l₁ =>
    cases hl
    refine Or.inr ⟨⟨l₁, l₂, rid', next, rfl, hn, ?_⟩, ?_⟩
    · exact fun a hm ↦ ha a (List.mem_cons_of_mem _ hm)
    · rintro a rfl
      exact ha a List.mem_cons_self

/-- Observations that are not rejections bring no refusal. -/
private theorem refused_append {es log : List (Event ν)} {rid sid : Nat} {u t : JsString}
    (hes : ∀ rid sid next, .rejected rid sid next ∉ es) (h : Refused (es ++ log) rid sid u t) :
    Refused log rid sid u t := by
  induction es with
  | nil => exact h
  | cons e es ih =>
    rcases refused_cons h with ⟨rid', next, rfl, -⟩ | ⟨h, -⟩
    · exact absurd List.mem_cons_self (hes rid' sid next)
    · exact ih (fun rid sid next hm ↦ hes rid sid next (List.mem_cons_of_mem e hm)) h

section Redis

variable {db : Keyspace ν} {s : Session} {t u : JsString}

/-- A cached search result is not the record of a user. -/
private theorem accepts_retrieved (ht : s.token = some t) {r : Retrieved ν} (hr : r.Parsed) :
    s.accepts ν (some (some r.toJson.stringify)) = false := by
  rw [Bool.eq_false_iff]
  intro h
  obtain ⟨text, json, he, hp, hk⟩ := (Session.accepts_iff ht _).mp h
  cases he
  rw [Json.parse_stringify hr.wf, Option.some_inj] at hp
  subst hp
  rw [sessionField_retrieved] at hk
  cases hk

/-- A missing key is not the record of a user. -/
private theorem accepts_missing (ht : s.token = some t) : s.accepts ν (some none) = false := by
  rw [Bool.eq_false_iff]
  intro h
  obtain ⟨text, json, he, -⟩ := (Session.accepts_iff ht _).mp h
  cases he

/-- No command of a search makes the check pass. -/
private theorem accepts_exec (ht : s.token = some t) {log : List (Event ν)} {c : Command ν}
    (hparsed : ∀ key r, .fresh key r ∈ log → r.Parsed) (hc : SearchCommand log c)
    (h : s.accepts ν (Redis.get (exec db c) u) = true) : s.accepts ν (Redis.get db u) = true := by
  rcases get_exec_cases db c u with hg | ⟨v, rfl, hg⟩ | hg
  · rwa [hg] at h
  · obtain ⟨key, r, hr, hc⟩ := hc
    rcases mem_commands hc with he | he | ⟨text, he⟩ | ⟨x, he⟩
    · cases he
      rw [hg, accepts_retrieved ht (hparsed key r hr)] at h
      cases h
    all_goals cases he
  · rw [hg] at h
    cases h

end Redis

/-- The list of latest searches cannot be read in this state, and never will be again. -/
private theorem latestsearches_none_step (hsearch : Searched w) (h : Transition lower keys w act w')
    (hl : w.latestsearches = none) : w'.latestsearches = none := by
  unfold World.latestsearches at hl ⊢
  cases h.written with
  | kept hr =>
    rw [hr]
    exact hl
  | callback a cs hc hr =>
    rw [hr]
    exact lrange_exec_of_none hl _
  | search c cs hc hr =>
    rw [hr]
    exact lrange_exec_of_none hl c
  | expired key e he ht hr =>
    have hne : js "latestsearches" ≠ key := by
      rintro rfl
      exact absurd (hsearch.expiry _ e he ht) (by decide)
    rw [hr, del, lrange, Function.update_of_ne hne]
    exact hl

/-- The check begins to pass only when a callback stores the token. -/
private theorem accepts_step (hsearch : Searched w) (h : Transition lower keys w act w')
    {s : Session} {t u : JsString} (ht : s.token = some t)
    (hw' : s.accepts ν (Redis.get w'.redis u) = true) :
    s.accepts ν (Redis.get w.redis u) = true ∨
      ∃ a, w'.log = .authenticated a :: w.log ∧ a.name = u ∧ a.key = t := by
  cases h.written with
  | kept hr hl =>
    rw [hr] at hw'
    exact Or.inl hw'
  | callback a cs hc hr hl =>
    rw [hr] at hw'
    rcases get_exec_cases w.redis (.set a.name a.text) u with hg | ⟨v, he, hg⟩ | hg
    · rw [hg] at hw'
      exact Or.inl hw'
    · cases he
      rw [hg, Session.accepts_text ht] at hw'
      exact Or.inr ⟨a, hl, rfl, hw'.symm⟩
    · rw [hg] at hw'
      cases hw'
  | search c cs hc hr hl =>
    rw [hr] at hw'
    refine Or.inl (accepts_exec ht hsearch.parsed (hsearch.queued c ?_) hw')
    rw [hc]
    exact List.mem_cons_self
  | expired key e he hexp hr hl =>
    rw [hr, del] at hw'
    by_cases hk : u = key
    · subst hk
      have hg : Redis.get (Function.update w.redis u none) u = some none := by
        rw [Redis.get, Function.update_self]
      rw [hg, accepts_missing ht] at hw'
      cases hw'
    · rw [Redis.get, Function.update_of_ne hk] at hw'
      exact Or.inl hw'

/-- The rejections that a step observes: none, or that of one request. -/
private theorem rejections (h : Transition lower keys w act w') :
    ∃ es, (∀ rid sid next, .rejected rid sid next ∉ es) ∧ (w'.log = es ++ w.log ∨
      ∃ rid q, w.requests rid = some q ∧ Rejecting w q ∧ w'.redis = w.redis ∧
        w'.log = .rejected rid q.sid w.nextRid :: (es ++ w.log)) := by
  cases h with
  | tokenRejected rid q hq hp ha =>
    exact ⟨[_], by simp, Or.inr ⟨rid, q, hq, Or.inl ⟨hp, ha⟩, rfl, rfl⟩⟩
  | listRejected rid q hq hp hl =>
    exact ⟨[], by simp, Or.inr ⟨rid, q, hq, Or.inr ⟨hp, hl⟩, rfl, rfl⟩⟩
  | respond => exact ⟨_, by simp, Or.inl rfl⟩
  | answer | tokenAccepted | listed | anonymous | execSet | execDestroy =>
    exact ⟨[_], by simp, Or.inl rfl⟩
  | _ => exact ⟨[], by simp, Or.inl rfl⟩

/-- A refusal was there before, or a request has just been rejected. -/
private theorem refused_step (h : Transition lower keys w act w') {rid sid : Nat}
    {u t : JsString} (hr : Refused w'.log rid sid u t) :
    Refused w.log rid sid u t ∨ ∃ rid' q, w.requests rid' = some q ∧ q.sid = sid ∧
      w.nextRid ≤ rid ∧ Rejecting w q ∧ w'.redis = w.redis := by
  obtain ⟨es, hes, hl | ⟨rid', q, hq, hrej, hredis, hl⟩⟩ := rejections h
  · rw [hl] at hr
    exact Or.inl (refused_append hes hr)
  · rw [hl] at hr
    rcases refused_cons hr with ⟨rid'', next, he, hn⟩ | ⟨hr, -⟩
    · cases he
      exact Or.inr ⟨rid', q, hq, rfl, hn, hrej, hredis⟩
    · exact Or.inl (refused_append hes hr)

/-- The answer behind the session of a request that is being checked. -/
private theorem created_of_checking (hs : Sound w) {rid : Nat} {q : PageRequest}
    (hq : w.requests rid = some q) (hp : q.phase = .awaitToken ∨ q.phase = .awaitList) :
    ∃ rid' a, .created rid' q.sid a ∈ w.log ∧ q.session.username = some a.name ∧
      q.session.token = some a.key := by
  obtain ⟨u, t, hu, ht, -, -⟩ := (Session.hasCredentials_iff _).mp (hs.checking rid q hq hp)
  rcases hs.sessions.held rid q hq with ⟨-, ht', -⟩ | ⟨rid', a, hc, ht', hu' | hu'⟩
  · rw [ht] at ht'
    cases ht'
  · exact ⟨rid', a, hc, hu', ht'⟩
  · rw [hu] at hu'
    cases hu'

private theorem checking_of_rejecting {q : PageRequest} (h : Rejecting w q) :
    q.phase = .awaitToken ∨ q.phase = .awaitList :=
  h.imp And.left And.left

/-- The check looks at nothing of the session but its token. -/
private theorem accepts_congr {s s' : Session} (h : s.token = s'.token)
    (reply : Option (Option JsString)) : s.accepts ν reply = s'.accepts ν reply := by
  simp only [Session.accepts, Session.tokenCheck, h]

/-- The invariant of the runs without the second branch: requests past the check are authorised,
and a refused session is stopped by the check or by the list. -/
structure Admitted (w : World ν) : Prop where
  credentialed : ∀ rid q, w.requests rid = some q → q.phase ≠ .awaitAnonymous
  checked : ∀ rid q, w.requests rid = some q → q.phase = .awaitList →
    Authorised w.log rid q.session
  known : ∀ rid sid next, .rejected rid sid next ∈ w.log → ∃ rid' a, .created rid' sid a ∈ w.log
  blocked : ∀ rid sid rid' a, .created rid' sid a ∈ w.log → Refused w.log rid sid a.name a.key →
    w.latestsearches = none ∨
      (Session.created a).accepts ν (Redis.get w.redis a.name) = false
  rechecked : ∀ rid q u t, w.requests rid = some q → q.phase = .awaitList →
    q.session.username = some u → q.session.token = some t → Refused w.log rid q.sid u t →
    w.latestsearches = none

private theorem admitted_init : Admitted (World.init : World ν) := by
  constructor
  all_goals
    intros
    contradiction

/-- A started request waits for the anonymous list only without credentials, and never for the
list after the check. -/
private theorem request_phase {kind : Kind} {sid : Nat} {s : Session} :
    (kind.request sid s).phase ≠ .awaitList ∧ ((kind.request sid s).phase = .awaitAnonymous →
      kind = .application ∧ s.loggedin = true ∧ s.hasCredentials = false) := by
  cases kind with
  | logout | login | callback | root => simp [Kind.request, Kind.handle]
  | application =>
    by_cases hl : s.loggedin = true
    · by_cases hc : s.hasCredentials = true <;> simp [Kind.request, Kind.handle, hl, hc]
    · simp [Kind.request, Kind.handle, hl]

private theorem credentialed_step (hw : Admitted w) (h : Transition lower keys w act w')
    (hact : Credentialed w act) {rid : Nat} {q' : PageRequest}
    (hq' : w'.requests rid = some q') : q'.phase ≠ .awaitAnonymous := by
  cases h.held hq' with
  | kept q hq => exact hw.credentialed rid _ hq
  | started kind cookie sid s ha hr hn hs =>
    intro hp
    obtain ⟨rfl, hl, hc⟩ := request_phase.2 hp
    rcases hs with ⟨hs, rfl⟩ | ⟨rfl, -⟩
    · rw [ha] at hact
      rw [hact s hs hl] at hc
      cases hc
    · cases hl
  | moved q phase hq hp => rcases hp with ⟨-, rfl, -⟩ | ⟨-, rfl⟩ | rfl | rfl <;> simp
  | rejected q next ha hq hp hl => simp
  | created q a hq hk hl hn => simp

private theorem checked_step (hs : Sound w) (hw : Admitted w) (h : Transition lower keys w act w')
    {rid : Nat} {q' : PageRequest} (hq' : w'.requests rid = some q') (hp : q'.phase = .awaitList) :
    Authorised w'.log rid q'.session := by
  cases h.held hq' with
  | kept q hq =>
    obtain ⟨u, t, text, json, hu, ht, hm, hj⟩ := hw.checked rid _ hq hp
    exact ⟨u, t, text, json, hu, ht, h.mem_log hm, hj⟩
  | started kind cookie sid s ha hr hn hs => exact absurd hp request_phase.1
  | moved q phase hq hp' =>
    rcases hp' with ⟨hp', -, hacc, hm⟩ | ⟨-, rfl⟩ | rfl | rfl
    · obtain ⟨rid', a, -, hu, ht⟩ := created_of_checking hs hq (Or.inl hp')
      rw [hu, Option.getD_some] at hacc hm
      obtain ⟨text, json, hg, hj, hk⟩ := (Session.accepts_iff ht _).mp hacc
      rw [hg] at hm
      exact ⟨a.name, a.key, text, json, hu, ht, hm, hj, hk⟩
    all_goals cases hp
  | rejected q next ha hq hp' hl => cases hp
  | created q a hq hk hl hn => cases hp

private theorem known_step (hs : Sound w) (hw : Admitted w) (h : Transition lower keys w act w')
    {rid sid next : Nat} (hr : .rejected rid sid next ∈ w'.log) :
    ∃ rid' a, .created rid' sid a ∈ w'.log := by
  have hold : .rejected rid sid next ∈ w.log → ∃ rid' a, .created rid' sid a ∈ w'.log := by
    intro hr
    obtain ⟨rid', a, hc⟩ := hw.known rid sid next hr
    exact ⟨rid', a, h.mem_log hc⟩
  obtain ⟨es, hes, hl | ⟨rid', q, hq, hrej, -, hl⟩⟩ := rejections h
  · rw [hl, List.mem_append] at hr
    exact hold (hr.resolve_left (hes rid sid next))
  · rw [hl, List.mem_cons, List.mem_append] at hr
    rcases hr with he | hr | hr
    · cases he
      obtain ⟨rid'', a, hc, -⟩ := created_of_checking hs hq (checking_of_rejecting hrej)
      exact ⟨rid'', a, h.mem_log hc⟩
    · exact absurd hr (hes rid sid next)
    · exact hold hr

private theorem blocked_step (hsearch : Searched w) (hs : Sound w) (hs' : Sound w')
    (hw : Admitted w) (h : Transition lower keys w act w') {rid sid rid' : Nat} {a : Answer ν}
    (hc : .created rid' sid a ∈ w'.log) (hr : Refused w'.log rid sid a.name a.key) :
    w'.latestsearches = none ∨
      (Session.created a).accepts ν (Redis.get w'.redis a.name) = false := by
  rcases refused_step h hr with hold | ⟨rid'', q, hq, rfl, -, hrej, hredis⟩
  · -- refused before: only a callback that stores the token could have changed the check
    have hb : .created rid' sid a ∈ w.log := by
      obtain ⟨l₁, l₂, rid'', next, hl, -⟩ := hold
      obtain ⟨rid₀, b, hb⟩ := hw.known rid'' sid next (by simp [hl])
      obtain ⟨rfl, rfl⟩ := hs'.unique rid' rid₀ sid a b hc (h.mem_log hb)
      exact hb
    rcases hw.blocked rid sid rid' a hb hold with hl | hacc
    · exact Or.inl (latestsearches_none_step hsearch h hl)
    · right
      rw [Bool.eq_false_iff]
      intro hacc'
      rcases accepts_step hsearch h rfl hacc' with hacc'' | ⟨b, hl, hn, hk⟩
      · rw [hacc] at hacc''
        cases hacc''
      · rw [hl] at hr
        rcases refused_cons hr with ⟨_, _, he, -⟩ | ⟨-, hne⟩
        · cases he
        · exact hne b rfl ⟨hn, hk⟩
  · -- rejected just now, so the check or the list failed in this very state
    obtain ⟨rid₀, b, hb, hu, ht⟩ := created_of_checking hs hq (checking_of_rejecting hrej)
    obtain ⟨-, rfl⟩ := hs'.unique rid' rid₀ q.sid a b hc (h.mem_log hb)
    rcases hrej with ⟨-, hrej⟩ | ⟨-, hrej⟩
    · right
      rw [hredis, ← hrej, hu, Option.getD_some]
      exact accepts_congr ht.symm _
    · left
      rw [World.latestsearches, hredis]
      exact hrej

private theorem rechecked_step (hsearch : Searched w) (hlink : Linked w) (hs : Sound w)
    (hw : Admitted w) (h : Transition lower keys w act w') {rid : Nat} {q' : PageRequest}
    {u t : JsString} (hq' : w'.requests rid = some q') (hp : q'.phase = .awaitList)
    (hu : q'.session.username = some u) (ht : q'.session.token = some t)
    (hr : Refused w'.log rid q'.sid u t) : w'.latestsearches = none := by
  -- a request in flight started before the rejections of this step
  have hold : ∀ q sid, w.requests rid = some q → Refused w'.log rid sid u t →
      Refused w.log rid sid u t := by
    intro q sid hq hr
    rcases refused_step h hr with hr | ⟨_, _, _, _, hn, _⟩
    · exact hr
    · have := hlink.numbered rid q hq
      omega
  apply latestsearches_none_step hsearch h
  cases h.held hq' with
  | kept q hq => exact hw.rechecked rid _ u t hq hp hu ht (hold _ _ hq hr)
  | started kind cookie sid s ha hr hn hs => exact absurd hp request_phase.1
  | moved q phase hq hp' =>
    rcases hp' with ⟨hp', -, hacc, -⟩ | ⟨-, rfl⟩ | rfl | rfl
    · obtain ⟨rid', a, hc, hu', ht'⟩ := created_of_checking hs hq (Or.inl hp')
      rw [hu', Option.getD_some] at hacc
      rw [hu', Option.some_inj] at hu
      rw [ht', Option.some_inj] at ht
      subst hu ht
      rcases hw.blocked rid q.sid rid' a hc (hold q q.sid hq hr) with hl | hf
      · exact hl
      · have he : q.session.accepts ν (Redis.get w.redis a.name) =
            (Session.created a).accepts ν (Redis.get w.redis a.name) := accepts_congr ht' _
        rw [he, hf] at hacc
        cases hacc
    all_goals cases hp
  | rejected q next ha hq hp' hl => cases hp
  | created q a hq hk hl hn => cases hp

/-- Every state reached without the second branch is admitted. -/
private theorem admitted_of_run {as : List (Action ν)}
    (hc : Along (step lower keys) Credentialed World.init as)
    (h : run (step lower keys) World.init as = some w) : Admitted w := by
  refine run_invariant_within (I := Admitted) (J := fun w ↦ Searched w ∧ Linked w ∧ Sound w)
    (fun _ _ _ hr ↦ ⟨searched_of_run hr, linked_of_run hr, sound_of_run hr⟩) ?_ admitted_init hc h
  intro w act w' ⟨hsearch, hlink, hs⟩ hw hact hstep
  have ht := transition_of_step hstep
  have hs' : Sound w' := sound_step hs ht
  constructor
  · exact fun _ _ ↦ credentialed_step hw ht hact
  · exact fun _ _ ↦ checked_step hs hw ht
  · exact fun _ _ _ ↦ known_step hs hw ht
  · exact fun _ _ _ _ ↦ blocked_step hsearch hs hs' hw ht
  · exact fun _ _ _ _ ↦ rechecked_step hsearch hlink hs hw ht

/-- The second branch is reached by rejected sessions only: no other session is logged in without
credentials. -/
theorem rejected_of_anonymous {as : List (Action ν)}
    (h : run (step lower keys) World.init as = some w) {sid : Nat} {s : Session}
    (hs : w.store sid = some s) (hl : s.loggedin = true) (hc : s.hasCredentials = false) :
    ∃ rid next, .rejected rid sid next ∈ w.log := by
  have hevery : EverySession (fun sid s ↦ s.loggedin = true → s.hasCredentials = false →
      ∃ rid next, .rejected rid sid next ∈ w.log) w := by
    refine run_induction (I := fun w : World ν ↦ EverySession (fun sid s ↦ s.loggedin = true →
      s.hasCredentials = false → ∃ rid next, .rejected rid sid next ∈ w.log) w) ?_
      (everySession_init _) h
    intro w act w' hw hstep
    have ht := transition_of_step hstep
    refine ht.everySession hw ?_ ?_ ?_ ?_ ?_
    · intro sid s hp hl hc
      obtain ⟨rid, next, hr⟩ := hp hl hc
      exact ⟨rid, next, ht.mem_log hr⟩
    · intro sid hl
      cases hl
    · intro kind sid s hp hl hc
      obtain ⟨htok, hname⟩ := kind.handle_credentials s
      have hc' : s.hasCredentials = false := by
        rwa [Session.hasCredentials, htok, hname] at hc
      apply hp ?_ hc'
      by_contra hl'
      -- without credentials no route sets `loggedin`
      cases kind with
      | logout => cases hl
      | login => simp [Kind.handle, Session.login, hc', hl'] at hl
      | callback | root => exact hl' hl
      | application => simp [Kind.handle, hl', Session.denied] at hl
    · intro rid sid next s hr _ _ _
      exact ⟨rid, next, hr⟩
    · intro rid sid a _ _ hc
      have : (Session.created a).hasCredentials = true :=
        (Session.hasCredentials_iff _).mpr ⟨a.name, a.key, rfl, rfl, a.name_ne, a.key_ne⟩
      rw [this] at hc
      cases hc
  exact hevery.stored sid s hs hl hc

/-- The index page is rendered by the replies to the two list commands only. -/
private theorem index_cases (h : Transition lower keys w act w') {rid sid : Nat} {s : Session}
    {page : IndexPage} (hi : w'.log = .index rid sid s page :: w.log) :
    ∃ q, w.requests rid = some q ∧ q.sid = sid ∧ q.session = s ∧
      (q.phase = .awaitList ∧ w.latestsearches ≠ none ∨ q.phase = .awaitAnonymous) := by
  have hsame : w.log ≠ .index rid sid s page :: w.log := by simp
  have hother : ∀ e, e ≠ .index rid sid s page →
      ∀ log, e :: log ≠ .index rid sid s page :: w.log := by
    intro e hne log he
    cases he
    exact hne rfl
  cases h with
  | listed rid' q xs hq hp hl =>
    have he : Event.index rid' q.sid q.session _ :: w.log = .index rid sid s page :: w.log := hi
    cases he
    exact ⟨q, hq, rfl, rfl, Or.inl ⟨hp, by simp [hl]⟩⟩
  | anonymous rid' q hq hp =>
    have he : Event.index rid' q.sid q.session _ :: w.log = .index rid sid s page :: w.log := hi
    cases he
    exact ⟨q, hq, rfl, rfl, Or.inr hp⟩
  | respond id request query reply e =>
    cases ht : e.ticks with
    | nil =>
      simp only [ht] at hi
      exact absurd hi hsame
    | cons r rs =>
      simp only [ht] at hi
      exact absurd hi (hother _ (by simp) _)
  | answer | tokenAccepted | tokenRejected | listRejected | execSet | execDestroy =>
    exact absurd hi (hother _ (by simp) _)
  | _ => exact absurd hi hsame

/-- In every run in which no `GET /application` starts on a logged-in session without credentials,
every step that renders the index page does so for a session whose user name and token the same
request found in redis; and not for one that was rejected before the request started, unless a
callback has stored its token since. -/
theorem index_authorised {as : List (Action ν)}
    (hc : Along (step lower keys) Credentialed World.init as)
    (h : run (step lower keys) World.init as = some w)
    (hstep : step lower keys w act = some w') {rid sid : Nat} {s : Session} {page : IndexPage}
    (hi : w'.log = .index rid sid s page :: w.log) :
    Authorised w.log rid s ∧
      ∀ u t, s.username = some u → s.token = some t → ¬ Refused w.log rid sid u t := by
  have hw := admitted_of_run hc h
  obtain ⟨q, hq, rfl, rfl, ⟨hp, hl⟩ | hp⟩ := index_cases (transition_of_step hstep) hi
  · refine ⟨hw.checked rid q hq hp, ?_⟩
    intro u t hu ht hr
    exact hl (hw.rechecked rid q u t hq hp hu ht hr)
  · exact absurd hp (hw.credentialed rid q hq)

instance (w : World ν) : DecidablePred (Credentialed w)
  | .start .application cookie => inferInstanceAs
      (Decidable (∀ s ∈ w.store cookie, s.loggedin = true → s.hasCredentials = true))
  | .start .logout _ | .start .login _ | .start (.callback _) _ | .start .root _ | .answer ..
  | .noAnswer .. | .tokenReply .. | .listReply .. | .finish .. | .execApp | .expireSession ..
  | .post .. | .lookup .. | .respond .. | .execApi | .expireKey .. | .stop => .isTrue trivial

/-- The state in which the check of `ann`, logged in, has passed. -/
def annChecked : World Whole :=
  (run (step LowerCase.ascii.lower ⟨[], []⟩) World.init
    (completeCallback 0 0 ann ++ [.start .application 1, .tokenReply 1])).getD World.init

/-- She is given the index page, authorised. -/
theorem index_authorised_ann : ∃ w',
    step LowerCase.ascii.lower ⟨[], []⟩ annChecked (.listReply 1) = some w' ∧
      w'.log = .index 1 1 (.created ann) ⟨some [], true, some ann.name⟩ :: annChecked.log ∧
      Authorised annChecked.log 1 (.created ann) := by
  have hr : run (step LowerCase.ascii.lower ⟨[], []⟩) World.init
      (completeCallback 0 0 ann ++ [.start .application 1, .tokenReply 1]) = some annChecked :=
    run_eq_getD World.init (by decide +kernel)
  obtain ⟨w', hs, hi⟩ : ∃ w', step LowerCase.ascii.lower ⟨[], []⟩ annChecked (.listReply 1) =
      some w' ∧ w'.log =
        .index 1 1 (.created ann) ⟨some [], true, some ann.name⟩ :: annChecked.log := by
    apply Option.map_eq_some_iff.mp
    decide +kernel
  exact ⟨w', hs, hi, (index_authorised (by decide +kernel) hr hs hi).1⟩

/-- The state in which `ann` has logged in from two browsers with two keys, the session of the
first has been rejected, and the first browser asks again. -/
def annRejected : World Whole :=
  (run (step LowerCase.ascii.lower ⟨[], []⟩) World.init
    (completeCallback 0 0 ann ++ completeCallback 1 9 annAgain ++
      [.start .application 1, .tokenReply 2, .finish 2, .execApp, .start .application 1])).getD
    World.init

/-- The session that was just rejected is given the index page, although it has no user name. -/
theorem index_after_rejection : ∃ as w' s page,
    run (step LowerCase.ascii.lower ⟨[], []⟩) World.init as = some annRejected ∧
      step LowerCase.ascii.lower ⟨[], []⟩ annRejected (.listReply 3) = some w' ∧
      w'.log = .index 3 1 s page :: annRejected.log ∧ ¬ Authorised annRejected.log 3 s ∧
      annRejected.log.head? = some (.rejected 2 1 3) := by
  obtain ⟨w', hs, hi⟩ : ∃ w', step LowerCase.ascii.lower ⟨[], []⟩ annRejected (.listReply 3) =
      some w' ∧ w'.log = .index 3 1 ⟨true, none, some ann.key, none⟩ ⟨some [], false, none⟩ ::
        annRejected.log := by
    apply Option.map_eq_some_iff.mp
    decide +kernel
  refine ⟨_, w', _, _, run_eq_getD World.init (by decide +kernel), hs, hi, ?_, ?_⟩
  · rintro ⟨u, t, text, json, hu, -⟩
    cases hu
  · decide +kernel

end MusicComparer.Server
