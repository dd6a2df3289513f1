import MusicComparer.Api.Deferred
import MusicComparer.Server.Session
import MusicComparer.System.Run

/-!
# The server and its redis

The state shared by all requests, and the steps that change it. `app.js`, `routes/index.js` and
`routes/api.js` each open a redis connection; commands of one connection execute in the order in
which they were issued. The session store uses the connection of `app.js`, under keys of its own
(`sess:` and the identifier), so it is a map beside the keyspace. `express-session` reads the
whole session before a handler runs, and writes the whole session back at the end of the response
if a field has changed; the response then waits for the write. A session that is not in the store
gets a new identifier.

Identifiers and request numbers are counted, so that requests are numbered in order of start. The
log records what was observed, newest first; no handler reads it.
-/

namespace MusicComparer.Server

open MusicComparer.Js MusicComparer.Upstream MusicComparer.Redis MusicComparer.Api

variable {ν : Type} [JsNumber ν]

/-- Commands on the connection of `app.js`. -/
inductive AppCommand (ν : Type) [JsNumber ν] where
  /-- `client.set` of a callback, `app.js:93` -/
  | set (a : Answer ν)
  /-- removal of the old session by `regenerate`, `app.js:94` -/
  | destroy (rid sid : Nat) (a : Answer ν)
  /-- write of a changed session -/
  | save (rid sid : Nat) (s : Session)
  deriving DecidableEq

/-- A `POST /api/search2` in flight. -/
inductive Search (ν : Type) where
  /-- waiting for the redis `GET` -/
  | posted (query : JsString)
  /-- waiting for the upstream services -/
  | looked (query : JsString) (reply : Except (JsError ν) (Option JsString))
  /-- finished with these calls of `res.send`, of which the first one is the response -/
  | answered (query : JsString) (responses : List (Response ν))

/-- The query of a search. -/
def Search.query {ν : Type} : Search ν → JsString
  | posted query | looked query _ | answered query _ => query

/-- The arguments of `render_index_page`, `index.js:13–20`. -/
structure IndexPage where
  latestsearches : Option (List JsString)
  authenticated : Bool
  username : Option JsString
  deriving DecidableEq, Repr

/-- Observations. -/
inductive Event (ν : Type) [JsNumber ν] where
  /-- Last.fm answered the callback -/
  | answered (rid : Nat) (a : Answer ν)
  /-- the `SET` of a callback was executed -/
  | authenticated (a : Answer ν)
  /-- the callback created the session -/
  | created (rid sid : Nat) (a : Answer ν)
  /-- redis replied to the `GET` of the token check -/
  | checked (rid : Nat) (username : JsString) (reply : Option (Option JsString))
  /-- the request ended in the `catch` of `index.js:50`; `next` is the number of the next request -/
  | rejected (rid sid next : Nat)
  /-- the index page was rendered for the session -/
  | index (rid sid : Nat) (s : Session) (page : IndexPage)
  /-- a search that found nothing cached sent this answer -/
  | fresh (query : JsString) (r : Retrieved ν)
  deriving DecidableEq

/-- The server, its clients' requests, and redis. -/
structure World (ν : Type) [JsNumber ν] where
  redis : Keyspace ν
  store : Nat → Option Session
  requests : Nat → Option PageRequest
  searches : Nat → Option (Search ν)
  appQueue : List (AppCommand ν)
  apiQueue : List (Command ν)
  nextRid : Nat
  nextSid : Nat
  log : List (Event ν)

/-- Nothing stored, nothing in flight. -/
def World.init : World ν :=
  ⟨fun _ ↦ none, fun _ ↦ none, fun _ ↦ none, fun _ ↦ none, [], [], 0, 0, []⟩

/-- The steps: arrivals, replies, ends of responses, executions of queued commands, expiries. -/
inductive Action (ν : Type) [JsNumber ν] where
  /-- a request reads the session its cookie names -/
  | start (kind : Kind) (cookie : Nat)
  /-- Last.fm answers a callback -/
  | answer (rid : Nat) (a : Answer ν)
  /-- `auth.getSession` fails, or its answer is not JSON or has no session -/
  | noAnswer (rid : Nat)
  /-- redis replies to the `GET` of the token check -/
  | tokenReply (rid : Nat)
  /-- redis replies to an `LRANGE` of `GET /application` -/
  | listReply (rid : Nat)
  /-- the response ends -/
  | finish (rid : Nat)
  /-- the oldest command of `app.js` executes and its callback runs -/
  | execApp
  /-- a stored session reaches its age -/
  | expireSession (sid : Nat)
  /-- a search arrives -/
  | post (query : JsString)
  /-- redis replies to the `GET` of a search -/
  | lookup (id : Nat)
  /-- the upstream services answer a search -/
  | respond (id : Nat) (request : Request ν)
  /-- the oldest command of `api.js` executes -/
  | execApi
  /-- a key with a time to live expires -/
  | expireKey (key : JsString)
  /-- the process ends and is started again: commands not yet executed are lost -/
  | stop

namespace World

variable (lower : JsString → JsString) (keys : ApiKeys) (w : World ν)

/-- The request with this number, if it is in this phase. -/
def inPhase (rid : Nat) (phase : Phase) : Option PageRequest :=
  (w.requests rid).filter fun q ↦ q.phase = phase

/-- Replace a request. -/
def setRequest (rid : Nat) (q : Option PageRequest) : World ν :=
  { w with requests := Function.update w.requests rid q }

/-- Record an observation. -/
def note (e : Event ν) : World ν := { w with log := e :: w.log }

/-- A request starts with this session. -/
def begin (kind : Kind) (sid : Nat) (s : Session) : World ν :=
  { w with
    requests := Function.update w.requests w.nextRid (some (kind.request sid s))
    nextRid := w.nextRid + 1 }

/-- `express-session` looks the cookie up, and generates a session if it is unknown. -/
def start (kind : Kind) (cookie : Nat) : World ν :=
  match w.store cookie with
  | some s => w.begin kind cookie s
  | none => { w with nextSid := w.nextSid + 1 }.begin kind w.nextSid Session.empty

/-- The answer of a callback, `app.js:89–94`: the `SET` is issued, then the removal of the old
session by `regenerate`. -/
def answer (rid : Nat) (a : Answer ν) : Option (World ν) := do
  let q ← w.inPhase rid .awaitSession
  let w := w.setRequest rid (some { q with phase := .regenerating })
  let w := w.note (.answered rid a)
  some { w with appQueue := w.appQueue ++ [.set a, .destroy rid q.sid a] }

/-- The `catch` of `GET /application`, `index.js:50–54`. -/
def reject (rid : Nat) (q : PageRequest) : World ν :=
  (w.setRequest rid (some { q with session := q.session.rejected, phase := .ended })).note
    (.rejected rid q.sid w.nextRid)

/-- The reply to the `GET` of the token check, `index.js:35–47`. -/
def tokenReply (rid : Nat) : Option (World ν) := do
  let q ← w.inPhase rid .awaitToken
  let username := q.session.username.getD []
  let reply := Redis.get w.redis username
  let w := w.note (.checked rid username reply)
  if q.session.accepts ν reply then some (w.setRequest rid (some { q with phase := .awaitList }))
  else some (w.reject rid q)

/-- `client.lrange("latestsearches", -5, -1)`. -/
def latestsearches : Option (List JsString) := lrange w.redis (js "latestsearches") (-5) (-1)

/-- `render_index_page`, and the response ends. -/
def renderIndex (rid : Nat) (q : PageRequest) (page : IndexPage) : World ν :=
  (w.setRequest rid (some { q with phase := .ended })).note (.index rid q.sid q.session page)

/-- The reply to an `LRANGE`: after the token check an error goes to the `catch`,
`index.js:48–54`; without credentials it is passed over, `index.js:56–59`. -/
def listReply (rid : Nat) : Option (World ν) := do
  let q ← w.requests rid
  match q.phase with
  | .awaitList =>
    match w.latestsearches with
    | some xs => some (w.renderIndex rid q ⟨some xs, true, q.session.username⟩)
    | none => some (w.reject rid q)
  | .awaitAnonymous => some (w.renderIndex rid q ⟨w.latestsearches, false, none⟩)
  | _ => none

/-- The end of a response: an unchanged session is not written. -/
def finish (rid : Nat) : Option (World ν) := do
  let q ← w.inPhase rid .ended
  if q.session = q.loaded then some (w.setRequest rid none)
  else
    let w := w.setRequest rid (some { q with phase := .saving })
    some { w with appQueue := w.appQueue ++ [.save rid q.sid q.session] }

/-- The callback of `regenerate`, `app.js:94–99`. When the request was already answered, the
redirect throws and the new session is not written. -/
def regenerated (rid : Nat) (a : Answer ν) : World ν :=
  match w.requests rid with
  | some q =>
    if q.kind = .callback true then
      let q := { q with
        sid := w.nextSid, loaded := .empty, session := .created a, phase := .ended }
      { w.setRequest rid (some q) with nextSid := w.nextSid + 1 }.note (.created rid w.nextSid a)
    else w.setRequest rid none
  | none => w

/-- Execute a command of `app.js`. -/
def apply : AppCommand ν → World ν
  | .set a => { w with redis := exec w.redis (.set a.name a.text) }.note (.authenticated a)
  | .destroy rid sid a => { w with store := Function.update w.store sid none }.regenerated rid a
  | .save rid sid s => { w with store := Function.update w.store sid (some s) }.setRequest rid none

/-- Execute the oldest command of `app.js`. -/
def execApp : Option (World ν) :=
  match w.appQueue with
  | [] => none
  | c :: cs => some ({ w with appQueue := cs }.apply c)

/-- The error reply of redis to a command on a value of another type. -/
def wrongType : JsError ν :=
  .error (js "WRONGTYPE Operation against a key holding the wrong kind of value")

/-- A search arrives. -/
def post (query : JsString) : World ν :=
  { w with
    searches := Function.update w.searches w.nextRid (some (.posted query))
    nextRid := w.nextRid + 1 }

/-- The reply to the `GET` of a search, `api.js:68`. -/
def lookup (id : Nat) : Option (World ν) :=
  match w.searches id with
  | some (.posted query) =>
    let reply :=
      match Redis.get w.redis (artistKey (queryString lower query)) with
      | some data => .ok data
      | none => .error wrongType
    some { w with searches := Function.update w.searches id (some (.looked query reply)) }
  | _ => none

/-- The rest of a search, `api.js:69–154`: its responses, and the commands of its deferred block. -/
def respond (id : Nat) (request : Request ν) : Option (World ν) :=
  match w.searches id with
  | some (.looked query reply) =>
    let key := queryString lower query
    let e := Chain.effects (search2 lower keys request query reply) Effects.start
    some { w with
      searches := Function.update w.searches id (some (.answered query e.responses))
      apiQueue := w.apiQueue ++ e.ticks.flatMap (commands key)
      log := e.ticks.map (.fresh key) ++ w.log }
  | _ => none

/-- Execute the oldest command of `api.js`. -/
def execApi : Option (World ν) :=
  match w.apiQueue with
  | [] => none
  | c :: cs => some { w with redis := exec w.redis c, apiQueue := cs }

/-- Only keys with a time to live expire. -/
def expireKey (key : JsString) : Option (World ν) := do
  let e ← w.redis key
  if e.expiry.isSome then some { w with redis := del w.redis key } else none

/-- The process ends. -/
def stop : World ν :=
  { w with requests := fun _ ↦ none, searches := fun _ ↦ none, appQueue := [], apiQueue := [] }

end World

/-- One step; `none` where the action is not enabled. -/
def step (lower : JsString → JsString) (keys : ApiKeys) (w : World ν) :
    Action ν → Option (World ν)
  | .start kind cookie => some (w.start kind cookie)
  | .answer rid a => w.answer rid a
  | .noAnswer rid => (w.inPhase rid .awaitSession).map fun _ ↦ w.setRequest rid none
  | .tokenReply rid => w.tokenReply rid
  | .listReply rid => w.listReply rid
  | .finish rid => w.finish rid
  | .execApp => w.execApp
  | .expireSession sid => some { w with store := Function.update w.store sid none }
  | .post query => some (w.post query)
  | .lookup id => w.lookup lower id
  | .respond id request => w.respond lower keys id request
  | .execApi => w.execApi
  | .expireKey key => w.expireKey key
  | .stop => some w.stop

/-- What a step can do: one case for each branch of the handlers, with its guards. -/
inductive Transition (lower : JsString → JsString) (keys : ApiKeys) (w : World ν) :
    Action ν → World ν → Prop where
  | startKnown (kind : Kind) (cookie : Nat) (s : Session) (hs : w.store cookie = some s) :
      Transition lower keys w (.start kind cookie) (w.begin kind cookie s)
  | startNew (kind : Kind) (cookie : Nat) (hs : w.store cookie = none) :
      Transition lower keys w (.start kind cookie)
        ({ w with nextSid := w.nextSid + 1 }.begin kind w.nextSid Session.empty)
  | answer (rid : Nat) (a : Answer ν) (q : PageRequest) (hq : w.requests rid = some q)
      (hp : q.phase = .awaitSession) :
      Transition lower keys w (.answer rid a)
        { (w.setRequest rid (some { q with phase := .regenerating })).note (.answered rid a) with
          appQueue := w.appQueue ++ [.set a, .destroy rid q.sid a] }
  | noAnswer (rid : Nat) (q : PageRequest) (hq : w.requests rid = some q)
      (hp : q.phase = .awaitSession) :
      Transition lower keys w (.noAnswer rid) (w.setRequest rid none)
  | tokenAccepted (rid : Nat) (q : PageRequest) (hq : w.requests rid = some q)
      (hp : q.phase = .awaitToken)
      (ha : q.session.accepts ν (Redis.get w.redis (q.session.username.getD [])) = true) :
      Transition lower keys w (.tokenReply rid)
        ((w.note (.checked rid (q.session.username.getD [])
          (Redis.get w.redis (q.session.username.getD [])))).setRequest rid
            (some { q with phase := .awaitList }))
  | tokenRejected (rid : Nat) (q : PageRequest) (hq : w.requests rid = some q)
      (hp : q.phase = .awaitToken)
      (ha : q.session.accepts ν (Redis.get w.redis (q.session.username.getD [])) = false) :
      Transition lower keys w (.tokenReply rid)
        ((w.note (.checked rid (q.session.username.getD [])
          (Redis.get w.redis (q.session.username.getD [])))).reject rid q)
  | listed (rid : Nat) (q : PageRequest) (xs : List JsString) (hq : w.requests rid = some q)
      (hp : q.phase = .awaitList) (hl : w.latestsearches = some xs) :
      Transition lower keys w (.listReply rid)
        (w.renderIndex rid q ⟨some xs, true, q.session.username⟩)
  | listRejected (rid : Nat) (q : PageRequest) (hq : w.requests rid = some q)
      (hp : q.phase = .awaitList) (hl : w.latestsearches = none) :
      Transition lower keys w (.listReply rid) (w.reject rid q)
  | anonymous (rid : Nat) (q : PageRequest) (hq : w.requests rid = some q)
      (hp : q.phase = .awaitAnonymous) :
      Transition lower keys w (.listReply rid) (w.renderIndex rid q ⟨w.latestsearches, false, none⟩)
  | finishUnchanged (rid : Nat) (q : PageRequest) (hq : w.requests rid = some q)
      (hp : q.phase = .ended) (hs : q.session = q.loaded) :
      Transition lower keys w (.finish rid) (w.setRequest rid none)
  | finishChanged (rid : Nat) (q : PageRequest) (hq : w.requests rid = some q)
      (hp : q.phase = .ended) (hs : q.session ≠ q.loaded) :
      Transition lower keys w (.finish rid)
        { w.setRequest rid (some { q with phase := .saving }) with
          appQueue := w.appQueue ++ [.save rid q.sid q.session] }
  | execSet (a : Answer ν) (cs : List (AppCommand ν)) (hc : w.appQueue = .set a :: cs) :
      Transition lower keys w .execApp
        ({ w with appQueue := cs, redis := exec w.redis (.set a.name a.text) }.note
          (.authenticated a))
  | execDestroy (rid sid : Nat) (a : Answer ν) (cs : List (AppCommand ν)) (q : PageRequest)
      (hc : w.appQueue = .destroy rid sid a :: cs) (hq : w.requests rid = some q)
      (hk : q.kind = .callback true) :
      Transition lower keys w .execApp
        ({ w with
          appQueue := cs
          store := Function.update w.store sid none
          requests := Function.update w.requests rid (some { q with
            sid := w.nextSid, loaded := .empty, session := .created a, phase := .ended })
          nextSid := w.nextSid + 1 }.note (.created rid w.nextSid a))
  | execDestroyLate (rid sid : Nat) (a : Answer ν) (cs : List (AppCommand ν))
      (hc : w.appQueue = .destroy rid sid a :: cs) :
      Transition lower keys w .execApp
        { w with
          appQueue := cs
          store := Function.update w.store sid none
          requests := Function.update w.requests rid none }
  | execSave (rid sid : Nat) (s : Session) (cs : List (AppCommand ν))
      (hc : w.appQueue = .save rid sid s :: cs) :
      Transition lower keys w .execApp
        { w with
          appQueue := cs
          store := Function.update w.store sid (some s)
          requests := Function.update w.requests rid none }
  | expireSession (sid : Nat) :
      Transition lower keys w (.expireSession sid)
        { w with store := Function.update w.store sid none }
  | post (query : JsString) : Transition lower keys w (.post query) (w.post query)
  | lookup (id : Nat) (query : JsString) (reply : Except (JsError ν) (Option JsString))
      (hs : w.searches id = some (.posted query))
      (hr : ∀ data, reply = .ok data →
        Redis.get w.redis (artistKey (queryString lower query)) = some data) :
      Transition lower keys w (.lookup id)
        { w with searches := Function.update w.searches id (some (.looked query reply)) }
  | respond (id : Nat) (request : Request ν) (query : JsString)
      (reply : Except (JsError ν) (Option JsString)) (e : Effects ν)
      (hs : w.searches id = some (.looked query reply))
      (he : Chain.effects (search2 lower keys request query reply) Effects.start = e) :
      Transition lower keys w (.respond id request)
        { w with
          searches := Function.update w.searches id (some (.answered query e.responses))
          apiQueue := w.apiQueue ++ e.ticks.flatMap (commands (queryString lower query))
          log := e.ticks.map (.fresh (queryString lower query)) ++ w.log }
  | execApi (c : Command ν) (cs : List (Command ν)) (hc : w.apiQueue = c :: cs) :
      Transition lower keys w .execApi { w with redis := exec w.redis c, apiQueue := cs }
  | expireKey (key : JsString) (e : Redis.Entry ν) (he : w.redis key = some e)
      (ht : e.expiry.isSome = true) :
      Transition lower keys w (.expireKey key) { w with redis := del w.redis key }
  | stop : Transition lower keys w .stop w.stop

section Inversion

variable {lower : JsString → JsString} {keys : ApiKeys} {w w' : World ν}

private theorem inPhase_eq_some {rid : Nat} {phase : Phase} {q : PageRequest}
    (h : w.inPhase rid phase = some q) : w.requests rid = some q ∧ q.phase = phase := by
  rw [World.inPhase, Option.filter_eq_some_iff] at h
  exact ⟨h.1, of_decide_eq_true h.2⟩

private theorem transition_of_tokenReply {rid : Nat} (h : w.tokenReply rid = some w') :
    Transition lower keys w (.tokenReply rid) w' := by
  rw [World.tokenReply] at h
  obtain ⟨q, hq, h⟩ := Option.bind_eq_some_iff.mp h
  obtain ⟨hq, hp⟩ := inPhase_eq_some hq
  dsimp only at h
  split at h
  · next ha =>
    cases h
    exact .tokenAccepted rid q hq hp ha
  · next ha =>
    cases h
    exact .tokenRejected rid q hq hp (by simpa using ha)

private theorem transition_of_listReply {rid : Nat} (h : w.listReply rid = some w') :
    Transition lower keys w (.listReply rid) w' := by
  rw [World.listReply] at h
  obtain ⟨q, hq, h⟩ := Option.bind_eq_some_iff.mp h
  split at h
  · next hp =>
    split at h
    · next xs hl =>
      cases h
      exact .listed rid q xs hq hp hl
    · next hl =>
      cases h
      exact .listRejected rid q hq hp hl
  · next hp =>
    cases h
    exact .anonymous rid q hq hp
  · cases h

private theorem transition_of_finish {rid : Nat} (h : w.finish rid = some w') :
    Transition lower keys w (.finish rid) w' := by
  rw [World.finish] at h
  obtain ⟨q, hq, h⟩ := Option.bind_eq_some_iff.mp h
  obtain ⟨hq, hp⟩ := inPhase_eq_some hq
  split at h
  · next hs =>
    cases h
    exact .finishUnchanged rid q hq hp hs
  · next hs =>
    cases h
    exact .finishChanged rid q hq hp hs

private theorem transition_of_execApp (h : w.execApp = some w') :
    Transition lower keys w .execApp w' := by
  rw [World.execApp] at h
  split at h
  · cases h
  · next c cs hc =>
    cases h
    cases c with
    | set a => exact .execSet a cs hc
    | destroy rid sid a =>
      rw [World.apply, World.regenerated]
      split
      · next q hq =>
        split
        · next hk => exact .execDestroy rid sid a cs q hc hq hk
        · exact .execDestroyLate rid sid a cs hc
      · next hq =>
        have he : Transition lower keys w .execApp _ := .execDestroyLate rid sid a cs hc
        have hu : Function.update w.requests rid none = w.requests := by
          rw [← hq]
          exact Function.update_eq_self rid w.requests
        rw [hu] at he
        exact he
    | save rid sid s => exact .execSave rid sid s cs hc

private theorem transition_of_lookup {id : Nat} (h : w.lookup lower id = some w') :
    Transition lower keys w (.lookup id) w' := by
  rw [World.lookup] at h
  split at h
  · next query hs =>
    cases h
    apply Transition.lookup id query _ hs
    intro data hr
    split at hr
    · next d hd =>
      cases hr
      exact hd
    · cases hr
  · cases h

/-- Every step is one of the transitions. -/
theorem transition_of_step {a : Action ν} (h : step lower keys w a = some w') :
    Transition lower keys w a w' := by
  cases a with
  | start kind cookie =>
    cases h
    rw [World.start]
    split
    · next s hs => exact .startKnown kind cookie s hs
    · next hs => exact .startNew kind cookie hs
  | answer rid a =>
    obtain ⟨q, hq, h⟩ := Option.bind_eq_some_iff.mp h
    obtain ⟨hq, hp⟩ := inPhase_eq_some hq
    cases h
    exact .answer rid a q hq hp
  | noAnswer rid =>
    obtain ⟨q, hq, rfl⟩ := Option.map_eq_some_iff.mp h
    obtain ⟨hq, hp⟩ := inPhase_eq_some hq
    exact .noAnswer rid q hq hp
  | tokenReply rid => exact transition_of_tokenReply h
  | listReply rid => exact transition_of_listReply h
  | finish rid => exact transition_of_finish h
  | execApp => exact transition_of_execApp h
  | expireSession sid =>
    cases h
    exact .expireSession sid
  | post query =>
    cases h
    exact .post query
  | lookup id => exact transition_of_lookup h
  | respond id request =>
    rw [step, World.respond] at h
    split at h
    · next query reply hs =>
      cases h
      exact .respond id request query reply _ hs rfl
    · cases h
  | execApi =>
    rw [step, World.execApi] at h
    split at h
    · cases h
    · next c cs hc =>
      cases h
      exact .execApi c cs hc
  | expireKey key =>
    obtain ⟨e, he, h⟩ := Option.bind_eq_some_iff.mp h
    split at h
    · next ht =>
      cases h
      exact .expireKey key e he ht
    · cases h
  | stop =>
    cases h
    exact .stop

end Inversion

/-- An item of an updated table is an old item or the new one. -/
theorem of_update_some {α : Type} {f : Nat → Option α} {i j : Nat} {x y : α}
    (h : Function.update f i (some x) j = some y) : f j = some y ∨ i = j ∧ x = y := by
  by_cases he : j = i
  · rw [he, Function.update_self, Option.some_inj] at h
    exact Or.inr ⟨he.symm, h⟩
  · rw [Function.update_of_ne he] at h
    exact Or.inl h

section Observations

variable {lower : JsString → JsString} {keys : ApiKeys} {w w' : World ν} {act : Action ν}

/-- Observations are only added. -/
theorem Transition.log_suffix (h : Transition lower keys w act w') : w.log <:+ w'.log := by
  cases h with
  | respond => exact List.suffix_append _ _
  | tokenRejected => exact (List.suffix_cons _ _).trans (List.suffix_cons _ _)
  | answer | tokenAccepted | listed | listRejected | anonymous | execSet | execDestroy =>
    exact List.suffix_cons _ _
  | _ => exact List.suffix_rfl

/-- An observation stays in the log. -/
theorem Transition.mem_log (h : Transition lower keys w act w') {e : Event ν} (he : e ∈ w.log) :
    e ∈ w'.log :=
  h.log_suffix.subset he

end Observations

end MusicComparer.Server
