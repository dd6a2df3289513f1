import MusicComparer.Api.Deferred

/-!
# How a failed search is answered

`send_bad_request_response`, `api.js:36–41`, its use in `POST /search2`, `api.js:58–64`, and the
error handlers, `app.js:119–141`. The route is given here with its redis commands. Express hands
what a handler throws before it returns to the error handlers; the chain goes on after the return,
and what it throws reaches nobody.
-/

namespace MusicComparer.Api

open MusicComparer.Js MusicComparer.Upstream MusicComparer.Redis

variable {ν : Type} [JsNumber ν]

/-! ### The route with its redis commands -/

/-- What is passed for `res`: the response of the request, or another value. -/
inductive ResArgument (ν : Type) where
  | response
  | value (v : Val ν)

/-- `send_bad_request_response`, `api.js:36–41`. No value has a function `status`, so the call on it
throws. A message that is `undefined` is left out of the body. -/
def sendBadRequestResponse (res : ResArgument ν) (message : Val ν) : Handler ν Unit :=
  match res with
  | .response => do
    setStatus 400
    send (.obj ((js "error", .str (js "400 Bad Request")) ::
      (message.map fun m ↦ (js "message", m)).toList))
  | .value v => do
    let _ ← Chain.settled (v.get (js "status"))
    throw .typeError

/-- Commands on the redis connection of `api.js`. -/
inductive RedisCall (ν : Type) where
  | get (key : JsString)
  | write (c : Command ν)

/-- What a request has done to its response and to redis. -/
structure Exchange (ν : Type) where
  effects : Effects ν
  calls : List (RedisCall ν)

/-- Nothing done yet. -/
def Exchange.start : Exchange ν := ⟨Effects.start, []⟩

/-- Handlers with their redis commands. -/
abbrev SearchRoute (ν : Type) := EStateM (JsError ν) (Exchange ν)

namespace SearchRoute

/-- A part that is only about the response. -/
def respond (h : Handler ν Unit) : SearchRoute ν Unit := fun x ↦
  match h x.effects with
  | .ok _ e => .ok () { x with effects := e }
  | .error err e => .error err { x with effects := e }

/-- `Q.ninvoke(client, "get", key)`. -/
def get (redis : JsString → Except (JsError ν) (Option JsString)) (key : JsString) :
    SearchRoute ν (Except (JsError ν) (Option JsString)) := fun x ↦
  .ok (redis key) { x with calls := x.calls ++ [.get key] }

/-- The blocks on the `process.nextTick` queue. -/
def runTicks (query : JsString) : SearchRoute ν Unit := fun x ↦
  .ok () { x with calls := x.calls ++ (x.effects.ticks.flatMap (commands query)).map .write }

omit [JsNumber ν] in
/-- A promise that is left alone lets the route go on. -/
theorem respond_detach (p : Handler ν Unit) (x : Exchange ν) :
    respond (Chain.detach p) x = .ok () { x with effects := Chain.effects p x.effects } := by
  unfold respond Chain.detach Chain.effects
  cases p x.effects with
  | ok a e => rfl
  | error err e => rfl

end SearchRoute

variable (lower : JsString → JsString) (keys : ApiKeys) (request : Request ν)
  (redis : JsString → Except (JsError ν) (Option JsString))

/-- `POST /search2`, `api.js:57–155`. For a blank query the message is passed for `res`. -/
def search2Route (query : JsString) : SearchRoute ν Unit :=
  if queryString lower query = [] then
    SearchRoute.respond (sendBadRequestResponse
      (.value (some (.str (js "The query must contain something, it can't be empty")))) none)
  else do
    let reply ← SearchRoute.get redis (artistKey (queryString lower query))
    SearchRoute.respond (Chain.detach (chain keys request (queryString lower query) reply))
    SearchRoute.runTicks (queryString lower query)

/-- A blank query ends in a `TypeError` before anything is done. -/
theorem search2Route_of_blank {query : JsString} (h : queryString lower query = []) :
    search2Route lower keys request redis query Exchange.start =
      .error .typeError Exchange.start := by
  rw [search2Route, if_pos h]
  rfl

/-- Another query is answered as `search2` is; redis is asked for its key, and the blocks write. -/
theorem search2Route_of_not_blank {query : JsString} (h : queryString lower query ≠ []) :
    search2Route lower keys request redis query Exchange.start =
      let key := artistKey (queryString lower query)
      let e := Chain.effects (search2 lower keys request query (redis key)) Effects.start
      let writes := e.ticks.flatMap (commands (queryString lower query))
      .ok () ⟨e, .get key :: writes.map .write⟩ := by
  have hchain : ∀ reply, search2 lower keys request query reply =
      chain keys request (queryString lower query) reply := fun _ ↦ if_neg h
  have hgo : ∀ (p : Handler ν Unit) (x : Exchange ν),
      (SearchRoute.respond (Chain.detach p) >>= fun _ ↦
        SearchRoute.runTicks (queryString lower query)) x =
      SearchRoute.runTicks (queryString lower query)
        { x with effects := Chain.effects p x.effects } := by
    intro p x
    change EStateM.bind _ _ x = _
    rw [EStateM.bind, SearchRoute.respond_detach]
  rw [search2Route, if_neg h]
  simp only [hchain]
  exact hgo _ ⟨Effects.start, [.get (artistKey (queryString lower query))]⟩

/-! ### The answer -/

/-- The body of a response: JSON, or a page of HTML. -/
inductive Body (ν : Type) where
  | json (j : Json ν)
  | html
  deriving DecidableEq

/-- A response as the browser gets it. -/
structure HttpResponse (ν : Type) where
  status : Nat
  body : Body ν
  deriving DecidableEq

/-- The error handlers, `app.js:119–141`: the error page, with the status of the error or 500. The
errors that handlers throw have no `status`. -/
def errorHandler (_ : JsError ν) : HttpResponse ν := ⟨500, .html⟩

/-- What was sent first. -/
def Exchange.sent (x : Exchange ν) : Option (HttpResponse ν) :=
  x.effects.responses.head?.map fun r ↦ ⟨r.status, .json r.body⟩

/-- The answer to a request: what its handler sent first, or else the error page if it threw. -/
def dispatch (h : SearchRoute ν Unit) : Option (HttpResponse ν) :=
  match h Exchange.start with
  | .ok _ x => x.sent
  | .error e x => some (x.sent.getD (errorHandler e))

/-- The redis commands of a request. -/
def redisCalls (h : SearchRoute ν Unit) : List (RedisCall ν) :=
  (Chain.effects h Exchange.start).calls

/-- An error as the client's error callback reads it, `clientside.js:118`: an error status, and a
JSON object with a string `message`. -/
structure ErrorShape (r : HttpResponse ν) : Prop where
  status : 400 ≤ r.status
  message : ∃ ps m, r.body = .json (.obj ps) ∧ Json.lookup ps (js "message") = some (.str m)

/-- Given the response, `send_bad_request_response` answers with an error of this shape. -/
theorem dispatch_sendBadRequestResponse (message : JsString) :
    ∃ r : HttpResponse ν, dispatch (SearchRoute.respond
        (sendBadRequestResponse .response (some (.str message)))) = some r ∧
      r.status = 400 ∧ ErrorShape r := by
  have hother : (js "error" == js "message") = false := by decide
  refine ⟨⟨400, .json (.obj [(js "error", .str (js "400 Bad Request")),
    (js "message", .str message)])⟩, rfl, rfl, Nat.le_refl 400, _, message, rfl, ?_⟩
  rw [Json.lookup, List.find?_cons, hother, List.find?_cons, beq_self_eq_true]
  rfl

/-! ### Failing searches -/

/-- An error of Node's network layer. Its own enumerable properties are `code`, `errno`, `syscall`
and the like; `message` is not enumerable. -/
structure NetworkError (ν : Type) where
  message : JsString
  fields : Properties ν
  wf : (Json.obj fields).WF
  no_message : Json.lookup fields (js "message") = none

/-- The error that a call is rejected with. -/
def NetworkError.toError (e : NetworkError ν) : JsError ν := .system e.message e.fields

/-- The Spotify lookup of a search is made, and fails with this error. -/
structure LookupFails (query : JsString) (e : JsError ν) : Prop where
  not_blank : queryString lower query ≠ []
  missed : ∃ data, redis (artistKey (queryString lower query)) = .ok data ∧ data.getD [] = []
  failed : Spotify.getDetailsWithoutArtistBefore keys request (queryString lower query) = .error e

/-- The search has to be answered with an error: its query is blank, or the host of Spotify is not
found. -/
def Failing (query : JsString) : Prop :=
  queryString lower query = [] ∨ ∃ e : NetworkError ν,
    e.toError.code.isString (js "ENOTFOUND") = true ∧
      LookupFails lower keys request redis query e.toError

/-- The answer is an error that the client can read; for a blank query it is a 400, and redis is
neither read nor written. -/
def Reported (query : JsString) : Prop :=
  ∃ r, dispatch (search2Route lower keys request redis query) = some r ∧ ErrorShape r ∧
    (queryString lower query = [] → r.status = 400 ∧
      redisCalls (search2Route lower keys request redis query) = [])

/-- A blank query is answered with the error page, without redis. -/
theorem dispatch_of_blank {query : JsString} (h : queryString lower query = []) :
    dispatch (search2Route lower keys request redis query) = some ⟨500, .html⟩ ∧
      redisCalls (search2Route lower keys request redis query) = [] := by
  rw [dispatch, redisCalls, Chain.effects, search2Route_of_blank lower keys request redis h]
  exact ⟨rfl, rfl⟩

/-- A lookup that fails with `ENOTFOUND` is answered with the properties of the error. What the
chain sends after that comes too late. -/
theorem dispatch_of_lookupFails {query : JsString} {e : JsError ν}
    (h : LookupFails lower keys request redis query e)
    (he : e.code.isString (js "ENOTFOUND") = true) :
    dispatch (search2Route lower keys request redis query) =
      some ⟨500, .json (.obj e.fields)⟩ := by
  obtain ⟨data, hdata, hnil⟩ := h.missed
  have hc : cachedText (redis (artistKey (queryString lower query))) = none := by
    rw [hdata]
    cases data with
    | none => rfl
    | some d =>
      rw [Option.getD_some] at hnil
      rw [hnil]
      rfl
  have hs : spotifyOutcome keys request (queryString lower query)
      (redis (artistKey (queryString lower query))) = .error e := by
    rw [hdata]
    exact h.failed
  have hfirst : (Chain.effects (search2 lower keys request query
      (redis (artistKey (queryString lower query)))) Effects.start).responses.head? =
        some ⟨500, .obj e.fields⟩ := by
    rw [search2, if_neg h.not_blank, effects_of_failed keys request hc hs, effects_onRetrieved,
      Effects.report, if_pos he]
    split <;> rfl
  rw [dispatch, search2Route_of_not_blank lower keys request redis h.not_blank]
  dsimp only [Exchange.sent]
  rw [hfirst]
  rfl

/-- The error that a failed lookup is answered with can be read exactly when it has a `message` of
its own that is enumerated. -/
theorem reported_of_lookupFails_iff {query : JsString} {e : JsError ν}
    (h : LookupFails lower keys request redis query e)
    (he : e.code.isString (js "ENOTFOUND") = true) :
    Reported lower keys request redis query ↔
      ∃ m, Json.lookup e.fields (js "message") = some (.str m) := by
  rw [Reported, dispatch_of_lookupFails lower keys request redis h he]
  constructor
  · rintro ⟨r, hr, ⟨-, ps, m, hbody, hm⟩, -⟩
    cases hr
    cases hbody
    exact ⟨m, hm⟩
  · rintro ⟨m, hm⟩
    have hstatus : 400 ≤ 500 := by decide
    exact ⟨_, rfl, ⟨hstatus, _, m, rfl, hm⟩, fun hq ↦ absurd hq h.not_blank⟩

/-- No search that has to be answered with an error is answered with one that the client can
read. -/
theorem not_reported_of_failing {query : JsString} (h : Failing lower keys request redis query) :
    ¬ Reported lower keys request redis query := by
  rcases h with hq | ⟨e, he, hfails⟩
  · rintro ⟨r, hr, hshape, -⟩
    rw [(dispatch_of_blank lower keys request redis hq).1] at hr
    cases hr
    obtain ⟨ps, m, hbody, -⟩ := hshape.message
    cases hbody
  · rw [reported_of_lookupFails_iff lower keys request redis hfails he]
    rintro ⟨m, hm⟩
    exact absurd (e.no_message.symm.trans hm) (by simp)

/-- The error of a name that cannot be resolved. -/
def hostNotFound : NetworkError Whole where
  message := js "getaddrinfo ENOTFOUND"
  fields := [(js "code", .str (js "ENOTFOUND")), (js "errno", .str (js "ENOTFOUND")),
    (js "syscall", .str (js "getaddrinfo"))]
  wf := by
    have hcode : KeyBefore (js "code") (js "errno") := ⟨by decide, by decide⟩
    have hcode' : KeyBefore (js "code") (js "syscall") := ⟨by decide, by decide⟩
    have herrno : KeyBefore (js "errno") (js "syscall") := ⟨by decide, by decide⟩
    apply Json.WF.obj
    · simp [hcode, hcode', herrno]
    · simp [Json.WF.str]
  no_message := by decide

/-- Spotify cannot be resolved, Last.fm answers. -/
def withoutSpotify : Request Whole := fun url ↦
  if js "https:" <+: url then .error hostNotFound.toError
  else .ok (js "\x7b\"artist\":\x7b\"name\":\"Cher\"\x7d\x7d")

/-- A search while Spotify cannot be resolved. -/
theorem not_reported_withoutSpotify :
    Failing LowerCase.ascii.lower ⟨[], []⟩ withoutSpotify (fun _ ↦ .ok none) (js " Cher ") ∧
    ¬ Reported LowerCase.ascii.lower ⟨[], []⟩ withoutSpotify (fun _ ↦ .ok none) (js " Cher ") := by
  have hfails : Failing LowerCase.ascii.lower ⟨[], []⟩ withoutSpotify (fun _ ↦ .ok none)
      (js " Cher ") :=
    Or.inr ⟨hostNotFound, by decide, by decide +kernel, ⟨none, rfl, rfl⟩, by decide +kernel⟩
  exact ⟨hfails, not_reported_of_failing _ _ _ _ hfails⟩

/-- A blank query gets a page, and a search while Spotify cannot be resolved gets no message. -/
theorem search2_errors_unreadable :
    queryString LowerCase.ascii.lower (js " \t ") = [] ∧
    dispatch (search2Route LowerCase.ascii.lower ⟨[], []⟩ withoutSpotify (fun _ ↦ .ok none)
      (js " \t ")) = some ⟨500, .html⟩ ∧
    ¬ Reported LowerCase.ascii.lower ⟨[], []⟩ withoutSpotify (fun _ ↦ .ok none) (js " \t ") ∧
    Spotify.getDetailsWithoutArtistBefore ⟨[], []⟩ withoutSpotify (js "cher") =
      .error hostNotFound.toError ∧
    dispatch (search2Route LowerCase.ascii.lower ⟨[], []⟩ withoutSpotify (fun _ ↦ .ok none)
      (js "cher")) = some ⟨500, .json (.obj hostNotFound.fields)⟩ ∧
    ¬ Reported LowerCase.ascii.lower ⟨[], []⟩ withoutSpotify (fun _ ↦ .ok none) (js "cher") := by
  have hblank : dispatch (search2Route LowerCase.ascii.lower ⟨[], []⟩ withoutSpotify
      (fun _ ↦ .ok none) (js " \t ")) = some ⟨500, .html⟩ := by decide +kernel
  have hfailed : dispatch (search2Route LowerCase.ascii.lower ⟨[], []⟩ withoutSpotify
      (fun _ ↦ .ok none) (js "cher")) = some ⟨500, .json (.obj hostNotFound.fields)⟩ := by
    decide +kernel
  refine ⟨by decide +kernel, hblank, ?_, by decide +kernel, hfailed, ?_⟩
  · rintro ⟨r, hr, ⟨-, ps, m, hbody, -⟩, -⟩
    rw [hblank] at hr
    cases hr
    cases hbody
  · rintro ⟨r, hr, ⟨-, ps, m, hbody, hm⟩, -⟩
    rw [hfailed] at hr
    cases hr
    cases hbody
    exact absurd (hostNotFound.no_message.symm.trans hm) (by simp)

end MusicComparer.Api
