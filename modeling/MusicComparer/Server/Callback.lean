import MusicComparer.Server.Provenance

/-!
# `GET /callback`

`application/application/app.js:78–101`. The handler answers a request without a token with the
error page and does not return, so it asks Last.fm all the same. The chain behind
`LastFM.auth.getSession` has no rejection handler: a failed call, a body that is not JSON or a
value without a session ends it silently.
-/

namespace MusicComparer.Server

open MusicComparer.Js MusicComparer.Upstream MusicComparer.Redis

variable {ν : Type} [JsNumber ν]

/-- What the route answers with. -/
inductive Reply where
  /-- `res.render` of the error page with the status set before -/
  | page (status : Nat) (title error message : JsString)
  /-- `res.redirect` -/
  | redirect (location : JsString)
  deriving DecidableEq, Repr

/-- The fields that the route writes to a regenerated session, `app.js:95–97`, as they are read. -/
structure Login (ν : Type) where
  loggedin : Bool
  username : Val ν
  token : Val ν
  deriving DecidableEq

/-- What a request has done so far: its responses, its redis commands, whether its session was
replaced by a new one, and what was written to that. -/
structure RouteEffects (ν : Type) where
  responses : List Reply
  commands : List (Command ν)
  regenerated : Bool
  login : Option (Login ν)

/-- Nothing done yet. -/
def RouteEffects.start : RouteEffects ν := ⟨[], [], false, none⟩

/-- Neither redis nor the session was touched. -/
def RouteEffects.Unchanged (e : RouteEffects ν) : Prop :=
  e.commands = [] ∧ e.regenerated = false ∧ e.login = none

/-- Handlers of one request. -/
abbrev Route (ν : Type) := EStateM (JsError ν) (RouteEffects ν)

namespace Route

/-- Answer the request. A second answer throws. -/
def reply (r : Reply) : Route ν Unit := fun e ↦
  let e' := { e with responses := e.responses ++ [r] }
  if e.responses.isEmpty then .ok () e'
  else .error (.error (js "Can't set headers after they are sent.")) e'

/-- `client.set`. The client converts a key that is not a string. -/
def set (key : Val ν) (value : JsString) : Route ν Unit := do
  let key ← Chain.settled key.toText
  modify fun e ↦ { e with commands := e.commands ++ [.set key value] }

/-- `req.session.regenerate`: the session is removed from the store and a new one generated. -/
def regenerate : Route ν Unit := modify fun e ↦ { e with regenerated := true }

/-- Write to the session. -/
def write (login : Login ν) : Route ν Unit := modify fun e ↦ { e with login := some login }

omit [JsNumber ν] in
/-- An answer is noted, also when it throws. -/
theorem effects_reply (r : Reply) (e : RouteEffects ν) :
    Chain.effects (reply r) e = { e with responses := e.responses ++ [r] } := by
  unfold Chain.effects reply
  cases e.responses.isEmpty with
  | true => rfl
  | false => rfl

end Route

/-- The answer to a request without a token, `app.js:81–86`. -/
def badRequest : Reply :=
  .page 400 (js "Music Comparer") (js "400 Bad Request")
    (js "The request did not contain a token and as such cannot be handled.")

/-- The fulfilment handler, `app.js:89–100`, with the callback of `regenerate`. -/
def onSession (result : JsString) : Route ν Unit := do
  let key ← Chain.settled (Json.parseOrThrow result)
  let name ← Chain.settled (sessionField key (js "name"))
  Route.set name key.stringify
  Route.regenerate
  let token ← Chain.settled (sessionField key (js "key"))
  Route.write ⟨true, name, token⟩
  Route.reply (.redirect (js "/application"))

/-- The chain behind `getSession`, `app.js:89–100`. Nobody waits for it. -/
def sessionChain (result : Except (JsError ν) JsString) : Route ν Unit :=
  Chain.detach do
    let body ← Chain.settled result
    onSession body

/-- `GET /callback`, `app.js:78–101`. -/
def callback (keys : ApiKeys) (md5 : JsString → JsString) (secret : JsString)
    (request : Request ν) (token : Option JsString) : Route ν Unit := do
  let token := token.getD []
  if token.isEmpty then Route.reply badRequest
  sessionChain (LastFM.getSession keys request md5 secret token)

/-- An answer with a session: a JSON body with a `session` that is neither `undefined` nor `null`
and a name in it that converts to a string. -/
def HasSession (result : Except (JsError ν) JsString) : Prop :=
  ∃ (body : JsString) (json : Json ν) (session name : Val ν) (text : JsString),
    result = .ok body ∧ Json.parse body = some json ∧
      Val.get (some json) (js "session") = .ok session ∧ session.get (js "name") = .ok name ∧
      name.toText = .ok text

/-- What the chain does on a body with a session. -/
theorem effects_sessionChain {body text : JsString} {json : Json ν} {session name token : Val ν}
    (hp : Json.parse body = some json) (hs : Val.get (some json) (js "session") = .ok session)
    (hn : session.get (js "name") = .ok name) (ht : name.toText = .ok text)
    (hk : session.get (js "key") = .ok token) (e : RouteEffects ν) :
    Chain.effects (sessionChain (.ok body)) e =
      ⟨e.responses ++ [.redirect (js "/application")],
        e.commands ++ [.set text json.stringify], true, some ⟨true, name, token⟩⟩ := by
  have hname : sessionField json (js "name") = .ok name := bind_eq_ok_iff.mpr ⟨session, hs, hn⟩
  have hkey : sessionField json (js "key") = .ok token := bind_eq_ok_iff.mpr ⟨session, hs, hk⟩
  have hset : Route.set name json.stringify =
      modify fun e ↦ { e with commands := e.commands ++ [.set text json.stringify] } := by
    rw [Route.set, ht, Chain.settled_ok, pure_bind]
  rw [sessionChain, Chain.effects_detach, Chain.settled_ok, pure_bind, onSession,
    Json.parseOrThrow, hp]
  simp only [Chain.settled_ok, pure_bind, hname, hset, hkey, Route.regenerate, Route.write,
    Chain.effects_modify_bind, Route.effects_reply]

/-- On an answer without a session it does nothing. -/
theorem effects_sessionChain_of_not {result : Except (JsError ν) JsString}
    (h : ¬ HasSession result) (e : RouteEffects ν) :
    Chain.effects (sessionChain result) e = e := by
  cases result with
  | error err => rfl
  | ok body =>
    rw [sessionChain, Chain.effects_detach, Chain.settled_ok, pure_bind, onSession,
      Json.parseOrThrow]
    cases hp : (Json.parse body : Option (Json ν)) with
    | none => rfl
    | some json =>
      cases hn : sessionField json (js "name") with
      | error err =>
        simp only [Chain.settled_ok, pure_bind, hn]
        rfl
      | ok name =>
        cases ht : name.toText with
        | error err =>
          simp only [Chain.settled_ok, pure_bind, hn, Route.set, ht]
          rfl
        | ok text =>
          obtain ⟨session, hs, hf⟩ := bind_eq_ok_iff.mp hn
          exact absurd ⟨body, json, session, name, text, rfl, hp, hs, hf, ht⟩ h

/-- The answer decides what the chain does: a redirect, a `SET` and a new session, or nothing. -/
private theorem sessionChain_cases (result : Except (JsError ν) JsString) :
    (HasSession result ∧ ∀ e : RouteEffects ν, ∃ command login,
      Chain.effects (sessionChain result) e = ⟨e.responses ++ [.redirect (js "/application")],
        e.commands ++ [command], true, some login⟩) ∨
    (¬ HasSession result ∧ ∀ e, Chain.effects (sessionChain result) e = e) := by
  by_cases h : HasSession result
  · left
    refine ⟨h, ?_⟩
    intro e
    obtain ⟨body, json, session, name, text, rfl, hp, hs, hn, ht⟩ := h
    have hk : session.get (js "key") = .ok (session.member (js "key")) :=
      Val.get_eq_ok_iff.mpr ⟨(Val.get_eq_ok_iff.mp hn).1, rfl⟩
    exact ⟨_, _, effects_sessionChain hp hs hn ht hk e⟩
  · exact Or.inr ⟨h, effects_sessionChain_of_not h⟩

/-- The route is the answer to a missing token, if it is missing, followed by the chain. -/
private theorem effects_callback (keys : ApiKeys) (md5 : JsString → JsString) (secret : JsString)
    (request : Request ν) (token : Option JsString) :
    Chain.effects (callback keys md5 secret request token) RouteEffects.start =
      Chain.effects (sessionChain (LastFM.getSession keys request md5 secret (token.getD [])))
        (if token.getD [] = [] then { RouteEffects.start with responses := [badRequest] }
          else RouteEffects.start) := by
  by_cases h : token.getD [] = []
  · rw [if_pos h, callback]
    simp only [h, List.isEmpty_nil, if_true]
    rfl
  · have hne : (token.getD []).isEmpty = false := by simpa using h
    rw [if_neg h, callback]
    simp only [hne, Bool.false_eq_true, if_false]

/-- A callback is answered exactly once, and untouched redis and session if it has no token, if
and only if exactly one of these holds: its token is missing, Last.fm answers with a session. -/
theorem callback_answered_once_iff (keys : ApiKeys) (md5 : JsString → JsString) (secret : JsString)
    (request : Request ν) (token : Option JsString) :
    let e := Chain.effects (callback keys md5 secret request token) RouteEffects.start
    (e.responses.length = 1 ∧ (token.getD [] = [] → e.Unchanged)) ↔
      (token.getD [] ≠ [] ↔
        HasSession (LastFM.getSession keys request md5 secret (token.getD []))) := by
  intro e
  have he : e = _ := effects_callback keys md5 secret request token
  rcases sessionChain_cases (LastFM.getSession keys request md5 secret (token.getD []))
    with ⟨hs, hchain⟩ | ⟨hs, hchain⟩
  · by_cases h : token.getD [] = []
    · rw [if_pos h] at he
      obtain ⟨command, login, hc⟩ := hchain { RouteEffects.start with responses := [badRequest] }
      rw [he, hc]
      rw [h] at hs
      simp [h, hs]
    · rw [if_neg h] at he
      obtain ⟨command, login, hc⟩ := hchain RouteEffects.start
      rw [he, hc]
      simp [h, hs, RouteEffects.start]
  · by_cases h : token.getD [] = []
    · rw [if_pos h, hchain] at he
      rw [he]
      rw [h] at hs
      simp [h, hs, RouteEffects.start, RouteEffects.Unchanged]
    · rw [if_neg h, hchain] at he
      rw [he]
      simp [h, hs, RouteEffects.start]

/-- Last.fm answers every request with the session of `ann`. -/
def annAnswers : Request Whole := fun _ ↦ .ok ann.body

/-- Without a token the `SET` and the new session are made all the same, and the second response
throws; with one and an answer that is not JSON, there is no response at all. -/
theorem callback_without_token_or_session :
    ¬ (Chain.effects (callback ⟨[], []⟩ (fun _ ↦ js "c0ec0ed23166c01fc6be38d7c72a991e") []
      annAnswers none) RouteEffects.start).Unchanged ∧
    (Chain.effects (callback ⟨[], []⟩ (fun _ ↦ js "c0ec0ed23166c01fc6be38d7c72a991e") []
      annAnswers none) RouteEffects.start).responses =
        [badRequest, .redirect (js "/application")] ∧
    (Chain.effects (callback ⟨[], []⟩ (fun _ ↦ js "15b2feabaa5665a5492989dbfeceafca") []
      Api.htmlPages (some (js "t"))) RouteEffects.start).responses =
        [] := by
  refine ⟨?_, by decide +kernel, by decide +kernel⟩
  rintro ⟨-, hr, -⟩
  exact absurd hr (by decide +kernel)

/-- A session of the server model as the route writes it. -/
def Session.toLogin (s : Session) : Login ν :=
  ⟨s.loggedin, s.username.map Json.str, s.token.map Json.str⟩

/-- On an answer with a user name and a key the route does what the server model takes a callback
to do: its `SET` and its session are those of the steps `answer` and `execApp`. -/
theorem callback_of_answer (keys : ApiKeys) (md5 : JsString → JsString) (secret : JsString)
    (request : Request ν) {token : JsString} (ht : token ≠ []) {a : Answer ν}
    (ha : LastFM.getSession keys request md5 secret token = .ok a.body) (w : World ν) :
    let e := Chain.effects (callback keys md5 secret request (some token)) RouteEffects.start
    e.responses = [.redirect (js "/application")] ∧
      e.commands.foldl exec w.redis = (w.apply (.set a)).redis ∧
      e.login = some (Session.created a).toLogin := by
  intro e
  obtain ⟨session, hs, hn⟩ := bind_eq_ok_iff.mp a.name_eq
  obtain ⟨session', hs', hk⟩ := bind_eq_ok_iff.mp a.key_eq
  rw [hs, Except.ok.injEq] at hs'
  subst hs'
  have he : e = _ := effects_callback keys md5 secret request (some token)
  rw [Option.getD_some, if_neg ht, ha, effects_sessionChain a.parsed hs hn rfl hk] at he
  rw [he]
  exact ⟨rfl, rfl, rfl⟩

end MusicComparer.Server
