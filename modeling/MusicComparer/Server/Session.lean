import MusicComparer.Js.RoundTrip
import MusicComparer.Js.Value
import MusicComparer.Redis.Keyspace

/-!
# Sessions and their handlers

`application/application/app.js:66–111` and `application/application/routes/index.js:21–61`: what
the routes do to the session of a request. A route is cut where it waits, so a handler is a
function of the session it holds and of the reply it waited for.
-/

namespace MusicComparer.Server

open MusicComparer.Js MusicComparer.Redis

variable {ν : Type} [JsNumber ν]

/-- The read `json.session[field]`, `app.js:93–97` and `index.js:38`. -/
def sessionField (json : Json ν) (field : JsString) : Except (JsError ν) (Val ν) := do
  let session ← Val.get (some json) (js "session")
  session.get field

/-- A successful answer of `auth.getSession`: a JSON text with a nonempty user name and session
key. -/
structure Answer (ν : Type) [JsNumber ν] where
  body : JsString
  json : Json ν
  name : JsString
  key : JsString
  parsed : Json.parse body = some json
  name_eq : sessionField json (js "name") = .ok (some (.str name))
  key_eq : sessionField json (js "key") = .ok (some (.str key))
  name_ne : name ≠ []
  key_ne : key ≠ []
  deriving DecidableEq

/-- The answer in a body, read as in `app.js:91–97`. -/
def Answer.ofBody (body : JsString) : Option (Answer ν) :=
  match hp : Json.parse body with
  | none => none
  | some json =>
    match hn : sessionField json (js "name"), hk : sessionField json (js "key") with
    | .ok (some (.str name)), .ok (some (.str key)) =>
      if h : name ≠ [] ∧ key ≠ [] then some ⟨body, json, name, key, hp, hn, hk, h.1, h.2⟩ else none
    | _, _ => none

/-- The text stored for an answer, `app.js:93`. -/
def Answer.text (a : Answer ν) : JsString := a.json.stringify

/-- The fields of `req.session` that the application uses. -/
structure Session where
  loggedin : Bool
  username : Option JsString
  token : Option JsString
  error : Option JsString
  deriving DecidableEq, Repr

namespace Session

/-- A session nobody wrote to. -/
def empty : Session := ⟨false, none, none, none⟩

/-- Truth value of an optional string field. -/
def truthy (field : Option JsString) : Bool := !(field.getD []).isEmpty

/-- `req.session.token && req.session.username`, `app.js:71` and `index.js:33`. -/
def hasCredentials (s : Session) : Bool := truthy s.token && truthy s.username

/-- `GET /logout`, `app.js:67`. -/
def logout (s : Session) : Session := { s with loggedin := false }

/-- `GET /login`, `app.js:71–76`. -/
def login (s : Session) : Session := if s.hasCredentials then { s with loggedin := true } else s

/-- The refusal of `restricted`, `index.js:25`. -/
def denied (s : Session) : Session := { s with error := some (js "Access denied!") }

/-- The `catch` of the token check, `index.js:52`. -/
def rejected (s : Session) : Session := { s with username := none }

/-- The session after `regenerate`, `app.js:95–97`. -/
def created (a : Answer ν) : Session := ⟨true, some a.name, some a.key, none⟩

/-- The token check, `index.js:37–46`, on the reply of the `GET`. A missing key is read as the
text `null`. -/
def tokenCheck (s : Session) (reply : Option JsString) : Except (JsError ν) Unit := do
  let json ← Json.parseOrThrow (reply.getD (js "null"))
  let token ← sessionField json (js "key")
  let matching :=
    match s.token with
    | some t => token.isString t
    | none => token.isNone
  if matching then pure () else throw (.error (js "The token is not matching"))

/-- The check passes on what redis replies; `none` is the `WRONGTYPE` error. -/
def accepts (ν : Type) [JsNumber ν] (s : Session) (reply : Option (Option JsString)) : Bool :=
  match reply with
  | none => false
  | some text => (tokenCheck (ν := ν) s text).isOk

end Session

/-- The session routes. A callback without a token is answered with status 400 at once and goes
on, `app.js:79–87`. -/
inductive Kind where
  | logout
  | login
  | callback (token : Bool)
  | application
  | root
  deriving DecidableEq, Repr

/-- What a request is waiting for. -/
inductive Phase where
  /-- the answer of `auth.getSession`, `app.js:89` -/
  | awaitSession
  /-- the callback of `regenerate`, `app.js:94` -/
  | regenerating
  /-- the `GET` of the token check, `index.js:34` -/
  | awaitToken
  /-- the `LRANGE` after the check, `index.js:43` -/
  | awaitList
  /-- the `LRANGE` of a session without credentials, `index.js:56` -/
  | awaitAnonymous
  /-- nothing, the response has ended -/
  | ended
  /-- the save of the session, which the end of the response waits for -/
  | saving
  deriving DecidableEq, Repr

/-- A request in flight, with the session as it was read and as the handlers have left it. -/
structure PageRequest where
  kind : Kind
  sid : Nat
  loaded : Session
  session : Session
  phase : Phase
  deriving DecidableEq, Repr

/-- What a route does before it first waits. -/
def Kind.handle (kind : Kind) (s : Session) : Session × Phase :=
  match kind with
  | logout => (s.logout, .ended)
  | login => (s.login, .ended)
  | callback _ => (s, .awaitSession)
  | application =>
    if s.loggedin then (s, if s.hasCredentials then .awaitToken else .awaitAnonymous)
    else (s.denied, .ended)
  | root => (s, .ended)

/-- A request that has read its session. -/
def Kind.request (kind : Kind) (sid : Nat) (s : Session) : PageRequest :=
  ⟨kind, sid, s, (kind.handle s).1, (kind.handle s).2⟩

/-- Credentials present are a nonempty token and a nonempty user name. -/
theorem Session.hasCredentials_iff (s : Session) : s.hasCredentials = true ↔
    ∃ u t, s.username = some u ∧ s.token = some t ∧ u ≠ [] ∧ t ≠ [] := by
  obtain ⟨loggedin, username, token, error⟩ := s
  cases username <;> cases token <;> simp [hasCredentials, truthy, and_comm]

/-- A named property with a value is a property of an object. -/
private theorem get_eq_some {j v : Json ν} {k : JsString} (hk : arrayIndex? k = none)
    (hl : k ≠ js "length") (h : Val.get (some j) k = .ok (some v)) :
    ∃ ps, j = .obj ps ∧ Json.lookup ps k = some v := by
  cases j with
  | obj ps =>
    rw [Val.get, Except.ok.injEq] at h
    exact ⟨ps, rfl, h⟩
  | str s | arr xs => simp [Val.get, hk, hl] at h
  | null | bool b | num n => simp [Val.get] at h

/-- A string read as `json.session[field]` is still there when the value is reloaded. -/
private theorem sessionField_reload {json : Json ν} {field s : JsString}
    (hk : arrayIndex? field = none) (hl : field ≠ js "length")
    (h : sessionField json field = .ok (some (.str s))) :
    sessionField json.reload field = .ok (some (.str s)) := by
  obtain ⟨session, hs, hf⟩ := bind_eq_ok_iff.mp h
  cases session with
  | none => cases hf
  | some session =>
    obtain ⟨ps, rfl, hps⟩ := get_eq_some (by decide) (by decide) hs
    obtain ⟨qs, rfl, hqs⟩ := get_eq_some hk hl hf
    have hps' : Json.lookup (Json.reloadProperties ps) (js "session") =
        some (.obj (Json.reloadProperties qs)) := by
      rw [Json.lookup_reloadProperties, hps, Option.map_some, Json.reload]
    have hqs' : Json.lookup (Json.reloadProperties qs) field = some (.str s) := by
      rw [Json.lookup_reloadProperties, hqs, Option.map_some, Json.reload]
    rw [Json.reload, sessionField, Val.get, hps']
    exact congrArg Except.ok hqs'

/-- The stored text of an answer parses to a value with the same session key. -/
theorem Answer.parse_text (a : Answer ν) : ∃ json : Json ν,
    Json.parse a.text = some json ∧ sessionField json (js "key") = .ok (some (.str a.key)) :=
  ⟨a.json.reload, Json.parse_stringify (Json.wf_of_parse a.parsed),
    sessionField_reload (by decide) (by decide) a.key_eq⟩

/-- The check passes exactly when redis replied with a JSON text whose session key is the token. -/
theorem Session.accepts_iff {s : Session} {t : JsString} (ht : s.token = some t)
    (reply : Option (Option JsString)) : s.accepts ν reply = true ↔
    ∃ text, ∃ json : Json ν, reply = some (some text) ∧ Json.parse text = some json ∧
      sessionField json (js "key") = .ok (some (.str t)) := by
  have hcheck : ∀ text : JsString, (tokenCheck (ν := ν) s (some text)).isOk = true ↔
      ∃ json : Json ν, Json.parse text = some json ∧
        sessionField json (js "key") = .ok (some (.str t)) := by
    intro text
    rw [tokenCheck, Option.getD_some, Json.parseOrThrow, ht]
    cases (Json.parse text : Option (Json ν)) with
    | none => simp [bind, Except.bind, Except.isOk, Except.toBool]
    | some json =>
      cases hk : sessionField json (js "key") with
      | error e => simp [bind, Except.bind, hk, Except.isOk, Except.toBool]
      | ok token =>
        by_cases hm : token.isString t = true
        · have he := Val.isString_iff.mp hm
          subst he
          simp [bind, Except.bind, hk, hm, Except.isOk, Except.toBool, pure, Except.pure]
        · have he : token ≠ some (.str t) := fun he ↦ hm (Val.isString_iff.mpr he)
          simp [bind, Except.bind, hk, hm, he, Except.isOk, Except.toBool, throw, throwThe,
            MonadExceptOf.throw]
  cases reply with
  | none => simp [accepts]
  | some reply =>
    cases reply with
    | none =>
      have hnull : Json.parse (js "null") = some (Json.null : Json ν) := Json.parse_stringify .null
      simp [accepts, tokenCheck, Json.parseOrThrow, hnull, sessionField, Val.get, bind,
        Except.bind, Except.isOk, Except.toBool]
    | some text => simpa [accepts] using hcheck text

/-- On the stored text of an answer the check compares the token with the key of the answer. -/
theorem Session.accepts_text {s : Session} {t : JsString} (ht : s.token = some t) (a : Answer ν) :
    s.accepts ν (some (some a.text)) = true ↔ t = a.key := by
  obtain ⟨json, hp, hk⟩ := a.parse_text
  rw [accepts_iff ht]
  constructor
  · rintro ⟨text, json', he, hp', hk'⟩
    cases he
    rw [hp, Option.some_inj] at hp'
    subst hp'
    rw [hk] at hk'
    simpa using hk'.symm
  · rintro rfl
    exact ⟨a.text, json, rfl, hp, hk⟩

end MusicComparer.Server
