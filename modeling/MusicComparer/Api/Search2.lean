import MusicComparer.Redis.Keyspace
import MusicComparer.Upstream.Settings

/-!
# `POST /api/search2`

`application/application/routes/api.js:57–155`. The handler is a promise chain over four calls:
the redis lookup, the two Spotify requests behind `get_details_without_artist_before`, and the
Last.fm request, which sits inside an object and is therefore not awaited by `spread`. It runs
on the record of what it did to the response and to the `process.nextTick` queue.
-/

namespace MusicComparer.Api

open MusicComparer.Js MusicComparer.Upstream

/-- The `state` of an entry of `retrieved_data`. -/
inductive State where
  | fulfilled
  | rejected
  deriving DecidableEq, Repr

/-- The string of a state. -/
def State.text : State → JsString
  | fulfilled => js "fulfilled"
  | rejected => js "rejected"

/-- The strings tell the states apart. -/
theorem State.text_inj {a b : State} (h : a.text = b.text) : a = b := by
  cases a <;> cases b
  · rfl
  · exact absurd h (by decide)
  · exact absurd h (by decide)
  · rfl

variable {ν : Type}

/-- A `{state, value}` entry with its parsed value. -/
structure Entry (ν : Type) where
  state : State
  value : Json ν
  deriving DecidableEq

/-- The entry as a JSON object. -/
def Entry.toJson (e : Entry ν) : Json ν :=
  .obj [(js "state", .str e.state.text), (js "value", e.value)]

/-- `retrieved_data` once both values are parsed. -/
structure Retrieved (ν : Type) where
  spotify : Entry ν
  lastfm : Entry ν
  deriving DecidableEq

/-- The two entries as a JSON array. -/
def Retrieved.toJson (r : Retrieved ν) : Json ν := .arr [r.spotify.toJson, r.lastfm.toJson]

/-- The JSON array determines the entries. -/
theorem Retrieved.toJson_inj {r r' : Retrieved ν} (h : r.toJson = r'.toJson) : r = r' := by
  obtain ⟨⟨s₀, v₀⟩, ⟨s₁, v₁⟩⟩ := r
  obtain ⟨⟨t₀, w₀⟩, ⟨t₁, w₁⟩⟩ := r'
  simp only [toJson, Entry.toJson, Json.arr.injEq, List.cons.injEq, Json.obj.injEq, Prod.mk.injEq,
    Json.str.injEq, and_true, true_and] at h
  obtain ⟨⟨hs₀, hv₀⟩, hs₁, hv₁⟩ := h
  rw [State.text_inj hs₀, State.text_inj hs₁, hv₀, hv₁]

/-- `retrieved_data` as the second stage returns it: the Spotify body unparsed, the Last.fm
value a promise. -/
structure Fetched (ν : Type) where
  spotifyState : State
  spotifyBody : JsString
  lastfmState : State
  lastfm : Except (JsError ν) JsString

/-- A call of `res.send` or `res.json` with the status set at that time. -/
structure Response (ν : Type) where
  status : Nat
  body : Json ν
  deriving DecidableEq

/-- What a request has done so far: the status it set, the responses it issued in order, and
the blocks it left on the `process.nextTick` queue. -/
structure Effects (ν : Type) where
  status : Nat
  responses : List (Response ν)
  ticks : List (Retrieved ν)
  deriving DecidableEq

/-- Nothing done yet. -/
def Effects.start : Effects ν := ⟨200, [], []⟩

/-- Handlers of one request. -/
abbrev Handler (ν : Type) := EStateM (JsError ν) (Effects ν)

/-- The error thrown by a second response. -/
def headersSent : JsError ν := .error (js "Can't set headers after they are sent.")

/-- `res.send` / `res.json` of a JSON value: a second call on one response throws. -/
def send (body : Json ν) : Handler ν Unit := fun s ↦
  let s' := { s with responses := s.responses ++ [⟨s.status, body⟩] }
  if s.responses.isEmpty then .ok () s' else .error headersSent s'

/-- `res.status`. -/
def setStatus (status : Nat) : Handler ν Unit := fun s ↦ .ok () { s with status }

/-- `process.nextTick` with the block of `api.js:128–144`. -/
def nextTick (r : Retrieved ν) : Handler ν Unit := fun s ↦
  .ok () { s with ticks := s.ticks ++ [r] }

/-- `cached_data`: `none` is the empty array. -/
abbrev CachedData := Option JsString

/-- `cached_data != ""`; the empty array is loosely equal to the empty string. -/
def CachedData.ne (c : CachedData) : Bool := !(c.getD []).isEmpty

/-- `cached_data.length`. -/
def CachedData.length (c : CachedData) : Nat := (c.getD []).length

/-- A response body `{data: …}`. -/
def dataBody (data : Json ν) : Json ν := .obj [(js "data", data)]

/-- The body determines its data. -/
theorem dataBody_inj {j j' : Json ν} (h : dataBody j = dataBody j') : j = j' := by
  simpa [dataBody] using h

variable [JsNumber ν] (lower : JsString → JsString) (keys : ApiKeys) (request : Request ν)

/-- `query_string`, `api.js:59`: the server lower-cases, then trims. -/
def queryString (query : JsString) : JsString := trim (lower query)

/-- The cache key of a query. -/
def artistKey (query : JsString) : JsString := js "artist:" ++ query

/-- First `then`, `api.js:69–77`: `[data, []]` on a hit, `[[], promise]` on a miss. -/
def onReply (query : JsString) (data : Option JsString) :
    CachedData × Option (Except (JsError ν) JsString) :=
  if !(data.getD []).isEmpty then (data, none)
  else (none, some (Spotify.getDetailsWithoutArtistBefore keys request query))

/-- The waiting of `spread`: top-level promises of the array are settled, others are not. -/
def all (stage : CachedData × Option (Except (JsError ν) JsString)) :
    Handler ν (CachedData × Option JsString) :=
  match stage with
  | (cached, none) => pure (cached, none)
  | (cached, some p) => do
    let body ← Chain.settled p
    pure (cached, some body)

/-- First `spread`, fulfilled, `api.js:78–85`. -/
def onSpotify (stage : CachedData × Option JsString) :
    Handler ν (CachedData × Option (Fetched ν)) := do
  let (cached, spotify) := stage
  if cached.ne then return (cached, none)
  let body := spotify.getD []
  let parsed ← Chain.settled (Json.parseOrThrow body)
  let name ← Chain.settled (Val.get (some parsed) (js "name"))
  return (none, some ⟨.fulfilled, body, .fulfilled, LastFM.getInfo keys request name⟩)

/-- First `spread`, rejected, `api.js:86–100`. The first of the two `get_info` calls is only
inspected, so its outcome is not modelled. -/
def onRejected (query : JsString) (error : JsError ν) :
    Handler ν (CachedData × Option (Fetched ν)) := do
  if error.code.isString (js "ENOTFOUND") then
    setStatus 500
    send (.obj error.fields)
  return (none, some ⟨.rejected, [], .fulfilled, LastFM.getInfo keys request (some (.str query))⟩)

/-- The value of an entry: parsed when the state is fulfilled, left as it is otherwise. -/
def entryValue (state : State) (body : JsString) : Except (JsError ν) (Json ν) :=
  if state = .fulfilled then Json.parseOrThrow body else .ok (.str body)

/-- The callback on the Last.fm promise, `api.js:120–145`. -/
def onLastfm (f : Fetched ν) (spotify : Json ν) (result : JsString) : Handler ν Unit := do
  let lastfm ← Chain.settled (entryValue f.lastfmState result)
  let r : Retrieved ν := ⟨⟨f.spotifyState, spotify⟩, ⟨f.lastfmState, lastfm⟩⟩
  send (dataBody r.toJson)
  nextTick r

/-- Second `spread`, fulfilled, `api.js:101–146`. The inner `then` is not returned, so nobody
waits for it and its rejections are lost. -/
def onRetrieved (stage : CachedData × Option (Fetched ν)) : Handler ν Unit := do
  let (cached, retrieved) := stage
  if cached.length ≠ 0 then
    let data ← Chain.settled (Json.parseOrThrow (cached.getD []))
    send (dataBody data)
  else
    match retrieved with
    | none => throw .typeError
    | some f =>
      if f.spotifyState.text.isEmpty then
        send (.obj [(js "error", .str (js "Damn")),
          (js "message", .str (js "Something happened that shouldn't have."))])
      else
        let spotify ← Chain.settled (entryValue f.spotifyState f.spotifyBody)
        Chain.detach do
          let result ← Chain.settled f.lastfm
          onLastfm f spotify result

/-- The promise chain, `api.js:68–154`, for the reply of the redis `GET`. The last handler calls
`error.stack`, which is a string, and so throws in turn. -/
def chain (query : JsString) (reply : Except (JsError ν) (Option JsString)) : Handler ν Unit :=
  let first := do
    let data ← Chain.settled reply
    all (onReply keys request query data)
  let second := Chain.andThen first (onSpotify keys request) (onRejected keys request query)
  let third := Chain.andThen second onRetrieved fun _ ↦ pure ()
  Chain.andThen third pure fun _ ↦ throw .typeError

/-- `POST /search2`, `api.js:57–155`. For a blank query `send_bad_request_response` is given the
message in place of the response, and reading `status` of a string throws. -/
def search2 (query : JsString) (reply : Except (JsError ν) (Option JsString)) : Handler ν Unit :=
  if queryString lower query = [] then throw .typeError
  else chain keys request (queryString lower query) reply

end MusicComparer.Api
