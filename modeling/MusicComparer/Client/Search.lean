import MusicComparer.Server.Authentication
import MusicComparer.Server.Cache

/-!
# The search of the browser and its cache

`application/application/public/javascripts/clientside.js:86–135`. A browser keeps in
`localStorage` what earlier searches were answered, under the query trimmed and lower-cased. The
site is the server with its browsers; a response is delivered at any time after it was sent.
-/

namespace MusicComparer.Client

open MusicComparer.Js MusicComparer.Upstream MusicComparer.Api MusicComparer.Server
open MusicComparer.System

variable {ν : Type} [JsNumber ν]

/-- `localStorage` of one browser. -/
abbrev Storage := JsString → Option JsString

/-- `query.trim().toLowerCase()`, `clientside.js:87`: the browser trims, then lower-cases. -/
def searchKey (lower : JsString → JsString) (query : JsString) : JsString := lower (trim query)

/-- How `search` goes on after its synchronous part. -/
inductive Lookup (ν : Type) where
  /-- returned on a blank query -/
  | blank
  /-- `callback(JSON.parse(item), true)` -/
  | hit (data : Json ν)
  /-- `JSON.parse` of the stored text threw -/
  | thrown
  /-- `$.ajax` with this query -/
  | miss (key : JsString)
  deriving DecidableEq

/-- `search`, `clientside.js:86–108`. An empty item is falsy. -/
def search (lower : JsString → JsString) (storage : Storage) (query : JsString) : Lookup ν :=
  let key := searchKey lower query
  if key = [] then .blank
  else
    match storage key with
    | some item =>
      if item.isEmpty then .miss key
      else
        match Json.parse item with
        | some data => .hit data
        | none => .thrown
    | none => .miss key

/-- The data with which jQuery resolves a request: the parsed text of a response with status 200;
`none` goes to the error callback. -/
def received (x : Response ν) : Option (Json ν) :=
  if x.status = 200 then Json.parse x.body.stringify else none

/-- A call of the callback of `search`. -/
structure Callback (ν : Type) where
  browser : Nat
  query : JsString
  data : Json ν
  fromCache : Bool

/-- The server and its browsers; a flight is a request of `search` whose response is awaited. -/
structure Site (ν : Type) [JsNumber ν] where
  server : World ν
  storage : Nat → Storage
  flights : Nat → Option (Nat × JsString)
  callbacks : List (Callback ν)

/-- Nothing stored anywhere. -/
def Site.init : Site ν := ⟨World.init, fun _ _ ↦ none, fun _ ↦ none, []⟩

/-- The steps of the site. -/
inductive SiteAction (ν : Type) [JsNumber ν] where
  | server (act : Action ν)
  | search (browser : Nat) (query : JsString)
  | deliver (id : Nat)

namespace Site

variable (lower : JsString → JsString) (keys : ApiKeys) (s : Site ν)

/-- A browser calls `search`. -/
def search (browser : Nat) (query : JsString) : Site ν :=
  match Client.search lower (s.storage browser) query with
  | .blank | .thrown => s
  | .hit data => { s with callbacks := ⟨browser, query, data, true⟩ :: s.callbacks }
  | .miss key => { s with
      server := s.server.post key
      flights := Function.update s.flights s.server.nextRid (some (browser, query)) }

/-- `localStorage.setItem`. -/
def setItem (browser : Nat) (key item : JsString) : Site ν :=
  { s with storage :=
      Function.update s.storage browser (Function.update (s.storage browser) key (some item)) }

/-- The `done` callback, `clientside.js:120–134`, when a response arrives. -/
def done (browser : Nat) (query : JsString) (data : Json ν) : Site ν :=
  let s := s.setItem browser (searchKey lower query) data.stringify
  { s with callbacks := ⟨browser, query, data, false⟩ :: s.callbacks }

/-- The first response of a search arrives at the browser that asked. -/
def deliver (id : Nat) : Option (Site ν) :=
  match s.flights id, s.server.searches id with
  | some (browser, query), some (.answered _ (x :: _)) =>
    let s := { s with flights := Function.update s.flights id none }
    match received x with
    | some data => some (s.done lower browser query data)
    | none => some s
  | _, _ => none

/-- One step of the site. -/
def step : SiteAction ν → Option (Site ν)
  | .server act => (Server.step lower keys s.server act).map fun server ↦ { s with server }
  | .search browser query => some (s.search lower browser query)
  | .deliver id => s.deliver lower id

end Site

/-- The two orders of normalisation give the same key. -/
theorem queryString_eq_searchKey (κ : LowerCase) (query : JsString) :
    queryString κ.lower query = searchKey κ.lower query :=
  κ.trim_lower query

/-- The server reads the key that a browser sends as the same key. -/
theorem queryString_searchKey (κ : LowerCase) (query : JsString) :
    queryString κ.lower (searchKey κ.lower query) = searchKey κ.lower query := by
  rw [queryString_eq_searchKey, searchKey, searchKey, κ.trim_lower, κ.lower_lower, trim_trim]

end MusicComparer.Client
