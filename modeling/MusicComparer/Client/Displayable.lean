import MusicComparer.Client.HandleData

/-!
# Which answers can be shown

The defaults of `handleData` stand in for falsy values only, and they have zeros where the row
divides. An error object of a service is truthy and lacks the fields that are read. So the row is
built without an error and without a zero denominator exactly for answers in which both services
knew the artist; the same holds when the answer is replayed from `localStorage` or from redis.
-/

namespace MusicComparer.Client

open MusicComparer.Js MusicComparer.Upstream MusicComparer.Redis MusicComparer.Api
open MusicComparer.Server MusicComparer.System

variable {ν : Type} [JsNumber ν] {κ : LowerCase} {keys : ApiKeys}

/-- `handleData` ends without a thrown error, and no quotient of the row that it appends has a zero
denominator. -/
def Displays (box : Box) (data : Json ν) (fromCache : Bool) (page : Page ν) : Prop :=
  ∃ page' row, handleData box data fromCache page = .ok () page' ∧ page'.rows = page.rows ++ [row] ∧
    JsNumber.isZero row.perFollower.denominator = false ∧
    JsNumber.isZero row.perListener.denominator = false

/-- The value converts to a number other than zero. -/
def nonzero (v : Val ν) : Bool :=
  match v.toNumber with
  | .ok n => !JsNumber.isZero n
  | .error _ => false

/-- Both values of the answer, as they arrive in the browser, are truthy, have the objects that the
row reads and fields that can be printed, and neither followers nor listeners are zero. -/
def displayable (r : Retrieved ν) : Bool :=
  let spotify : Val ν := some r.spotify.value.reload
  let lastfm : Val ν := some r.lastfm.value.reload
  spotify.truthy && lastfm.truthy && reachable spotify lastfm && printable spotify lastfm &&
    nonzero (figuresOf spotify lastfm).followers && nonzero (figuresOf spotify lastfm).listeners

/-- The entries that `handleData` reads from received data. -/
theorem entryOf_receivedData (r : Retrieved ν) :
    entryOf (receivedData r) (js "0") = .ok (some r.spotify.value.reload) ∧
      entryOf (receivedData r) (js "1") = .ok (some r.lastfm.value.reload) := by
  have hdata : receivedData r = .obj [(js "data", .arr
      [.obj [(js "state", .str r.spotify.state.text), (js "value", r.spotify.value.reload)],
        .obj [(js "state", .str r.lastfm.state.text), (js "value", r.lastfm.value.reload)]])] := by
    simp [receivedData, dataBody, Retrieved.toJson, Api.Entry.toJson, Json.reload,
      Json.reloadProperties, Json.reloadList]
  rw [hdata]
  exact ⟨rfl, rfl⟩

/-- A figure that is zero in the default and not zero in the data comes from the value itself. -/
private theorem truthy_of_nonzero {v w : Val ν} {f : Val ν → Val ν} {n : ν}
    (hw : (f w).toNumber = .ok (JsNumber.ofNat 0))
    (h : (f (v.orElse w)).toNumber = .ok n) (hn : JsNumber.isZero n = false) :
    v.truthy = true := by
  cases hv : v.truthy with
  | true => rfl
  | false =>
    rw [Val.orElse_of_falsy hv, hw] at h
    cases h
    rw [JsNumber.isZero_zero] at hn
    cases hn

private theorem nonzero_iff {v : Val ν} {n : ν} (h : v.toNumber = .ok n) :
    nonzero v = true ↔ JsNumber.isZero n = false := by
  rw [nonzero, h]
  simp

/-- The row of an answer is built with denominators other than zero if and only if the answer is
displayable. -/
theorem rowOf_displayable (r : Retrieved ν) :
    (∃ row, rowOf (spotifyData (some r.spotify.value.reload))
        (lastfmData (some r.lastfm.value.reload)) = .ok row ∧
      JsNumber.isZero row.perFollower.denominator = false ∧
      JsNumber.isZero row.perListener.denominator = false) ↔ displayable r = true := by
  simp only [displayable, Bool.and_eq_true]
  constructor
  · rintro ⟨row, hrow, hf, hl⟩
    obtain ⟨hr, hp, hd₁, hd₂⟩ := rowOf_eq_ok hrow
    -- both denominators are read from a default when the value is falsy
    have hs : Val.truthy (some r.spotify.value.reload) = true :=
      truthy_of_nonzero (w := some spotifyDefault)
        (f := fun v ↦ (figuresOf v (lastfmData (some r.lastfm.value.reload))).followers)
        rfl hd₁ hf
    have ht : Val.truthy (some r.lastfm.value.reload) = true :=
      truthy_of_nonzero (w := some lastfmDefault)
        (f := fun v ↦ (figuresOf (spotifyData (some r.spotify.value.reload)) v).listeners)
        rfl hd₂ hl
    rw [spotifyData, lastfmData, Val.orElse_of_truthy hs, Val.orElse_of_truthy ht]
      at hr hp hd₁ hd₂
    exact ⟨⟨⟨⟨⟨hs, ht⟩, hr⟩, hp⟩, (nonzero_iff hd₁).mpr hf⟩, (nonzero_iff hd₂).mpr hl⟩
  · rintro ⟨⟨⟨⟨⟨hs, ht⟩, hr⟩, hp⟩, hf⟩, hl⟩
    rw [spotifyData, lastfmData, Val.orElse_of_truthy hs, Val.orElse_of_truthy ht]
    obtain ⟨row, hrow⟩ := exists_rowOf hr hp
    obtain ⟨-, -, hd₁, hd₂⟩ := rowOf_eq_ok hrow
    exact ⟨row, hrow, (nonzero_iff hd₁).mp hf, (nonzero_iff hd₂).mp hl⟩

/-- Received data is displayed if and only if its answer is displayable. -/
theorem displays_receivedData_iff (r : Retrieved ν) (box : Box) (fromCache : Bool)
    (page : Page ν) : Displays box (receivedData r) fromCache page ↔ displayable r = true := by
  obtain ⟨h₀, h₁⟩ := entryOf_receivedData r
  rw [← rowOf_displayable]
  constructor
  · rintro ⟨page', row, hd, hrows, hf, hl⟩
    cases hrow : rowOf (spotifyData (some r.spotify.value.reload))
        (lastfmData (some r.lastfm.value.reload)) with
    | error e =>
      rw [handleData_of_error h₀ h₁ hrow] at hd
      cases hd
    | ok row' =>
      rw [handleData_of_row h₀ h₁ hrow] at hd
      cases hd
      obtain rfl : row' = row := by simpa [Page.shown] using hrows
      exact ⟨row', rfl, hf, hl⟩
  · rintro ⟨row, hrow, hf, hl⟩
    exact ⟨_, row, handleData_of_row h₀ h₁ hrow page, rfl, hf, hl⟩

/-- The browser reads a fresh response as the data of its answer. -/
private theorem received_fresh {r : Retrieved ν} (hr : r.Parsed) :
    received ⟨200, dataBody r.toJson⟩ = some (receivedData r) := by
  rw [received, if_pos rfl, Json.parse_stringify (wf_dataBody hr.wf), receivedData]

/-- The browser reads the response to a hit on the text of an answer as the data of that answer. -/
private theorem received_hit {r : Retrieved ν} (hr : r.Parsed) :
    received ⟨200, dataBody r.toJson.reload⟩ = some (receivedData r) := by
  have hbody : dataBody r.toJson.reload = (dataBody r.toJson).reload := by
    simp [dataBody, Json.reload, Json.reloadProperties]
  rw [received, if_pos rfl, hbody, Json.parse_stringify (wf_dataBody hr.wf).reload,
    Json.reload_reload, receivedData]

/-- On every page, in either box and wherever it came from, the data is displayed if and only if
the answer is displayable. -/
def DisplayedIff (data : Json ν) (r : Retrieved ν) : Prop :=
  ∀ box fromCache page, Displays box data fromCache page ↔ displayable r = true

/-- A response that the browser displays if and only if the answer is displayable. -/
def ShownIff (x : Response ν) (r : Retrieved ν) : Prop :=
  ∃ data, received x = some data ∧ DisplayedIff data r

/-- What a browser has stored is displayed if and only if its answer is displayable. -/
private theorem stored_displayed {s : Site ν} (hs : Transparent κ keys s) {browser : Nat}
    {key item : JsString} (hi : s.storage browser key = some item) :
    ∃ r data, .fresh key r ∈ s.server.log ∧ Json.parse item = some data ∧ DisplayedIff data r := by
  obtain ⟨data, ⟨r, hr, rfl⟩, rfl⟩ := hs.storage browser key item hi
  have hparsed := (server_facts hs).1.parsed key r hr
  exact ⟨r, receivedData r, hr, parse_receivedData hparsed, displays_receivedData_iff r⟩

/-- What redis has cached is displayed after a hit if and only if its answer is displayable. -/
private theorem cached_displayed {s : Site ν} (hs : Transparent κ keys s) {q : JsString}
    {e : Redis.Entry ν} (he : s.server.redis (artistKey q) = some e) :
    ∃ r text, .fresh q r ∈ s.server.log ∧ e.value = .str text ∧
      ∀ request query reply, queryString κ.lower query ≠ [] → cachedText reply = some text →
        ∃ x, (Chain.effects (search2 κ.lower keys request query reply) Effects.start).responses =
          [x] ∧ ShownIff x r := by
  obtain ⟨bs, hbs, hrun⟩ := hs.reached
  obtain ⟨r, hr, hv⟩ := cached_of_run hrun (authentic_of_run hbs hrun).names q e he
  have hparsed := (server_facts hs).1.parsed q r hr
  refine ⟨r, r.toJson.stringify, hr, hv, ?_⟩
  intro request query reply hq hc
  refine ⟨⟨200, dataBody r.toJson.reload⟩, ?_, receivedData r, received_hit hparsed,
    displays_receivedData_iff r⟩
  rw [search2, if_neg hq, effects_of_cached keys request hc, Json.parse_stringify hparsed.wf]
  rfl

/-- Both services know the artist. -/
def knownArtist : Request Whole := fun url ↦
  if js "https://api.spotify.com/v1/search" <+: url then
    .ok (js "\x7b\"artists\":\x7b\"items\":[\x7b\"id\":\"7\"\x7d]\x7d\x7d")
  else if js "https:" <+: url then
    .ok (js "\x7b\"followers\":\x7b\"total\":4\x7d,\"name\":\"Cher\",\"popularity\":70\x7d")
  else .ok (js "\x7b\"artist\":\x7b\"name\":\"Cher\"," ++
    js "\"stats\":\x7b\"listeners\":\"2\",\"playcount\":\"8\"\x7d\x7d\x7d")

/-- Only Last.fm knows the artist. -/
def onlyLastfm : Request Whole := fun url ↦
  if js "https:" <+: url then .ok (js "\x7b\"artists\":\x7b\"items\":[]\x7d\x7d")
  else knownArtist url

/-- The Last.fm entry of a known artist. -/
def cherLastfm : Api.Entry Whole :=
  ⟨.fulfilled, .obj [(js "artist", .obj [(js "name", .str (js "Cher")),
    (js "stats", .obj [(js "listeners", .str (js "2")), (js "playcount", .str (js "8"))])])]⟩

/-- The entries of the answer for a known artist. -/
def cherEntries : Retrieved Whole :=
  ⟨⟨.fulfilled, .obj [(js "followers", .obj [(js "total", .num (.int 4))]),
    (js "name", .str (js "Cher")), (js "popularity", .num (.int 70))]⟩, cherLastfm⟩

end MusicComparer.Client
