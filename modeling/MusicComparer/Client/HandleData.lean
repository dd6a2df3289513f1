import MusicComparer.Client.Transparency

/-!
# Showing an answer

`handleData` and `addCommas`, `clientside.js:67–77,242–331`. The function reads the two entries of
a received body, puts defaults in the place of falsy values, and writes to the page in order; a
`TypeError` on the way leaves what was written before. jQuery, Chart.js and the canvas are known by
the part of the page they write. Logging is left out.
-/

namespace MusicComparer.Client

open MusicComparer.Js MusicComparer.Api

variable {ν : Type} [JsNumber ν]

/-- The two search boxes. -/
inductive Box where
  | first
  | second
  deriving DecidableEq, Repr

/-- A printed quotient, `(numerator / denominator).toFixed(1)`. -/
structure Ratio (ν : Type) where
  numerator : ν
  denominator : ν
  deriving DecidableEq

/-- The text of a quotient. -/
def Ratio.text (q : Ratio ν) : JsString :=
  JsNumber.toFixed (JsNumber.div q.numerator q.denominator) 1

/-- A row of `#tbody_data`. -/
structure Row (ν : Type) where
  name : JsString
  followers : JsString
  playcount : JsString
  listeners : JsString
  popularity : JsString
  perFollower : Ratio ν
  perListener : Ratio ν
  deriving DecidableEq

/-- The bars and the label of one dataset of the three bar charts. -/
structure Slot (ν : Type) where
  label : Val ν
  followers : Val ν
  listeners : Val ν
  playcount : Val ν
  deriving DecidableEq

/-- A segment of `popularity_chart`. -/
structure Segment (ν : Type) where
  value : Val ν
  box : Box
  deriving DecidableEq

/-- The parts of the page that `handleData` writes. -/
structure Page (ν : Type) where
  /-- the data printed in `#result` and `#result2` -/
  result : Box → Option (Json ν)
  /-- the rows of `#tbody_data` -/
  rows : List (Row ν)
  /-- the texts of `#query1_from` and `#query2_from` -/
  source : Box → JsString
  slots : Box → Slot ν
  segments : List (Segment ν)
  /-- the names sent to `/api/tags` -/
  tagRequests : List (Box × JsString)

/-- The first position with four digits ahead is where `/(\d+)(\d{3})/` matches; a space goes before
the last three digits of the run. -/
def groupOnce : JsString → Option JsString
  | [] => none
  | c :: cs =>
    let run := (c :: cs).takeWhile isDigit
    if 4 ≤ run.length then
      some (run.take (run.length - 3) ++ 32 :: run.drop (run.length - 3) ++
        (c :: cs).dropWhile isDigit)
    else (groupOnce cs).map (c :: ·)

/-- The `while` loop of `addCommas`, `clientside.js:73–75`. -/
def groupLoop : Nat → JsString → JsString
  | 0, s => s
  | n + 1, s =>
    match groupOnce s with
    | some s' => groupLoop n s'
    | none => s

/-- `addCommas` on a string, `clientside.js:69–76`. Every round splits a run of digits, so there are
fewer rounds than units. -/
def addCommas (s : JsString) : JsString :=
  let x₁ := s.takeWhile (· != 46)
  let x₂ :=
    match s.dropWhile (· != 46) with
    | [] => []
    | _ :: rest => 46 :: rest.takeWhile (· != 46)
  groupLoop x₁.length x₁ ++ x₂

/-- `nStr += ''` before it, `clientside.js:68`. -/
def addCommasTo (v : Val ν) : Except (JsError ν) JsString := do
  let s ← v.toText
  pure (addCommas s)

/-- `{followers: {total: 0}, popularity: 0}`, `clientside.js:245–250`. -/
def spotifyDefault : Json ν :=
  .obj [(js "followers", .obj [(js "total", .num (JsNumber.ofNat 0))]),
    (js "popularity", .num (JsNumber.ofNat 0))]

/-- `{artist: {name: "", stats: {listeners: 0, playcount: 0}}}`, `clientside.js:252–260`. -/
def lastfmDefault : Json ν :=
  .obj [(js "artist", .obj [(js "name", .str []),
    (js "stats", .obj [(js "listeners", .num (JsNumber.ofNat 0)),
      (js "playcount", .num (JsNumber.ofNat 0))])])]

/-- `lastfm_data.artist[field]`. -/
def artistField (lastfm : Val ν) (field : JsString) : Except (JsError ν) (Val ν) := do
  let artist ← lastfm.get (js "artist")
  artist.get field

/-- `lastfm_data.artist.stats[field]`. -/
def statsField (lastfm : Val ν) (field : JsString) : Except (JsError ν) (Val ν) := do
  let stats ← artistField lastfm (js "stats")
  stats.get field

/-- `spotify_data.followers.total`. -/
def total (spotify : Val ν) : Except (JsError ν) (Val ν) := do
  let followers ← spotify.get (js "followers")
  followers.get (js "total")

/-- `lastfm_data.artist.name || spotify_data.name`. -/
def shownName (spotify lastfm : Val ν) : Except (JsError ν) (Val ν) := do
  let name ← artistField lastfm (js "name")
  if name.truthy then pure name else spotify.get (js "name")

/-- A quotient of two values. -/
def ratio (numerator denominator : Val ν) : Except (JsError ν) (Ratio ν) := do
  let n ← numerator.toNumber
  let d ← denominator.toNumber
  pure ⟨n, d⟩

/-- The row appended to the table, `clientside.js:277–291`. -/
def rowOf (spotify lastfm : Val ν) : Except (JsError ν) (Row ν) := do
  let name ← shownName spotify lastfm
  let name ← name.toText
  let t ← total spotify
  let followers ← addCommasTo t
  let p ← statsField lastfm (js "playcount")
  let playcount ← addCommasTo p
  let l ← statsField lastfm (js "listeners")
  let listeners ← addCommasTo l
  let popularity ← spotify.get (js "popularity")
  let popularity ← popularity.toText
  let perFollower ← ratio p t
  let perListener ← ratio p l
  pure ⟨name, followers, playcount, listeners, popularity, perFollower, perListener⟩

/-- Code on the page. -/
abbrev Display (ν : Type) := EStateM (JsError ν) (Page ν)

/-- `$(target).html(…)`, `clientside.js:268`. -/
def showResult (box : Box) (data : Json ν) : Display ν Unit :=
  modify fun page ↦ { page with result := Function.update page.result box (some data) }

/-- `$("#tbody_data").append(…)`. -/
def appendRow (row : Row ν) : Display ν Unit :=
  modify fun page ↦ { page with rows := page.rows ++ [row] }

/-- The text that says where an answer came from, `clientside.js:297`. -/
def sourceText (name : JsString) (fromCache : Bool) : JsString :=
  js "Retrieved " ++ name ++ if fromCache then js " from the cache." else js " from the server."

/-- `retrieved_from.text(…)`, `clientside.js:296–297`. -/
def showSource (box : Box) (name : JsString) (fromCache : Bool) : Display ν Unit :=
  modify fun page ↦
    { page with source := Function.update page.source box (sourceText name fromCache) }

/-- The assignments to the bar charts, `clientside.js:302–305`. -/
def setSlot (box : Box) (slot : Slot ν) : Display ν Unit :=
  modify fun page ↦ { page with slots := Function.update page.slots box slot }

/-- `popularity_chart.addData(…)`, `clientside.js:309–319`. -/
def addData (segment : Segment ν) : Display ν Unit :=
  modify fun page ↦ { page with segments := page.segments ++ [segment] }

/-- `$.get("/api/tags/" + …)`, `clientside.js:331`. -/
def requestTags (box : Box) (name : JsString) : Display ν Unit :=
  modify fun page ↦ { page with tagRequests := page.tagRequests ++ [(box, name)] }

/-- An entry of `data.data` and its value; the state is read and not used. -/
def entryOf (data : Json ν) (index : JsString) : Except (JsError ν) (Val ν) := do
  let list ← Val.get (some data) (js "data")
  let entry ← list.get index
  let _ ← entry.get (js "state")
  entry.get (js "value")

/-- The synchronous part of `handleData`, `clientside.js:242–331`. -/
def handleData (box : Box) (data : Json ν) (fromCache : Bool) : Display ν Unit := do
  let spotify ← Chain.settled (entryOf data (js "0"))
  let spotify := spotify.orElse (some spotifyDefault)
  let lastfm ← Chain.settled (entryOf data (js "1"))
  let lastfm := lastfm.orElse (some lastfmDefault)
  showResult box data
  let row ← Chain.settled (rowOf spotify lastfm)
  appendRow row
  let name ← Chain.settled (artistField lastfm (js "name"))
  let text ← Chain.settled name.toText
  showSource box text fromCache
  let followers ← Chain.settled (total spotify)
  let listeners ← Chain.settled (statsField lastfm (js "listeners"))
  let playcount ← Chain.settled (statsField lastfm (js "playcount"))
  setSlot box ⟨name, followers, listeners, playcount⟩
  let popularity ← Chain.settled (spotify.get (js "popularity"))
  addData ⟨popularity.orElse (some (.num (JsNumber.ofNat 0))), box⟩
  requestTags box text

/-- The name in the first cell: that of Last.fm when it is truthy, else that of Spotify. -/
def nameOf (spotify lastfm : Val ν) : Val ν :=
  let name := (lastfm.member (js "artist")).member (js "name")
  if name.truthy then name else spotify.member (js "name")

/-- The values of the row. -/
structure Figures (ν : Type) where
  followers : Val ν
  playcount : Val ν
  listeners : Val ν
  popularity : Val ν

/-- The values at the places where the row reads them. -/
def figuresOf (spotify lastfm : Val ν) : Figures ν :=
  let stats := (lastfm.member (js "artist")).member (js "stats")
  ⟨(spotify.member (js "followers")).member (js "total"), stats.member (js "playcount"),
    stats.member (js "listeners"), spotify.member (js "popularity")⟩

/-- The objects on the way to the values of the row exist. -/
def reachable (spotify lastfm : Val ν) : Bool :=
  spotify.readable && (spotify.member (js "followers")).readable && lastfm.readable &&
    (lastfm.member (js "artist")).readable &&
    ((lastfm.member (js "artist")).member (js "stats")).readable

/-- The values of the row can be printed. -/
def printable (spotify lastfm : Val ν) : Bool :=
  (nameOf spotify lastfm).toText.isOk && (figuresOf spotify lastfm).followers.toText.isOk &&
    (figuresOf spotify lastfm).playcount.toText.isOk &&
    (figuresOf spotify lastfm).listeners.toText.isOk &&
    (figuresOf spotify lastfm).popularity.toText.isOk

private theorem artistField_eq_ok_iff {lastfm v : Val ν} {field : JsString} :
    artistField lastfm field = .ok v ↔ lastfm.readable = true ∧
      (lastfm.member (js "artist")).readable = true ∧
      (lastfm.member (js "artist")).member field = v := by
  simp only [artistField, bind_eq_ok_iff, Val.get_eq_ok_iff]
  constructor
  · rintro ⟨artist, ⟨hl, rfl⟩, ha, hv⟩
    exact ⟨hl, ha, hv⟩
  · rintro ⟨hl, ha, hv⟩
    exact ⟨_, ⟨hl, rfl⟩, ha, hv⟩

private theorem statsField_eq_ok_iff {lastfm v : Val ν} {field : JsString} :
    statsField lastfm field = .ok v ↔ lastfm.readable = true ∧
      (lastfm.member (js "artist")).readable = true ∧
      ((lastfm.member (js "artist")).member (js "stats")).readable = true ∧
      ((lastfm.member (js "artist")).member (js "stats")).member field = v := by
  simp only [statsField, bind_eq_ok_iff, artistField_eq_ok_iff, Val.get_eq_ok_iff]
  constructor
  · rintro ⟨stats, ⟨hl, ha, rfl⟩, hs, hv⟩
    exact ⟨hl, ha, hs, hv⟩
  · rintro ⟨hl, ha, hs, hv⟩
    exact ⟨_, ⟨hl, ha, rfl⟩, hs, hv⟩

private theorem total_eq_ok_iff {spotify v : Val ν} : total spotify = .ok v ↔
    spotify.readable = true ∧ (spotify.member (js "followers")).readable = true ∧
      (spotify.member (js "followers")).member (js "total") = v := by
  simp only [total, bind_eq_ok_iff, Val.get_eq_ok_iff]
  constructor
  · rintro ⟨followers, ⟨hs, rfl⟩, hf, hv⟩
    exact ⟨hs, hf, hv⟩
  · rintro ⟨hs, hf, hv⟩
    exact ⟨_, ⟨hs, rfl⟩, hf, hv⟩

private theorem shownName_eq_ok {spotify lastfm v : Val ν}
    (h : shownName spotify lastfm = .ok v) : v = nameOf spotify lastfm := by
  simp only [shownName, bind_eq_ok_iff, artistField_eq_ok_iff] at h
  obtain ⟨name, ⟨-, -, rfl⟩, hv⟩ := h
  rw [nameOf]
  split at hv
  · next ht =>
    cases hv
    rw [if_pos ht]
  · next ht =>
    rw [if_neg ht]
    exact ((Val.get_eq_ok_iff.mp hv).2).symm

/-- A row was built from values that exist and can be printed, and its quotients are theirs. -/
theorem rowOf_eq_ok {spotify lastfm : Val ν} {row : Row ν}
    (h : rowOf spotify lastfm = .ok row) :
    reachable spotify lastfm = true ∧ printable spotify lastfm = true ∧
      (figuresOf spotify lastfm).followers.toNumber = .ok row.perFollower.denominator ∧
      (figuresOf spotify lastfm).listeners.toNumber = .ok row.perListener.denominator := by
  simp only [rowOf, bind_eq_ok_iff] at h
  obtain ⟨name, hname, nameText, hnameText, t, ht, followers, hfollowers, p, hp, playcount,
    hplaycount, l, hl, listeners, hlisteners, v, hv, popularity, hpopularity, q₁, hq₁, q₂, hq₂,
    hrow⟩ := h
  obtain rfl := shownName_eq_ok hname
  obtain ⟨hs, hf, rfl⟩ := total_eq_ok_iff.mp ht
  obtain ⟨hlf, ha, hst, rfl⟩ := statsField_eq_ok_iff.mp hp
  obtain ⟨-, -, -, rfl⟩ := statsField_eq_ok_iff.mp hl
  obtain ⟨-, rfl⟩ := Val.get_eq_ok_iff.mp hv
  simp only [addCommasTo, bind_eq_ok_iff] at hfollowers hplaycount hlisteners
  obtain ⟨ft, hft, -⟩ := hfollowers
  obtain ⟨pt, hpt, -⟩ := hplaycount
  obtain ⟨lt, hlt, -⟩ := hlisteners
  simp only [ratio, bind_eq_ok_iff] at hq₁ hq₂
  obtain ⟨n₁, hn₁, d₁, hd₁, hq₁⟩ := hq₁
  obtain ⟨n₂, hn₂, d₂, hd₂, hq₂⟩ := hq₂
  cases hq₁
  cases hq₂
  cases hrow
  refine ⟨by simp [reachable, hs, hf, hlf, ha, hst], ?_, hd₁, hd₂⟩
  simp [printable, figuresOf, hnameText, hft, hpt, hlt, hpopularity, Except.isOk, Except.toBool]

/-- The reads of `handleData` on values whose objects exist. -/
private structure Reads (spotify lastfm : Val ν) : Prop where
  spotifyName : spotify.get (js "name") = .ok (spotify.member (js "name"))
  artistName : artistField lastfm (js "name") =
    .ok ((lastfm.member (js "artist")).member (js "name"))
  followers : total spotify = .ok (figuresOf spotify lastfm).followers
  playcount : statsField lastfm (js "playcount") = .ok (figuresOf spotify lastfm).playcount
  listeners : statsField lastfm (js "listeners") = .ok (figuresOf spotify lastfm).listeners
  popularity : spotify.get (js "popularity") = .ok (figuresOf spotify lastfm).popularity

private theorem reads_of_reachable {spotify lastfm : Val ν}
    (h : reachable spotify lastfm = true) : Reads spotify lastfm := by
  simp only [reachable, Bool.and_eq_true] at h
  obtain ⟨⟨⟨⟨hs, hf⟩, hl⟩, ha⟩, hst⟩ := h
  constructor
  · exact Val.get_eq_ok_iff.mpr ⟨hs, rfl⟩
  · exact artistField_eq_ok_iff.mpr ⟨hl, ha, rfl⟩
  · exact total_eq_ok_iff.mpr ⟨hs, hf, rfl⟩
  · exact statsField_eq_ok_iff.mpr ⟨hl, ha, hst, rfl⟩
  · exact statsField_eq_ok_iff.mpr ⟨hl, ha, hst, rfl⟩
  · exact Val.get_eq_ok_iff.mpr ⟨hs, rfl⟩

private theorem shownName_of_reads {spotify lastfm : Val ν} (h : Reads spotify lastfm) :
    shownName spotify lastfm = .ok (nameOf spotify lastfm) := by
  simp only [shownName, bind_eq_ok_iff]
  refine ⟨_, h.artistName, ?_⟩
  rw [nameOf]
  split
  · rfl
  · exact h.spotifyName

private theorem addCommasTo_of_text {v : Val ν} {s : JsString} (h : v.toText = .ok s) :
    addCommasTo v = .ok (addCommas s) := by
  rw [addCommasTo, h]
  rfl

private theorem ratio_of_numbers {v w : Val ν} {n d : ν} (hv : v.toNumber = .ok n)
    (hw : w.toNumber = .ok d) : ratio v w = .ok ⟨n, d⟩ := by
  rw [ratio, hv, hw]
  rfl

/-- A value that can be printed has a text and a number. -/
private theorem text_and_number {v : Val ν} (h : v.toText.isOk = true) :
    (∃ s, v.toText = .ok s) ∧ ∃ n, v.toNumber = .ok n := by
  constructor
  · exact isOk_iff.mp h
  · rw [← Val.toNumber_isOk] at h
    exact isOk_iff.mp h

/-- From values that exist and can be printed a row is built. -/
theorem exists_rowOf {spotify lastfm : Val ν} (hr : reachable spotify lastfm = true)
    (hp : printable spotify lastfm = true) : ∃ row, rowOf spotify lastfm = .ok row := by
  have hreads := reads_of_reachable hr
  simp only [printable, Bool.and_eq_true] at hp
  obtain ⟨⟨⟨⟨hn, ht⟩, hpl⟩, hli⟩, hpo⟩ := hp
  obtain ⟨name, hname⟩ := isOk_iff.mp hn
  obtain ⟨⟨followers, hft⟩, f, hfn⟩ := text_and_number ht
  obtain ⟨⟨playcount, hpt⟩, p, hpn⟩ := text_and_number hpl
  obtain ⟨⟨listeners, hlt⟩, l, hln⟩ := text_and_number hli
  obtain ⟨popularity, hpop⟩ := isOk_iff.mp hpo
  refine ⟨⟨name, addCommas followers, addCommas playcount, addCommas listeners, popularity,
    ⟨p, f⟩, ⟨p, l⟩⟩, ?_⟩
  simp only [rowOf, bind_eq_ok_iff]
  exact ⟨_, shownName_of_reads hreads, name, hname, _, hreads.followers, _,
    addCommasTo_of_text hft, _, hreads.playcount, _, addCommasTo_of_text hpt, _, hreads.listeners,
    _, addCommasTo_of_text hlt, _, hreads.popularity, popularity, hpop, _,
    ratio_of_numbers hpn hfn, _, ratio_of_numbers hpn hln, rfl⟩

/-- The label and the bars of an answer. -/
def slotOf (spotify lastfm : Val ν) : Slot ν :=
  let figures := figuresOf spotify lastfm
  ⟨(lastfm.member (js "artist")).member (js "name"), figures.followers, figures.listeners,
    figures.playcount⟩

/-- The segment of an answer. -/
def segmentOf (box : Box) (spotify : Val ν) : Segment ν :=
  ⟨(spotify.member (js "popularity")).orElse (some (.num (JsNumber.ofNat 0))), box⟩

/-- The name of an answer as it is put into texts. -/
def labelText (lastfm : Val ν) : JsString :=
  ((lastfm.member (js "artist")).member (js "name")).toText.toOption.getD []

/-- The page after an answer was shown. -/
def Page.shown (page : Page ν) (box : Box) (data : Json ν) (fromCache : Bool)
    (spotify lastfm : Val ν) (row : Row ν) : Page ν where
  result := Function.update page.result box (some data)
  rows := page.rows ++ [row]
  source := Function.update page.source box (sourceText (labelText lastfm) fromCache)
  slots := Function.update page.slots box (slotOf spotify lastfm)
  segments := page.segments ++ [segmentOf box spotify]
  tagRequests := page.tagRequests ++ [(box, labelText lastfm)]

/-- The Spotify value of a body, or the default. -/
def spotifyData (v : Val ν) : Val ν := v.orElse (some spotifyDefault)

/-- The Last.fm value of a body, or the default. -/
def lastfmData (v : Val ν) : Val ν := v.orElse (some lastfmDefault)

/-- With a row, the Last.fm name converts to the text of the label: it is the name of the row, or it
is falsy. -/
private theorem toText_label {spotify lastfm : Val ν} (h : printable spotify lastfm = true) :
    ((lastfm.member (js "artist")).member (js "name")).toText = .ok (labelText lastfm) := by
  have hok : ((lastfm.member (js "artist")).member (js "name")).toText.isOk = true := by
    by_cases ht : ((lastfm.member (js "artist")).member (js "name")).truthy = true
    · simp only [printable, Bool.and_eq_true, nameOf, if_pos ht] at h
      exact h.1.1.1.1
    · exact Val.toText_isOk_of_falsy (by simpa using ht)
  obtain ⟨text, ht⟩ := isOk_iff.mp hok
  rw [labelText, ht]
  rfl

/-- Once the row is built, the rest of `handleData` does not throw. -/
theorem handleData_of_row {box : Box} {data : Json ν} {fromCache : Bool} {v₀ v₁ : Val ν}
    {row : Row ν} (h₀ : entryOf data (js "0") = .ok v₀) (h₁ : entryOf data (js "1") = .ok v₁)
    (hrow : rowOf (spotifyData v₀) (lastfmData v₁) = .ok row) (page : Page ν) :
    handleData box data fromCache page =
      .ok () (page.shown box data fromCache (spotifyData v₀) (lastfmData v₁) row) := by
  obtain ⟨hr, hp, -, -⟩ := rowOf_eq_ok hrow
  have hreads := reads_of_reachable hr
  have hlabel := toText_label hp
  unfold spotifyData lastfmData at hrow hreads hlabel
  unfold handleData
  simp only [h₀, h₁, hrow, hreads.artistName, hlabel, hreads.followers, hreads.listeners,
    hreads.playcount, hreads.popularity, Chain.settled_ok, pure_bind]
  rfl

/-- When the row cannot be built, `handleData` throws after printing the data. -/
theorem handleData_of_error {box : Box} {data : Json ν} {fromCache : Bool} {v₀ v₁ : Val ν}
    {e : JsError ν} (h₀ : entryOf data (js "0") = .ok v₀) (h₁ : entryOf data (js "1") = .ok v₁)
    (hrow : rowOf (spotifyData v₀) (lastfmData v₁) = .error e) (page : Page ν) :
    handleData box data fromCache page =
      .error e { page with result := Function.update page.result box (some data) } := by
  have hrow' : rowOf (v₀.orElse (some spotifyDefault)) (v₁.orElse (some lastfmDefault)) =
      .error e := hrow
  unfold handleData
  simp only [h₀, h₁, Chain.settled_ok, pure_bind, hrow']
  rfl

end MusicComparer.Client
