import MusicComparer.Js.Query
import MusicComparer.Upstream.Settings

/-!
# Artist names in upstream URLs

`getLastFMURL` and `Spotify.artist.search` put a name into the query of a URL by concatenation.
`request` sends the URL, and the service reads the parameters. A name arrives as it is when it has
no character with a meaning in queries.
-/

namespace MusicComparer.Upstream

open MusicComparer.Js

variable {ν : Type}

/-- The URL that a call hands to `request`. -/
def requested (call : Request ν → Except (JsError ν) JsString) : Except (JsError ν) JsString :=
  call .ok

/-- The parameters that a service reads when a URL is requested. -/
def parameters (e : Escaping isQueryDelimiter) (url : Except (JsError ν) JsString) :
    Except (JsError ν) (List (Option JsString × Option JsString)) :=
  url.map fun u ↦ params (sentQuery e u)

/-- A service that is asked for a URL reads exactly these parameters. -/
def Carries (e : Escaping isQueryDelimiter) (url : Except (JsError ν) JsString)
    (ps : List (JsString × JsString)) : Prop :=
  parameters e url = .ok (ps.map fun p ↦ (some p.1, some p.2))

/-- The escapes of Node's `url.parse`. -/
def nodeUrl : Escaping isQueryDelimiter where
  illegal c := c ∈ ['\x7b', '\x7d', '|', '\\', '^', '\x60', '<', '>', '"', ' ', '\r', '\n', '\t',
    '\'']
  legal_of_delimiter c h := by
    rw [decide_eq_false_iff_not]
    intro hc
    revert h
    rw [imp_false, Bool.not_eq_true]
    revert c
    rw [← List.all_iff_forall_prop]
    decide

/-- A URL that is written as a base and parameters carries them when their values are plain. -/
private theorem carries_iff (e : Escaping isQueryDelimiter) {url : Except (JsError ν) JsString}
    {base : List Char} {ps : List (List Char × JsString)}
    (hurl : url = .ok (utf16s base ++ 63 :: queryText ps)) (hbase : '?' ∉ base ∧ '#' ∉ base)
    (hne : ps ≠ []) (hn : ∀ p ∈ ps, PlainName p.1) :
    Carries e url (ps.map fun p ↦ (utf16s p.1, p.2)) ↔ ∀ p ∈ ps, PlainValue p.2 := by
  rw [← params_sentQuery_iff e hbase hne hn, Carries, parameters, hurl, List.map_map, Except.map,
    Except.ok.injEq]
  rfl

private theorem getLastFMURL_eq [JsNumber ν] (method s key : JsString) :
    getLastFMURL (ν := ν) method (some (.str s)) key =
      .ok (utf16s "http://ws.audioscrobbler.com/2.0/".toList ++ 63 ::
        queryText [("method".toList, method), ("artist".toList, s), ("api_key".toList, key),
          ("format".toList, js "json")]) := by
  have hmethod : js "http://ws.audioscrobbler.com/2.0/?method=" =
      utf16s "http://ws.audioscrobbler.com/2.0/".toList ++ 63 ::
        (utf16s "method".toList ++ [61]) := by decide
  have hartist : js "&artist=" = 38 :: (utf16s "artist".toList ++ [61]) := by decide
  have hkey : js "&api_key=" = 38 :: (utf16s "api_key".toList ++ [61]) := by decide
  have hformat : js "&format=" = 38 :: (utf16s "format".toList ++ [61]) := by decide
  have hurl : getLastFMURL (ν := ν) method (some (.str s)) key =
      .ok (js "http://ws.audioscrobbler.com/2.0/?method=" ++ method ++ js "&artist=" ++ s ++
        js "&api_key=" ++ key ++ js "&format=" ++ js "json") := rfl
  rw [hurl, hmethod, hartist, hkey, hformat]
  simp only [queryText, List.append_assoc, List.cons_append, List.nil_append]

private theorem search_url_eq (keys : ApiKeys) (s : JsString) :
    requested (ν := ν) (Spotify.search keys · s) =
      .ok (utf16s "https://api.spotify.com/v1/search".toList ++ 63 ::
        queryText [("q".toList, s), ("type".toList, js "artist"),
          ("client_id".toList, keys.spotify)]) := by
  have hq : Spotify.searchUrl = utf16s "https://api.spotify.com/v1/search".toList ++ 63 ::
      (utf16s "q".toList ++ [61]) := by decide
  have htype : js "&type=artist" = 38 :: (utf16s "type".toList ++ 61 :: js "artist") := by decide
  have hid : js "&client_id=" = 38 :: (utf16s "client_id".toList ++ [61]) := by decide
  rw [requested, Spotify.search, hq, htype, hid]
  simp only [queryText, List.append_assoc, List.cons_append, List.nil_append]

/-- The calls hand the URLs of `getLastFMURL` to `request`. -/
theorem requested_getInfo [JsNumber ν] (keys : ApiKeys) (artist : Val ν) :
    requested (LastFM.getInfo keys · artist) =
      getLastFMURL (js "artist.getinfo") artist keys.lastfm := by
  rw [requested]
  unfold LastFM.getInfo
  exact bind_pure _

theorem requested_getTopTags [JsNumber ν] (keys : ApiKeys) (artist : Val ν) :
    requested (LastFM.getTopTags keys · artist) =
      getLastFMURL (js "artist.gettoptags") artist keys.lastfm := by
  rw [requested]
  unfold LastFM.getTopTags
  exact bind_pure _

/-- Both upstream URLs carry an artist name as it is exactly when the name is plain, and so are the
method and the keys that are put beside it. -/
theorem urls_carry_iff [JsNumber ν] (e : Escaping isQueryDelimiter) (keys : ApiKeys)
    (method s : JsString) :
    Carries e (getLastFMURL (ν := ν) method (some (.str s)) keys.lastfm)
        [(js "method", method), (js "artist", s), (js "api_key", keys.lastfm),
          (js "format", js "json")] ∧
      Carries e (requested (ν := ν) (Spotify.search keys · s))
        [(js "q", s), (js "type", js "artist"), (js "client_id", keys.spotify)] ↔
    PlainValue s ∧ PlainValue method ∧ PlainValue keys.lastfm ∧ PlainValue keys.spotify := by
  have hformat : PlainValue (js "json") := by decide
  have htype : PlainValue (js "artist") := by decide
  have hlastfm := carries_iff e (getLastFMURL_eq (ν := ν) method s keys.lastfm) (by decide)
    (List.cons_ne_nil _ _) (by simp only [List.forall_mem_cons]; decide)
  have hspotify := carries_iff e (search_url_eq (ν := ν) keys s) (by decide)
    (List.cons_ne_nil _ _) (by simp only [List.forall_mem_cons]; decide)
  simp only [List.forall_mem_cons, List.not_mem_nil, false_implies, implies_true,
    and_true] at hlastfm hspotify
  constructor
  · rintro ⟨hl, hs⟩
    obtain ⟨hmethod, hname, hkey, -⟩ := hlastfm.mp hl
    obtain ⟨-, -, hid⟩ := hspotify.mp hs
    exact ⟨hname, hmethod, hkey, hid⟩
  · rintro ⟨hname, hmethod, hkey, hid⟩
    exact ⟨hlastfm.mpr ⟨hmethod, hname, hkey, hformat⟩, hspotify.mpr ⟨hname, htype, hid⟩⟩

/-- The ampersand of a name ends the parameter. -/
theorem ampersand_not_carried : ¬
    (Carries nodeUrl (getLastFMURL (ν := Whole) (js "artist.getinfo")
        (some (.str (js "simon & garfunkel"))) (js "88608a3b"))
      [(js "method", js "artist.getinfo"), (js "artist", js "simon & garfunkel"),
        (js "api_key", js "88608a3b"), (js "format", js "json")] ∧
    Carries nodeUrl (requested (ν := Whole)
        (Spotify.search ⟨js "88608a3b", js "d879c5ab"⟩ · (js "simon & garfunkel")))
      [(js "q", js "simon & garfunkel"), (js "type", js "artist"),
        (js "client_id", js "d879c5ab")]) := by
  unfold Carries
  decide +kernel

end MusicComparer.Upstream
