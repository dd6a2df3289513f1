import MusicComparer.Js.Promise

/-!
# Upstream calls

`application/application/settings/settings.js`: the Spotify and Last.fm requests of the
application. A call settles as the `request` package calls back for its URL, with an error or
with a body. The keys of `api_keys.js` are parameters.
-/

namespace MusicComparer.Upstream

open MusicComparer.Js

/-- The credentials of `api_keys.js` that are put into URLs. -/
structure ApiKeys where
  lastfm : JsString
  spotify : JsString

/-- How `request` calls back for a URL: with an error, or with a body. -/
abbrev Request (ν : Type) := JsString → Except (JsError ν) JsString

variable {ν : Type} [JsNumber ν] (keys : ApiKeys) (request : Request ν)

namespace Spotify

/-- `Spotify.search_url`, `settings.js:15`. -/
def searchUrl : JsString := js "https://api.spotify.com/v1/search?q="

/-- `Spotify.artist.artist_details_url`, `settings.js:19`. -/
def artistDetailsUrl : JsString := js "https://api.spotify.com/v1/artists/"

/-- `Spotify.artist.search`, `settings.js:21–31`. -/
def search (query : JsString) : Except (JsError ν) JsString :=
  request (searchUrl ++ query ++ js "&type=artist" ++ js "&client_id=" ++ keys.spotify)

/-- `Spotify.artist.get_details`, `settings.js:54–70`. The identifier is put into the URL by
string concatenation. -/
def getDetails (artistId : Val ν) : Except (JsError ν) JsString := do
  let id ← artistId.toText
  request (artistDetailsUrl ++ id ++ js "?client_id=" ++ keys.spotify)

/-- The condition of `settings.js:43`: the value of
`parsed_data && parsed_data.artists && parsed_data.artists.items[0] && ….items[0].id`. -/
def firstId (parsed : Json ν) : Except (JsError ν) (Val ν) := do
  if !Val.truthy (some parsed) then return some parsed
  let artists ← Val.get (some parsed) (js "artists")
  if !artists.truthy then return artists
  let items ← artists.get (js "items")
  let first ← items.get (js "0")
  if !first.truthy then return first
  first.get (js "id")

/-- `Spotify.artist.get_details_without_artist_before`, `settings.js:37–53`. -/
def getDetailsWithoutArtistBefore (artistName : JsString) : Except (JsError ν) JsString := do
  let data ← search keys request artistName
  let parsed ← Json.parseOrThrow data
  let id ← firstId parsed
  if id.truthy then getDetails keys request id
  else throw (.error (js "The ID wasn't there"))

end Spotify

/-- `getLastFMURL`, `settings.js:99–102`. -/
def getLastFMURL (method : JsString) (artist : Val ν) (apiKey : JsString)
    (format : Val ν := none) : Except (JsError ν) JsString := do
  let artist ← artist.toText
  let format ← (format.orElse (some (.str (js "json")))).toText
  pure (js "http://ws.audioscrobbler.com/2.0/?method=" ++ method ++ js "&artist=" ++ artist ++
    js "&api_key=" ++ apiKey ++ js "&format=" ++ format)

namespace LastFM

/-- `LastFM.artist.getInfo`, also called `get_info`, `settings.js:113–128`. An exception thrown
while the URL is built rejects the promise like a failed request. -/
def getInfo (artistName : Val ν) : Except (JsError ν) JsString := do
  let url ← getLastFMURL (js "artist.getinfo") artistName keys.lastfm
  request url

/-- `LastFM.artist.getTopTags`, `settings.js:132–143`. -/
def getTopTags (artistName : Val ν) : Except (JsError ν) JsString := do
  let url ← getLastFMURL (js "artist.gettoptags") artistName keys.lastfm
  request url

/-- `getSignature`, `settings.js:192–200`. The MD5 digest in hexadecimal is a parameter. -/
def getSignature (md5 : JsString → JsString) (apiKey method token secret : JsString) : JsString :=
  md5 (js "api_key" ++ apiKey ++ js "method" ++ method ++ js "token" ++ token ++ secret)

/-- `LastFM.auth.getSession`, `settings.js:165–180`. -/
def getSession (md5 : JsString → JsString) (secret token : JsString) :
    Except (JsError ν) JsString :=
  request (js "http://ws.audioscrobbler.com/2.0/?token=" ++ token ++ js "&api_key=" ++
    keys.lastfm ++ js "&method=auth.getSession&format=json&api_sig=" ++
    getSignature md5 keys.lastfm (js "auth.getSession") token secret)

end LastFM
end MusicComparer.Upstream
