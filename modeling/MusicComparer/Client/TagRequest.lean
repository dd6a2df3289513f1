import MusicComparer.Js.Query

/-!
# The request for the tags of an artist

`clientside.js:333` puts the name of an artist behind `/api/tags/`, and the route `/tags/:artist` of
`routes/api.js:44` takes it from the path again. The browser and the router read the URL in between:
a name arrives as it is when it has no character with a meaning to one of them.
-/

namespace MusicComparer.Client

open MusicComparer.Js

/-- Characters that every path may have. -/
def isPathDelimiter (c : Char) : Bool := isAlphanumeric c || c ∈ ['%', '/']

/-- The characters that a browser escapes in paths. Those outside ASCII are among them. -/
structure PathEscaping extends Escaping isPathDelimiter where
  illegal_of_not_ascii : ∀ c : Char, ¬ c.toNat < 0x80 → illegal c = true

/-- The path that is sent for a URL: jQuery removes the fragment, and the browser cuts the query
off. -/
def sentPath (e : PathEscaping) (url : JsString) : List Char :=
  e.escape (((scalars url).takeWhile (· ≠ '#')).takeWhile (· ≠ '?'))

/-- How Express goes on with a path. -/
inductive Routed where
  /-- the path does not match the route -/
  | unmatched
  /-- a status of 400, since the parameter is not a URI component -/
  | badRequest
  /-- the handler of `/tags/:artist`, with `req.params.artist` -/
  | tags (artist : JsString)
  deriving DecidableEq, Repr

/-- Where the router is mounted, `app.js:103`, and the route up to its parameter, `api.js:44`. -/
def tagsPath : List Char := "/api/tags/".toList

/-- The route `/tags/:artist` of the router at `/api`. The parameter is one segment, and a slash may
come after it. -/
def route (path : List Char) : Routed :=
  if tagsPath <+: path then
    let rest := path.drop tagsPath.length
    let segment := rest.takeWhile (· ≠ '/')
    if segment ≠ [] ∧ (rest = segment ∨ rest = segment ++ ['/']) then
      match decodeURIComponent (utf16s segment) with
      | some artist => .tags artist
      | none => .badRequest
    else .unmatched
  else .unmatched

/-- `$.get("/api/tags/" + lastfm_data.artist.name)`, `clientside.js:333`, up to the handler. -/
def tagRequest (e : PathEscaping) (name : JsString) : Routed :=
  route (sentPath e (js "/api/tags/" ++ name))

/-- The escapes of browsers in paths. -/
def browserPath : PathEscaping where
  illegal c := c.toNat ≤ 0x20 || 0x7F ≤ c.toNat ||
    c ∈ ['"', '#', '<', '>', '?', '\x60', '\x7b', '\x7d']
  legal_of_delimiter c h := by
    have hnot : c ∉ ['"', '#', '<', '>', '?', '\x60', '\x7b', '\x7d'] := by
      intro hc
      revert h
      rw [imp_false, Bool.not_eq_true]
      revert c
      rw [← List.all_iff_forall_prop]
      decide
    have hrange : 0x20 < c.toNat ∧ c.toNat < 0x7F := by
      rw [isPathDelimiter, Bool.or_eq_true, isAlphanumeric_iff, decide_eq_true_iff] at h
      rcases h with h | h
      · omega
      · clear hnot
        revert c
        rw [← List.all_iff_forall_prop]
        decide
    have hlow : ¬ c.toNat ≤ 0x20 := by omega
    have hhigh : ¬ 0x7F ≤ c.toNat := by omega
    simp [hnot, hlow, hhigh]
  illegal_of_not_ascii c h := by
    have hle : 0x7F ≤ c.toNat := by omega
    simp [hle]

variable (e : PathEscaping) {name : JsString}

/-- The part of a name that is sent in the path. -/
private def sentName (name : JsString) : List Char :=
  ((scalars name).takeWhile (· ≠ '#')).takeWhile (· ≠ '?')

private theorem sentPath_eq (name : JsString) :
    sentPath e (js "/api/tags/" ++ name) = tagsPath ++ e.escape (sentName name) := by
  have hprefix : js "/api/tags/" = utf16s tagsPath := rfl
  have hescape : e.escape tagsPath = tagsPath := by
    apply e.escape_of_legal
    intro c hc
    apply e.legal_of_delimiter
    revert c
    rw [← List.all_iff_forall_prop]
    decide
  rw [sentPath, hprefix, scalars_utf16s_append, takeWhile_ne (by decide), takeWhile_ne (by decide),
    e.escape_append, hescape, sentName]

/-- The route on a path that has the prefix. -/
private theorem route_tagsPath (rest : List Char) : route (tagsPath ++ rest) =
    if rest.takeWhile (· ≠ '/') ≠ [] ∧
        (rest = rest.takeWhile (· ≠ '/') ∨ rest = rest.takeWhile (· ≠ '/') ++ ['/']) then
      match decodeURIComponent (utf16s (rest.takeWhile (· ≠ '/'))) with
      | some artist => .tags artist
      | none => .badRequest
    else .unmatched := by
  rw [route, if_pos (List.prefix_append _ _), List.drop_left]

/-- The name that the handler sees is decoded from the segment. -/
private theorem decode_of_tagRequest {artist : JsString} (h : tagRequest e name = .tags artist) :
    (sentName name).takeWhile (· ≠ '/') ≠ [] ∧
      decodeURIComponent (utf16s (e.escape ((sentName name).takeWhile (· ≠ '/')))) =
        some artist := by
  rw [tagRequest, sentPath_eq, route_tagsPath,
    e.takeWhile_escape (e.legal_of_delimiter _ (by decide)) (by decide)] at h
  split at h
  · next hseg =>
    refine ⟨?_, ?_⟩
    · intro hnil
      rw [hnil] at hseg
      exact hseg.1 rfl
    · split at h
      · next hd =>
        cases h
        exact hd
      · cases h
  · cases h

/-- The segment is a beginning of the name, without the characters at which it is cut. -/
private theorem prefix_of_segment (name : JsString) :
    (sentName name).takeWhile (· ≠ '/') <+: scalars name ∧
      ∀ c ∈ (sentName name).takeWhile (· ≠ '/'), c ∉ ['#', '?', '/'] := by
  have hslash := List.takeWhile_prefix (l := sentName name) (· ≠ '/')
  have hquery := List.takeWhile_prefix (l := (scalars name).takeWhile (· ≠ '#')) (· ≠ '?')
  refine ⟨hslash.trans (hquery.trans (List.takeWhile_prefix _)), ?_⟩
  intro c hc
  have h₁ := List.mem_takeWhile_imp hc
  have h₂ := List.mem_takeWhile_imp (hslash.subset hc)
  have h₃ := List.mem_takeWhile_imp (hquery.subset (hslash.subset hc))
  rw [decide_eq_true_iff] at h₁ h₂ h₃
  simp [h₁, h₂, h₃]

/-- The name that the handler sees is well formed. -/
private theorem wellFormed_of_tagRequest {artist : JsString}
    (h : tagRequest e name = .tags artist) : WellFormedText artist := by
  apply wellFormed_decoded (decode_eq_some_iff.mp (decode_of_tagRequest e h).2)
  apply ascii_escapeText
  intro c _ hc
  by_contra hn
  rw [e.illegal_of_not_ascii c hn] at hc
  cases hc

/-- A name that the handler sees as it is was sent as a whole, without percent signs. -/
private theorem segment_eq_of_tagRequest (h : tagRequest e name = .tags name) :
    (sentName name).takeWhile (· ≠ '/') = scalars name ∧ '%' ∉ scalars name := by
  have hwf := wellFormed_of_tagRequest e h
  obtain ⟨rest, hrest⟩ := (prefix_of_segment name).1
  have hpercent : (!e.illegal '%') = true := by
    rw [e.legal_of_delimiter '%' (by decide)]
    rfl
  have hcount := octetCount_decode_escapeText hpercent (decode_of_tagRequest e h).2
  have hname : octetCount name = (utf8s (scalars name)).length := by
    rw [← octetCount_utf16s, hwf]
  rw [hname, ← hrest, octetCount_utf16s, utf8s, List.flatMap_append, List.length_append,
    ← utf8s, ← utf8s] at hcount
  have hnil : rest = [] := by
    cases rest with
    | nil => rfl
    | cons c rest =>
      have hpos := c.utf8Size_pos
      rw [utf8s_cons, List.length_append, String.length_utf8EncodeChar] at hcount
      omega
  rw [hnil, List.append_nil] at hrest
  refine ⟨hrest, ?_⟩
  rw [← hrest, ← List.count_eq_zero]
  omega

/-- A name without the characters at which URLs are cut, and without percent signs, arrives. -/
private theorem tagRequest_of_plain {s : JsString} (hne : s ≠ []) (hwf : WellFormedText s)
    (hs : ∀ c ∈ scalars s, c ∉ ['#', '?', '/', '%']) : tagRequest e s = .tags s := by
  have hcut : ∀ d ∈ ['#', '?', '/', '%'], (scalars s).takeWhile (· ≠ d) = scalars s := by
    intro d hd
    exact takeWhile_of_not_mem fun hmem ↦ hs d hmem hd
  have hsent : sentName s = scalars s := by
    rw [sentName, hcut _ (by decide), hcut _ (by decide)]
  have hslash : (e.escape (scalars s)).takeWhile (· ≠ '/') = e.escape (scalars s) := by
    rw [e.takeWhile_escape (e.legal_of_delimiter _ (by decide)) (by decide), hcut _ (by decide)]
  have hdecode : decodeURIComponent (utf16s (e.escape (scalars s))) = some s := by
    have hd : Decoded (fun _ ↦ false) (utf16s (e.escape (scalars s))) (utf16s (scalars s)) :=
      decoded_escapeText (fun c hc _ hp ↦ hs c hc (by simp [hp])) (fun _ _ _ ↦ rfl)
    rw [hwf] at hd
    exact decode_eq_some_iff.mpr hd
  have hsegment : e.escape (scalars s) ≠ [] := by
    intro hnil
    rw [hnil] at hdecode
    cases hdecode
    exact hne rfl
  rw [tagRequest, sentPath_eq, route_tagsPath, hsent, hslash, if_pos ⟨hsegment, .inl rfl⟩,
    hdecode]

/-- The handler sees a name as it is exactly when the name is not empty, is well formed, and has no
number sign, question mark, slash or percent sign. -/
theorem tagRequest_eq_iff (s : JsString) :
    tagRequest e s = .tags s ↔
      s ≠ [] ∧ WellFormedText s ∧ ∀ c ∈ scalars s, c ∉ ['#', '?', '/', '%'] := by
  constructor
  · intro h
    obtain ⟨hseg, hpercent⟩ := segment_eq_of_tagRequest e h
    have hcut := (prefix_of_segment s).2
    have hne := (decode_of_tagRequest e h).1
    rw [hseg] at hcut hne
    refine ⟨?_, wellFormed_of_tagRequest e h, ?_⟩
    · rintro rfl
      exact hne rfl
    · intro c hc hmem
      have hlast : c ∈ ['#', '?', '/'] ∨ c ∈ ['%'] := by
        rw [← List.mem_append]
        exact hmem
      rcases hlast with hlast | hlast
      · exact hcut c hc hlast
      · rw [List.mem_singleton] at hlast
        exact hpercent (hlast ▸ hc)
  · rintro ⟨hne, hwf, hs⟩
    exact tagRequest_of_plain e hne hwf hs

/-- A name with a slash is matched by no route. -/
theorem slash_not_matched : js "AC/DC" ≠ [] ∧
    tagRequest browserPath (js "AC/DC") ≠ .tags (js "AC/DC") := by
  decide +kernel

end MusicComparer.Client
