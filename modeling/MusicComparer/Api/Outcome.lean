import MusicComparer.Api.Search2
import MusicComparer.Js.RoundTrip

/-!
# How a search is answered

One equation for each route through the chain of `POST /search2` gives its effects in terms of
the four call outcomes. From these, the exact condition under which a request is answered once:
the two rejection handlers and the unawaited Last.fm promise leave routes with no response, and
the `ENOTFOUND` report is followed by a second one.
-/

namespace MusicComparer.Api

open MusicComparer.Js MusicComparer.Upstream

variable {ν : Type} [JsNumber ν] (lower : JsString → JsString) (keys : ApiKeys)
  (request : Request ν)

/-- The text found in the cache: a `GET` that answered a nonempty string. -/
def cachedText (reply : Except (JsError ν) (Option JsString)) : Option JsString :=
  match reply with
  | .ok (some d) => if d.isEmpty then none else some d
  | _ => none

/-- How the first stage settles when nothing is cached: the error of the `GET`, or the outcome of
the Spotify lookup. -/
def spotifyOutcome (query : JsString) (reply : Except (JsError ν) (Option JsString)) :
    Except (JsError ν) JsString :=
  match reply with
  | .error e => .error e
  | .ok _ => Spotify.getDetailsWithoutArtistBefore keys request query

/-- The response recorded for `retrieved_data`; the block is queued only by a first response. -/
def Effects.record (s : Effects ν) (r : Retrieved ν) : Effects ν :=
  { s with
    responses := s.responses ++ [⟨s.status, dataBody r.toJson⟩]
    ticks := if s.responses.isEmpty then s.ticks ++ [r] else s.ticks }

/-- The entries that a fetch ends with, when all its values arrive and parse. -/
def Fetched.result (f : Fetched ν) : Option (Retrieved ν) :=
  match entryValue f.spotifyState f.spotifyBody, f.lastfm with
  | .ok v₀, .ok body =>
    match entryValue f.lastfmState body with
    | .ok v₁ => some ⟨⟨f.spotifyState, v₀⟩, ⟨f.lastfmState, v₁⟩⟩
    | .error _ => none
  | _, _ => none

/-- The report of a failed lookup, `api.js:89–92`. -/
def Effects.report (s : Effects ν) (e : JsError ν) : Effects ν :=
  if e.code.isString (js "ENOTFOUND") then
    { s with status := 500, responses := s.responses ++ [⟨500, .obj e.fields⟩] }
  else s

omit [JsNumber ν] in
private theorem effects_last (p : Handler ν Unit) (s : Effects ν) :
    Chain.effects (Chain.andThen p pure fun _ ↦ throw .typeError) s = Chain.effects p s := by
  unfold Chain.effects Chain.andThen
  cases p s <;> rfl

/-- The last stage on a fetch records its result, or does nothing. -/
theorem effects_onRetrieved (f : Fetched ν) (s : Effects ν) :
    Chain.effects (onRetrieved (none, some f)) s =
      match f.result with
      | some r => s.record r
      | none => s := by
  have hstate : f.spotifyState.text.isEmpty = false := by cases f.spotifyState <;> decide
  rw [onRetrieved, Fetched.result]
  simp only [CachedData.length, Option.getD_none, List.length_nil, ne_eq, not_true_eq_false,
    if_false, hstate, Bool.false_eq_true]
  cases (entryValue f.spotifyState f.spotifyBody : Except (JsError ν) (Json ν)) with
  | error e => rfl
  | ok v₀ =>
    cases f.lastfm with
    | error e => rfl
    | ok body =>
      simp only [Chain.settled_ok, pure_bind, onLastfm]
      cases (entryValue f.lastfmState body : Except (JsError ν) (Json ν)) with
      | error e => rfl
      | ok v₁ =>
        obtain ⟨status, responses, ticks⟩ := s
        cases responses <;> rfl

/-- A hit is answered from the cache when the cached text parses, and not at all otherwise. -/
theorem effects_of_cached {query : JsString} {reply : Except (JsError ν) (Option JsString)}
    {d : JsString} (h : cachedText reply = some d) (s : Effects ν) :
    Chain.effects (chain keys request query reply) s =
      match Json.parse d with
      | some j => { s with responses := s.responses ++ [⟨s.status, dataBody j⟩] }
      | none => s := by
  obtain ⟨rfl, hd⟩ : reply = .ok (some d) ∧ d.isEmpty = false := by
    unfold cachedText at h
    split at h
    · split at h
      · cases h
      · next hd =>
        cases h
        exact ⟨rfl, by simpa using hd⟩
    · cases h
  have hlen : ¬ d.length = 0 := by
    rw [List.isEmpty_eq_false_iff] at hd
    simpa using hd
  rw [chain, effects_last]
  simp only [Chain.settled_ok, pure_bind, onReply, Option.getD_some, hd, Bool.not_false, if_true,
    all, Chain.andThen_pure, onSpotify, CachedData.ne, onRetrieved, CachedData.length, ne_eq, hlen,
    not_false_eq_true, Json.parseOrThrow]
  cases (Json.parse d : Option (Json ν)) with
  | none => rfl
  | some j =>
    obtain ⟨status, responses, ticks⟩ := s
    cases responses <;> rfl


private theorem cached_none {query : JsString} {reply : Except (JsError ν) (Option JsString)}
    (h : cachedText reply = none) :
    (do
      let data ← Chain.settled reply
      all (onReply keys request query data) : Handler ν (CachedData × Option JsString)) =
    (do
      let body ← Chain.settled (spotifyOutcome keys request query reply)
      pure (none, some body)) := by
  unfold cachedText at h
  match reply, h with
  | .error e, _ => rfl
  | .ok none, _ => rfl
  | .ok (some d), h =>
    have hd : d.isEmpty = true := by
      cases hd : d.isEmpty with
      | true => rfl
      | false => simp [hd] at h
    simp only [Chain.settled_ok, pure_bind, onReply, Option.getD_some, hd, Bool.not_true,
      Bool.false_eq_true, if_false, all, spotifyOutcome]

/-- A miss on which Spotify answered: its body has to parse to something with properties, and
then the Last.fm promise decides. -/
theorem effects_of_found {query : JsString} {reply : Except (JsError ν) (Option JsString)}
    {body : JsString} (h : cachedText reply = none)
    (hs : spotifyOutcome keys request query reply = .ok body) (s : Effects ν) :
    Chain.effects (chain keys request query reply) s =
      match Json.parse body with
      | some v =>
        if Val.readable (some v) then
          Chain.effects (onRetrieved (none, some ⟨.fulfilled, body, .fulfilled,
            LastFM.getInfo keys request (Val.member (some v) (js "name"))⟩)) s
        else s
      | none => s := by
  rw [chain, effects_last, cached_none keys request h, hs]
  simp only [Chain.settled_ok, pure_bind, Chain.andThen_pure, onSpotify, CachedData.ne,
    Option.getD_none, List.isEmpty_nil, Bool.not_true, Bool.false_eq_true, if_false,
    Option.getD_some, Json.parseOrThrow]
  cases (Json.parse body : Option (Json ν)) with
  | none => rfl
  | some v =>
    simp only [Chain.settled_ok, pure_bind, Val.get_eq]
    cases Val.readable (some v) <;> rfl

/-- A miss on which the lookup failed: the error may be reported, and the Last.fm promise for the
query itself decides. -/
theorem effects_of_failed {query : JsString} {reply : Except (JsError ν) (Option JsString)}
    {e : JsError ν} (h : cachedText reply = none)
    (hs : spotifyOutcome keys request query reply = .error e) :
    Chain.effects (chain keys request query reply) Effects.start =
      Chain.effects (onRetrieved (none, some ⟨.rejected, [], .fulfilled,
        LastFM.getInfo keys request (some (.str query))⟩)) (Effects.start.report e) := by
  rw [chain, effects_last, cached_none keys request h, hs]
  change Chain.effects (Chain.andThen (onRejected keys request query e) onRetrieved
    fun _ ↦ pure ()) _ = _
  unfold onRejected Effects.report
  split <;> rfl

/-- Entries as a fresh answer can contain them: a parsed Spotify value that has properties, or the
empty string of the rejected branch; and a parsed Last.fm value. -/
structure Retrieved.Parsed (r : Retrieved ν) : Prop where
  spotify : (r.spotify.state = .fulfilled ∧ Val.readable (some r.spotify.value) = true ∧
      ∃ body, Json.parse body = some r.spotify.value) ∨
    r.spotify = ⟨.rejected, .str []⟩
  lastfm : r.lastfm.state = .fulfilled ∧ ∃ body, Json.parse body = some r.lastfm.value

/-- The JSON array of parsed entries is well formed. -/
theorem Retrieved.Parsed.wf {r : Retrieved ν} (h : r.Parsed) : r.toJson.WF := by
  have hentry : ∀ e : Entry ν, e.value.WF → e.toJson.WF := by
    intro e he
    have horder : KeyBefore (js "state") (js "value") := ⟨by decide, by decide⟩
    apply Json.WF.obj
    · simpa using horder
    · simpa using ⟨Json.WF.str _, he⟩
  have hs : r.spotify.value.WF := by
    rcases h.spotify with ⟨-, -, body, hb⟩ | he
    · exact Json.wf_of_parse hb
    · rw [he]
      exact Json.WF.str []
  obtain ⟨-, body, hb⟩ := h.lastfm
  apply Json.WF.arr
  simpa using ⟨hentry _ hs, hentry _ (Json.wf_of_parse hb)⟩

omit [JsNumber ν] in
/-- A body around well-formed data is well formed. -/
theorem wf_dataBody {j : Json ν} (h : j.WF) : (dataBody j).WF := by
  apply Json.WF.obj
  · simp
  · simpa using h

/-- Everything a search can have done when it is over. -/
inductive Outcome (reply : Except (JsError ν) (Option JsString)) : Effects ν → Prop where
  | cached (d : JsString) (j : Json ν) (hc : cachedText reply = some d)
      (hp : Json.parse d = some j) : Outcome reply ⟨200, [⟨200, dataBody j⟩], []⟩
  | fresh (r : Retrieved ν) (hc : cachedText reply = none) (hr : r.Parsed) :
      Outcome reply ⟨200, [⟨200, dataBody r.toJson⟩], [r]⟩
  | reported (rs : List (Response ν)) (hrs : ∀ x ∈ rs, x.status = 500) : Outcome reply ⟨500, rs, []⟩
  | silent : Outcome reply ⟨200, [], []⟩

private theorem parseOrThrow_ok {body : JsString} {v : Json ν}
    (h : Json.parseOrThrow body = .ok v) : Json.parse body = some v := by
  unfold Json.parseOrThrow at h
  split at h
  · next j hj =>
    cases h
    exact hj
  · cases h

/-- A result of a fetch has the states of the fetch, and values parsed where these are
fulfilled. -/
private theorem result_eq_some {f : Fetched ν} {r : Retrieved ν} (h : f.result = some r) :
    r.spotify.state = f.spotifyState ∧ r.lastfm.state = f.lastfmState ∧
      entryValue f.spotifyState f.spotifyBody = .ok r.spotify.value ∧
      ∃ body, entryValue f.lastfmState body = .ok r.lastfm.value := by
  unfold Fetched.result at h
  split at h
  · next v₀ body h₀ _ =>
    split at h
    · next v₁ h₁ =>
      cases h
      exact ⟨rfl, rfl, h₀, body, h₁⟩
    · cases h
  · cases h

private theorem parsed_of_fulfilled {body : JsString} {p : Except (JsError ν) JsString}
    {v : Json ν} {r : Retrieved ν} (hv : Json.parse body = some v)
    (hr : Val.readable (some v) = true)
    (h : Fetched.result ⟨.fulfilled, body, .fulfilled, p⟩ = some r) : r.Parsed := by
  obtain ⟨hs, hl, h₀, b, h₁⟩ := result_eq_some h
  have h₀ := parseOrThrow_ok h₀
  rw [hv, Option.some_inj] at h₀
  subst h₀
  exact ⟨Or.inl ⟨hs, hr, body, hv⟩, hl, b, parseOrThrow_ok h₁⟩

private theorem parsed_of_rejected {p : Except (JsError ν) JsString} {r : Retrieved ν}
    (h : Fetched.result ⟨.rejected, [], .fulfilled, p⟩ = some r) : r.Parsed := by
  obtain ⟨hs, hl, h₀, b, h₁⟩ := result_eq_some h
  obtain ⟨⟨state, value⟩, lastfm⟩ := r
  cases h₀
  cases hs
  exact ⟨Or.inr rfl, hl, b, parseOrThrow_ok h₁⟩

/-- Every search ends in one of the four outcomes. -/
theorem search2_outcome (query : JsString) (reply : Except (JsError ν) (Option JsString)) :
    Outcome reply (Chain.effects (search2 lower keys request query reply) Effects.start) := by
  rw [search2]
  split
  · exact .silent
  cases hc : cachedText reply with
  | some d =>
    rw [effects_of_cached keys request hc]
    cases hp : (Json.parse d : Option (Json ν)) with
    | none => exact .silent
    | some j => exact .cached d j hc hp
  | none =>
    cases hs : spotifyOutcome keys request (queryString lower query) reply with
    | ok body =>
      rw [effects_of_found keys request hc hs]
      cases hp : (Json.parse body : Option (Json ν)) with
      | none => exact .silent
      | some v =>
        simp only
        split
        · next hr =>
          rw [effects_onRetrieved]
          split
          · next r hres => exact .fresh r hc (parsed_of_fulfilled hp hr hres)
          · exact .silent
        · exact .silent
    | error e =>
      rw [effects_of_failed keys request hc hs, effects_onRetrieved]
      by_cases he : e.code.isString (js "ENOTFOUND") = true
      · simp only [Effects.report, he, if_true]
        split
        · apply Outcome.reported
          simp [Effects.start]
        · apply Outcome.reported
          simp [Effects.start]
      · simp only [Effects.report, he, Bool.false_eq_true, if_false]
        split
        · next r hres => exact .fresh r hc (parsed_of_rejected hres)
        · exact .silent

/-- Last.fm answers for this name, and with JSON. -/
def lastfmAnswers (name : Val ν) : Bool :=
  match LastFM.getInfo keys request name with
  | .ok body => (Json.parse body : Option (Json ν)).isSome
  | .error _ => false

/-- The outcomes on which one response is issued: a hit that parses; a Spotify answer that parses
to a value with properties, followed by a Last.fm answer; or a failed lookup that either is
reported as `ENOTFOUND` or is followed by a Last.fm answer, but not both. -/
def answeredOnce (query : JsString) (reply : Except (JsError ν) (Option JsString)) : Bool :=
  match cachedText reply with
  | some d => (Json.parse d : Option (Json ν)).isSome
  | none =>
    match spotifyOutcome keys request query reply with
    | .ok body =>
      match (Json.parse body : Option (Json ν)) with
      | some v => Val.readable (some v) &&
          lastfmAnswers keys request (Val.member (some v) (js "name"))
      | none => false
    | .error e =>
      e.code.isString (js "ENOTFOUND") != lastfmAnswers keys request (some (.str query))

private theorem result_isSome_of_fulfilled {body : JsString} {v : Json ν}
    (h : Json.parse body = some v) (name : Val ν) :
    (Fetched.result ⟨.fulfilled, body, .fulfilled, LastFM.getInfo keys request name⟩).isSome =
      lastfmAnswers keys request name := by
  simp only [Fetched.result, entryValue, if_true, Json.parseOrThrow, h, lastfmAnswers]
  cases LastFM.getInfo keys request name with
  | error e => rfl
  | ok b =>
    simp only
    cases (Json.parse b : Option (Json ν)) <;> rfl

private theorem result_isSome_of_rejected (name : Val ν) :
    (Fetched.result ⟨.rejected, [], .fulfilled, LastFM.getInfo keys request name⟩).isSome =
      lastfmAnswers keys request name := by
  simp only [Fetched.result, entryValue, if_true, Json.parseOrThrow, lastfmAnswers, reduceCtorEq,
    if_false]
  cases LastFM.getInfo keys request name with
  | error e => rfl
  | ok b =>
    simp only
    cases (Json.parse b : Option (Json ν)) <;> rfl

/-- The last stage on a fetch issues one response exactly when the fetch has a result. -/
private theorem responses_onRetrieved (f : Fetched ν) (s : Effects ν) :
    (Chain.effects (onRetrieved (none, some f)) s).responses.length =
      s.responses.length + f.result.isSome.toNat := by
  rw [effects_onRetrieved]
  cases f.result with
  | none => rfl
  | some r => simp [Effects.record]

omit [JsNumber ν] in
private theorem responses_report (e : JsError ν) :
    ((Effects.start : Effects ν).report e).responses.length =
      (e.code.isString (js "ENOTFOUND")).toNat := by
  unfold Effects.report
  split
  · next h => simp [h, Effects.start]
  · next h => simp [h, Effects.start]

/-- A nonblank search is answered exactly once if and only if its outcomes are among
`answeredOnce`. -/
theorem search2_answered_once_iff (query : JsString)
    (reply : Except (JsError ν) (Option JsString)) (hq : queryString lower query ≠ []) :
    (Chain.effects (search2 lower keys request query reply) Effects.start).responses.length = 1 ↔
      answeredOnce keys request (queryString lower query) reply = true := by
  rw [search2, if_neg hq, answeredOnce]
  cases hc : cachedText reply with
  | some d =>
    simp only [effects_of_cached keys request hc]
    cases (Json.parse d : Option (Json ν)) <;> simp [Effects.start]
  | none =>
    cases hs : spotifyOutcome keys request (queryString lower query) reply with
    | ok body =>
      simp only [effects_of_found keys request hc hs]
      cases hp : (Json.parse body : Option (Json ν)) with
      | none => simp [Effects.start]
      | some v =>
        by_cases hr : Val.readable (some v) = true
        · simp only [hr, if_true, responses_onRetrieved,
            result_isSome_of_fulfilled keys request hp, Bool.true_and]
          cases lastfmAnswers keys request (Val.member (some v) (js "name")) <;>
            simp [Effects.start]
        · simp [hr, Effects.start]
    | error e =>
      simp only [effects_of_failed keys request hc hs, responses_onRetrieved, responses_report,
        result_isSome_of_rejected]
      cases e.code.isString (js "ENOTFOUND") <;>
        cases lastfmAnswers keys request (some (.str (queryString lower query))) <;> simp

/-- A hit with a JSON text is answered once. -/
theorem search2_answered_once_hit :
    queryString LowerCase.ascii.lower (js "Cher") ≠ [] ∧
    (Chain.effects (search2 LowerCase.ascii.lower ⟨[], []⟩ (fun _ ↦ .error .typeError) (js "Cher")
      (.ok (some (js "[1,2]"))) : Handler Whole Unit) Effects.start).responses.length = 1 :=
  ⟨by decide +kernel, (search2_answered_once_iff LowerCase.ascii.lower ⟨[], []⟩
    (fun _ ↦ .error .typeError) (js "Cher") (.ok (some (js "[1,2]"))) (by decide +kernel)).mpr
    (by decide +kernel)⟩

/-- Spotify cannot be resolved while Last.fm answers. -/
def spotifyDown : Request Whole := fun url ↦
  if js "https:" <+: url then
    .error (.system (js "getaddrinfo ENOTFOUND") [(js "code", .str (js "ENOTFOUND"))])
  else .ok (js "\x7b\"artist\":\x7b\"name\":\"Cher\"\x7d\x7d")

/-- Every service answers with an HTML page. -/
def htmlPages : Request Whole := fun url ↦
  if js "https://api.spotify.com/v1/search" <+: url then
    .ok (js "\x7b\"artists\":\x7b\"items\":[\x7b\"id\":\"7\"\x7d]\x7d\x7d")
  else .ok (js "<html>")

/-- With Spotify unresolvable a search is answered twice, and with HTML from the details call it
is not answered at all. -/
theorem search2_answered_twice_or_never :
    queryString LowerCase.ascii.lower (js " Cher ") ≠ [] ∧
    (Chain.effects (search2 LowerCase.ascii.lower ⟨[], []⟩ spotifyDown (js " Cher ") (.ok none))
      Effects.start).responses.length = 2 ∧
    (Chain.effects (search2 LowerCase.ascii.lower ⟨[], []⟩ htmlPages (js " Cher ") (.ok none))
      Effects.start).responses.length = 0 := by
  decide +kernel

end MusicComparer.Api
