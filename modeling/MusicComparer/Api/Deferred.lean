import MusicComparer.Api.Outcome

/-!
# The block after a fresh answer

`application/application/routes/api.js:102–104,128–144`. After the first fresh response the
handler leaves a block on the `process.nextTick` queue: cache write, expiry, `latestsearches`,
`highpf`. It runs outside the promise chain, and only its last part is inside a `try`, so what
escapes before it ends the process.
-/

namespace MusicComparer.Api

open MusicComparer.Js MusicComparer.Upstream MusicComparer.Redis

variable {ν : Type} [JsNumber ν] (lower : JsString → JsString) (keys : ApiKeys)
  (request : Request ν)

/-- A block on the redis commands it issues. -/
abbrev Block (ν : Type) := EStateM (JsError ν) (List (Command ν))

/-- Issue a command on the connection. -/
def issue (c : Command ν) : Block ν Unit := fun cs ↦ .ok () (cs ++ [c])

/-- `getName`, `api.js:102–104`. -/
def getName (r : Retrieved ν) : Except (JsError ν) (Val ν) := do
  let name ← Val.get (some r.spotify.value) (js "name")
  if name.truthy then return name
  let artist ← Val.get (some r.lastfm.value) (js "artist")
  artist.get (js "name")

/-- `retrieved_data[1].value.artist.stats.playcount`. -/
def playcount (r : Retrieved ν) : Except (JsError ν) (Val ν) := do
  let artist ← Val.get (some r.lastfm.value) (js "artist")
  let stats ← artist.get (js "stats")
  stats.get (js "playcount")

/-- `retrieved_data[0].value.followers.total`. -/
def followersTotal (r : Retrieved ν) : Except (JsError ν) (Val ν) := do
  let followers ← Val.get (some r.spotify.value) (js "followers")
  followers.get (js "total")

/-- The quotient of `api.js:134`. -/
def playcountPerFollower (r : Retrieved ν) : Except (JsError ν) ν := do
  let p ← playcount r
  let p ← p.toNumber
  let t ← followersTotal r
  let t ← t.toNumber
  pure (JsNumber.div p t)

/-- The body of the `try`, `api.js:134–137`. -/
def rankHighpf (r : Retrieved ν) : Block ν Unit := do
  let x ← Chain.settled (playcountPerFollower r)
  if JsNumber.gt x (JsNumber.ofNat 60) then
    let total ← Chain.settled (followersTotal r)
    let total ← Chain.settled total.toNumber
    if JsNumber.gt total (JsNumber.ofNat 10000) then
      issue (.zadd (js "highpf") x r.toJson.stringify)

/-- The `catch` of `api.js:138–143`: only a `TypeError` is swallowed. -/
def catchTypeError (b : Block ν Unit) : Block ν Unit := fun cs ↦
  match b cs with
  | .error .typeError cs' => .ok () cs'
  | res => res

/-- The block of `api.js:128–144`. The client turns the pushed name into a string. -/
def deferred (query : JsString) (r : Retrieved ν) : Block ν Unit := do
  issue (.set (artistKey query) r.toJson.stringify)
  issue (.expire (artistKey query) 10000)
  let name ← Chain.settled (getName r)
  let text ← Chain.settled name.toText
  issue (.rpush (js "latestsearches") text)
  catchTypeError (rankHighpf r)

/-- The commands that the block issues before it ends. -/
def commands (query : JsString) (r : Retrieved ν) : List (Command ν) :=
  Chain.effects (deferred query r) []

/-- The exception that escapes the block. -/
def uncaught (query : JsString) (r : Retrieved ν) : Option (JsError ν) :=
  match deferred query r [] with
  | .ok _ _ => none
  | .error e _ => some e

/-- The name that `latestsearches` is given exists and is a string or becomes one: Spotify's when
it is truthy, else that of the `artist` of the Last.fm value. -/
def hasName (r : Retrieved ν) : Bool :=
  let name := Val.member (some r.spotify.value) (js "name")
  let artist := Val.member (some r.lastfm.value) (js "artist")
  if name.truthy then name.toText.isOk
  else artist.readable && (artist.member (js "name")).toText.isOk

private theorem throwsTypeError_followersTotal (r : Retrieved ν) :
    ThrowsTypeError (followersTotal r) :=
  .bind (Val.throwsTypeError_get _ _) fun _ ↦ Val.throwsTypeError_get _ _

private theorem throwsTypeError_playcountPerFollower (r : Retrieved ν) :
    ThrowsTypeError (playcountPerFollower r) := by
  have hp : ThrowsTypeError (playcount r) :=
    .bind (Val.throwsTypeError_get _ _) fun _ ↦
      .bind (Val.throwsTypeError_get _ _) fun _ ↦ Val.throwsTypeError_get _ _
  exact .bind hp fun p ↦ .bind p.throwsTypeError_toNumber fun _ ↦
    .bind (throwsTypeError_followersTotal r) fun t ↦ .bind t.throwsTypeError_toNumber fun _ ↦ .ok _

/-- A `highpf` insertion, or nothing. -/
private def Ranks (r : Retrieved ν) (extra : List (Command ν)) : Prop :=
  extra = [] ∨ ∃ x, extra = [.zadd (js "highpf") x r.toJson.stringify]

private theorem rankHighpf_cases (r : Retrieved ν) (cs : List (Command ν)) :
    rankHighpf r cs = .error .typeError cs ∨
      ∃ extra, Ranks r extra ∧ rankHighpf r cs = .ok () (cs ++ extra) := by
  have hnone : ∃ extra, Ranks r extra ∧
      (EStateM.Result.ok () cs : EStateM.Result (JsError ν) _ _) = .ok () (cs ++ extra) :=
    ⟨[], Or.inl rfl, by rw [List.append_nil]⟩
  unfold rankHighpf
  cases hx : playcountPerFollower r with
  | error e =>
    obtain rfl := throwsTypeError_playcountPerFollower r e hx
    exact Or.inl rfl
  | ok x =>
    simp only [Chain.settled_ok, pure_bind]
    split
    · cases ht : followersTotal r with
      | error e =>
        obtain rfl := throwsTypeError_followersTotal r e ht
        exact Or.inl rfl
      | ok total =>
        simp only [Chain.settled_ok, pure_bind]
        cases hn : total.toNumber with
        | error e =>
          obtain rfl := total.throwsTypeError_toNumber e hn
          exact Or.inl rfl
        | ok t =>
          simp only [Chain.settled_ok, pure_bind]
          split
          · exact Or.inr ⟨_, Or.inr ⟨x, rfl⟩, rfl⟩
          · exact Or.inr hnone
    · exact Or.inr hnone

private theorem catchTypeError_rankHighpf (r : Retrieved ν) (cs : List (Command ν)) :
    ∃ extra, Ranks r extra ∧ catchTypeError (rankHighpf r) cs = .ok () (cs ++ extra) := by
  unfold catchTypeError
  rcases rankHighpf_cases r cs with h | ⟨extra, hr, h⟩
  · exact ⟨[], Or.inl rfl, by rw [h, List.append_nil]⟩
  · exact ⟨extra, hr, by rw [h]⟩

/-- The two cache commands come first, whatever happens later. -/
private def cacheCommands (query : JsString) (r : Retrieved ν) : List (Command ν) :=
  [.set (artistKey query) r.toJson.stringify, .expire (artistKey query) 10000]

/-- How the block ends: with a name, after pushing it and perhaps a `highpf` insertion; without
one, in a thrown error after the two cache commands. -/
private theorem deferred_spec (query : JsString) (r : Retrieved ν) :
    (∃ text extra, (getName r >>= Val.toText) = .ok text ∧
      Ranks r extra ∧
      deferred query r [] =
        .ok () (cacheCommands query r ++ .rpush (js "latestsearches") text :: extra)) ∨
    (∃ e, (getName r >>= Val.toText) = .error e ∧
      deferred query r [] = .error e (cacheCommands query r)) := by
  cases hn : getName r with
  | error e =>
    right
    refine ⟨e, rfl, ?_⟩
    simp only [deferred, hn]
    rfl
  | ok name =>
    cases ht : name.toText with
    | error e =>
      right
      refine ⟨e, ht, ?_⟩
      simp only [deferred, hn, Chain.settled_ok, pure_bind, ht]
      rfl
    | ok text =>
      left
      obtain ⟨extra, hextra, he⟩ :=
        catchTypeError_rankHighpf r (cacheCommands query r ++ [.rpush (js "latestsearches") text])
      refine ⟨text, extra, ht, hextra, ?_⟩
      rw [List.append_assoc] at he
      simp only [deferred, hn, Chain.settled_ok, pure_bind, ht]
      exact he

/-- The commands of the block in order: the two cache commands, then only insertions. -/
theorem commands_eq (query : JsString) (r : Retrieved ν) : ∃ rest, commands query r =
    .set (artistKey query) r.toJson.stringify :: .expire (artistKey query) 10000 :: rest ∧
      ∀ c ∈ rest, (∃ v, c = .rpush (js "latestsearches") v) ∨
        ∃ x m, c = .zadd (js "highpf") x m := by
  unfold commands Chain.effects
  rcases deferred_spec query r with ⟨text, extra, -, hextra, hd⟩ | ⟨e, -, hd⟩
  · rw [hd]
    refine ⟨.rpush (js "latestsearches") text :: extra, rfl, ?_⟩
    intro c hc
    rcases List.mem_cons.mp hc with rfl | hc
    · exact Or.inl ⟨text, rfl⟩
    · rcases hextra with rfl | ⟨x, rfl⟩
      · cases hc
      · rw [List.mem_singleton] at hc
        exact Or.inr ⟨x, _, hc⟩
  · rw [hd]
    exact ⟨[], rfl, by simp⟩

/-- The commands of the block. -/
theorem mem_commands {query : JsString} {r : Retrieved ν} {c : Command ν}
    (h : c ∈ commands query r) :
    c = .set (artistKey query) r.toJson.stringify ∨ c = .expire (artistKey query) 10000 ∨
      (∃ text, c = .rpush (js "latestsearches") text) ∨
      ∃ x, c = .zadd (js "highpf") x r.toJson.stringify := by
  unfold commands Chain.effects at h
  rcases deferred_spec query r with ⟨text, extra, -, hextra, hd⟩ | ⟨e, -, hd⟩
  · rw [hd] at h
    simp only [cacheCommands, List.cons_append, List.nil_append, List.mem_cons] at h
    rcases h with h | h | h | h
    · exact Or.inl h
    · exact Or.inr (Or.inl h)
    · exact Or.inr (Or.inr (Or.inl ⟨text, h⟩))
    · rcases hextra with rfl | ⟨x, rfl⟩
      · cases h
      · exact Or.inr (Or.inr (Or.inr ⟨x, by simpa using h⟩))
  · rw [hd] at h
    simp only [cacheCommands, List.mem_cons, List.not_mem_nil, or_false] at h
    exact h.imp_right Or.inl

/-- The text that the block pushes; `none` when reading or converting the name throws. -/
def pushedName (r : Retrieved ν) : Option JsString := (getName r >>= Val.toText).toOption

/-- The score under which the block ranks an answer, `api.js:134–135`. -/
def highpfScore (r : Retrieved ν) : Option ν :=
  match playcountPerFollower r, followersTotal r >>= Val.toNumber with
  | .ok x, .ok total =>
    if JsNumber.gt x (JsNumber.ofNat 60) && JsNumber.gt total (JsNumber.ofNat 10000) then some x
    else none
  | _, _ => none

/-- The `highpf` insertions for a score. -/
private def ranking (r : Retrieved ν) (score : Option ν) : List (Command ν) :=
  score.toList.map fun x ↦ .zadd (js "highpf") x r.toJson.stringify

private theorem rankHighpf_eq (r : Retrieved ν) (cs : List (Command ν)) :
    rankHighpf r cs = .error .typeError cs ∧ highpfScore r = none ∨
      rankHighpf r cs = .ok () (cs ++ ranking r (highpfScore r)) := by
  have hnone : EStateM.Result.ok () cs =
      (.ok () (cs ++ ranking r none) : EStateM.Result (JsError ν) _ _) := by
    rw [ranking, Option.toList_none, List.map_nil, List.append_nil]
  unfold rankHighpf highpfScore
  cases hx : playcountPerFollower r with
  | error e =>
    obtain rfl := throwsTypeError_playcountPerFollower r e hx
    exact Or.inl ⟨rfl, rfl⟩
  | ok x =>
    simp only [Chain.settled_ok, pure_bind]
    cases ht : followersTotal r with
    | error e =>
      obtain rfl := throwsTypeError_followersTotal r e ht
      split
      · exact Or.inl ⟨rfl, rfl⟩
      · exact Or.inr hnone
    | ok total =>
      simp only [Chain.settled_ok, pure_bind, show (Except.ok total >>= Val.toNumber) =
        (total.toNumber : Except (JsError ν) ν) from rfl]
      cases hn : total.toNumber with
      | error e =>
        obtain rfl := total.throwsTypeError_toNumber e hn
        split
        · exact Or.inl ⟨rfl, rfl⟩
        · exact Or.inr hnone
      | ok t =>
        simp only [Chain.settled_ok, pure_bind]
        right
        by_cases hg : JsNumber.gt x (JsNumber.ofNat 60) = true
        · by_cases hf : JsNumber.gt t (JsNumber.ofNat 10000) = true
          · simp only [hg, hf, if_true, Bool.and_self]
            rfl
          · simp only [hg, hf, if_true, Bool.and_false]
            exact hnone
        · simp only [hg, Bool.false_and]
          exact hnone

private theorem catchTypeError_rankHighpf_eq (r : Retrieved ν) (cs : List (Command ν)) :
    catchTypeError (rankHighpf r) cs = .ok () (cs ++ ranking r (highpfScore r)) := by
  unfold catchTypeError
  rcases rankHighpf_eq r cs with ⟨h, hscore⟩ | h
  · rw [h, hscore, ranking, Option.toList_none, List.map_nil, List.append_nil]
  · rw [h]

/-- What the block inserts behind the cache commands: the name, if there is one, and then the
answer under its score, if it is ranked. -/
def insertions (r : Retrieved ν) : List (Command ν) :=
  match pushedName r with
  | some text => .rpush (js "latestsearches") text :: (highpfScore r).toList.map fun x ↦
      .zadd (js "highpf") x r.toJson.stringify
  | none => []

/-- The commands of the block in order. -/
theorem commands_eq_insertions (query : JsString) (r : Retrieved ν) : commands query r =
    .set (artistKey query) r.toJson.stringify :: .expire (artistKey query) 10000 ::
      insertions r := by
  unfold commands Chain.effects insertions pushedName
  cases hn : getName r with
  | error e =>
    simp only [deferred, hn]
    rfl
  | ok name =>
    rw [show (Except.ok name >>= Val.toText) = (name.toText : Except (JsError ν) JsString) from rfl]
    cases ht : name.toText with
    | error e =>
      simp only [deferred, hn, Chain.settled_ok, pure_bind, ht]
      rfl
    | ok text =>
      have he := catchTypeError_rankHighpf_eq r
        (cacheCommands query r ++ [.rpush (js "latestsearches") text])
      rw [List.append_assoc] at he
      have hd : deferred query r [] = .ok () (cacheCommands query r ++
          ([.rpush (js "latestsearches") text] ++ ranking r (highpfScore r))) := by
        simp only [deferred, hn, Chain.settled_ok, pure_bind, ht]
        exact he
      rw [hd]
      rfl

private theorem uncaught_eq_none_iff (query : JsString) (r : Retrieved ν) :
    uncaught query r = none ↔ (getName r >>= Val.toText).isOk = true := by
  rcases deferred_spec query r with ⟨text, extra, hn, -, hd⟩ | ⟨e, hn, hd⟩
  · simp [uncaught, hd, hn, Except.isOk, Except.toBool]
  · simp [uncaught, hd, hn, Except.isOk, Except.toBool]

/-- The block finishes exactly when there is a name, provided the Spotify value has properties. -/
private theorem getName_isOk (r : Retrieved ν) (h : Val.readable (some r.spotify.value) = true) :
    (getName r >>= Val.toText).isOk = hasName r := by
  simp only [getName, Val.get_eq, h, if_true, hasName]
  by_cases hn : (Val.member (some r.spotify.value) (js "name")).truthy = true
  · simp [hn, bind, Except.bind, pure, Except.pure]
  · by_cases ha : (Val.member (some r.lastfm.value) (js "artist")).readable = true
    · have hl : Val.readable (some r.lastfm.value) = true := by
        cases hv : r.lastfm.value with
        | null => simp [hv, Val.member, Val.get, Val.readable, Except.toOption] at ha
        | _ => rfl
      simp [hn, ha, hl, bind, Except.bind]
    · cases Val.readable (some r.lastfm.value) <;>
        simp [hn, ha, bind, Except.bind, Except.isOk, Except.toBool]

private theorem readable_of_parsed {r : Retrieved ν} (h : r.Parsed) :
    Val.readable (some r.spotify.value) = true := by
  rcases h.spotify with ⟨-, hr, -⟩ | hr
  · exact hr
  · rw [hr]
    rfl

/-- The block is queued exactly for the entries of a fresh answer. -/
theorem ticks_of_fresh {query : JsString} {reply : Except (JsError ν) (Option JsString)}
    {r : Retrieved ν} (hc : cachedText reply = none)
    (h : ⟨200, dataBody r.toJson⟩ ∈
      (Chain.effects (search2 lower keys request query reply) Effects.start).responses) :
    r.Parsed ∧
      (Chain.effects (search2 lower keys request query reply) Effects.start).ticks = [r] := by
  generalize hE : Chain.effects (search2 lower keys request query reply) Effects.start = E at h
  have ho := search2_outcome lower keys request query reply
  rw [hE] at ho
  cases ho with
  | cached d j hd _ =>
    rw [hc] at hd
    cases hd
  | fresh r' _ hr =>
    rw [List.mem_singleton, Response.mk.injEq] at h
    obtain rfl := Retrieved.toJson_inj (dataBody_inj h.2)
    exact ⟨hr, rfl⟩
  | reported rs hrs => exact absurd (hrs _ h) (show ¬ 200 = 500 by decide)
  | silent => cases h

/-- For every search that sends a fresh answer, the block it queues finishes without an exception
if and only if the answer has a name for `latestsearches`. -/
theorem deferred_finishes_iff (query : JsString) (reply : Except (JsError ν) (Option JsString))
    (r : Retrieved ν) (hc : cachedText reply = none)
    (h : ⟨200, dataBody r.toJson⟩ ∈
      (Chain.effects (search2 lower keys request query reply) Effects.start).responses) :
    (Chain.effects (search2 lower keys request query reply) Effects.start).ticks = [r] ∧
      (uncaught (queryString lower query) r = none ↔ hasName r = true) := by
  obtain ⟨hr, ht⟩ := ticks_of_fresh lower keys request hc h
  refine ⟨ht, ?_⟩
  rw [uncaught_eq_none_iff, getName_isOk r (readable_of_parsed hr)]

/-- Both services answer, and neither knows the artist. -/
def unknownArtist : Request Whole := fun url ↦
  if js "https:" <+: url then .ok (js "\x7b\"artists\":\x7b\"items\":[]\x7d\x7d")
  else .ok (js "\x7b\"error\":6\x7d")

/-- The entries of the answer for an unknown artist. -/
def unknownEntries : Retrieved Whole :=
  ⟨⟨.rejected, .str []⟩, ⟨.fulfilled, .obj [(js "error", .num (.int 6))]⟩⟩

/-- An artist that neither service knows is answered, and the block then throws. -/
theorem deferred_throws_unknownArtist :
    (Chain.effects (search2 LowerCase.ascii.lower ⟨[], []⟩ unknownArtist (js "qqq") (.ok none))
      Effects.start).responses = [⟨200, dataBody unknownEntries.toJson⟩] ∧
    uncaught (queryString LowerCase.ascii.lower (js "qqq")) unknownEntries =
      some JsError.typeError := by
  decide +kernel

/-- Spotify knows the artist and Last.fm answers with an error object. -/
def onlySpotify : Request Whole := fun url ↦
  if js "https://api.spotify.com/v1/search" <+: url then
    .ok (js "\x7b\"artists\":\x7b\"items\":[\x7b\"id\":\"7\"\x7d]\x7d\x7d")
  else if js "https:" <+: url then .ok (js "\x7b\"name\":\"Cher\"\x7d")
  else .ok (js "\x7b\"error\":6\x7d")

/-- The entries of the answer when only Spotify knows the artist. -/
def onlySpotifyEntries : Retrieved Whole :=
  ⟨⟨.fulfilled, .obj [(js "name", .str (js "Cher"))]⟩,
    ⟨.fulfilled, .obj [(js "error", .num (.int 6))]⟩⟩

/-- With a name from Spotify the block finishes. -/
theorem deferred_finishes_onlySpotify :
    uncaught (queryString LowerCase.ascii.lower (js "Cher")) onlySpotifyEntries = none :=
  (deferred_finishes_iff LowerCase.ascii.lower ⟨[], []⟩ onlySpotify (js "Cher") (.ok none)
    onlySpotifyEntries rfl (by decide +kernel)).2.mpr (by decide +kernel)

end MusicComparer.Api
