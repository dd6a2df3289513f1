import MusicComparer.Server.History

/-!
# The ranked answers

`highpf` is a sorted set of whole answers. The block of a fresh answer inserts the text of the
answer under the quotient of playcount and followers, if the quotient is above 60 and there are more
than 10000 followers (`api.js:133–143`). Nothing reads the set and nothing removes from it, so what
it holds is known from the answers alone.
-/

namespace MusicComparer.Server

open MusicComparer.Js MusicComparer.Upstream MusicComparer.Redis MusicComparer.Api
open MusicComparer.System

variable {ν : Type} [JsNumber ν] {lower : JsString → JsString} {keys : ApiKeys}
  {w w' : World ν} {act : Action ν}

/-- The answer is ranked: it has a name, without which the block ends before the ranking, and this
score, which is above 60 with more than 10000 followers. -/
structure Ranked (r : Retrieved ν) (x : ν) : Prop where
  named : (pushedName r).isSome = true
  ratio : playcountPerFollower r = .ok x
  high : JsNumber.gt x (JsNumber.ofNat 60) = true
  followed : ∃ total, (followersTotal r >>= Val.toNumber) = .ok total ∧
    JsNumber.gt total (JsNumber.ofNat 10000) = true

/-- The conditions of the block. -/
private theorem highpfScore_eq_some_iff {r : Retrieved ν} {x : ν}
    (hn : (pushedName r).isSome = true) : highpfScore r = some x ↔ Ranked r x := by
  unfold highpfScore
  constructor
  · intro h
    split at h
    · next y total hy ht =>
      split at h
      · next hg =>
        cases h
        rw [Bool.and_eq_true] at hg
        exact ⟨hn, hy, hg.1, total, ht, hg.2⟩
      · cases h
    · cases h
  · rintro ⟨-, hx, hg, total, ht, hf⟩
    rw [hx, ht]
    simp [hg, hf]

/-- The block inserts into the sorted set exactly when the answer is ranked. -/
theorem zadd_mem_commands {query : JsString} {r : Retrieved ν} {k m : JsString} {x : ν} :
    .zadd k x m ∈ commands query r ↔
      k = js "highpf" ∧ m = r.toJson.stringify ∧ Ranked r x := by
  rw [commands_eq_insertions, insertions]
  cases hn : pushedName r with
  | none =>
    simp only [List.mem_cons, List.not_mem_nil, reduceCtorEq, or_self, false_iff]
    rintro ⟨-, -, hr⟩
    have := hr.named
    rw [hn] at this
    cases this
  | some text =>
    have hs : (pushedName r).isSome = true := by
      rw [hn]
      rfl
    simp only [List.mem_cons, reduceCtorEq, false_or, List.mem_map, Option.mem_toList,
      Command.zadd.injEq, highpfScore_eq_some_iff hs]
    constructor
    · rintro ⟨y, hy, rfl, rfl, rfl⟩
      exact ⟨rfl, rfl, hy⟩
    · rintro ⟨rfl, rfl, hr⟩
      exact ⟨x, hr, rfl, rfl, rfl⟩

/-- The sorted set as it stands against the answers: no member twice, every member the text of a
ranked answer with its score, and every ranked answer a member or waiting, but for those that
were lost. -/
structure RankedBy (as : List (Action ν)) (w : World ν) (ms : List (JsString × ν)) : Prop where
  holds : HoldsZset w.redis (js "highpf") ms
  nodup : (ms.map Prod.fst).Nodup
  sound : ∀ m x, (m, x) ∈ ms →
    ∃ query r, (query, r) ∈ w.answers ∧ m = r.toJson.stringify ∧ Ranked r x
  complete : .stop ∉ as → ∀ query r x, (query, r) ∈ w.answers → Ranked r x →
    r.toJson.stringify ∈ ms.map Prod.fst ∨
      .zadd (js "highpf") x r.toJson.stringify ∈ w.apiQueue

omit [JsNumber ν] in
/-- An insertion keeps the other members and adds its own, once. -/
private theorem mem_addMember {ms : List (JsString × ν)} {x y : ν} {m n : JsString} :
    (n, y) ∈ addMember ms x m ↔ n = m ∧ y = x ∨ n ≠ m ∧ (n, y) ∈ ms := by
  rw [addMember, List.mem_cons, Prod.mk.injEq, List.mem_filter, bne_iff_ne, and_comm (b := n ≠ m)]

omit [JsNumber ν] in
private theorem map_fst_addMember (ms : List (JsString × ν)) (x : ν) (m : JsString) :
    (addMember ms x m).map Prod.fst = m :: (ms.map Prod.fst).filter (· != m) := by
  rw [addMember, List.map_cons, List.filter_map]
  rfl

/-- No callback was executed for the name of the set. -/
private def Unranked (w : World ν) : Prop := ∀ a, .authenticated a ∈ w.log → a.name ≠ js "highpf"

/-- Executing the insertion of an answer. -/
private theorem rankedBy_zadd {as : List (Action ν)} {ms : List (JsString × ν)}
    (hw : RankedBy as w ms) {key : JsString} {r : Retrieved ν} {x : ν}
    (hfresh : .fresh key r ∈ w.log) (hx : Ranked r x)
    (hc : w.apiQueue = .zadd (js "highpf") x r.toJson.stringify :: w'.apiQueue)
    (hr : w'.redis = exec w.redis (.zadd (js "highpf") x r.toJson.stringify))
    (ha : w'.answers = w.answers) : RankedBy as w' (addMember ms x r.toJson.stringify) := by
  have hmembers := map_fst_addMember ms x r.toJson.stringify
  refine ⟨hr ▸ hw.holds.zadd x _, ?_, ?_, ?_⟩
  · rw [hmembers, List.nodup_cons]
    exact ⟨by simp, hw.nodup.filter _⟩
  · intro m y hm
    rw [ha]
    rcases mem_addMember.mp hm with ⟨rfl, rfl⟩ | ⟨-, hm⟩
    · exact ⟨key, r, mem_answers.mpr hfresh, rfl, hx⟩
    · exact hw.sound m y hm
  · intro hstop query r' y hm hy
    rw [ha] at hm
    -- a text that was a member still is one, and the insertion that was executed is in the set
    by_cases heq : r'.toJson.stringify = r.toJson.stringify
    · exact Or.inl (by rw [hmembers, heq]; exact List.mem_cons_self)
    · rcases hw.complete hstop query r' y hm hy with hmem | hmem
      · left
        rw [hmembers]
        exact List.mem_cons_of_mem _ (List.mem_filter.mpr ⟨hmem, bne_iff_ne.mpr heq⟩)
      · right
        rw [hc, List.mem_cons] at hmem
        rcases hmem with he | hmem
        · rw [Command.zadd.injEq] at he
          exact absurd he.2.2 heq
        · exact hmem

private theorem rankedBy_step {as : List (Action ν)} {ms : List (JsString × ν)} (hs : Searched w)
    (hw : RankedBy as w ms) (hact : act ∈ as) (hn : Unranked w')
    (h : Transition lower keys w act w') : ∃ ms', RankedBy as w' ms' := by
  -- steps that leave the set and the waiting insertions as they are
  have hsame : w'.redis (js "highpf") = w.redis (js "highpf") → w'.answers = w.answers →
      (.stop ∉ as → ∀ x m, .zadd (js "highpf") x m ∈ w.apiQueue →
        .zadd (js "highpf") x m ∈ w'.apiQueue) → ∃ ms', RankedBy as w' ms' := by
    intro hr ha hq
    refine ⟨ms, hw.holds.congr hr, hw.nodup, by rw [ha]; exact hw.sound, ?_⟩
    rw [ha]
    intro hstop query r x hm hx
    exact (hw.complete hstop query r x hm hx).imp_right (hq hstop x _)
  cases h.inserted with
  | kept hr hq ha => exact hsame (by rw [hr]) ha fun _ x m hm ↦ by rwa [hq]
  | callback a hl hr hq ha =>
    refine hsame ?_ ha fun _ x m hm ↦ by rwa [hq]
    rw [hr]
    exact exec_of_ne w.redis (.set a.name a.text) (hn a hl).symm
  | answered key r hr hq ha =>
    refine ⟨ms, hw.holds.congr (by rw [hr]), hw.nodup, ?_, ?_⟩
    · intro m x hm
      obtain ⟨query, r', hr', hrank⟩ := hw.sound m x hm
      exact ⟨query, r', by rw [ha]; exact List.mem_append_left _ hr', hrank⟩
    · intro hstop query r' x hm hx
      rw [ha, List.mem_append, List.mem_singleton, Prod.mk.injEq] at hm
      rw [hq]
      rcases hm with hm | ⟨-, rfl⟩
      · exact (hw.complete hstop query r' x hm hx).imp_right (List.mem_append_left _)
      · exact Or.inr (List.mem_append_right _ (zadd_mem_commands.mpr ⟨rfl, rfl, hx⟩))
  | executed c hc hr ha =>
    obtain ⟨key, r, hfresh, hm⟩ := hs.queued c (by simp [hc])
    have hother : c.key ≠ js "highpf" → ∃ ms', RankedBy as w' ms' := by
      intro hne
      refine hsame (by rw [hr]; exact exec_of_ne w.redis c hne.symm) ha ?_
      intro _ x m hz
      rw [hc, List.mem_cons] at hz
      rcases hz with rfl | hz
      · exact absurd rfl hne
      · exact hz
    rcases mem_commands hm with rfl | rfl | ⟨text, rfl⟩ | ⟨x, rfl⟩
    · exact hother (artistKey_ne_highpf key)
    · exact hother (artistKey_ne_highpf key)
    · exact hother (show js "latestsearches" ≠ js "highpf" by decide)
    · have hx := (zadd_mem_commands.mp hm).2.2
      exact ⟨_, rankedBy_zadd hw hfresh hx hc hr ha⟩
  | expired key e he ht hr hq ha =>
    have hkey : js "highpf" ≠ key := by
      rintro rfl
      exact absurd (hs.expiry _ e he ht) (by decide)
    refine hsame ?_ ha fun _ x m hm ↦ by rwa [hq]
    rw [hr, del, Function.update_of_ne hkey]
  | lost hstop hr hq ha =>
    exact hsame (by rw [hr]) ha fun hno ↦ absurd (hstop ▸ hact) hno

/-- Over every run in which no user is called `highpf`: the sorted set has no member twice, every
member is the text of a fresh answer with more than 10000 followers, under its quotient, which is
above 60; and without a stop of the process every such answer is a member or waits to be
inserted. -/
theorem highpf_of_answers {as : List (Action ν)}
    (h : run (step lower keys) World.init as = some w)
    (hn : ∀ a, .authenticated a ∈ w.log → a.name ≠ js "highpf") :
    ∃ ms, HoldsZset w.redis (js "highpf") ms ∧ (ms.map Prod.fst).Nodup ∧
      (∀ m x, (m, x) ∈ ms →
        ∃ query r, (query, r) ∈ w.answers ∧ m = r.toJson.stringify ∧ Ranked r x) ∧
      (.stop ∉ as → ∀ query r x, (query, r) ∈ w.answers → Ranked r x →
        r.toJson.stringify ∈ ms.map Prod.fst ∨
          .zadd (js "highpf") x r.toJson.stringify ∈ w.apiQueue) := by
  have hranked : ∃ ms, RankedBy as w ms := by
    refine run_invariant_within (I := fun w : World ν ↦ Unranked w → ∃ ms, RankedBy as w ms)
      (C := fun _ act ↦ act ∈ as) (fun _ _ _ hr ↦ searched_of_run hr) ?_ ?_
      (along_of_forall fun _ ha ↦ ha) h hn
    · intro w act w' hs hw hact hstep hn
      have ht := transition_of_step hstep
      obtain ⟨ms, hm⟩ := hw fun a ha ↦ hn a (ht.mem_log ha)
      exact rankedBy_step hs hm hact hn ht
    · intro _
      exact ⟨[], Or.inl ⟨rfl, rfl⟩, List.nodup_nil, by simp, by simp [World.answers, World.init]⟩
  obtain ⟨ms, hm⟩ := hranked
  exact ⟨ms, hm.holds, hm.nodup, hm.sound, hm.complete⟩

/-- Both services know the artist: 2000000 plays and 20000 followers. -/
def bothKnow : Request Whole := fun url ↦
  if js "https://api.spotify.com/v1/search" <+: url then
    .ok (js "\x7b\"artists\":\x7b\"items\":[\x7b\"id\":\"7\"\x7d]\x7d\x7d")
  else if js "https:" <+: url then
    .ok (js "\x7b\"name\":\"Cher\",\"followers\":\x7b\"total\":20000\x7d\x7d")
  else .ok (js
    "\x7b\"artist\":\x7b\"name\":\"Cher\",\"stats\":\x7b\"playcount\":\"2000000\"\x7d\x7d\x7d")

/-- The search of this artist, with its block executed. -/
def cherRanked : List (Action Whole) :=
  [.post (js "Cher"), .lookup 0, .respond 0 bothKnow] ++ List.replicate 4 .execApi

/-- The state after this search. -/
def rankedWorld : World Whole :=
  (run (step LowerCase.ascii.lower ⟨[], []⟩) World.init cherRanked).getD World.init

/-- The entries of its answer. -/
def rankedEntries : Retrieved Whole :=
  ⟨⟨.fulfilled, .obj [(js "name", .str (js "Cher")),
      (js "followers", .obj [(js "total", .num (.int 20000))])]⟩,
    ⟨.fulfilled, .obj [(js "artist", .obj [(js "name", .str (js "Cher")),
      (js "stats", .obj [(js "playcount", .str (js "2000000"))])])]⟩⟩

/-- The answer is in the set. -/
theorem highpf_of_answers_cher : (js "cher", rankedEntries) ∈ rankedWorld.answers ∧
    Ranked rankedEntries (.int 100) ∧ ∃ ms, HoldsZset rankedWorld.redis (js "highpf") ms ∧
      rankedEntries.toJson.stringify ∈ ms.map Prod.fst := by
  have hr : run (step LowerCase.ascii.lower ⟨[], []⟩) World.init cherRanked = some rankedWorld :=
    run_eq_getD World.init (by decide +kernel)
  have hlog : rankedWorld.log = [.fresh (js "cher") rankedEntries] := by decide +kernel
  have hmem : (js "cher", rankedEntries) ∈ rankedWorld.answers := by
    rw [mem_answers, hlog]
    exact List.mem_singleton_self _
  have hranked : Ranked rankedEntries (.int 100) :=
    ⟨by decide +kernel, by decide +kernel, by decide +kernel, .int 20000, by decide +kernel,
      by decide +kernel⟩
  obtain ⟨ms, hm, -, -, hall⟩ := highpf_of_answers hr (by simp [hlog])
  refine ⟨hmem, hranked, ms, hm, ?_⟩
  rcases hall (by simp [cherRanked]) _ _ _ hmem hranked with h | h
  · exact h
  · have hq : rankedWorld.apiQueue.length = 0 := by decide +kernel
    rw [List.length_eq_zero_iff.mp hq] at h
    cases h

end MusicComparer.Server
