import MusicComparer.Server.Cache
import MusicComparer.Server.Provenance

/-!
# The latest searches

`latestsearches` is one list for all users. The block of a fresh answer pushes a name to it
(`api.js:131`), nothing removes one, and both `GET /application` (`index.js:43,56`) and
`GET /api/latestsearches` (`api.js:50–56`) read its last five elements. The names are those the
upstream services answered, not what was typed. A push waits on the connection of `api.js` until it
is executed, so the list lags behind the answers; what a stop of the process loses is lost for good.
-/

namespace MusicComparer.Server

open MusicComparer.Js MusicComparer.Upstream MusicComparer.Redis MusicComparer.Api
open MusicComparer.System

variable {ν : Type} [JsNumber ν] {lower : JsString → JsString} {keys : ApiKeys}
  {w w' : World ν} {act : Action ν}

/-- The answer of an observation. -/
def Event.answer? : Event ν → Option (JsString × Retrieved ν)
  | .fresh query r => some (query, r)
  | _ => none

/-- The fresh answers with their queries, oldest first. -/
def World.answers (w : World ν) : List (JsString × Retrieved ν) :=
  w.log.reverse.filterMap Event.answer?

/-- The answers are those in the log. -/
theorem mem_answers {query : JsString} {r : Retrieved ν} :
    (query, r) ∈ w.answers ↔ .fresh query r ∈ w.log := by
  rw [World.answers, List.mem_filterMap]
  constructor
  · rintro ⟨e, he, ha⟩
    cases e with
    | fresh query' r' =>
      cases ha
      exact List.mem_reverse.mp he
    | _ => cases ha
  · intro h
    exact ⟨.fresh query r, List.mem_reverse.mpr h, rfl⟩

/-- The names of the fresh answers, oldest first. An answer without a name has none. -/
def World.names (w : World ν) : List JsString := w.answers.filterMap fun p ↦ pushedName p.2

/-- The value that a command pushes to `latestsearches`. -/
def pushed? : Command ν → Option JsString
  | .rpush k v => if k = js "latestsearches" then some v else none
  | _ => none

/-- The names that wait on the connection of `api.js`. -/
def World.waiting (w : World ν) : List JsString := w.apiQueue.filterMap pushed?

/-- The block of an answer pushes its name, once. -/
theorem filterMap_pushed_commands (query : JsString) (r : Retrieved ν) :
    (commands query r).filterMap pushed? = (pushedName r).toList := by
  have hzadd : ∀ score : Option ν, (score.toList.map fun x ↦ Command.zadd (js "highpf") x
      r.toJson.stringify).filterMap pushed? = [] := by
    intro score
    cases score <;> rfl
  rw [commands_eq_insertions, insertions]
  cases pushedName r with
  | none => rfl
  | some text =>
    simp only [List.filterMap_cons, pushed?, if_true, hzadd]
    rfl

/-- How a step changes the keyspace, the commands waiting for `api.js`, and the answers. -/
inductive Inserted (w : World ν) (act : Action ν) (w' : World ν) : Prop where
  | kept (hr : w'.redis = w.redis) (hq : w'.apiQueue = w.apiQueue) (ha : w'.answers = w.answers)
  | callback (a : Answer ν) (hl : .authenticated a ∈ w'.log)
      (hr : w'.redis = exec w.redis (.set a.name a.text)) (hq : w'.apiQueue = w.apiQueue)
      (ha : w'.answers = w.answers)
  | answered (key : JsString) (r : Retrieved ν) (hr : w'.redis = w.redis)
      (hq : w'.apiQueue = w.apiQueue ++ commands key r) (ha : w'.answers = w.answers ++ [(key, r)])
  | executed (c : Command ν) (hc : w.apiQueue = c :: w'.apiQueue)
      (hr : w'.redis = exec w.redis c) (ha : w'.answers = w.answers)
  | expired (key : JsString) (e : Redis.Entry ν) (he : w.redis key = some e)
      (ht : e.expiry.isSome = true) (hr : w'.redis = del w.redis key)
      (hq : w'.apiQueue = w.apiQueue) (ha : w'.answers = w.answers)
  | lost (hs : act = .stop) (hr : w'.redis = w.redis) (hq : w'.apiQueue = [])
      (ha : w'.answers = w.answers)

/-- Other observations are no answers. -/
private theorem answers_of_log (es : List (Event ν)) (h : w'.log = es ++ w.log)
    (he : es.filterMap Event.answer? = []) : w'.answers = w.answers := by
  have hrev : es.reverse.filterMap Event.answer? = [] := by
    rw [List.filterMap_eq_nil_iff] at he ⊢
    exact fun e hm ↦ he e (List.mem_reverse.mp hm)
  rw [World.answers, World.answers, h, List.reverse_append, List.filterMap_append, hrev,
    List.append_nil]

/-- A search leaves at most one block. -/
private theorem ticks_le_one {E : Effects ν} {reply : Except (JsError ν) (Option JsString)}
    (h : Outcome reply E) : E.ticks = [] ∨ ∃ r, E.ticks = [r] := by
  cases h with
  | cached | reported | silent => exact Or.inl rfl
  | fresh r => exact Or.inr ⟨r, rfl⟩

/-- Every step is one of these. -/
theorem Transition.inserted (h : Transition lower keys w act w') : Inserted w act w' := by
  cases h with
  | execSet a cs hc =>
    exact .callback a List.mem_cons_self rfl rfl (answers_of_log [_] rfl rfl)
  | respond id request query reply e hs he =>
    have ho := search2_outcome lower keys request query reply
    rw [he] at ho
    rcases ticks_le_one ho with ht | ⟨r, ht⟩
    · refine .kept rfl ?_ (answers_of_log [] ?_ rfl)
      · simp [ht]
      · simp [ht]
    · refine .answered (queryString lower query) r rfl ?_ ?_
      · simp [ht]
      · simp [World.answers, ht, Event.answer?]
  | execApi c cs hc => exact .executed c hc rfl rfl
  | expireKey key e he ht => exact .expired key e he ht rfl rfl rfl
  | stop => exact .lost rfl rfl rfl rfl
  | tokenRejected => exact .kept rfl rfl (answers_of_log [_, _] rfl rfl)
  | answer | tokenAccepted | listed | listRejected | anonymous | execDestroy =>
    exact .kept rfl rfl (answers_of_log [_] rfl rfl)
  | _ => exact .kept rfl rfl rfl

/-- The text that `GET /api/latestsearches` sends, `api.js:50–56`. On an error of redis `done`
throws, and nothing is sent. -/
def World.latestsearchesText (w : World ν) : Option JsString :=
  w.latestsearches.map fun xs ↦ (Json.arr (xs.map .str) : Json ν).stringify

/-- No callback was executed for the name of the list. -/
def Unclaimed (w : World ν) : Prop :=
  ∀ a, .authenticated a ∈ w.log → a.name ≠ js "latestsearches"

private theorem searches_ne_ranking : js "latestsearches" ≠ js "highpf" := by decide

/-- What a step does to a list that it may only append to: names go from the answers to the end of
the waiting ones and from there to the end of the list, and a stop loses those that wait. -/
private theorem list_step (hs : Searched w) (hn : Unclaimed w')
    (h : Transition lower keys w act w') {xs : List JsString}
    (hx : HoldsList w.redis (js "latestsearches") xs) :
    ∃ new, HoldsList w'.redis (js "latestsearches") (xs ++ new) ∧
      ((∃ names, w.waiting ++ names = new ++ w'.waiting ∧ w'.names = w.names ++ names) ∨
        act = .stop ∧ new = [] ∧ w'.waiting = [] ∧ w'.names = w.names) := by
  have hsame : w'.redis (js "latestsearches") = w.redis (js "latestsearches") →
      w'.waiting = w.waiting → w'.names = w.names →
      ∃ new, HoldsList w'.redis (js "latestsearches") (xs ++ new) ∧
        ((∃ names, w.waiting ++ names = new ++ w'.waiting ∧ w'.names = w.names ++ names) ∨
          act = .stop ∧ new = [] ∧ w'.waiting = [] ∧ w'.names = w.names) := by
    intro hr hq ha
    refine ⟨[], by rw [List.append_nil]; exact hx.congr hr, Or.inl ⟨[], ?_, ?_⟩⟩
    · rw [hq, List.append_nil, List.nil_append]
    · rw [ha, List.append_nil]
  cases h.inserted with
  | kept hr hq ha =>
    exact hsame (by rw [hr]) (by rw [World.waiting, hq]; rfl) (by rw [World.names, ha]; rfl)
  | callback a hl hr hq ha =>
    refine hsame ?_ (by rw [World.waiting, hq]; rfl) (by rw [World.names, ha]; rfl)
    rw [hr]
    exact exec_of_ne w.redis (.set a.name a.text) (hn a hl).symm
  | answered key r hr hq ha =>
    refine ⟨[], by rw [List.append_nil]; exact hx.congr (by rw [hr]), Or.inl
      ⟨(pushedName r).toList, ?_, ?_⟩⟩
    · rw [World.waiting, World.waiting, hq, List.filterMap_append, filterMap_pushed_commands,
        List.nil_append]
    · rw [World.names, World.names, ha, List.filterMap_append]
      cases hp : pushedName r <;> simp [hp]
  | executed c hc hr ha =>
    obtain ⟨key, r, -, hm⟩ := hs.queued c (by simp [hc])
    have hq : w.waiting = (pushed? c).toList ++ w'.waiting := by
      rw [World.waiting, World.waiting, hc, List.filterMap_cons]
      cases pushed? c <;> rfl
    have hnames : w'.names = w.names := by
      rw [World.names, ha]
      rfl
    rcases mem_commands hm with rfl | rfl | ⟨text, rfl⟩ | ⟨x, rfl⟩
    · exact hsame (by rw [hr]; exact exec_of_ne w.redis _ (artistKey_ne_latestsearches key).symm)
        hq.symm hnames
    · exact hsame (by rw [hr]; exact exec_of_ne w.redis _ (artistKey_ne_latestsearches key).symm)
        hq.symm hnames
    · refine ⟨[text], hr ▸ hx.rpush text, Or.inl ⟨[], ?_, ?_⟩⟩
      · rw [hq, List.append_nil, pushed?, if_pos rfl, Option.toList_some]
      · rw [hnames, List.append_nil]
    · exact hsame (by rw [hr]; exact exec_of_ne w.redis _ searches_ne_ranking) hq.symm hnames
  | expired key e he ht hr hq ha =>
    have hkey : js "latestsearches" ≠ key := by
      rintro rfl
      exact absurd (hs.expiry _ e he ht) (by decide)
    refine hsame ?_ (by rw [World.waiting, hq]; rfl) (by rw [World.names, ha]; rfl)
    rw [hr, del, Function.update_of_ne hkey]
  | lost hstop hr hq ha =>
    refine ⟨[], by rw [List.append_nil]; exact hx.congr (by rw [hr]), Or.inr ⟨hstop, rfl, ?_, ?_⟩⟩
    · rw [World.waiting, hq, List.filterMap_nil]
    · rw [World.names, ha]
      rfl

/-- The list as it stands against the answers and against the pages rendered so far: every page has
shown the last five names of an earlier version. -/
structure Recorded (R : List JsString → List JsString → Prop) (w : World ν) (xs : List JsString) :
    Prop where
  listed : HoldsList w.redis (js "latestsearches") xs
  names : R (xs ++ w.waiting) w.names
  pages : ∀ rid sid s page, .index rid sid s page ∈ w.log →
    ∃ zs, zs <+: xs ∧ page.latestsearches = some (zs.drop (zs.length - 5))

/-- A page shows the list of its time. -/
private theorem index_of_mem (h : Transition lower keys w act w') {rid sid : Nat} {s : Session}
    {page : IndexPage} (hm : .index rid sid s page ∈ w'.log) :
    .index rid sid s page ∈ w.log ∨ page.latestsearches = w.latestsearches := by
  cases h with
  | respond =>
    rcases List.mem_append.mp hm with hm | hm
    · simp at hm
    · exact Or.inl hm
  | tokenRejected rid q =>
    rcases List.mem_cons.mp hm with he | hm
    · cases he
    · rcases List.mem_cons.mp hm with he | hm
      · cases he
      · exact Or.inl hm
  | listed rid q xs hq hp hl =>
    rcases List.mem_cons.mp hm with he | hm
    · cases he
      exact Or.inr hl.symm
    · exact Or.inl hm
  | anonymous rid q hq hp =>
    rcases List.mem_cons.mp hm with he | hm
    · cases he
      exact Or.inr rfl
    · exact Or.inl hm
  | answer | tokenAccepted | listRejected | execSet | execDestroy =>
    rcases List.mem_cons.mp hm with he | hm
    · cases he
    · exact Or.inl hm
  | _ => exact Or.inl hm

/-- Both readers of the list get its last five elements. -/
private theorem latestsearches_of_holdsList {xs : List JsString}
    (h : HoldsList w.redis (js "latestsearches") xs) :
    w.latestsearches = some (xs.drop (xs.length - 5)) := by
  rw [World.latestsearches, h.lrange]
  exact congrArg some (slice_last xs 5 (by omega))

private theorem recorded_step {R : List JsString → List JsString → Prop}
    (happ : ∀ xs ys zs, R xs ys → R (xs ++ zs) (ys ++ zs))
    (hlost : act = .stop → ∀ xs ys zs, R (xs ++ ys) zs → R xs zs) (hs : Searched w)
    {xs : List JsString} (hw : Recorded R w xs) (hn : Unclaimed w')
    (h : Transition lower keys w act w') : ∃ xs', Recorded R w' xs' := by
  obtain ⟨new, hx, hnew⟩ := list_step hs hn h hw.listed
  refine ⟨xs ++ new, hx, ?_, ?_⟩
  · rcases hnew with ⟨names, hq, ha⟩ | ⟨hstop, rfl, hq, ha⟩
    · rw [List.append_assoc, ← hq, ha, ← List.append_assoc]
      exact happ _ _ names hw.names
    · rw [hq, ha, List.append_nil, List.append_nil]
      exact hlost hstop _ _ _ hw.names
  · intro rid sid s page hm
    rcases index_of_mem h hm with hm | hm
    · obtain ⟨zs, hz, hp⟩ := hw.pages rid sid s page hm
      exact ⟨zs, hz.trans (List.prefix_append xs new), hp⟩
    · exact ⟨xs, List.prefix_append xs new, hm.trans (latestsearches_of_holdsList hw.listed)⟩

/-- The relation of the list with the waiting names to the answers over the run: nothing that was
not answered, nothing twice, and without a stop nothing missing. -/
private def Follows (as : List (Action ν)) (xs ys : List JsString) : Prop :=
  xs.Sublist ys ∧ (.stop ∉ as → xs = ys)

private theorem recorded_of_run {as : List (Action ν)}
    (h : run (step lower keys) World.init as = some w) (hn : Unclaimed w) :
    ∃ xs, Recorded (Follows as) w xs := by
  refine run_invariant_within (I := fun w : World ν ↦
    Unclaimed w → ∃ xs, Recorded (Follows as) w xs) (C := fun _ act ↦ act ∈ as)
    (fun _ _ _ hr ↦ searched_of_run hr) ?_ ?_ (along_of_forall fun _ ha ↦ ha) h hn
  · intro w act w' hs hw hact hstep hn
    have ht := transition_of_step hstep
    obtain ⟨xs, hx⟩ := hw fun a ha ↦ hn a (ht.mem_log ha)
    refine recorded_step ?_ ?_ hs hx hn ht
    · rintro xs ys zs ⟨hsub, heq⟩
      exact ⟨hsub.append_right zs, fun hstop ↦ by rw [heq hstop]⟩
    · rintro rfl xs ys zs ⟨hsub, -⟩
      exact ⟨(List.sublist_append_left xs ys).trans hsub, fun hstop ↦ absurd hact hstop⟩
  · intro _
    exact ⟨[], Or.inl ⟨rfl, rfl⟩, ⟨List.nil_sublist _, fun _ ↦ rfl⟩, by simp [World.init]⟩

/-- Over every run in which no user is called `latestsearches`: the list, followed by the names that
wait, has only names of fresh answers, in the order of the answers and each once; and without a stop
of the process it has all of them. -/
theorem latestsearches_of_answers {as : List (Action ν)}
    (h : run (step lower keys) World.init as = some w) (hn : Unclaimed w) :
    ∃ xs, HoldsList w.redis (js "latestsearches") xs ∧ (xs ++ w.waiting).Sublist w.names ∧
      (.stop ∉ as → xs ++ w.waiting = w.names) := by
  obtain ⟨xs, hx⟩ := recorded_of_run h hn
  exact ⟨xs, hx.listed, hx.names.1, hx.names.2⟩

/-- Two searches whose answers come in the other order, with their blocks executed, and then `ann`
logs in and opens the page. -/
def cherListed : List (Action Whole) :=
  [.post (js "Cher"), .post (js "cher "), .lookup 0, .lookup 1, .respond 1 onlySpotify,
    .respond 0 onlySpotify] ++ List.replicate 5 .execApi ++ completeCallback 2 0 ann ++
    [.start .application 1, .tokenReply 3, .listReply 3]

/-- The state after that run. -/
def cherWorld : World Whole :=
  (run (step LowerCase.ascii.lower ⟨[], []⟩) World.init cherListed).getD World.init

/-- What is observed of this state. -/
private theorem cherWorld_observed :
    (run (step LowerCase.ascii.lower ⟨[], []⟩) World.init cherListed).isSome = true ∧
      cherWorld.log =
        [.index 3 1 (.created ann) ⟨some [js "Cher"], true, some ann.name⟩,
          .checked 3 ann.name (some (some ann.text)), .created 2 1 ann, .authenticated ann,
          .answered 2 ann, .fresh (js "cher") onlySpotifyEntries,
          .fresh (js "cher") onlySpotifyEntries] ∧
      cherWorld.names = [js "Cher", js "Cher"] ∧ cherWorld.waiting = [js "Cher"] ∧
      cherWorld.latestsearchesText = some (js "[\"Cher\"]") := by
  decide +kernel

private theorem run_cherListed :
    run (step LowerCase.ascii.lower ⟨[], []⟩) World.init cherListed = some cherWorld :=
  run_eq_getD World.init cherWorld_observed.1

private theorem unclaimed_cherWorld : Unclaimed cherWorld := by
  intro a ha
  rw [cherWorld_observed.2.1] at ha
  have he : a = ann := by simpa using ha
  rw [he]
  decide +kernel

/-- One name is in the list and one waits behind it. -/
theorem latestsearches_of_answers_cher :
    (∃ xs, HoldsList cherWorld.redis (js "latestsearches") xs ∧
      xs ++ cherWorld.waiting = cherWorld.names) ∧
      cherWorld.names = [js "Cher", js "Cher"] ∧ cherWorld.waiting = [js "Cher"] := by
  obtain ⟨xs, hx, -, hall⟩ := latestsearches_of_answers run_cherListed unclaimed_cherWorld
  exact ⟨⟨xs, hx, hall (by simp [cherListed, completeCallback])⟩, cherWorld_observed.2.2.1,
    cherWorld_observed.2.2.2.1⟩

/-- The text of a list of strings is read as this list. -/
private theorem parse_strings (xs : List JsString) :
    Json.parse (Json.stringify (.arr (xs.map .str) : Json ν)) =
      some (.arr (xs.map .str) : Json ν) := by
  have hwf : Json.WF (Json.arr (xs.map .str) : Json ν) := by
    apply Json.WF.arr
    intro j hj
    obtain ⟨x, -, rfl⟩ := List.mem_map.mp hj
    exact Json.WF.str x
  rw [Json.parse_stringify hwf, Json.reload, Json.reloadList_eq, List.map_map]
  rfl

/-- Over every run in which no user is called `latestsearches`: every index page that was rendered
has shown the last five names, or all, of an earlier version of the list, and
`GET /api/latestsearches` answers with JSON that reads as the last five of the present one. All are
names of fresh answers. -/
theorem shown_of_answers {as : List (Action ν)}
    (h : run (step lower keys) World.init as = some w) (hn : Unclaimed w) :
    ∃ xs, (∀ x ∈ xs, x ∈ w.names) ∧
      (∀ rid sid s page, .index rid sid s page ∈ w.log →
        ∃ zs, zs <+: xs ∧ page.latestsearches = some (zs.drop (zs.length - 5))) ∧
      ∃ text, w.latestsearchesText = some text ∧
        Json.parse text = some (Json.arr ((xs.drop (xs.length - 5)).map .str) : Json ν) := by
  obtain ⟨xs, hx⟩ := recorded_of_run h hn
  refine ⟨xs, ?_, hx.pages, _, ?_, parse_strings (xs.drop (xs.length - 5))⟩
  · intro x hm
    exact hx.names.1.subset (List.mem_append_left w.waiting hm)
  · rw [World.latestsearchesText, latestsearches_of_holdsList hx.listed]
    rfl

/-- The page of `ann` has shown the one name in the list, and the request gets it too. -/
theorem shown_of_answers_cher :
    .index 3 1 (.created ann) ⟨some [js "Cher"], true, some ann.name⟩ ∈ cherWorld.log ∧
      cherWorld.latestsearchesText = some (js "[\"Cher\"]") ∧
      ∃ xs, (∃ zs, zs <+: xs ∧ some [js "Cher"] = some (zs.drop (zs.length - 5))) ∧
        Json.parse (js "[\"Cher\"]") =
          some (Json.arr ((xs.drop (xs.length - 5)).map .str) : Json Whole) := by
  have hpage : .index 3 1 (.created ann) ⟨some [js "Cher"], true, some ann.name⟩ ∈
      cherWorld.log := by
    rw [cherWorld_observed.2.1]
    exact List.mem_cons_self
  have htext := cherWorld_observed.2.2.2.2
  obtain ⟨xs, -, hpages, text, ht, hp⟩ := shown_of_answers run_cherListed unclaimed_cherWorld
  rw [htext, Option.some_inj] at ht
  exact ⟨hpage, htext, xs, hpages _ _ _ _ hpage, ht ▸ hp⟩

end MusicComparer.Server
