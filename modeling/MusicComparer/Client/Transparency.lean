import MusicComparer.Client.Search

/-!
# Both caches serve what a miss was answered

What is stored in a browser, what redis holds under a cache key and what is on its way between them
are texts of fresh answers for the query under which they are kept. The two normalisations give the
same key, so the levels agree on which searches are the same.
-/

namespace MusicComparer.Client

open MusicComparer.Js MusicComparer.Upstream MusicComparer.Api MusicComparer.Server
open MusicComparer.System

variable {ν : Type} [JsNumber ν] {κ : LowerCase} {keys : ApiKeys} {s s' : Site ν}

/-- What a browser receives for a fresh answer. -/
def receivedData (r : Retrieved ν) : Json ν := (dataBody r.toJson).reload

/-- The data of a fresh answer for this key. -/
def OfMiss (log : List (Event ν)) (key : JsString) (data : Json ν) : Prop :=
  ∃ r, .fresh key r ∈ log ∧ data = receivedData r

/-- The invariant of the runs of the site. -/
structure Transparent (κ : LowerCase) (keys : ApiKeys) (s : Site ν) : Prop where
  reached : ∃ bs, (∀ act ∈ bs, Unprefixed act) ∧
    run (Server.step κ.lower keys) World.init bs = some s.server
  numbered : ∀ id f, s.flights id = some f → id < s.server.nextRid
  flights : ∀ id browser query x, s.flights id = some (browser, query) →
    s.server.searches id = some x → x.query = searchKey κ.lower query
  storage : ∀ browser key item, s.storage browser key = some item →
    ∃ data, OfMiss s.server.log key data ∧ item = data.stringify
  callbacks : ∀ c ∈ s.callbacks, OfMiss s.server.log (searchKey κ.lower c.query) c.data

/-- Data of a fresh answer is well formed and its own reload, so printing and parsing it gives it
back. -/
theorem parse_receivedData {r : Retrieved ν} (hr : r.Parsed) :
    Json.parse (receivedData r).stringify = some (receivedData r) := by
  rw [receivedData, Json.parse_stringify (wf_dataBody hr.wf).reload, Json.reload_reload]

/-- With numbers that are read back as they are written, received data is the body that was sent. -/
theorem receivedData_eq [LawfulJsNumber ν] {r : Retrieved ν} (hr : r.Parsed) :
    receivedData r = dataBody r.toJson := by
  have hs : r.spotify.value.reload = r.spotify.value := by
    rcases hr.spotify with ⟨-, -, body, hb⟩ | he
    · exact Json.reload_of_parse hb
    · rw [he]
      rfl
  obtain ⟨-, body, hb⟩ := hr.lastfm
  have hl := Json.reload_of_parse hb
  simp [receivedData, dataBody, Retrieved.toJson, Api.Entry.toJson, Json.reload,
    Json.reloadProperties, Json.reloadList, hs, hl]

/-- A response with status 200 is received as the data of a fresh answer. -/
private theorem ofMiss_of_received {log : List (Event ν)} {key : JsString} {x : Response ν}
    (hx : x.status = 200 → Carries log key x.body) {data : Json ν}
    (h : received x = some data) : OfMiss log key data := by
  unfold received at h
  split at h
  · next h200 =>
    obtain ⟨hwf, r, hr, hb⟩ := hx h200
    rw [Json.parse_stringify hwf, Option.some_inj] at h
    exact ⟨r, hr, h.symm.trans hb⟩
  · cases h

private theorem ofMiss_mono {log log' : List (Event ν)} (hl : ∀ e ∈ log, e ∈ log')
    {key : JsString} {data : Json ν} (h : OfMiss log key data) : OfMiss log' key data := by
  obtain ⟨r, hr, hd⟩ := h
  exact ⟨r, hl _ hr, hd⟩

/-- The facts about the server that its runs give. -/
theorem server_facts (hs : Transparent κ keys s) :
    Searched s.server ∧ Served κ.lower s.server := by
  obtain ⟨bs, hbs, hr⟩ := hs.reached
  exact ⟨searched_of_run hr, served_of_run hr (authentic_of_run hbs hr).names⟩

/-- A step of the server leaves the browsers as they are. -/
private theorem transparent_server (hs : Transparent κ keys s) {act : Action ν}
    (hact : Unprefixed act) {w : World ν} (h : Server.step κ.lower keys s.server act = some w) :
    Transparent κ keys { s with server := w } := by
  have ht := transition_of_step h
  constructor
  · obtain ⟨bs, hbs, hr⟩ := hs.reached
    refine ⟨bs ++ [act], ?_, run_append.mpr ⟨_, hr, run_cons.mpr ⟨w, h, rfl⟩⟩⟩
    intro a ha
    rcases List.mem_append.mp ha with ha | ha
    · exact hbs a ha
    · rw [List.mem_singleton] at ha
      rw [ha]
      exact hact
  · intro id f hf
    exact Nat.lt_of_lt_of_le (hs.numbered id f hf) ht.nextRid_le
  · intro id browser query x hf hx'
    have hid := hs.numbered id _ hf
    cases ht.searching hx' with
    | kept _ hx => exact hs.flights id browser query x hf hx
    | posted query' hi => omega
    | looked query' reply hx hr => exact hs.flights id browser query (.posted query') hf hx
    | answered query' reply request e hx he hl =>
      exact hs.flights id browser query (.looked query' reply) hf hx
  · intro browser key item hi
    obtain ⟨data, hd, he⟩ := hs.storage browser key item hi
    exact ⟨data, ofMiss_mono (fun _ ↦ ht.mem_log) hd, he⟩
  · intro c hc
    exact ofMiss_mono (fun _ ↦ ht.mem_log) (hs.callbacks c hc)

/-- A hit is answered with data of a fresh answer. -/
private theorem ofMiss_of_hit (hs : Transparent κ keys s) {browser : Nat} {query : JsString}
    {data : Json ν} (h : Client.search κ.lower (s.storage browser) query = .hit data) :
    OfMiss s.server.log (searchKey κ.lower query) data := by
  unfold Client.search at h
  dsimp only at h
  split at h
  · cases h
  split at h
  · next item hi =>
    split at h
    · cases h
    split at h
    · next data' hp =>
      cases h
      obtain ⟨data', ⟨r, hr, rfl⟩, rfl⟩ := hs.storage browser _ item hi
      rw [parse_receivedData ((server_facts hs).1.parsed _ r hr), Option.some_inj] at hp
      exact ⟨r, hr, hp.symm⟩
    · cases h
  · cases h

/-- A miss is posted with the key of the query. -/
private theorem key_of_miss {storage : Storage} {query key : JsString}
    (h : (Client.search κ.lower storage query : Lookup ν) = .miss key) :
    key = searchKey κ.lower query := by
  unfold Client.search at h
  dsimp only at h
  split at h
  · cases h
  split at h
  · split at h
    · cases h
      rfl
    split at h
    · cases h
    · cases h
  · cases h
    rfl

private theorem transparent_search (hs : Transparent κ keys s) (browser : Nat) (query : JsString) :
    Transparent κ keys (s.search κ.lower browser query) := by
  unfold Site.search
  split
  · exact hs
  · exact hs
  · next data h =>
    refine ⟨hs.reached, hs.numbered, hs.flights, hs.storage, ?_⟩
    intro c hc
    rcases List.mem_cons.mp hc with rfl | hc
    · exact ofMiss_of_hit hs h
    · exact hs.callbacks c hc
  · next key h =>
    -- the post is a step of the server; the new flight is the new search
    obtain rfl := key_of_miss h
    have hstep : Server.step κ.lower keys s.server (.post (searchKey κ.lower query)) =
        some (s.server.post (searchKey κ.lower query)) := rfl
    have hpost := transparent_server hs (show Unprefixed (.post _) from trivial) hstep
    refine ⟨hpost.reached, ?_, ?_, hpost.storage, hpost.callbacks⟩
    · intro id f hf
      rcases of_update_some hf with hf | ⟨rfl, -⟩
      · exact hpost.numbered id f hf
      · exact Nat.lt_succ_self _
    · intro id b q x hf hx
      rcases of_update_some hf with hold | ⟨rfl, hnew⟩
      · exact hpost.flights id b q x hold hx
      · have hx' : Function.update s.server.searches s.server.nextRid
            (some (.posted (searchKey κ.lower query))) s.server.nextRid = some x := hx
        rw [Function.update_self] at hx'
        cases hnew
        cases hx'
        rfl

/-- `setItem` stores under one key of one browser. -/
private theorem setItem_eq_some {browser b : Nat} {key k item i : JsString}
    (h : (s.setItem browser key item).storage b k = some i) :
    s.storage b k = some i ∨ k = key ∧ i = item := by
  have hu : Function.update s.storage browser (Function.update (s.storage browser) key (some item))
      b k = some i := h
  by_cases hb : b = browser
  · subst hb
    rw [Function.update_self] at hu
    by_cases hk : k = key
    · rw [hk, Function.update_self, Option.some_inj] at hu
      exact Or.inr ⟨hk, hu.symm⟩
    · rw [Function.update_of_ne hk] at hu
      exact Or.inl hu
  · rw [Function.update_of_ne hb] at hu
    exact Or.inl hu

/-- The response of a flight carries an answer for the key of its query. -/
private theorem carries_of_flight (hs : Transparent κ keys s) {id browser : Nat}
    {query query' : JsString} {x : Response ν} {xs : List (Response ν)}
    (hf : s.flights id = some (browser, query))
    (hx : s.server.searches id = some (.answered query' (x :: xs))) (h200 : x.status = 200) :
    Carries s.server.log (searchKey κ.lower query) x.body := by
  have hq : query' = searchKey κ.lower query := hs.flights id browser query _ hf hx
  have hc := (server_facts hs).2.answered id query' (x :: xs) hx x (by simp) h200
  rwa [hq, queryString_searchKey] at hc

private theorem transparent_deliver (hs : Transparent κ keys s) {id : Nat}
    (h : s.deliver κ.lower id = some s') : Transparent κ keys s' := by
  have hlanded : Transparent κ keys { s with flights := Function.update s.flights id none } := by
    have hold : ∀ id' f, Function.update s.flights id none id' = some f →
        s.flights id' = some f := by
      intro id' f hf
      by_cases he : id' = id
      · rw [he, Function.update_self] at hf
        cases hf
      · rwa [Function.update_of_ne he] at hf
    refine ⟨hs.reached, ?_, ?_, hs.storage, hs.callbacks⟩
    · exact fun id' f hf ↦ hs.numbered id' f (hold id' f hf)
    · exact fun id' b q x hf ↦ hs.flights id' b q x (hold id' _ hf)
  unfold Site.deliver at h
  split at h
  · next browser query query' x xs hf hx =>
    dsimp only at h
    split at h
    · next data hr =>
      cases h
      have hmiss := ofMiss_of_received (carries_of_flight hs hf hx) hr
      refine ⟨hlanded.reached, hlanded.numbered, hlanded.flights, ?_, ?_⟩
      · intro b k i hi
        rcases setItem_eq_some hi with hi | ⟨rfl, rfl⟩
        · exact hs.storage b k i hi
        · exact ⟨data, hmiss, rfl⟩
      · intro c hc
        rcases List.mem_cons.mp hc with rfl | hc
        · exact hmiss
        · exact hs.callbacks c hc
    · cases h
      exact hlanded
  · cases h

/-- Actions of the site in which Last.fm returns no name that is a cache key. -/
def UnprefixedSite : SiteAction ν → Prop
  | .server act => Unprefixed act
  | _ => True

/-- Runs of the site keep the invariant. -/
theorem transparent_of_run {as : List (SiteAction ν)} (hn : ∀ act ∈ as, UnprefixedSite act)
    (h : run (Site.step κ.lower keys) Site.init as = some s) : Transparent κ keys s := by
  refine run_invariant (I := Transparent κ keys) ?_ ?_ (along_of_forall hn) h
  · intro s act s' hs hact hstep
    cases act with
    | server act =>
      obtain ⟨w, hw, rfl⟩ := Option.map_eq_some_iff.mp hstep
      exact transparent_server hs hact hw
    | search browser query =>
      cases hstep
      exact transparent_search hs browser query
    | deliver id => exact transparent_deliver hs hstep
  · refine ⟨⟨[], by simp, rfl⟩, ?_, ?_, ?_, ?_⟩
    all_goals
      intros
      contradiction

/-- Whenever `search` has called its callback, the data was the `{data: …}` body that a cache miss
sent for a query with the same key; and two queries have the same key in `localStorage` if and only
if they have the same key in redis. -/
theorem callback_data_of_miss (κ : LowerCase) [LawfulJsNumber ν] {as : List (SiteAction ν)}
    (hn : ∀ act ∈ as, UnprefixedSite act)
    (h : run (Site.step κ.lower keys) Site.init as = some s) :
    (∀ c ∈ s.callbacks, ∃ r, .fresh (searchKey κ.lower c.query) r ∈ s.server.log ∧
      c.data = dataBody r.toJson) ∧
    ∀ q q', searchKey κ.lower q = searchKey κ.lower q' ↔
      artistKey (queryString κ.lower (searchKey κ.lower q)) =
        artistKey (queryString κ.lower (searchKey κ.lower q')) := by
  have hs := transparent_of_run hn h
  constructor
  · intro c hc
    obtain ⟨r, hr, hd⟩ := hs.callbacks c hc
    rw [receivedData_eq ((server_facts hs).1.parsed _ r hr)] at hd
    exact ⟨r, hr, hd⟩
  · intro q q'
    rw [queryString_searchKey, queryString_searchKey]
    constructor
    · intro he
      rw [he]
    · exact artistKey_inj

/-- A search that misses both caches, and one for the same artist that is then served from
`localStorage`. -/
def cherTwice : List (SiteAction Whole) :=
  [.search 0 (js " Cher"), .server (.lookup 0), .server (.respond 0 onlySpotify), .deliver 0,
    .search 0 (js "CHER ")]

/-- Both searches are given the answer of the first. -/
theorem callback_data_of_cherTwice : ∃ s : Site Whole,
    run (Site.step LowerCase.ascii.lower ⟨[], []⟩) Site.init cherTwice = some s ∧
      s.callbacks.map Callback.fromCache = [true, false] ∧
      ∀ c ∈ s.callbacks, ∃ r, .fresh (searchKey LowerCase.ascii.lower c.query) r ∈ s.server.log ∧
        c.data = dataBody r.toJson := by
  have hn : ∀ act ∈ cherTwice, UnprefixedSite act := by
    intro act hact
    simp only [cherTwice, List.mem_cons, List.not_mem_nil, or_false] at hact
    rcases hact with rfl | rfl | rfl | rfl | rfl <;> trivial
  have hr : run (Site.step LowerCase.ascii.lower ⟨[], []⟩) Site.init cherTwice =
      some ((run (Site.step LowerCase.ascii.lower ⟨[], []⟩) Site.init cherTwice).getD Site.init) :=
    run_eq_getD Site.init (by decide +kernel)
  exact ⟨_, hr, by decide +kernel, (callback_data_of_miss LowerCase.ascii hn hr).1⟩

end MusicComparer.Client
