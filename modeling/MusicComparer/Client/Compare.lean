import Mathlib.Data.List.Perm.Basic
import MusicComparer.Client.Displayable

/-!
# Comparing two artists

The click handler of `#compare`, `clientside.js:44–60`, with the responses that arrive after it. A
click empties the table and the popularity chart and starts a search for each box; a response fills
them in when it arrives, and nothing tells it from a response to an earlier click. So the page shows
the last click alone exactly when no response was awaited at that click.
-/

namespace MusicComparer.Client

open MusicComparer.Js MusicComparer.Api MusicComparer.System

variable {ν : Type} [JsNumber ν]

/-- A request of `search` whose response is awaited. The code does not keep the number of the
click. -/
structure Flight where
  box : Box
  key : JsString
  click : Nat
  deriving DecidableEq

/-- The page with its storage and its requests. The number of clicks, and the data that the boxes of
the last one were given, are not in the code. -/
structure Tab (ν : Type) where
  page : Page ν
  storage : Storage
  flights : List Flight
  clicks : Nat
  answers : Box → Option (Json ν)

/-- The page when it is loaded. -/
def Tab.init (page : Page ν) (storage : Storage) : Tab ν := ⟨page, storage, [], 0, fun _ ↦ none⟩

/-- Code on the page, its storage and its requests. -/
abbrev Script (ν : Type) := EStateM (JsError ν) (Tab ν)

/-- Code that writes to the page only. -/
def onPage (display : Display ν Unit) : Script ν Unit := fun s ↦
  match display s.page with
  | .ok _ page => .ok () { s with page }
  | .error e page => .error e { s with page }

omit [JsNumber ν] in
/-- Whether it throws or not, it changes nothing but the page. -/
theorem effects_onPage (display : Display ν Unit) (s : Tab ν) :
    Chain.effects (onPage display) s = { s with page := Chain.effects display s.page } := by
  rw [Chain.effects, onPage, Chain.effects]
  cases display s.page with
  | ok a page => rfl
  | error e page => rfl

/-- The data was given to this box of the last click. -/
def recordAnswer (box : Box) (data : Json ν) : Script ν Unit :=
  modify fun s ↦ { s with answers := Function.update s.answers box (some data) }

/-- `search` with `handleData` as its callback, `clientside.js:55,58`. -/
def searchBox (lower : JsString → JsString) (box : Box) (query : JsString) : Script ν Unit := do
  let s ← get
  match Client.search lower s.storage query with
  | .blank => pure ()
  | .thrown => throw .syntaxError
  | .hit data =>
    recordAnswer box data
    onPage (handleData box data true)
  | .miss key => modify fun s ↦ { s with flights := s.flights ++ [⟨box, key, s.clicks⟩] }

/-- `popularity_chart.segments = []` and `$("#tbody_data").empty()`, `clientside.js:48–49`. -/
def Tab.cleared (s : Tab ν) : Tab ν :=
  { s with
    page := { s.page with segments := [], rows := [] }
    clicks := s.clicks + 1
    answers := fun _ ↦ none }

/-- The click handler, `clientside.js:44–60`. The second condition is on a jQuery object, which is
truthy. -/
def compare (lower : JsString → JsString) (query₁ query₂ : JsString) : Script ν Unit := do
  modify Tab.cleared
  if query₁ ≠ [] then searchBox lower .first query₁
  searchBox lower .second query₂

/-- The `done` callback, `clientside.js:120–134`. -/
def done (flight : Flight) (data : Json ν) : Script ν Unit := do
  modify fun s ↦ { s with
    storage := Function.update s.storage flight.key (some data.stringify) }
  let s ← get
  if flight.click = s.clicks then recordAnswer flight.box data
  onPage (handleData flight.box data false)

/-- What happens on the page: a click on `#compare` with these texts in the boxes, or the arrival of
the response to one of the requests. -/
inductive TabAction (ν : Type) where
  | click (query₁ query₂ : JsString)
  | deliver (index : Nat) (data : Json ν)

/-- One step of the page. What a handler has done stays when it throws. -/
def Tab.step (lower : JsString → JsString) (s : Tab ν) : TabAction ν → Option (Tab ν)
  | .click query₁ query₂ => some (Chain.effects (compare lower query₁ query₂) s)
  | .deliver index data => (s.flights[index]?).map fun flight ↦
      Chain.effects (done flight data) { s with flights := s.flights.eraseIdx index }

/-! ### What an answer adds -/

/-- What an answer puts on the page. -/
structure View (ν : Type) where
  row : Row ν
  slot : Slot ν
  segment : Segment ν

/-- The row, the bars with their label, and the segment of an answer in this box. -/
def viewOf (box : Box) (data : Json ν) : Option (View ν) :=
  match entryOf data (js "0"), entryOf data (js "1") with
  | .ok v₀, .ok v₁ =>
    match rowOf (spotifyData v₀) (lastfmData v₁) with
    | .ok row =>
      some ⟨row, slotOf (spotifyData v₀) (lastfmData v₁), segmentOf box (spotifyData v₀)⟩
    | .error _ => none
  | _, _ => none

/-- The second page is the first with this view in this box. -/
structure Adds (page : Page ν) (box : Box) (view : View ν) (page' : Page ν) : Prop where
  rows : page'.rows = page.rows ++ [view.row]
  segments : page'.segments = page.segments ++ [view.segment]
  slots : page'.slots = Function.update page.slots box view.slot

/-- `handleData` adds the view of an answer that has one. -/
theorem handleData_adds {box : Box} {data : Json ν} {view : View ν}
    (h : viewOf box data = some view) (fromCache : Bool) (page : Page ν) :
    ∃ page', handleData box data fromCache page = .ok () page' ∧ Adds page box view page' := by
  unfold viewOf at h
  split at h
  · next v₀ v₁ h₀ h₁ =>
    split at h
    · next row hrow =>
      cases h
      exact ⟨_, handleData_of_row h₀ h₁ hrow page, rfl, rfl, rfl⟩
    · cases h
  · cases h

/-- A well-formed response: data that is read back as it is printed, and that can be shown. -/
structure WellFormed (data : Json ν) : Prop where
  wf : data.WF
  reload : data.reload = data
  view : ∀ box, ∃ view, viewOf box data = some view

/-- A displayable answer is received as a well-formed response. -/
theorem wellFormed_receivedData {r : Retrieved ν} (hr : r.Parsed) (h : displayable r = true) :
    WellFormed (receivedData r) := by
  have hwf := wf_dataBody hr.wf
  refine ⟨hwf.reload, Json.reload_reload _, ?_⟩
  intro box
  obtain ⟨row, hrow, -, -⟩ := (rowOf_displayable r).mpr h
  obtain ⟨h₀, h₁⟩ := entryOf_receivedData r
  simp only [viewOf, h₀, h₁, hrow]
  exact ⟨_, rfl⟩

/-- Everything stored is a well-formed response. -/
def Replayable (storage : Storage) : Prop :=
  ∀ key item, storage key = some item → ∃ data : Json ν, WellFormed data ∧ item = data.stringify

/-! ### What a step does -/

variable {κ : LowerCase} {s s' : Tab ν} {box : Box} {query : JsString}

/-- What a search does when the stored texts are well-formed responses. -/
inductive SearchStep (s : Tab ν) (box : Box) (query : JsString) : Tab ν → Prop where
  | blank (hq : trim query = []) : SearchStep s box query s
  | hit (data : Json ν) (view : View ν) (page : Page ν) (hq : trim query ≠ [])
      (hv : viewOf box data = some view) (hp : Adds s.page box view page) :
      SearchStep s box query
        { s with page, answers := Function.update s.answers box (some data) }
  | miss (key : JsString) (hq : trim query ≠ []) :
      SearchStep s box query { s with flights := s.flights ++ [⟨box, key, s.clicks⟩] }

/-- A key is empty for a blank query only. -/
theorem searchKey_eq_nil_iff : searchKey κ.lower query = [] ↔ trim query = [] := by
  rw [searchKey, LowerCase.lower, List.flatMap_eq_nil_iff]
  constructor
  · intro h
    rw [List.eq_nil_iff_forall_not_mem]
    exact fun c hc ↦ κ.unit_ne_nil c (h c hc)
  · intro h c hc
    rw [h] at hc
    cases hc

/-- A search in well-formed storage returns at once, hits a well-formed response, or misses. -/
private theorem search_cases {storage : Storage} (hr : Replayable (ν := ν) storage)
    (query : JsString) :
    (trim query = [] ∧ (Client.search κ.lower storage query : Lookup ν) = .blank) ∨
    (trim query ≠ [] ∧ ∃ data, WellFormed data ∧
      (Client.search κ.lower storage query : Lookup ν) = .hit data) ∨
    (trim query ≠ [] ∧ ∃ key, (Client.search κ.lower storage query : Lookup ν) = .miss key) := by
  unfold Client.search
  dsimp only
  by_cases hq : trim query = []
  · left
    exact ⟨hq, if_pos (searchKey_eq_nil_iff.mpr hq)⟩
  · right
    rw [if_neg (fun h ↦ hq (searchKey_eq_nil_iff.mp h))]
    cases hs : storage (searchKey κ.lower query) with
    | none => exact Or.inr ⟨hq, _, rfl⟩
    | some item =>
      obtain ⟨data, hd, rfl⟩ := hr _ item hs
      have hparse : Json.parse data.stringify = some data := by
        rw [Json.parse_stringify hd.wf, hd.reload]
      simp only [hparse]
      split
      · exact Or.inr ⟨hq, _, rfl⟩
      · exact Or.inl ⟨hq, data, hd, rfl⟩

/-- A search ends in one of the three ways and does not throw. -/
private theorem searchBox_spec (hr : Replayable (ν := ν) s.storage) (box : Box)
    (query : JsString) :
    ∃ s', searchBox κ.lower box query s = .ok () s' ∧ SearchStep s box query s' := by
  have hget : ∀ f : Tab ν → Script ν Unit, (get >>= f) s = f s s := fun _ ↦ rfl
  rw [searchBox, hget]
  rcases search_cases (κ := κ) hr query with ⟨hq, h⟩ | ⟨hq, data, hd, h⟩ | ⟨hq, key, h⟩
  · rw [h]
    exact ⟨s, rfl, .blank hq⟩
  · obtain ⟨view, hv⟩ := hd.view box
    obtain ⟨page, hpage, hadds⟩ := handleData_adds hv true s.page
    refine ⟨_, ?_, .hit data view page hq hv hadds⟩
    rw [h]
    change onPage (handleData box data true)
      { s with answers := Function.update s.answers box (some data) } = _
    rw [onPage, hpage]
  · rw [h]
    exact ⟨_, rfl, .miss key hq⟩

/-- The state that a search leaves, by how the lookup ends. -/
theorem effects_searchBox (lower : JsString → JsString) (box : Box) (query : JsString)
    (s : Tab ν) : Chain.effects (searchBox lower box query) s =
      match (Client.search lower s.storage query : Lookup ν) with
      | .blank | .thrown => s
      | .hit data => Chain.effects (onPage (handleData box data true))
          { s with answers := Function.update s.answers box (some data) }
      | .miss key => { s with flights := s.flights ++ [⟨box, key, s.clicks⟩] } := by
  have hget : ∀ f : Tab ν → Script ν Unit, (get >>= f) s = f s s := fun _ ↦ rfl
  rw [Chain.effects, searchBox, hget]
  cases (Client.search lower s.storage query : Lookup ν) with
  | blank => rfl
  | thrown => rfl
  | hit data => rfl
  | miss key => rfl

/-- A search leaves the stored texts alone. -/
private theorem SearchStep.storage (h : SearchStep s box query s') : s'.storage = s.storage := by
  cases h with
  | blank => rfl
  | hit => rfl
  | miss => rfl

/-- A click clears the page and searches for the first box, then for the second. -/
private theorem click_spec (hr : Replayable (ν := ν) s.storage) {query₁ query₂ : JsString}
    (h : s.step κ.lower (.click query₁ query₂) = some s') :
    ∃ s₁, SearchStep s.cleared .first query₁ s₁ ∧ SearchStep s₁ .second query₂ s' := by
  cases h
  obtain ⟨s₁, h₁, hs₁⟩ : ∃ s₁, (if query₁ ≠ [] then searchBox κ.lower .first query₁
      else pure () : Script ν Unit) s.cleared = .ok () s₁ ∧
        SearchStep s.cleared .first query₁ s₁ := by
    by_cases hq : query₁ = []
    · rw [hq]
      exact ⟨s.cleared, rfl, .blank rfl⟩
    · rw [if_pos hq]
      exact searchBox_spec (s := s.cleared) hr .first query₁
  have hr₁ : Replayable (ν := ν) s₁.storage := by
    rw [hs₁.storage]
    exact hr
  obtain ⟨s₂, h₂, hs₂⟩ := searchBox_spec (κ := κ) hr₁ .second query₂
  have hcompare : compare κ.lower query₁ query₂ s = .ok () s₂ := by
    have hbind : compare κ.lower query₁ query₂ s = EStateM.bind (if query₁ ≠ [] then
        searchBox κ.lower .first query₁ else pure ()) (fun _ ↦ searchBox κ.lower .second query₂)
        s.cleared := by
      unfold compare
      split <;> rfl
    rw [hbind, EStateM.bind, h₁]
    exact h₂
  rw [Chain.effects, hcompare]
  exact ⟨s₁, hs₁, hs₂⟩

/-- The data goes to the storage, to the record if it is for the last click, and to the page. -/
theorem done_eq (flight : Flight) (data : Json ν) (s : Tab ν) :
    done flight data s = onPage (handleData flight.box data false)
      { s with
        storage := Function.update s.storage flight.key (some data.stringify)
        answers := if flight.click = s.clicks then
          Function.update s.answers flight.box (some data) else s.answers } := by
  have hget : ∀ (f : Tab ν → Tab ν) (g : Tab ν → Script ν Unit),
      (do modify f; let s ← get; g s) s = g (f s) (f s) := fun _ _ ↦ rfl
  rw [done, hget]
  dsimp only
  split
  · rfl
  · rfl

/-- The same for the effects, whether the data can be shown or not. -/
theorem effects_done (flight : Flight) (data : Json ν) (s : Tab ν) :
    Chain.effects (done flight data) s = { s with
      page := Chain.effects (handleData flight.box data false) s.page
      storage := Function.update s.storage flight.key (some data.stringify)
      answers := if flight.click = s.clicks then
        Function.update s.answers flight.box (some data) else s.answers } := by
  rw [Chain.effects, done_eq]
  exact effects_onPage (handleData flight.box data false) _

/-- What the arrival of a response with this view does. -/
structure DeliverStep (s : Tab ν) (index : Nat) (data : Json ν) (flight : Flight) (view : View ν)
    (s' : Tab ν) : Prop where
  awaited : s.flights[index]? = some flight
  viewed : viewOf flight.box data = some view
  page : Adds s.page flight.box view s'.page
  flights : s'.flights = s.flights.eraseIdx index
  storage : s'.storage = Function.update s.storage flight.key (some data.stringify)
  clicks : s'.clicks = s.clicks
  answers : flight.click = s.clicks →
    s'.answers = Function.update s.answers flight.box (some data)

/-- A well-formed response takes its request off and adds its view. -/
private theorem deliver_spec {index : Nat} {data : Json ν} (hd : WellFormed data)
    (h : s.step κ.lower (.deliver index data) = some s') :
    ∃ flight view, DeliverStep s index data flight view s' := by
  obtain ⟨flight, hf, rfl⟩ := Option.map_eq_some_iff.mp h
  obtain ⟨view, hv⟩ := hd.view flight.box
  obtain ⟨page, hpage, hadds⟩ := handleData_adds hv false s.page
  refine ⟨flight, view, ?_⟩
  rw [Chain.effects, done_eq, onPage, hpage]
  exact ⟨hf, hv, hadds, rfl, rfl, rfl, fun hc ↦ if_pos hc⟩

/-! ### What the page shows -/

/-- The boxes that are searched for at a click. -/
def searchedBoxes (query₁ query₂ : JsString) : List Box :=
  (if trim query₁ = [] then [] else [.first]) ++ if trim query₂ = [] then [] else [.second]

/-- The table and the popularity chart have these views in this order, and the bars and labels are
theirs; each is the view of the data that its box was given. -/
structure Shows (s : Tab ν) (shown : List (Box × View ν)) : Prop where
  rows : s.page.rows = shown.map fun p ↦ p.2.row
  segments : s.page.segments = shown.map fun p ↦ p.2.segment
  slots : ∀ p ∈ shown, s.page.slots p.1 = p.2.slot
  answers : ∀ p ∈ shown, ∃ data, s.answers p.1 = some data ∧ viewOf p.1 data = some p.2

/-- The page shows one view for each of these boxes and nothing else. -/
def ShowsOnly (s : Tab ν) (boxes : List Box) : Prop :=
  ∃ shown, (shown.map Prod.fst).Perm boxes ∧ Shows s shown

/-- Each of these boxes is shown or its response is awaited, and no other response is. -/
structure Comparing (s : Tab ν) (boxes : List Box) : Prop where
  current : ∀ flight ∈ s.flights, flight.click = s.clicks
  shown : ∃ shown, (shown.map Prod.fst ++ s.flights.map Flight.box).Perm boxes ∧ Shows s shown

/-- A view in a box that was not shown is shown after the others. -/
private theorem Shows.append {shown : List (Box × View ν)} (hs : Shows s shown) {data : Json ν}
    {view : View ν} (hbox : box ∉ shown.map Prod.fst) (hv : viewOf box data = some view)
    (hp : Adds s.page box view s'.page)
    (ha : s'.answers = Function.update s.answers box (some data)) :
    Shows s' (shown ++ [(box, view)]) := by
  have hne : ∀ p ∈ shown, p.1 ≠ box := by
    rintro p hp' rfl
    exact hbox (List.mem_map_of_mem hp')
  constructor
  · rw [hp.rows, hs.rows, List.map_append, List.map_singleton]
  · rw [hp.segments, hs.segments, List.map_append, List.map_singleton]
  · intro p hp'
    rw [hp.slots]
    rcases List.mem_append.mp hp' with hp' | hp'
    · rw [Function.update_of_ne (hne p hp'), hs.slots p hp']
    · rw [List.mem_singleton.mp hp', Function.update_self]
  · intro p hp'
    rw [ha]
    rcases List.mem_append.mp hp' with hp' | hp'
    · rw [Function.update_of_ne (hne p hp')]
      exact hs.answers p hp'
    · rw [List.mem_singleton.mp hp', Function.update_self]
      exact ⟨data, rfl, hv⟩

/-- A search adds its box, unless the query is blank. -/
private theorem comparing_search {boxes : List Box} (hs : Comparing s boxes) (hbox : box ∉ boxes)
    (h : SearchStep s box query s') :
    Comparing s' (boxes ++ if trim query = [] then [] else [box]) := by
  obtain ⟨shown, hperm, hshows⟩ := hs.shown
  cases h with
  | blank hq =>
    rw [if_pos hq, List.append_nil]
    exact hs
  | hit data view page hq hv hp =>
    rw [if_neg hq]
    refine ⟨hs.current, shown ++ [(box, view)], ?_, ?_⟩
    · rw [List.map_append, List.append_assoc]
      refine List.Perm.trans ?_ (hperm.append_right [box])
      rw [List.append_assoc]
      exact List.perm_append_comm.append_left _
    · refine hshows.append ?_ hv hp rfl
      intro hmem
      exact hbox (hperm.subset (List.mem_append_left _ hmem))
  | miss key hq =>
    rw [if_neg hq]
    refine ⟨?_, shown, ?_, hshows.rows, hshows.segments, hshows.slots, hshows.answers⟩
    · intro flight hf
      rcases List.mem_append.mp hf with hf | hf
      · exact hs.current flight hf
      · rw [List.mem_singleton.mp hf]
    · rw [List.map_append, ← List.append_assoc]
      exact hperm.append_right [box]

/-- The boxes of a click are different, so a response adds a view that was not shown. -/
private theorem comparing_deliver {boxes : List Box} (hn : boxes.Nodup) (hs : Comparing s boxes)
    {index : Nat} {data : Json ν} {flight : Flight} {view : View ν}
    (h : DeliverStep s index data flight view s') : Comparing s' boxes := by
  obtain ⟨shown, hperm, hshows⟩ := hs.shown
  obtain ⟨hi, hf⟩ := List.getElem?_eq_some_iff.mp h.awaited
  have hmem : flight ∈ s.flights := List.mem_of_getElem? h.awaited
  have hflights : (flight :: s'.flights).Perm s.flights := by
    rw [h.flights, ← hf]
    exact List.getElem_cons_eraseIdx_perm hi
  have hbox : flight.box ∉ shown.map Prod.fst := by
    intro hshown
    exact (List.nodup_append.mp (hperm.nodup_iff.mpr hn)).2.2 _ hshown _
      (List.mem_map_of_mem hmem) rfl
  refine ⟨?_, shown ++ [(flight.box, view)], ?_, ?_⟩
  · intro f hf'
    rw [h.clicks]
    exact hs.current f (hflights.subset (List.mem_cons_of_mem _ hf'))
  · rw [List.map_append, List.append_assoc]
    exact ((hflights.map Flight.box).append_left _).trans hperm
  · exact hshows.append hbox h.viewed h.page (h.answers (hs.current flight hmem))

/-- A cleared page with no request awaited shows nothing. -/
private theorem comparing_cleared (h : s.flights = []) : Comparing s.cleared [] := by
  have hf : s.cleared.flights = [] := h
  refine ⟨by simp [hf], [], by simp [hf], rfl, rfl, by simp, by simp⟩

/-- The rows, and the responses that will add one. -/
private def pendingRows (s : Tab ν) : Nat := s.page.rows.length + s.flights.length

private theorem pendingRows_search (h : SearchStep s box query s') :
    pendingRows s' = pendingRows s + (if trim query = [] then [] else [box]).length := by
  unfold pendingRows
  cases h with
  | blank hq => simp [hq]
  | hit data view page hq hv hp =>
    simp only [hp.rows, List.length_append, List.length_singleton, if_neg hq]
    omega
  | miss key hq =>
    simp only [List.length_append, List.length_singleton, if_neg hq]
    omega

private theorem pendingRows_deliver {index : Nat} {data : Json ν} {flight : Flight}
    {view : View ν} (h : DeliverStep s index data flight view s') :
    pendingRows s' = pendingRows s := by
  obtain ⟨hi, -⟩ := List.getElem?_eq_some_iff.mp h.awaited
  unfold pendingRows
  rw [h.page.rows, h.flights, List.length_append, List.length_eraseIdx_of_lt hi,
    List.length_singleton]
  omega

/-- The actions after the last click. -/
def IsDelivery : TabAction ν → Prop
  | .click _ _ => False
  | .deliver _ _ => True

/-- Every response is well formed. -/
def WellFormedAction : TabAction ν → Prop
  | .click _ _ => True
  | .deliver _ data => WellFormed data

/-- Storage stays well formed. -/
private theorem replayable_of_run {as : List (TabAction ν)} (hs : Replayable (ν := ν) s.storage)
    (hw : ∀ act ∈ as, WellFormedAction act) (h : run (Tab.step κ.lower) s as = some s') :
    Replayable (ν := ν) s'.storage := by
  refine run_invariant (I := fun s : Tab ν ↦ Replayable (ν := ν) s.storage) ?_ hs
    (along_of_forall hw) h
  intro s act s' hs hact hstep
  cases act with
  | click query₁ query₂ =>
    obtain ⟨s₁, h₁, h₂⟩ := click_spec hs hstep
    rw [h₂.storage, h₁.storage]
    exact hs
  | deliver index data =>
    obtain ⟨flight, view, hd⟩ := deliver_spec hact hstep
    intro key item hi
    rw [hd.storage] at hi
    by_cases hk : key = flight.key
    · rw [hk, Function.update_self, Option.some_inj] at hi
      exact ⟨data, hact, hi.symm⟩
    · rw [Function.update_of_ne hk] at hi
      exact hs key item hi

/-- What every response preserves holds when all of them have arrived. -/
private theorem deliveries_invariant {I : Tab ν → Prop}
    (hstep : ∀ s index data flight view s', I s → DeliverStep s index data flight view s' → I s')
    {ds : List (TabAction ν)} (hs : I s) (hd : ∀ act ∈ ds, IsDelivery act)
    (hw : ∀ act ∈ ds, WellFormedAction act) (h : run (Tab.step κ.lower) s ds = some s') : I s' := by
  refine run_invariant (I := I) (C := fun _ act ↦ IsDelivery act ∧ WellFormedAction act) ?_ hs
    (along_of_forall fun act hact ↦ ⟨hd act hact, hw act hact⟩) h
  intro s act s' hs hact ht
  cases act with
  | click => exact absurd hact.1 id
  | deliver index data =>
    obtain ⟨flight, view, hdeliver⟩ := deliver_spec hact.2 ht
    exact hstep s index data flight view s' hs hdeliver

private theorem nodup_searchedBoxes (query₁ query₂ : JsString) :
    (searchedBoxes query₁ query₂).Nodup := by
  unfold searchedBoxes
  split <;> split <;> simp

/-- Once no response is awaited, the page shows the last click and nothing else if and only if no
response was awaited at that click. -/
theorem shows_last_click_iff (κ : LowerCase) {page : Page ν} {storage : Storage}
    (hstorage : Replayable (ν := ν) storage) {bs ds : List (TabAction ν)}
    {query₁ query₂ : JsString} {s₀ s : Tab ν}
    (hb : run (Tab.step κ.lower) (Tab.init page storage) bs = some s₀)
    (hd : run (Tab.step κ.lower) s₀ (.click query₁ query₂ :: ds) = some s)
    (hlast : ∀ act ∈ ds, IsDelivery act) (hw : ∀ act ∈ bs ++ ds, WellFormedAction act)
    (hend : s.flights = []) :
    ShowsOnly s (searchedBoxes query₁ query₂) ↔ s₀.flights = [] := by
  rw [List.forall_mem_append] at hw
  obtain ⟨t, ht, hds⟩ := run_cons.mp hd
  have hr := replayable_of_run hstorage hw.1 hb
  obtain ⟨s₁, h₁, h₂⟩ := click_spec hr ht
  constructor
  · rintro ⟨shown, hperm, hshows⟩
    -- a response that was awaited at the click adds a row of its own
    have hclick : pendingRows t = s₀.flights.length + (searchedBoxes query₁ query₂).length := by
      rw [pendingRows_search h₂, pendingRows_search h₁, searchedBoxes, List.length_append]
      simp only [pendingRows, Tab.cleared, List.length_nil]
      omega
    have hall : pendingRows s = pendingRows t :=
      deliveries_invariant (I := fun s ↦ pendingRows s = pendingRows t)
        (fun s _ _ _ _ _ hs hstep ↦ (pendingRows_deliver hstep).trans hs) rfl hlast hw.2 hds
    have hrows : s.page.rows.length = (searchedBoxes query₁ query₂).length := by
      rw [hshows.rows, List.length_map, ← hperm.length_eq, List.length_map]
    rw [hclick, pendingRows, hend, List.length_nil, hrows] at hall
    exact List.length_eq_zero_iff.mp (by omega)
  · intro hs₀
    have hclick : Comparing t (searchedBoxes query₁ query₂) := by
      have hfirst := comparing_search (comparing_cleared hs₀) (by simp) h₁
      refine comparing_search hfirst ?_ h₂
      split <;> simp
    have hall := deliveries_invariant (I := fun s ↦ Comparing s (searchedBoxes query₁ query₂))
      (fun s _ _ _ _ _ hs hstep ↦ comparing_deliver (nodup_searchedBoxes _ _) hs hstep) hclick
      hlast hw.2 hds
    obtain ⟨shown, hperm, hshows⟩ := hall.shown
    rw [hend, List.map_nil, List.append_nil] at hperm
    exact ⟨shown, hperm, hshows⟩

/-- A page on which nothing was written. -/
def Page.blank : Page ν :=
  ⟨fun _ ↦ none, [], fun _ ↦ [], fun _ ↦ ⟨none, none, none, none⟩, [], []⟩

/-- The page after these actions, from one with nothing written and nothing stored. -/
def after (as : List (TabAction Whole)) : Tab Whole :=
  (run (Tab.step LowerCase.ascii.lower) (Tab.init Page.blank fun _ ↦ none) as).getD
    (Tab.init Page.blank fun _ ↦ none)

private theorem wellFormed_cher : WellFormed (receivedData cherEntries) := by
  have hsent : ⟨200, dataBody cherEntries.toJson⟩ ∈ (Chain.effects (search2 LowerCase.ascii.lower
      ⟨[], []⟩ knownArtist (js "Cher") (.ok none)) Effects.start).responses := by
    decide +kernel
  exact wellFormed_receivedData (ticks_of_fresh _ _ _ rfl hsent).1 (by decide +kernel)

/-- A click whose response arrives before the next click. -/
def cherClick : List (TabAction Whole) :=
  [.click (js "Cher") [], .deliver 0 (receivedData cherEntries)]

/-- The next click, with one box from `localStorage`, and its response. -/
def cherAbbaClick : List (TabAction Whole) :=
  [.click (js "cher ") (js "Abba"), .deliver 0 (receivedData cherEntries)]

/-- Both boxes of the second click are shown, and nothing of the first. -/
theorem shows_last_click_cherAbba : ∃ s₀ s : Tab Whole,
    run (Tab.step LowerCase.ascii.lower) (Tab.init Page.blank fun _ ↦ none) cherClick = some s₀ ∧
      run (Tab.step LowerCase.ascii.lower) s₀ cherAbbaClick = some s ∧
      s₀.flights = [] ∧ s.flights = [] ∧ ShowsOnly s [.first, .second] := by
  have hstorage : Replayable (ν := Whole) fun _ ↦ none := fun _ _ h ↦ nomatch h
  have hb : run (Tab.step LowerCase.ascii.lower) (Tab.init Page.blank fun _ ↦ none) cherClick =
      some (after cherClick) := run_eq_getD _ (by decide +kernel)
  have hd : run (Tab.step LowerCase.ascii.lower) (after cherClick) cherAbbaClick =
      some ((run (Tab.step LowerCase.ascii.lower) (after cherClick) cherAbbaClick).getD
        (after cherClick)) := run_eq_getD _ (by decide +kernel)
  refine ⟨_, _, hb, hd, by decide +kernel, by decide +kernel, ?_⟩
  refine (shows_last_click_iff LowerCase.ascii hstorage hb hd ?_ ?_ (by decide +kernel)).mpr
    (by decide +kernel)
  · intro act hact
    rw [List.mem_singleton.mp hact]
    trivial
  · intro act hact
    simp only [cherClick, List.cons_append, List.nil_append, List.mem_cons, List.not_mem_nil,
      or_false] at hact
    rcases hact with rfl | rfl | rfl
    · trivial
    · exact wellFormed_cher
    · exact wellFormed_cher

/-- Two clicks, and then their responses in the other order. -/
def lateClick : List (TabAction Whole) :=
  [.click (js "Abba") [], .click (js "Cher") [], .deliver 1 (receivedData cherEntries),
    .deliver 0 (receivedData cherEntries)]

/-- A response that arrives after the next click is shown too: the table has a row for each. -/
theorem shows_late_response : ∃ s : Tab Whole,
    run (Tab.step LowerCase.ascii.lower) (Tab.init Page.blank fun _ ↦ none) lateClick = some s ∧
      s.flights = [] ∧ s.page.rows.length = 2 ∧ searchedBoxes (js "Cher") [] = [.first] ∧
      WellFormed (receivedData cherEntries) ∧ ¬ ShowsOnly s (searchedBoxes (js "Cher") []) := by
  have hr : run (Tab.step LowerCase.ascii.lower) (Tab.init Page.blank fun _ ↦ none) lateClick =
      some (after lateClick) := run_eq_getD _ (by decide +kernel)
  have hrows : (after lateClick).page.rows.length = 2 := by decide +kernel
  have hboxes : searchedBoxes (js "Cher") [] = [.first] := by decide
  refine ⟨_, hr, by decide +kernel, hrows, hboxes, wellFormed_cher, ?_⟩
  rintro ⟨shown, hperm, hshows⟩
  rw [hshows.rows, List.length_map] at hrows
  have hlength := hperm.length_eq
  rw [hboxes, List.length_map, hrows] at hlength
  cases hlength

end MusicComparer.Client
