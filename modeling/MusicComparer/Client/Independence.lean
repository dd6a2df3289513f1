import MusicComparer.Client.Compare

/-!
# The second box beside the first

A click on `#compare` searches for the first box and then for the second in one handler,
`clientside.js:54–59`. A stored answer is shown inside the first search, so an exception there
ends the handler before the second search has begun. Two clicks that differ in the first box
only are compared by what they do for the second.
-/

namespace MusicComparer.Client

open MusicComparer.Js MusicComparer.Api MusicComparer.System

variable {ν : Type} [JsNumber ν]

/-- Data that `handleData` shows without an exception: both entries can be read, and the objects
and texts that the row needs are there. -/
def Showable (data : Json ν) : Prop :=
  ∃ v₀ v₁, entryOf data (js "0") = .ok v₀ ∧ entryOf data (js "1") = .ok v₁ ∧
    reachable (spotifyData v₀) (lastfmData v₁) = true ∧
    printable (spotifyData v₀) (lastfmData v₁) = true

/-- The text stored for a query, when there is one that `getItem` gives as a truthy value. -/
def Stored (lower : JsString → JsString) (storage : Storage) (query item : JsString) : Prop :=
  trim query ≠ [] ∧ storage (searchKey lower query) = some item ∧ item ≠ []

/-- For the query there is a stored text that cannot be replayed: it is not JSON, or its data
cannot be shown. -/
def Interrupts (ν : Type) [JsNumber ν] (lower : JsString → JsString) (storage : Storage)
    (query : JsString) : Prop :=
  ∃ item, Stored lower storage query item ∧
    ∀ data : Json ν, Json.parse item = some data → ¬ Showable data

/-- What a click does for the second box. -/
structure BoxTwo (ν : Type) where
  /-- the data replayed from `localStorage` -/
  replayed : Option (Json ν)
  /-- the queries sent to `/api/search2` -/
  sent : List JsString
  /-- the bars and the label -/
  slot : Slot ν
  /-- the rows added to the table -/
  rows : List (Row ν)
  /-- the bars and the added rows when this data arrives for what was sent -/
  arriving : Json ν → List (Slot ν × List (Row ν))

/-- What is there for the second box in the state `t` and was not in the state `s`. -/
def BoxTwo.since (s t : Tab ν) : BoxTwo ν :=
  let flights := t.flights.drop s.flights.length
  { replayed := t.answers .second
    sent := flights.map Flight.key
    slot := t.page.slots .second
    rows := t.page.rows.drop s.page.rows.length
    arriving := fun data ↦ flights.map fun flight ↦
      let u := Chain.effects (done flight data) t
      (u.page.slots .second, u.page.rows.drop t.page.rows.length) }

/-- What a click with these texts in the boxes does for the second box. The rows and requests of
the first box are those of the same click with the second box empty. -/
def boxTwo (lower : JsString → JsString) (query₁ query₂ : JsString) (s : Tab ν) : BoxTwo ν :=
  .since (Chain.effects (compare lower query₁ []) s)
    (Chain.effects (compare lower query₁ query₂) s)

/-! ### Showing data -/

/-- Data has a view exactly when it can be shown. -/
theorem viewOf_isSome_iff {box : Box} {data : Json ν} :
    (∃ view, viewOf box data = some view) ↔ Showable data := by
  unfold viewOf
  constructor
  · rintro ⟨view, h⟩
    split at h
    · next v₀ v₁ h₀ h₁ =>
      split at h
      · next row hrow =>
        obtain ⟨hr, hp, -, -⟩ := rowOf_eq_ok hrow
        exact ⟨v₀, v₁, h₀, h₁, hr, hp⟩
      · cases h
    · cases h
  · rintro ⟨v₀, v₁, h₀, h₁, hr, hp⟩
    obtain ⟨row, hrow⟩ := exists_rowOf hr hp
    simp only [h₀, h₁, hrow]
    exact ⟨_, rfl⟩

/-- On data without a view `handleData` throws before it writes a row or a bar. -/
private theorem handleData_of_no_view {box : Box} {data : Json ν} (h : viewOf box data = none)
    (fromCache : Bool) (page : Page ν) : ∃ e page',
      handleData box data fromCache page = .error e page' ∧ page'.rows = page.rows ∧
        page'.slots = page.slots := by
  cases h₀ : entryOf data (js "0") with
  | error e =>
    refine ⟨e, page, ?_, rfl, rfl⟩
    rw [handleData, h₀]
    rfl
  | ok v₀ =>
    cases h₁ : entryOf data (js "1") with
    | error e =>
      refine ⟨e, page, ?_, rfl, rfl⟩
      rw [handleData, h₀, h₁]
      rfl
    | ok v₁ =>
      cases hrow : rowOf (spotifyData v₀) (lastfmData v₁) with
      | error e => exact ⟨e, _, handleData_of_error h₀ h₁ hrow page, rfl, rfl⟩
      | ok row =>
        simp only [viewOf, h₀, h₁, hrow] at h
        cases h

/-- What showing data in this box leaves of the bars of the second box. -/
def slotAfter (slot : Slot ν) (data : Json ν) : Slot ν :=
  ((viewOf .second data).map View.slot).getD slot

/-- The rows that showing data adds. -/
def rowsOf (data : Json ν) : List (Row ν) := ((viewOf .second data).map View.row).toList

/-- Showing data in the second box, whether it throws or not. -/
private theorem effects_handleData (data : Json ν) (fromCache : Bool) (s : Tab ν) :
    ∃ page, Chain.effects (onPage (handleData .second data fromCache)) s = { s with page } ∧
      page.rows = s.page.rows ++ rowsOf data ∧
      page.slots .second = slotAfter (s.page.slots .second) data := by
  rw [Chain.effects, onPage, rowsOf, slotAfter]
  cases hv : viewOf .second data with
  | none =>
    obtain ⟨e, page, hpage, hrows, hslots⟩ := handleData_of_no_view hv fromCache s.page
    rw [hpage]
    exact ⟨page, rfl, by simp [hrows], by rw [hslots]; rfl⟩
  | some view =>
    obtain ⟨page, hpage, hadds⟩ := handleData_adds hv fromCache s.page
    rw [hpage]
    exact ⟨page, rfl, hadds.rows, by rw [hadds.slots, Function.update_self]; rfl⟩

/-! ### The search for the second box -/

/-- Nothing was done for the second box. -/
def BoxTwo.untouched (slot : Slot ν) : BoxTwo ν := ⟨none, [], slot, [], fun _ ↦ []⟩

/-- What the search for the second box does, by how the lookup ends. -/
def BoxTwo.lookedUp (slot : Slot ν) : Lookup ν → BoxTwo ν
  | .blank | .thrown => untouched slot
  | .hit data => ⟨some data, [], slotAfter slot data, rowsOf data, fun _ ↦ []⟩
  | .miss key => ⟨none, [key], slot, [], fun data ↦ [(slotAfter slot data, rowsOf data)]⟩

/-- What a search leaves alone that is made for the first box. -/
structure Beside (s t : Tab ν) : Prop where
  storage : t.storage = s.storage
  answers : t.answers .second = s.answers .second
  slots : t.page.slots .second = s.page.slots .second

/-- Nothing is there for the second box that was not there before. -/
private theorem since_self {s t : Tab ν} (ht : Beside s t) (hs : s.answers .second = none) :
    BoxTwo.since t t = .untouched (s.page.slots .second) := by
  simp [BoxTwo.since, BoxTwo.untouched, ht.answers, ht.slots, hs]

/-- What the search for the second box adds to a state that a click has left so far. -/
private theorem since_searchBox (lower : JsString → JsString) (query : JsString)
    {s t : Tab ν} (ht : Beside s t) (hs : s.answers .second = none) :
    BoxTwo.since t (Chain.effects (searchBox lower .second query) t) =
      .lookedUp (s.page.slots .second) (Client.search lower s.storage query) := by
  have hl : (Client.search lower t.storage query : Lookup ν) =
      Client.search lower s.storage query := by
    rw [ht.storage]
  rw [effects_searchBox, hl]
  cases (Client.search lower s.storage query : Lookup ν) with
  | blank => exact since_self ht hs
  | thrown => exact since_self ht hs
  | hit data =>
    obtain ⟨page, hpage, hrows, hslots⟩ := effects_handleData data true
      { t with answers := Function.update t.answers .second (some data) }
    dsimp only at hpage hrows hslots ⊢
    rw [hpage]
    simp [BoxTwo.since, BoxTwo.lookedUp, hrows, hslots, ht.slots]
  | miss key =>
    have harriving : ∀ data, (Chain.effects (done ⟨.second, key, t.clicks⟩ data)
        { t with flights := t.flights ++ [⟨.second, key, t.clicks⟩] }).page.slots .second =
          slotAfter (s.page.slots .second) data ∧
        (Chain.effects (done ⟨.second, key, t.clicks⟩ data)
          { t with flights := t.flights ++ [⟨.second, key, t.clicks⟩] }).page.rows =
          t.page.rows ++ rowsOf data := by
      intro data
      rw [Chain.effects, done_eq]
      obtain ⟨page, hpage, hrows, hslots⟩ := effects_handleData data false
        { t with
          flights := t.flights ++ [⟨.second, key, t.clicks⟩]
          storage := Function.update t.storage key (some data.stringify)
          answers := Function.update t.answers .second (some data) }
      dsimp only at hpage hrows hslots ⊢
      rw [Chain.effects] at hpage
      rw [if_pos rfl, hpage]
      exact ⟨by rw [← ht.slots]; exact hslots, hrows⟩
    simp [BoxTwo.since, BoxTwo.lookedUp, ht.answers, ht.slots, hs, harriving]

/-! ### The search for the first box -/

variable {κ : LowerCase}

/-- How a lookup ends, by the stored text. -/
private inductive Looked (lower : JsString → JsString) (storage : Storage) (query : JsString) :
    Lookup ν → Prop where
  | blank (hq : trim query = []) : Looked lower storage query .blank
  | hit (item : JsString) (data : Json ν) (hi : Stored lower storage query item)
      (hd : Json.parse item = some data) : Looked lower storage query (.hit data)
  | thrown (item : JsString) (hi : Stored lower storage query item)
      (hd : (Json.parse item : Option (Json ν)) = none) : Looked lower storage query .thrown
  | miss (hq : trim query ≠ []) (hi : ∀ item, ¬ Stored lower storage query item) :
      Looked lower storage query (.miss (searchKey lower query))

private theorem looked (κ : LowerCase) (storage : Storage) (query : JsString) :
    Looked (ν := ν) κ.lower storage query (Client.search κ.lower storage query) := by
  unfold Client.search
  dsimp only
  by_cases hq : trim query = []
  · rw [if_pos (searchKey_eq_nil_iff.mpr hq)]
    exact .blank hq
  · rw [if_neg (fun h ↦ hq (searchKey_eq_nil_iff.mp h))]
    cases hs : storage (searchKey κ.lower query) with
    | none =>
      refine .miss hq ?_
      rintro item ⟨-, hi, -⟩
      rw [hs] at hi
      cases hi
    | some item =>
      dsimp only
      split
      · next he =>
        refine .miss hq ?_
        rintro item' ⟨-, hi, hne⟩
        rw [hs, Option.some_inj] at hi
        rw [← hi] at hne
        exact hne (List.isEmpty_iff.mp he)
      · next hne =>
        have hitem : Stored κ.lower storage query item :=
          ⟨hq, hs, fun h ↦ hne (List.isEmpty_iff.mpr h)⟩
        split
        · next data hd => exact .hit item data hitem hd
        · next hd => exact .thrown item hitem hd

/-- A query has one stored text. -/
private theorem Stored.unique {lower : JsString → JsString} {storage : Storage}
    {query item item' : JsString} (h : Stored lower storage query item)
    (h' : Stored lower storage query item') : item = item' := by
  have := h.2.1
  rw [h'.2.1, Option.some_inj] at this
  exact this.symm

/-- The search for the first box throws exactly where a stored text interrupts it, and leaves the
second box alone in any case. -/
private theorem searchFirst (κ : LowerCase) (query : JsString) (s : Tab ν) :
    (Interrupts ν κ.lower s.storage query ∧ ∃ e t,
      searchBox κ.lower .first query s = .error e t ∧ Beside s t) ∨
    (¬ Interrupts ν κ.lower s.storage query ∧ ∃ t,
      searchBox κ.lower .first query s = .ok () t ∧ Beside s t) := by
  have hget : ∀ f : Tab ν → Script ν Unit, (get >>= f) s = f s s := fun _ ↦ rfl
  rw [searchBox, hget]
  have hlooked := looked (ν := ν) κ s.storage query
  generalize hl : (Client.search κ.lower s.storage query : Lookup ν) = l at hlooked
  cases hlooked with
  | blank hq =>
    refine Or.inr ⟨?_, s, rfl, rfl, rfl, rfl⟩
    rintro ⟨item, ⟨hne, -⟩, -⟩
    exact hne hq
  | thrown item hi hd =>
    refine Or.inl ⟨⟨item, hi, ?_⟩, _, s, rfl, rfl, rfl, rfl⟩
    intro data hd'
    rw [hd] at hd'
    cases hd'
  | miss hq hi =>
    refine Or.inr ⟨?_, _, rfl, rfl, rfl, rfl⟩
    rintro ⟨item, hitem, -⟩
    exact hi item hitem
  | hit item data hi hd =>
    have hanswers : Function.update s.answers .first (some data) .second = s.answers .second :=
      Function.update_of_ne (by decide) _ _
    change (_ ∧ ∃ e t, onPage (handleData .first data true)
        { s with answers := Function.update s.answers .first (some data) } = .error e t ∧ _) ∨
      (_ ∧ ∃ t, onPage (handleData .first data true)
        { s with answers := Function.update s.answers .first (some data) } = .ok () t ∧ _)
    rw [onPage]
    cases hv : viewOf .first data with
    | none =>
      obtain ⟨e, page, hpage, -, hslots⟩ := handleData_of_no_view hv true s.page
      rw [hpage]
      refine Or.inl ⟨⟨item, hi, ?_⟩, e, _, rfl, rfl, hanswers, by rw [hslots]⟩
      intro data' hd'
      rw [hd, Option.some_inj] at hd'
      subst hd'
      intro hshow
      obtain ⟨view, hview⟩ : ∃ view, viewOf .first data = some view :=
        viewOf_isSome_iff.mpr hshow
      rw [hv] at hview
      cases hview
    | some view =>
      obtain ⟨page, hpage, hadds⟩ := handleData_adds hv true s.page
      rw [hpage]
      refine Or.inr ⟨?_, _, rfl, rfl, hanswers, ?_⟩
      · rintro ⟨item', hi', hnone⟩
        rw [hi'.unique hi] at hnone
        exact hnone data hd (viewOf_isSome_iff.mp ⟨view, hv⟩)
      · rw [hadds.slots]
        exact Function.update_of_ne (by decide) _ _

/-- The click handler up to the search for the second box, which an exception ends. -/
private theorem compare_cases (κ : LowerCase) (query₁ : JsString) (s : Tab ν) :
    (Interrupts ν κ.lower s.storage query₁ ∧ ∃ t, Beside s.cleared t ∧
      ∀ query₂, Chain.effects (compare κ.lower query₁ query₂) s = t) ∨
    (¬ Interrupts ν κ.lower s.storage query₁ ∧ ∃ t, Beside s.cleared t ∧
      ∀ query₂, Chain.effects (compare κ.lower query₁ query₂) s =
        Chain.effects (searchBox κ.lower .second query₂) t) := by
  by_cases hq : query₁ = []
  · subst hq
    refine Or.inr ⟨?_, s.cleared, ⟨rfl, rfl, rfl⟩, fun query₂ ↦ rfl⟩
    rintro ⟨item, ⟨hne, -⟩, -⟩
    exact hne rfl
  · have hbind : ∀ query₂, compare κ.lower query₁ query₂ s = EStateM.bind
        (searchBox κ.lower .first query₁) (fun _ ↦ searchBox κ.lower .second query₂)
        s.cleared := by
      intro query₂
      rw [compare, if_pos hq]
      rfl
    rcases searchFirst κ query₁ s.cleared with ⟨hi, e, t, ht, hbeside⟩ | ⟨hi, t, ht, hbeside⟩
    · refine Or.inl ⟨hi, t, hbeside, ?_⟩
      intro query₂
      rw [Chain.effects, hbind, EStateM.bind, ht]
    · refine Or.inr ⟨hi, t, hbeside, ?_⟩
      intro query₂
      rw [Chain.effects, hbind, EStateM.bind, ht]
      rfl

/-- What a click does for the second box: nothing where the first search is interrupted, and
otherwise what the lookup for its own query decides. -/
private theorem boxTwo_eq (κ : LowerCase) (query₁ query₂ : JsString) (s : Tab ν)
    [Decidable (Interrupts ν κ.lower s.storage query₁)] :
    boxTwo κ.lower query₁ query₂ s =
      if Interrupts ν κ.lower s.storage query₁ then .untouched (s.page.slots .second)
      else .lookedUp (s.page.slots .second) (Client.search κ.lower s.storage query₂) := by
  rw [boxTwo]
  rcases compare_cases κ query₁ s with ⟨hi, t, ht, hc⟩ | ⟨hi, t, ht, hc⟩
  · rw [if_pos hi, hc, hc]
    exact since_self (s := s.cleared) ht rfl
  · have hblank : Chain.effects (searchBox κ.lower .second []) t = t := by
      rw [effects_searchBox]
      have hsearch : (Client.search κ.lower t.storage [] : Lookup ν) = .blank := by
        unfold Client.search
        exact if_pos (searchKey_eq_nil_iff.mpr rfl)
      rw [hsearch]
    rw [if_neg hi, hc, hc, hblank]
    exact since_searchBox (s := s.cleared) κ.lower query₂ ht rfl

/-- The stored text of a query is not JSON. -/
def Corrupt (ν : Type) [JsNumber ν] (lower : JsString → JsString) (storage : Storage)
    (query : JsString) : Prop :=
  ∃ item, Stored lower storage query item ∧ (Json.parse item : Option (Json ν)) = none

/-- A lookup leaves the second box untouched for a blank query and for a text that is not JSON. -/
private theorem lookedUp_eq_untouched_iff (κ : LowerCase) (storage : Storage) (query : JsString)
    (slot : Slot ν) : BoxTwo.lookedUp slot (Client.search κ.lower storage query) = .untouched slot ↔
      trim query = [] ∨ Corrupt ν κ.lower storage query := by
  have hlooked := looked (ν := ν) κ storage query
  generalize (Client.search κ.lower storage query : Lookup ν) = l at hlooked
  cases hlooked with
  | blank hq => exact ⟨fun _ ↦ Or.inl hq, fun _ ↦ rfl⟩
  | thrown item hi hd => exact ⟨fun _ ↦ Or.inr ⟨item, hi, hd⟩, fun _ ↦ rfl⟩
  | miss hq hi =>
    constructor
    · intro h
      cases congrArg BoxTwo.sent h
    · rintro (hq' | ⟨item, hitem, -⟩)
      · exact absurd hq' hq
      · exact absurd hitem (hi item)
  | hit item data hi hd =>
    constructor
    · intro h
      cases congrArg BoxTwo.replayed h
    · rintro (hq' | ⟨item', hitem, hnone⟩)
      · exact absurd hq' hi.1
      · rw [hitem.unique hi, hd] at hnone
        cases hnone

/-- The page after a search for an artist that neither service knows, whose answer is stored. -/
def unknownStored : Tab Whole :=
  after [.click (js "qqq") [], .deliver 0 (receivedData unknownEntries)]

end MusicComparer.Client
