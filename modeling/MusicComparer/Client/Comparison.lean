import MusicComparer.Client.Compare
import MusicComparer.Client.Tags

/-!
# The tags of one comparison

The page with its clicks, search responses and tag responses in any order. Nothing empties the array
`tags` at a click, `clientside.js:44–60`, and nothing tells the callback on a tag response which
click the response is for. So a panel can be written for a list that an earlier comparison has left,
or by a response to one.
-/

namespace MusicComparer.Client

open MusicComparer.Js MusicComparer.Api MusicComparer.System

variable {ν : Type} [JsNumber ν]

/-- A request to `/api/tags/` whose response is awaited. The code does not keep the number of the
click for whose search it was made. -/
structure TagFlight where
  box : Box
  name : JsString
  click : Nat
  deriving DecidableEq

/-- The page with its tags. For each slot of the array the click that its list answers, and the
lists that have answered the last click, are not in the code. -/
structure Browser (ν : Type) where
  tab : Tab ν
  tagFlights : List TagFlight
  tagState : TagState ν
  origins : Box → Option Nat
  lists : Box → Option (List (Val ν))

/-- The page when it is loaded. -/
def Browser.init (page : Page ν) (storage : Storage) : Browser ν :=
  ⟨Tab.init page storage, [], TagState.init, fun _ ↦ none, fun _ ↦ none⟩

/-- What happens on the page: a step of the searches, or the arrival of a tag response. -/
inductive BrowserAction (ν : Type) where
  | page (act : TabAction ν)
  | tags (index : Nat) (result : Json ν)

/-- The click whose searches an action handles. -/
def Tab.clickOf (s : Tab ν) : TabAction ν → Nat
  | .click _ _ => s.clicks + 1
  | .deliver index _ => ((s.flights[index]?).map Flight.click).getD 0

/-- The tag requests that an action of the searches made. -/
def newTagFlights (s : Tab ν) (act : TabAction ν) (t : Tab ν) : List TagFlight :=
  (t.page.tagRequests.drop s.page.tagRequests.length).map fun p ↦ ⟨p.1, p.2, s.clickOf act⟩

variable [JsPrecision ν]

/-- A tag response arrives. What the callback has done stays when it throws. -/
def Browser.arrive (upper : JsString → JsString) (s : Browser ν) (index : Nat) (flight : TagFlight)
    (result : Json ν) : Browser ν :=
  { s with
    tagFlights := s.tagFlights.eraseIdx index
    tagState := Chain.effects (tagCallback upper flight.box result) s.tagState
    origins :=
      match readTags result with
      | .ok _ => Function.update s.origins flight.box (some flight.click)
      | .error _ => s.origins
    lists :=
      match readTags result with
      | .ok names => if flight.click = s.tab.clicks then
          Function.update s.lists flight.box (some names) else s.lists
      | .error _ => s.lists }

/-- One step of the page. -/
def Browser.step (lower upper : JsString → JsString) (s : Browser ν) :
    BrowserAction ν → Option (Browser ν)
  | .page act => (s.tab.step lower act).map fun tab ↦ { s with
      tab
      tagFlights := s.tagFlights ++ newTagFlights s.tab act tab
      lists := if tab.clicks = s.tab.clicks then s.lists else fun _ ↦ none }
  | .tags index result => (s.tagFlights[index]?).map fun flight ↦
      s.arrive upper index flight result

/-- The lists for which the panel was written in a step. -/
def Browser.writes (s t : Browser ν) : List (List (Val ν) × List (Val ν)) :=
  t.tagState.written.drop s.tagState.written.length

/-- A tag response that can be read and arrives while the array has a list for the other box is for
the last click, and so is that list. -/
def Prompt (s : Browser ν) : BrowserAction ν → Prop
  | .page _ => True
  | .tags index result => ∀ flight ∈ s.tagFlights[index]?, (readTags result).isOk = true →
      (s.tagState.tags flight.box.other).isSome = true →
        flight.click = s.tab.clicks ∧ s.origins flight.box.other = some s.tab.clicks

/-! ### What a step of the searches does -/

section Searches

variable {s t u : Tab ν}

/-- What a search leaves alone of the clicks and the requests. -/
private structure Keeps (s t : Tab ν) : Prop where
  clicks : t.clicks = s.clicks
  flights : ∀ f ∈ t.flights, f ∈ s.flights ∨ f.click = s.clicks

omit [JsNumber ν] [JsPrecision ν] in
private theorem Keeps.refl (s : Tab ν) : Keeps s s := ⟨rfl, fun _ hf ↦ Or.inl hf⟩

omit [JsNumber ν] [JsPrecision ν] in
private theorem Keeps.trans (h : Keeps s t) (h' : Keeps t u) : Keeps s u := by
  refine ⟨h'.clicks.trans h.clicks, ?_⟩
  intro f hf
  rcases h'.flights f hf with hf | hf
  · exact h.flights f hf
  · exact Or.inr (hf.trans h.clicks)

omit [JsPrecision ν] in
private theorem keeps_searchBox (lower : JsString → JsString) (box : Box) (query : JsString)
    (s : Tab ν) : Keeps s (Chain.effects (searchBox lower box query) s) := by
  rw [effects_searchBox]
  cases (Client.search lower s.storage query : Lookup ν) with
  | blank => exact .refl s
  | thrown => exact .refl s
  | hit data =>
    dsimp only
    rw [effects_onPage]
    exact ⟨rfl, fun _ hf ↦ Or.inl hf⟩
  | miss key =>
    refine ⟨rfl, ?_⟩
    intro f hf
    rcases List.mem_append.mp hf with hf | hf
    · exact Or.inl hf
    · exact Or.inr (by rw [List.mem_singleton.mp hf])

omit [JsNumber ν] [JsPrecision ν] in
/-- Two parts of a handler, of which the second is left out when the first throws. -/
private theorem keeps_bind {p q : Script ν Unit} (hp : ∀ s, Keeps s (Chain.effects p s))
    (hq : ∀ s, Keeps s (Chain.effects q s)) (s : Tab ν) :
    Keeps s (Chain.effects (p >>= fun _ ↦ q) s) := by
  have h := hp s
  rw [Chain.effects] at h
  cases hr : p s with
  | ok a t =>
    rw [hr] at h
    rw [Chain.effects_bind_ok hr]
    exact h.trans (hq t)
  | error e t =>
    rw [hr] at h
    rw [Chain.effects_bind_error hr]
    exact h

omit [JsPrecision ν] in
/-- A click has a number of its own, and the requests it makes have this number. -/
private theorem keeps_compare (lower : JsString → JsString) (query₁ query₂ : JsString)
    (s : Tab ν) : Keeps s.cleared (Chain.effects (compare lower query₁ query₂) s) := by
  have hfirst : ∀ t : Tab ν, Keeps t (Chain.effects
      (if query₁ ≠ [] then searchBox lower .first query₁ else pure ()) t) := by
    intro t
    split
    · exact keeps_searchBox lower .first query₁ t
    · exact .refl t
  have heq : Chain.effects (compare lower query₁ query₂) s = Chain.effects
      ((if query₁ ≠ [] then searchBox lower .first query₁ else pure ()) >>= fun _ ↦
        searchBox lower .second query₂) s.cleared := by
    unfold compare
    split <;> rfl
  rw [heq]
  exact keeps_bind hfirst (keeps_searchBox lower .second query₂) s.cleared

omit [JsPrecision ν] in
/-- What a step of the searches does to the clicks and the requests. -/
private theorem tab_step_cases {lower : JsString → JsString} {act : TabAction ν}
    (h : s.step lower act = some t) :
    (s.clickOf act = s.clicks + 1 ∧ t.clicks = s.clicks + 1 ∧
      ∀ f ∈ t.flights, f ∈ s.flights ∨ f.click = s.clicks + 1) ∨
    (∃ flight ∈ s.flights, s.clickOf act = flight.click ∧ t.clicks = s.clicks ∧
      ∀ f ∈ t.flights, f ∈ s.flights) := by
  cases act with
  | click query₁ query₂ =>
    cases h
    have hk := keeps_compare lower query₁ query₂ s
    exact Or.inl ⟨rfl, hk.clicks, hk.flights⟩
  | deliver index data =>
    obtain ⟨flight, hf, rfl⟩ := Option.map_eq_some_iff.mp h
    refine Or.inr ⟨flight, List.mem_of_getElem? hf, by simp [Tab.clickOf, hf], ?_⟩
    rw [effects_done]
    exact ⟨rfl, fun f hf ↦ List.mem_of_mem_eraseIdx hf⟩

end Searches

/-! ### What a tag response does -/

/-- What a tag response does to the array and the panel: nothing when it cannot be read; otherwise
its list is stored, and the panel is written if the other list is there. -/
inductive Arrival (s : TagState ν) (box : Box) (result : Json ν) (t : TagState ν) : Prop where
  | unreadable (hr : (readTags result).isOk = false) (ht : t = s)
  | stored (names : List (Val ν)) (hr : readTags result = .ok names)
      (ht : t.tags = Function.update s.tags box (some names)) (hw : t.written = s.written)
  | shown (names first second : List (Val ν)) (hr : readTags result = .ok names)
      (ho : (s.tags box.other).isSome = true)
      (ht : t.tags = Function.update s.tags box (some names)) (hf : t.tags .first = some first)
      (hs : t.tags .second = some second) (hw : t.written = s.written ++ [(first, second)])

private theorem arrival (upper : JsString → JsString) (box : Box) (result : Json ν)
    (s : TagState ν) :
    Arrival s box result (Chain.effects (tagCallback upper box result) s) := by
  rw [tagCallback]
  cases hr : readTags result with
  | error e => exact .unreadable (by simp [hr, Except.isOk, Except.toBool]) rfl
  | ok names =>
    rw [Chain.settled_ok, pure_bind]
    have hother : (s.store box names).tags box.other = s.tags box.other :=
      Function.update_of_ne box.other_ne _ _
    rw [onTags, Chain.effects_modify_bind, Chain.effects_get_bind]
    cases hf : (s.store box names).tags .first with
    | none =>
      cases hs : (s.store box names).tags .second with
      | none => exact .stored names hr rfl rfl
      | some second => exact .stored names hr rfl rfl
    | some first =>
      cases hs : (s.store box names).tags .second with
      | none => exact .stored names hr rfl rfl
      | some second =>
        obtain ⟨ht, hw⟩ := effects_showTags upper names.length first second (s.store box names)
        refine .shown names first second hr ?_ ht (ht ▸ hf) (ht ▸ hs) hw
        rw [← hother]
        cases box with
        | first =>
          rw [Box.other, hs]
          rfl
        | second =>
          rw [Box.other, hf]
          rfl

/-! ### Runs -/

variable {lower upper : JsString → JsString} {s s' : Browser ν} {act : BrowserAction ν}

/-- The invariant of the runs: nothing is for a later click than the last one, and a list that is
for the last click is the one that has answered it. -/
private structure Dated (s : Browser ν) : Prop where
  flights : ∀ f ∈ s.tab.flights, f.click ≤ s.tab.clicks
  tagFlights : ∀ f ∈ s.tagFlights, f.click ≤ s.tab.clicks
  origins : ∀ box c, s.origins box = some c → c ≤ s.tab.clicks
  lists : ∀ box names, s.tagState.tags box = some names → s.origins box = some s.tab.clicks →
    s.lists box = some names

omit [JsNumber ν] [JsPrecision ν] in
/-- A tag request is for the click whose searches the action handled. -/
private theorem click_of_mem {fs : List TagFlight} {s t : Tab ν} {act : TabAction ν}
    {f : TagFlight} (h : f ∈ fs ++ newTagFlights s act t) : f ∈ fs ∨ f.click = s.clickOf act := by
  rcases List.mem_append.mp h with h | h
  · exact Or.inl h
  · obtain ⟨p, -, rfl⟩ := List.mem_map.mp h
    exact Or.inr rfl

private theorem dated_page {act : TabAction ν} (hs : Dated s)
    (h : s.step lower upper (.page act) = some s') : Dated s' := by
  obtain ⟨tab, htab, rfl⟩ := Option.map_eq_some_iff.mp h
  rcases tab_step_cases htab with ⟨hclick, hclicks, hflights⟩ |
    ⟨flight, hflight, hclick, hclicks, hflights⟩
  · -- a click: what was for the click before it is not for the last one any more
    have hle : s.tab.clicks ≤ tab.clicks := by omega
    constructor
    · intro f hf
      rcases hflights f hf with hf | hf
      · exact (hs.flights f hf).trans hle
      · exact (hf.trans hclicks.symm).le
    · intro f hf
      rcases click_of_mem hf with hf | hf
      · exact (hs.tagFlights f hf).trans hle
      · exact ((hf.trans hclick).trans hclicks.symm).le
    · intro box c hc
      exact (hs.origins box c hc).trans hle
    · intro box names _ hc
      have := hs.origins box _ hc
      dsimp only at this
      omega
  · have hle := hs.flights flight hflight
    constructor
    · intro f hf
      exact (hs.flights f (hflights f hf)).trans hclicks.ge
    · intro f hf
      rcases click_of_mem hf with hf | hf
      · exact (hs.tagFlights f hf).trans hclicks.ge
      · exact ((hf.trans hclick).le.trans hle).trans hclicks.ge
    · intro box c hc
      exact (hs.origins box c hc).trans hclicks.ge
    · intro box names ht hc
      dsimp only at hc ⊢
      rw [if_pos hclicks]
      exact hs.lists box names ht (by rw [hc, hclicks])

omit [JsPrecision ν] in
/-- A response that can be read puts its list into its slot. -/
private theorem tags_of_arrival {t : TagState ν} {st : TagState ν} {box : Box} {result : Json ν}
    {names : List (Val ν)} (h : Arrival st box result t) (hr : readTags result = .ok names) :
    t.tags = Function.update st.tags box (some names) := by
  cases h with
  | unreadable hr' ht =>
    rw [hr] at hr'
    cases hr'
  | stored names' hr' ht hw =>
    rw [hr, Except.ok.injEq] at hr'
    rwa [hr']
  | shown names' first second hr' ho ht hf hs hw =>
    rw [hr, Except.ok.injEq] at hr'
    rwa [hr']

private theorem dated_arrive {index : Nat} {flight : TagFlight} {result : Json ν} (hs : Dated s)
    (hclick : flight.click ≤ s.tab.clicks) : Dated (s.arrive upper index flight result) := by
  have harrival := arrival upper flight.box result s.tagState
  have htagFlights : ∀ f ∈ s.tagFlights.eraseIdx index, f.click ≤ s.tab.clicks := fun f hf ↦
    hs.tagFlights f (List.mem_of_mem_eraseIdx hf)
  cases hr : readTags result with
  | error e =>
    cases harrival with
    | unreadable hr' ht =>
      simp only [Browser.arrive, hr, ht]
      exact ⟨hs.flights, htagFlights, hs.origins, hs.lists⟩
    | stored names hr' | shown names first second hr' =>
      rw [hr] at hr'
      cases hr'
  | ok names =>
    have ht := tags_of_arrival harrival hr
    refine ⟨hs.flights, htagFlights, ?_, ?_⟩
    · intro box c hc
      simp only [Browser.arrive, hr] at hc
      by_cases hb : box = flight.box
      · subst hb
        rw [Function.update_self, Option.some_inj] at hc
        exact hc ▸ hclick
      · rw [Function.update_of_ne hb] at hc
        exact hs.origins box c hc
    · intro box names' hn hc
      simp only [Browser.arrive, hr, ht] at hn hc ⊢
      by_cases hb : box = flight.box
      · subst hb
        rw [Function.update_self, Option.some_inj] at hn hc
        rw [if_pos hc, Function.update_self, hn]
      · rw [Function.update_of_ne hb] at hn hc
        split
        · rw [Function.update_of_ne hb]
          exact hs.lists box names' hn hc
        · exact hs.lists box names' hn hc

private theorem dated_step (hs : Dated s) (h : s.step lower upper act = some s') : Dated s' := by
  cases act with
  | page act => exact dated_page hs h
  | tags index result =>
    obtain ⟨flight, hf, rfl⟩ := Option.map_eq_some_iff.mp h
    exact dated_arrive hs (hs.tagFlights flight (List.mem_of_getElem? hf))

omit [JsNumber ν] [JsPrecision ν] in
private theorem dated_init (page : Page ν) (storage : Storage) :
    Dated (Browser.init page storage) := by
  constructor
  all_goals
    intros
    contradiction

/-- In every state reached, the lists in the array that are for the last click have answered it. -/
private theorem dated_of_run {page : Page ν} {storage : Storage} {as : List (BrowserAction ν)}
    (h : run (Browser.step lower upper) (Browser.init page storage) as = some s) : Dated s :=
  run_induction (fun _ _ _ hs hstep ↦ dated_step hs hstep) (dated_init page storage) h

instance (s : Browser ν) : DecidablePred (Prompt s)
  | .page _ => .isTrue trivial
  | .tags index result => inferInstanceAs (Decidable (∀ flight ∈ s.tagFlights[index]?,
      (readTags result).isOk = true → (s.tagState.tags flight.box.other).isSome = true →
        flight.click = s.tab.clicks ∧ s.origins flight.box.other = some s.tab.clicks))

/-- A page with nothing stored. -/
def freshBrowser : Browser Whole := Browser.init Page.blank fun _ ↦ none

/-- A comparison of two artists up to the first of its two tag responses. -/
def firstComparison : List (BrowserAction Whole) :=
  [.page (.click (js "Cher") (js "Abba")), .page (.deliver 0 (receivedData cherEntries)),
    .page (.deliver 0 (receivedData cherEntries)), .tags 0 rockTags]

/-- The page after these actions. -/
def browserAfter (as : List (BrowserAction Whole)) : Browser Whole :=
  (run (Browser.step LowerCase.ascii.lower upperAscii) freshBrowser as).getD freshBrowser

/-- The comparison to its end, and a click with the second box empty, whose first box is served from
`localStorage`. -/
def secondComparison : List (BrowserAction Whole) :=
  firstComparison ++ [.tags 0 rockTags, .page (.click (js "Abba") [])]

end MusicComparer.Client
