import Mathlib.Algebra.Order.Field.Rat
import Mathlib.Data.List.Perm.Subperm
import MusicComparer.Client.HandleData

/-!
# The tags that two artists share

The callback on the response of `/api/tags/`, `clientside.js:331–361`. It puts the tag names of an
artist into its slot of the global array `tags` and, when the array has length two, intersects the
two lists and writes `#matchingtags`. The length of an array is one more than its last index, so it
is two as soon as the second slot is set. The panel is the list of the HTML texts that were put into
it. Logging is left out: the texts it joins are primitive values, which convert.
-/

namespace MusicComparer.Client

open MusicComparer.Js

variable {ν : Type} [JsNumber ν] [JsPrecision ν]

/-- The other box. -/
def Box.other : Box → Box
  | first => second
  | second => first

theorem Box.other_ne (box : Box) : box.other ≠ box := by
  cases box <;> decide

theorem Box.eq_other {box box' : Box} (h : box ≠ box') : box = box'.other := by
  cases box <;> cases box' <;> first | rfl | exact absurd rfl h

/-- The strict equality `v === w`. Numbers print alike exactly when they are equal, and objects and
arrays of different responses are different. -/
def strictEq : Val ν → Val ν → Bool
  | none, none => true
  | some .null, some .null => true
  | some (.bool a), some (.bool b) => a == b
  | some (.num m), some (.num n) => !JsNumber.isNaN m && JsNumber.toStr m == JsNumber.toStr n
  | some (.str s), some (.str t) => s == t
  | _, _ => false

/-- `tags[0].filter(function (n) { return tags[1].indexOf(n) != -1; })`, `clientside.js:338–340`. -/
def intersecting (first second : List (Val ν)) : List (Val ν) :=
  first.filter fun n ↦ second.any (strictEq n)

/-- `result.toptags.tag.map(function (item) { return item.name; })`, `clientside.js:333–335`: the
value has a `map` if it is an array. -/
def readTags (result : Json ν) : Except (JsError ν) (List (Val ν)) := do
  let toptags ← Val.get (some result) (js "toptags")
  let tag ← toptags.get (js "tag")
  match tag with
  | some (.arr items) => items.mapM fun item ↦ Val.get (some item) (js "name")
  | _ => throw .typeError

/-- `v.toUpperCase()`: only strings have the method. -/
def toUpperCase (upper : JsString → JsString) : Val ν → Except (JsError ν) JsString
  | some (.str s) => .ok (upper s)
  | _ => .error .typeError

/-- `v.slice(1)` of a tag name. An array has the method too, but no array is among the common
tags. -/
def sliceOne : Val ν → Except (JsError ν) JsString
  | some (.str s) => .ok (s.drop 1)
  | _ => .error .typeError

/-- The loop of `clientside.js:347–350`. -/
def restText : List (Val ν) → Except (JsError ν) JsString
  | [] => .ok []
  | tag :: tags => do
    let s ← tag.toText
    let rest ← restText tags
    pure (s ++ js ", " ++ rest)

/-- The text of the paragraph, `clientside.js:346–350`. Reading index 0 of no tags gives
`undefined`. -/
def tagText (upper : JsString → JsString) (common : List (Val ν)) :
    Except (JsError ν) JsString := do
  let tag := common.head?.getD none
  let letter ← tag.get (js "0")
  let head ← toUpperCase upper letter
  let tail ← sliceOne tag
  let rest ← restText common.tail
  pure (head ++ tail ++ (if 1 < common.length then js ", " else []) ++ rest)

/-- The last paragraph, `clientside.js:353–359`. -/
def totalText (ν : Type) [JsNumber ν] [JsPrecision ν] (count size : Nat) : JsString :=
  let n : ν := JsNumber.ofNat count
  let m : ν := JsNumber.ofNat size
  js "<p>A total of " ++ JsNumber.toStr n ++ js " of " ++ JsNumber.toStr m ++ js " tags. Or ~" ++
    JsPrecision.toPrecision (JsPrecision.mul (JsNumber.div n m) (JsNumber.ofNat 100)) 2 ++
    js "%.</p>"

/-- The array `tags` and the panel `#matchingtags`. The pairs of lists for which the panel was
written are not in the code. -/
structure TagState (ν : Type) where
  tags : Box → Option (List (Val ν))
  panel : List JsString
  written : List (List (Val ν) × List (Val ν))

/-- `var tags = []`, and an empty panel. -/
def TagState.init : TagState ν := ⟨fun _ ↦ none, [], []⟩

/-- The assignment to `tags[offset]`. -/
def TagState.store (s : TagState ν) (box : Box) (names : List (Val ν)) : TagState ν :=
  { s with tags := Function.update s.tags box (some names) }

/-- `matching_tags.append(…)`. -/
def TagState.append (s : TagState ν) (html : JsString) : TagState ν :=
  { s with panel := s.panel ++ [html] }

/-- Code on the array and the panel. -/
abbrev TagScript (ν : Type) := EStateM (JsError ν) (TagState ν)

/-- `matching_tags.empty()` and the heading, `clientside.js:343–344`. -/
def startPanel (first second : List (Val ν)) : TagScript ν Unit :=
  modify fun s ↦ { s with
    panel := [js "<h6>These are the matching tags</h6>"]
    written := s.written ++ [(first, second)] }

/-- What the callback does when the array has length two, `clientside.js:338–359`. -/
def showTags (upper : JsString → JsString) (size : Nat) (first second : List (Val ν)) :
    TagScript ν Unit := do
  let common := intersecting first second
  startPanel first second
  let text ← Chain.settled (tagText upper common)
  modify fun s ↦ s.append (js "<p>" ++ text ++ js "</p>")
  modify fun s ↦ s.append (totalText ν common.length size)

/-- The callback after it has read the names, `clientside.js:333–360`. With the second slot set and
the first not, `tags[0]` is a hole of the array and its `filter` is read from `undefined`. -/
def onTags (upper : JsString → JsString) (box : Box) (names : List (Val ν)) :
    TagScript ν Unit := do
  modify fun s ↦ s.store box names
  let s ← get
  match s.tags .first, s.tags .second with
  | some first, some second => showTags upper names.length first second
  | none, some _ => throw .typeError
  | _, none => pure ()

/-- The callback on the response of `/api/tags/`, `clientside.js:331–361`. -/
def tagCallback (upper : JsString → JsString) (box : Box) (result : Json ν) :
    TagScript ν Unit := do
  let names ← Chain.settled (readTags result)
  onTags upper box names

/-! ### Both lists present -/

/-- The lists of tag names, as the callback reads them. -/
def names (ν : Type) (tags : List JsString) : List (Val ν) := tags.map fun t ↦ some (.str t)

/-- The one of two values that belongs to a box. -/
def Box.pick {α : Type} (box : Box) (a b : α) : α :=
  match box with
  | first => a
  | second => b

/-- The callback for a box, with these lists for the two boxes and the other one stored before. -/
def tagsArrive (upper : JsString → JsString) (box : Box) (a b : List (Val ν)) (s : TagState ν) :
    EStateM.Result (JsError ν) (TagState ν) Unit :=
  onTags upper box (box.pick a b) (s.store box.other (box.other.pick a b))

/-- With both lists present the callback shows their intersection. -/
private theorem tagsArrive_eq (upper : JsString → JsString) (box : Box) (a b : List (Val ν))
    (s : TagState ν) : tagsArrive upper box a b s =
      showTags upper (box.pick a b).length a b
        ((s.store box.other (box.other.pick a b)).store box (box.pick a b)) := by
  cases box with
  | first => rfl
  | second => rfl

/-- The panel once it is written. -/
private theorem showTags_eq (upper : JsString → JsString) (size : Nat) (a b : List (Val ν))
    (s : TagState ν) : showTags upper size a b s =
      match tagText upper (intersecting a b) with
      | .ok text => .ok () { s with
          panel := [js "<h6>These are the matching tags</h6>", js "<p>" ++ text ++ js "</p>",
            totalText ν (intersecting a b).length size]
          written := s.written ++ [(a, b)] }
      | .error e => .error e { s with
          panel := [js "<h6>These are the matching tags</h6>"]
          written := s.written ++ [(a, b)] } := by
  unfold showTags
  cases tagText upper (intersecting a b) with
  | ok text => rfl
  | error e => rfl

/-- Whether the text can be built or not, the array stays and the writing is recorded. -/
theorem effects_showTags (upper : JsString → JsString) (size : Nat) (a b : List (Val ν))
    (s : TagState ν) : (Chain.effects (showTags upper size a b) s).tags = s.tags ∧
      (Chain.effects (showTags upper size a b) s).written = s.written ++ [(a, b)] := by
  rw [Chain.effects, showTags_eq]
  cases tagText upper (intersecting a b) with
  | ok text => exact ⟨rfl, rfl⟩
  | error e => exact ⟨rfl, rfl⟩

omit [JsPrecision ν] in
/-- Of lists of names, the first is filtered by membership in the second. -/
private theorem intersecting_names (a b : List JsString) :
    intersecting (names ν a) (names ν b) = names ν (a.filter fun t ↦ decide (t ∈ b)) := by
  rw [intersecting, names, names, names, List.filter_map]
  congr 1
  apply List.filter_congr
  intro t _
  rw [Function.comp_apply, List.any_map, Bool.eq_iff_iff, List.any_eq_true, decide_eq_true_iff]
  constructor
  · rintro ⟨u, hu, he⟩
    rw [Function.comp_apply, strictEq, beq_iff_eq] at he
    rwa [he]
  · intro ht
    exact ⟨t, ht, beq_self_eq_true t⟩

/-! ### The count -/

omit [JsPrecision ν] in
/-- A name is among the common tags exactly when it is in both lists. -/
private theorem mem_intersecting_names {a b : List JsString} {v : Val ν} :
    v ∈ intersecting (names ν a) (names ν b) ↔ ∃ t, v = some (.str t) ∧ t ∈ a ∧ t ∈ b := by
  rw [intersecting_names, names, List.mem_map]
  constructor
  · rintro ⟨t, ht, rfl⟩
    rw [List.mem_filter, decide_eq_true_iff] at ht
    exact ⟨t, rfl, ht⟩
  · rintro ⟨t, rfl, ht⟩
    exact ⟨t, by rwa [List.mem_filter, decide_eq_true_iff], rfl⟩

/-- Lists without repetition have the same common elements either way round. -/
private theorem filter_mem_perm {a b : List JsString} (ha : a.Nodup) (hb : b.Nodup) :
    (a.filter fun t ↦ decide (t ∈ b)).Perm (b.filter fun t ↦ decide (t ∈ a)) := by
  rw [List.perm_ext_iff_of_nodup (ha.filter _) (hb.filter _)]
  intro t
  simp only [List.mem_filter, decide_eq_true_iff]
  exact and_comm

/-- A part of at most `size` things is a fraction between zero and one of them. -/
private theorem fraction_bounds {count size : Nat} (h : count ≤ size) :
    0 ≤ (count : ℚ) / size ∧ (count : ℚ) / size ≤ 1 := by
  have hsize : (0 : ℚ) ≤ size := Nat.cast_nonneg size
  exact ⟨div_nonneg (Nat.cast_nonneg count) hsize, div_le_one_of_le₀ (Nat.cast_le.mpr h) hsize⟩

/-- The number of matching tags of two lists without repetition: the panel shows it, it is the same
with the boxes exchanged, it is at most the length of each list, so that it is a fraction of either
between zero and one, and the tags counted are those in both lists. -/
theorem matching_tags_count {a b : List JsString} (ha : a.Nodup) (hb : b.Nodup) :
    (∀ upper box s s', tagsArrive upper box (names ν a) (names ν b) s = .ok () s' →
      s'.panel.getLast? = some (totalText ν (intersecting (names ν a) (names ν b)).length
        (box.pick a b).length)) ∧
    (intersecting (names ν a) (names ν b)).length =
      (intersecting (names ν b) (names ν a)).length ∧
    (intersecting (names ν a) (names ν b)).length ≤ min a.length b.length ∧
    (∀ box : Box, box.pick a b ≠ [] →
      0 ≤ ((intersecting (names ν a) (names ν b)).length : ℚ) / (box.pick a b).length ∧
      ((intersecting (names ν a) (names ν b)).length : ℚ) / (box.pick a b).length ≤ 1) ∧
    ∀ v : Val ν, v ∈ intersecting (names ν a) (names ν b) ↔
      ∃ t, v = some (.str t) ∧ t ∈ a ∧ t ∈ b := by
  have hperm := filter_mem_perm ha hb
  have hlength : (intersecting (names ν a) (names ν b)).length =
      (a.filter fun t ↦ decide (t ∈ b)).length := by
    rw [intersecting_names, names, List.length_map]
  have hmin : (intersecting (names ν a) (names ν b)).length ≤ min a.length b.length := by
    rw [hlength, le_min_iff]
    refine ⟨List.length_filter_le _ _, ?_⟩
    rw [hperm.length_eq]
    exact List.length_filter_le _ _
  refine ⟨?_, ?_, hmin, ?_, fun v ↦ mem_intersecting_names⟩
  · intro upper box s s' h
    rw [tagsArrive_eq, showTags_eq] at h
    split at h
    · cases h
      cases box with
      | first => simp [Box.pick, names]
      | second => simp [Box.pick, names]
    · cases h
  · rw [hlength, intersecting_names b a, names, List.length_map]
    exact hperm.length_eq
  · intro box _
    apply fraction_bounds
    cases box with
    | first => exact hmin.trans (min_le_left _ _)
    | second => exact hmin.trans (min_le_right _ _)

/-- Two artists with tags in different orders, of which one is shared. -/
theorem matching_tags_count_rock :
    [js "rock", js "pop"].Nodup ∧ [js "jazz", js "rock"].Nodup ∧
    (intersecting (names Whole [js "rock", js "pop"]) (names Whole [js "jazz", js "rock"])).length =
      (intersecting (names Whole [js "jazz", js "rock"])
        (names Whole [js "rock", js "pop"])).length :=
  ⟨by decide, by decide, (matching_tags_count (by decide) (by decide)).2.1⟩

/-! ### The paragraph -/

/-- A name with its first letter in upper case. -/
def capitalise (upper : JsString → JsString) : JsString → JsString
  | [] => []
  | c :: cs => upper [c] ++ cs

/-- What the paragraph is meant to say: the tags in order, the first one capitalised, with commas
between them. -/
def sharedText (upper : JsString → JsString) : List JsString → JsString
  | [] => []
  | t :: ts => (js ", ").intercalate (capitalise upper t :: ts)

omit [JsPrecision ν] in
private theorem restText_names (ts : List JsString) :
    restText (names ν ts) = .ok (ts.flatMap fun t ↦ t ++ js ", ") := by
  induction ts with
  | nil => rfl
  | cons t ts ih =>
    change (do
      let s ← Val.toText (some (.str t) : Val ν)
      let rest ← restText (names ν ts)
      pure (s ++ js ", " ++ rest)) = _
    rw [ih, List.flatMap_cons]
    rfl

/-- The loop puts a separator behind every tag. -/
private theorem flatMap_separator (t : JsString) (ts : List JsString) :
    (js ", ").intercalate (t :: ts) ++ js ", " =
      t ++ js ", " ++ ts.flatMap fun t ↦ t ++ js ", " := by
  induction ts generalizing t with
  | nil => rw [List.intercalate_singleton, List.flatMap_nil, List.append_nil]
  | cons u ts ih =>
    rw [List.intercalate_cons_cons, List.append_assoc, List.append_assoc, ih, List.flatMap_cons,
      List.append_assoc, List.append_assoc]

omit [JsPrecision ν] in
/-- The text for a first tag with a letter: what is meant, and a separator behind it if there are
more tags. -/
private theorem tagText_cons (upper : JsString → JsString) (c : UInt16) (cs : JsString)
    (ts : List JsString) : tagText upper (names ν ((c :: cs) :: ts)) =
      .ok (sharedText upper ((c :: cs) :: ts) ++ if ts = [] then [] else js ", ") := by
  have htext : tagText upper (names ν ((c :: cs) :: ts)) = restText (names ν ts) >>= fun rest ↦
      pure (upper [c] ++ cs ++ (if 1 < (names ν ((c :: cs) :: ts)).length then js ", " else []) ++
        rest) := rfl
  rw [htext, restText_names, names, List.length_map, List.length_cons, sharedText, capitalise]
  cases ts with
  | nil =>
    rw [List.intercalate_singleton, if_neg (by simp), if_pos rfl, List.flatMap_nil]
    exact congrArg Except.ok (List.append_nil _)
  | cons u us =>
    rw [if_pos (by simp), if_neg (by simp), flatMap_separator]
    rfl

omit [JsPrecision ν] in
/-- Without a first letter the text cannot be built. -/
private theorem tagText_throws (upper : JsString → JsString) (common : List JsString)
    (h : common.head?.getD [] = []) : tagText upper (names ν common) = .error .typeError := by
  cases common with
  | nil => rfl
  | cons t ts =>
    obtain rfl : t = [] := h
    rfl

/-- With both lists present, the callback returns and the paragraph says the common tags, the first
one capitalised, separated by commas, if and only if there is exactly one common tag and it is not
the empty text. -/
theorem paragraph_iff (upper : JsString → JsString) (box : Box) (a b : List JsString)
    (s : TagState ν) :
    (∃ s', tagsArrive upper box (names ν a) (names ν b) s = .ok () s' ∧
      s'.panel[1]? = some (js "<p>" ++ sharedText upper (a.filter fun t ↦ decide (t ∈ b)) ++
        js "</p>")) ↔
      ∃ t, (a.filter fun t ↦ decide (t ∈ b)) = [t] ∧ t ≠ [] := by
  rw [tagsArrive_eq, showTags_eq, intersecting_names]
  generalize (a.filter fun t ↦ decide (t ∈ b)) = common
  cases common with
  | nil =>
    rw [tagText_throws upper [] rfl]
    simp
  | cons t ts =>
    cases t with
    | nil =>
      rw [tagText_throws upper ([] :: ts) rfl]
      simp
    | cons c cs =>
      rw [tagText_cons]
      constructor
      · rintro ⟨s', hs', hp⟩
        cases hs'
        have htext := List.append_cancel_left
          (List.append_cancel_right (Option.some_inj.mp hp))
        -- a separator behind the last tag is not meant
        have hsep := List.append_right_eq_self.mp htext
        have hts : ts = [] := by
          by_contra hne
          rw [if_neg hne] at hsep
          cases hsep
        exact ⟨c :: cs, by rw [hts], by simp⟩
      · rintro ⟨t, ht, -⟩
        rw [List.cons.injEq] at ht
        obtain ⟨-, rfl⟩ := ht
        exact ⟨_, rfl, by simp⟩

/-- Upper case of the ASCII letters. -/
def upperAscii (s : JsString) : JsString := s.map fun c ↦ if 97 ≤ c && c ≤ 122 then c - 32 else c

/-- The effects of a callback on the panel, and whether it returned. -/
def outcome (r : EStateM.Result (JsError ν) (TagState ν) Unit) : Bool × List JsString :=
  match r with
  | .ok _ s => (true, s.panel)
  | .error _ s => (false, s.panel)

/-- For lists without a common tag the callback throws with only the heading written; for two common
tags a separator is left at the end. -/
theorem paragraph_none_or_two :
    outcome (tagsArrive upperAscii .second (names Whole [js "rock"]) (names Whole [js "pop"])
      TagState.init) = (false, [js "<h6>These are the matching tags</h6>"]) ∧
    (outcome (tagsArrive upperAscii .second (names Whole [js "rock", js "pop"])
      (names Whole [js "pop", js "rock"]) TagState.init)).2[1]? = some (js "<p>Rock, pop, </p>") ∧
    sharedText upperAscii [js "rock", js "pop"] = js "Rock, pop" := by
  decide +kernel

/-! ### Two orders of arrival -/

/-- The two responses commute on a fresh page: in either order both callbacks return, and the array
and the panel are the same at the end. -/
def TagsCommute (upper : JsString → JsString) (result₁ result₂ : Json ν) : Prop :=
  ∃ s s', (tagCallback upper .first result₁ >>= fun _ ↦ tagCallback upper .second result₂)
      TagState.init = .ok () s ∧
    (tagCallback upper .second result₂ >>= fun _ ↦ tagCallback upper .first result₁)
      TagState.init = .ok () s' ∧ s.tags = s'.tags ∧ s.panel = s'.panel

/-- The response for the second box throws on a fresh page: it finds an array of length two with a
hole in the place of the first list. -/
private theorem tagCallback_second_throws (upper : JsString → JsString) (result : Json ν) :
    ∃ e s, tagCallback upper .second result TagState.init = .error e s := by
  cases h : readTags result with
  | error e =>
    refine ⟨e, TagState.init, ?_⟩
    rw [tagCallback, h]
    rfl
  | ok names =>
    refine ⟨.typeError, TagState.init.store .second names, ?_⟩
    rw [tagCallback, h]
    rfl

/-- So what comes after it is not reached. -/
private theorem second_first_throws (upper : JsString → JsString) (result₁ result₂ : Json ν) :
    ∃ e s, (tagCallback upper .second result₂ >>= fun _ ↦ tagCallback upper .first result₁)
      TagState.init = .error e s := by
  obtain ⟨e, s, h⟩ := tagCallback_second_throws upper result₂
  refine ⟨e, s, ?_⟩
  change EStateM.bind _ _ _ = _
  rw [EStateM.bind, h]

/-- No two responses commute. -/
theorem tags_never_commute (upper : JsString → JsString) (result₁ result₂ : Json ν) :
    ¬ TagsCommute upper result₁ result₂ := by
  rintro ⟨s, s', -, h, -⟩
  obtain ⟨e, t, ht⟩ := second_first_throws upper result₁ result₂
  rw [ht] at h
  cases h

/-- A Last.fm response with the tag `rock` alone. -/
def rockTags : Json Whole :=
  .obj [(js "toptags", .obj [(js "tag", .arr [.obj [(js "name", .str (js "rock"))]])])]

/-- Two artists with this tag: in one order the panel is written, in the other the first callback
throws. -/
theorem tags_of_rock_do_not_commute :
    readTags rockTags = .ok (names Whole [js "rock"]) ∧
    outcome ((tagCallback upperAscii .first rockTags >>= fun _ ↦
      tagCallback upperAscii .second rockTags) TagState.init) =
        (true, [js "<h6>These are the matching tags</h6>", js "<p>Rock</p>",
          js "<p>A total of 1 of 1 tags. Or ~1.0e+2%.</p>"]) ∧
    outcome (tagCallback upperAscii .second rockTags TagState.init) = (false, []) ∧
    ¬ TagsCommute upperAscii rockTags rockTags := by
  refine ⟨by decide +kernel, by decide +kernel, by decide +kernel, ?_⟩
  rintro ⟨s, s', -, h, -⟩
  obtain ⟨e, t, ht⟩ := second_first_throws upperAscii rockTags rockTags
  rw [ht] at h
  cases h

end MusicComparer.Client
