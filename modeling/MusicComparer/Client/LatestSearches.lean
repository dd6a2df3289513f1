import MusicComparer.Html.Attribute
import MusicComparer.Js.Conversion
import MusicComparer.Client.HandleData

/-!
# The buttons of the latest searches

A name of the list is put into the attribute `data-query` of two buttons, by the template
`views/index.html:3–14` and again by `getLatestSearches`, `clientside.js:147–165`. A click reads it
back with `decodeURI(that.data("query"))`, `clientside.js:28–38`. The template escapes HTML and no
URI, the script escapes a URI and no HTML.
-/

namespace MusicComparer.Client

open MusicComparer.Js MusicComparer.Html

variable {ν : Type} [JsNumber ν]

/-- jQuery's `rbrace`: braces or brackets around the whole text. -/
def isBraced (s : JsString) : Bool :=
  2 ≤ s.length && ((s.head? == some 123 && s.getLast? == some 125) ||
    (s.head? == some 91 && s.getLast? == some 93))

/-- What jQuery's `data` makes of the text of an attribute. A number that would print differently
stays a string, and so does what is not JSON. -/
def dataValue (s : JsString) : Json ν :=
  if s = js "true" then .bool true
  else if s = js "false" then .bool false
  else if s = js "null" then .null
  else if JsNumber.toStr (JsNumber.ofString s : ν) = s then .num (JsNumber.ofString s)
  else if isBraced s then (Json.parse s).getD (.str s)
  else .str s

/-- Where the list is rendered. -/
inductive Renderer where
  /-- `views/index.html` -/
  | server
  /-- `getLatestSearches` -/
  | client
  deriving DecidableEq, Repr

/-- The label of the button for a text box. -/
def label : Box → List Char
  | .first => ">Box 1</button>".toList
  | .second => ">Box 2</button>".toList

/-- The value of `data-query` on a button of an entry. `none` is the `URIError` of `encodeURI`. -/
def dataQuery (refs : References) (renderer : Renderer) (box : Box) (item : JsString) :
    Option JsString :=
  match renderer with
  | .server =>
    -- `data-query="{{ search }}">Box 1</button>`
    some (utf16s (refs.attributeValue '"' (escapeHtml (scalars item) ++ '"' :: label box)))
  | .client =>
    -- `"data-query='" + item_uri + "'" + ">Box 1</button>"`
    (encodeURI item).map fun uri ↦
      utf16s (refs.attributeValue '\'' (scalars uri ++ '\'' :: label box))

/-- The `URIError` of `encodeURI` and `decodeURI`. -/
def uriError : JsError ν := .error (js "URI malformed")

/-- `decodeURI(that.data("query"))`, `clientside.js:37`. -/
def readBack (query : JsString) : Except (JsError ν) JsString := do
  let text ← (dataValue query : Json ν).toText
  match decodeURI text with
  | some value => pure value
  | none => throw uriError

/-- A click on the button of an entry for a text box, `clientside.js:28–38`. -/
def clickEntry (refs : References) (renderer : Renderer) (item : JsString) (box : Box)
    (boxes : Box → JsString) : Except (JsError ν) (Box → JsString) :=
  match dataQuery refs renderer box item with
  | some query => do
    let value ← readBack query
    pure (Function.update boxes box value)
  | none => throw uriError

/-- The text is JSON in braces, which jQuery parses. -/
def IsData (ν : Type) [JsNumber ν] (s : JsString) : Prop :=
  isBraced s = true ∧ (Json.parse s : Option (Json ν)).isSome = true

/-- The names that both renderers carry: no apostrophe, nothing that reads like a character
reference in the URI text, no escape but those of reserved characters, and no JSON in braces. -/
structure PlainEntry (ν : Type) [JsNumber ν] (refs : References) (cs : List Char) : Prop where
  no_apostrophe : '\'' ∉ cs
  no_reference : refs.hasReference (uriText cs) = false
  no_escape : reservedEscapes (utf16s cs) = true
  no_json : ¬ IsData ν (utf16s cs)

/-! ### Reading back -/

/-- Other texts are strings again after the conversion. -/
private theorem toText_dataValue {s : JsString} (h : ¬ IsData ν s) :
    (dataValue s : Json ν).toText = .ok s := by
  unfold dataValue
  split
  · next hs => rw [Json.toText, hs]
  split
  · next hs => rw [Json.toText, hs]
  split
  · next hs => rw [Json.toText, hs]
  split
  · next hs => rw [Json.toText, hs]
  split
  · next hb =>
    cases hp : (Json.parse s : Option (Json ν)) with
    | none => rw [Option.getD_none, Json.toText]
    | some j => exact absurd ⟨hb, by rw [hp]; rfl⟩ h
  · rw [Json.toText]

private theorem head_of_isBraced {s : JsString} (h : isBraced s = true) :
    ∃ c r, s = c :: r ∧ (c = 123 ∨ c = 91) := by
  cases s with
  | nil => cases h
  | cons c r =>
    refine ⟨c, r, rfl, ?_⟩
    simp only [isBraced, Bool.and_eq_true, Bool.or_eq_true, beq_iff_eq, List.head?_cons,
      Option.some_inj] at h
    rcases h.2 with h | h
    · exact .inl h.1
    · exact .inr h.1

/-- No number prints in braces. -/
private theorem toStr_ne_of_isBraced [JsNumberText ν] {s : JsString} (h : isBraced s = true)
    (n : ν) : JsNumber.toStr n ≠ s := by
  obtain ⟨c, r, rfl, hc⟩ := head_of_isBraced h
  intro hn
  cases hf : JsNumber.isFinite n with
  | true =>
    have hlexeme := JsNumber.toStr_lexeme n hf
    obtain ⟨d, r', hd, hdigit⟩ := isNumberLexeme_head hlexeme
    rw [hn, List.cons.injEq] at hd
    rw [← hd.1] at hdigit
    rcases hc with rfl | rfl <;> exact absurd hdigit (by decide)
  | false =>
    have hmem := JsNumberText.nonfinite n hf
    have hheads : ∀ t ∈ [js "NaN", js "Infinity", js "-Infinity"],
        t.head? ≠ some 123 ∧ t.head? ≠ some 91 := by decide
    have hhead := hheads _ hmem
    rw [hn, List.head?_cons, ne_eq, ne_eq, Option.some_inj, Option.some_inj] at hhead
    rcases hc with rfl | rfl
    · exact hhead.1 rfl
    · exact hhead.2 rfl

private theorem dataValue_of_parse [JsNumberText ν] {s : JsString} {j : Json ν}
    (hb : isBraced s = true) (hj : Json.parse s = some j) : dataValue s = j := by
  have hword : s ≠ js "true" ∧ s ≠ js "false" ∧ s ≠ js "null" := by
    refine ⟨?_, ?_, ?_⟩ <;> rintro rfl <;> exact absurd hb (by decide)
  rw [dataValue, if_neg hword.1, if_neg hword.2.1, if_neg hword.2.2,
    if_neg (toStr_ne_of_isBraced hb _), if_pos hb, hj, Option.getD_some]

private theorem readBack_eq_ok_iff {query value : JsString} :
    readBack (ν := ν) query = .ok value ↔
      ∃ text, (dataValue query : Json ν).toText = .ok text ∧ decodeURI text = some value := by
  rw [readBack, bind_eq_ok_iff]
  apply exists_congr
  intro text
  apply and_congr_right
  intro _
  cases decodeURI text with
  | none =>
    constructor <;> intro h <;> cases h
  | some v =>
    constructor <;> intro h <;> cases h <;> rfl

private theorem readBack_of_not_isData {query value : JsString} (h : ¬ IsData ν query) :
    readBack (ν := ν) query = .ok value ↔ decodeURI query = some value := by
  rw [readBack_eq_ok_iff, toText_dataValue h]
  constructor
  · rintro ⟨text, ht, hd⟩
    cases ht
    exact hd
  · intro hd
    exact ⟨query, rfl, hd⟩

private theorem readBack_of_isData [JsNumberText ν] {query value : JsString} (h : IsData ν query)
    (hr : readBack (ν := ν) query = .ok value) :
    ∃ (j : Json ν) (text : JsString), Json.parse query = some j ∧ j.toText = .ok text ∧
      decodeURI text = some value := by
  rw [readBack_eq_ok_iff] at hr
  obtain ⟨text, ht, hd⟩ := hr
  obtain ⟨j, hj⟩ := Option.isSome_iff_exists.mp h.2
  rw [dataValue_of_parse h.1 hj] at ht
  exact ⟨j, text, hj, ht, hd⟩

/-! ### The template -/

/-- Units that `decodeURI` and the conversion of JSON cannot add. -/
private def isOpening (u : UInt16) : Bool := u ∈ [91, 92, 123, 37]

private theorem counted_isOpening : Json.Counted isOpening :=
  Json.counted_mem (by decide) (List.all_iff_forall_prop.mp (by decide)) (by decide) (by decide)

/-- Decoding adds no units of a kind with the percent sign. -/
private theorem countP_decodeURI {p : UInt16 → Bool} (hp : p 37 = true) {s t : JsString}
    (h : decodeURI s = some t) : t.countP p ≤ s.countP p :=
  countP_decoded (fun _ _ _ he ↦ countP_utf16_le_escapes hp he) (decode_eq_some_iff.mp h)

/-- JSON in braces is not read back: an array loses its bracket, and an object its brace. -/
private theorem not_readBack_of_isData [JsNumberText ν] {s : JsString} (h : IsData ν s) :
    readBack (ν := ν) s ≠ .ok s := by
  intro hr
  obtain ⟨j, text, hj, ht, hd⟩ := readBack_of_isData h hr
  obtain ⟨c, r, rfl, hc⟩ := head_of_isBraced h.1
  rcases hc with rfl | rfl
  · obtain ⟨ps, rfl⟩ := Json.parse_of_brace hj
    have hle := countP_decodeURI (p := fun u ↦ u ∈ [123, 37]) (by decide) hd
    have htext : text = js "[object Object]" := by
      rw [Json.toText] at ht
      split at ht
      · cases ht
      · cases ht
        rfl
    have hzero : (js "[object Object]").countP (fun u ↦ u ∈ [123, 37]) = 0 := by decide
    rw [htext, hzero, List.countP_cons_of_pos (by decide)] at hle
    omega
  · obtain ⟨xs, rfl⟩ := Json.parse_of_bracket hj
    have hle := countP_decodeURI (p := isOpening) (by decide) hd
    have hparse := Json.countP_of_parse counted_isOpening hj ht
    have hbracket : Json.bracket isOpening (Json.arr xs) = 1 := rfl
    omega

/-- The button of the template writes a name exactly when it has no escapes but those of reserved
characters, and is not JSON in braces. -/
private theorem readBack_server_iff [JsNumberText ν] {s : JsString} :
    readBack (ν := ν) s = .ok s ↔ reservedEscapes s = true ∧ ¬ IsData ν s := by
  constructor
  · intro hr
    have hdata : ¬ IsData ν s := fun h ↦ not_readBack_of_isData h hr
    rw [readBack_of_not_isData hdata, decodeURI_eq_self_iff] at hr
    exact ⟨hr, hdata⟩
  · rintro ⟨he, hdata⟩
    rw [readBack_of_not_isData hdata, decodeURI_eq_self_iff]
    exact he

/-! ### The script -/

/-- Units that stand for the marks of a text. -/
private def isMarkUnit (u : UInt16) : Bool := u ∈ [38, 92]

private theorem counted_isMarkUnit : Json.Counted isMarkUnit :=
  Json.counted_mem (by decide) (List.all_iff_forall_prop.mp (by decide)) (by decide) (by decide)

private theorem countP_isMarkUnit (cs : List Char) :
    (utf16s cs).countP isMarkUnit = cs.countP isMark := by
  apply countP_utf16s
  · intro u hu
    rw [isMarkUnit, decide_eq_true_iff] at hu
    revert u
    rw [← List.all_iff_forall_prop]
    decide
  · intro c hc
    rw [isMark, Bool.or_eq_true, beq_iff_eq, beq_iff_eq] at hc
    rcases hc with rfl | rfl
    · exact ⟨38, by decide⟩
    · exact ⟨92, by decide⟩

private theorem count_ampersand (cs : List Char) : (utf16s cs).count 38 = cs.count '&' := by
  apply countP_utf16s
  · intro u hu
    rw [eq_of_beq hu]
    decide
  · intro c hc
    rw [eq_of_beq hc]
    exact ⟨38, by decide⟩

/-- `decodeURI` makes no ampersands, which are reserved. -/
private theorem count_decodeURI {s t : JsString} (h : decodeURI s = some t) :
    t.count 38 ≤ s.count 38 := by
  apply countP_decoded _ (decode_eq_some_iff.mp h)
  intro c esc hc _
  have hzero : (utf16 c).count 38 = 0 := by
    rw [List.count_eq_zero]
    intro hmem
    rw [eq_of_mem_utf16 (by decide) hmem] at hc
    exact absurd hc (by decide)
  exact Nat.le_trans (Nat.le_of_eq hzero) (Nat.zero_le _)

/-- A text in braces starts with one. -/
private theorem head_of_isBraced_text {rs : List Char} (h : isBraced (utf16s rs) = true) :
    rs.head? = some '[' ∨ rs.head? = some '\x7b' := by
  obtain ⟨u, us, hu, hc⟩ := head_of_isBraced h
  rcases hc with rfl | rfl
  · exact .inr (head_of_utf16s (by decide) hu)
  · exact .inl (head_of_utf16s (by decide) hu)

/-- The texts that `encodeURI` makes are not in braces. -/
private theorem not_isData_uriText (cs : List Char) : ¬ IsData ν (utf16s (uriText cs)) := by
  rintro ⟨hb, -⟩
  rcases head_of_isBraced_text hb with h | h <;>
    exact absurd (mem_uriText (List.mem_of_head? h)) (by decide)

/-- JSON in braces that comes out of references has fewer ampersands than the name. -/
private theorem count_lt_of_isData [JsNumberText ν] {refs : References} {cs rs : List Char}
    (hrs : UriResolved refs cs rs) (h : IsData ν (utf16s rs)) {value : JsString}
    (hr : readBack (ν := ν) (utf16s rs) = .ok value) : value.count 38 < cs.count '&' := by
  obtain ⟨j, text, hj, ht, hd⟩ := readBack_of_isData h hr
  have hmarks : text.count 38 ≤ text.countP isMarkUnit := by
    apply List.countP_mono_left
    intro u _ hu
    rw [eq_of_beq hu]
    rfl
  calc value.count 38 ≤ text.count 38 := count_decodeURI hd
    _ ≤ text.countP isMarkUnit := hmarks
    _ ≤ (utf16s rs).countP isMarkUnit :=
      Nat.le_trans (Nat.le_add_right _ _) (Json.countP_of_parse counted_isMarkUnit hj ht)
    _ = rs.countP isMark := countP_isMarkUnit rs
    _ < cs.count '&' := hrs.countP_lt_of_head (head_of_isBraced_text h.1)

/-- Reading back what `encodeURI` makes of a name. -/
private theorem readBack_uriText (cs : List Char) :
    readBack (ν := ν) (utf16s (uriText cs)) = .ok (utf16s cs) := by
  rw [readBack_of_not_isData (not_isData_uriText cs)]
  apply decodeURI_encodeURI
  rw [encodeURI, if_pos (wellFormed_utf16s cs), scalars_utf16s]
  rfl

/-- The value of the attribute that the script writes: the name up to an apostrophe, with what reads
like a reference resolved. -/
private theorem dataQuery_client (refs : References) (box : Box) (cs : List Char) :
    dataQuery refs .client box (utf16s cs) =
      some (utf16s (refs.resolve (uriText (cs.takeWhile (· ≠ '\''))))) := by
  have hcut : (uriText cs ++ '\'' :: label box).takeWhile (· ≠ '\'') =
      uriText (cs.takeWhile (· ≠ '\'')) := by
    rw [takeWhile_append_stop (by decide), uriText, takeWhile_escapeText (by decide) (by decide)]
    rfl
  rw [dataQuery, encodeURI, if_pos (wellFormed_utf16s cs), scalars_utf16s, Option.map_some,
    scalars_utf16s]
  change some (utf16s (refs.attributeValue '\'' (uriText cs ++ '\'' :: label box))) = _
  rw [References.attributeValue, hcut]

/-- The button of the script writes a name exactly when it has no apostrophe and no reference. -/
private theorem readBack_client_iff [JsNumberText ν] (refs : References) (cs : List Char) :
    readBack (ν := ν) (utf16s (refs.resolve (uriText (cs.takeWhile (· ≠ '\''))))) =
        .ok (utf16s cs) ↔
      '\'' ∉ cs ∧ refs.hasReference (uriText cs) = false := by
  have hrs := uriResolved refs (cs.takeWhile (· ≠ '\''))
  have hprefix := (List.takeWhile_prefix (l := cs) (· ≠ '\''))
  constructor
  · intro hr
    have hcount := hprefix.sublist.count_le '&'
    by_cases hdata : IsData ν (utf16s (refs.resolve (uriText (cs.takeWhile (· ≠ '\'')))))
    · have hlt := count_lt_of_isData hrs hdata hr
      rw [count_ampersand] at hlt
      omega
    · cases hrs.change with
      | none hno heq =>
        rw [heq, readBack_uriText, Except.ok.injEq] at hr
        have hcs := utf16s_inj hr
        rw [hcs] at hno
        refine ⟨?_, hno⟩
        intro hmem
        rw [← hcs] at hmem
        exact absurd (List.mem_takeWhile_imp hmem) (by decide)
      | shorter ds heq hlen =>
        rw [heq, readBack_uriText, Except.ok.injEq] at hr
        rw [utf16s_inj hr] at hlen
        have hle := hprefix.length_le
        omega
      | lost hlt =>
        rw [readBack_of_not_isData hdata] at hr
        have hle := count_decodeURI hr
        rw [count_ampersand, count_ampersand] at hle
        omega
  · rintro ⟨hno, href⟩
    rw [takeWhile_of_not_mem hno, refs.resolve_of_no_reference href, readBack_uriText]

/-! ### Both lists -/

private theorem dataQuery_server (refs : References) (box : Box) (cs : List Char) :
    dataQuery refs .server box (utf16s cs) = some (utf16s cs) := by
  rw [dataQuery, scalars_utf16s, attributeValue_escapeHtml]

/-- A click writes what is read back from the attribute. -/
private theorem clickEntry_eq_ok_iff {refs : References} {renderer : Renderer}
    {item query value : JsString} {box : Box} {boxes : Box → JsString}
    (h : dataQuery refs renderer box item = some query) :
    clickEntry (ν := ν) refs renderer item box boxes = .ok (Function.update boxes box value) ↔
      readBack (ν := ν) query = .ok value := by
  rw [clickEntry, h, bind_eq_ok_iff]
  constructor
  · rintro ⟨v, hv, he⟩
    have hvalue := congrFun (Except.ok.inj he) box
    rw [Function.update_self, Function.update_self] at hvalue
    rw [hv, hvalue]
  · intro hv
    exact ⟨value, hv, rfl⟩

/-- The buttons of an entry write its name into their text boxes, in both lists, exactly when the
name is plain. -/
theorem clickEntry_iff [JsNumberText ν] (refs : References) (cs : List Char) :
    (∀ renderer box boxes, clickEntry (ν := ν) refs renderer (utf16s cs) box boxes =
        .ok (Function.update boxes box (utf16s cs))) ↔
      PlainEntry ν refs cs := by
  constructor
  · intro h
    have hserver := h .server .first fun _ ↦ []
    have hclient := h .client .first fun _ ↦ []
    rw [clickEntry_eq_ok_iff (dataQuery_server refs _ cs), readBack_server_iff] at hserver
    rw [clickEntry_eq_ok_iff (dataQuery_client refs _ cs), readBack_client_iff] at hclient
    exact ⟨hclient.1, hclient.2, hserver.1, hserver.2⟩
  · rintro ⟨hapostrophe, href, hescape, hjson⟩ renderer box boxes
    cases renderer with
    | server =>
      rw [clickEntry_eq_ok_iff (dataQuery_server refs box cs), readBack_server_iff]
      exact ⟨hescape, hjson⟩
    | client =>
      rw [clickEntry_eq_ok_iff (dataQuery_client refs box cs), readBack_client_iff]
      exact ⟨hapostrophe, href⟩

theorem clickEntry_cher : PlainEntry Whole specialReferences "cher".toList ∧
    ∀ renderer box boxes, clickEntry (ν := Whole) specialReferences renderer
        (utf16s "cher".toList) box boxes =
      .ok (Function.update boxes box (utf16s "cher".toList)) := by
  have hplain : PlainEntry Whole specialReferences "cher".toList := by
    refine ⟨by decide, by decide, by decide, ?_⟩
    rintro ⟨hb, -⟩
    exact absurd hb (by decide)
  exact ⟨hplain, (clickEntry_iff specialReferences "cher".toList).mpr hplain⟩

/-- An apostrophe ends the attribute that the script writes. -/
theorem clickEntry_apostrophe : ¬ ∀ renderer box boxes, clickEntry (ν := Whole) specialReferences
    renderer (utf16s "guns n' roses".toList) box boxes =
      .ok (Function.update boxes box (utf16s "guns n' roses".toList)) := by
  intro h
  have hfirst := congrArg (Except.map fun boxes ↦ boxes .first) (h .client .first fun _ ↦ [])
  revert hfirst
  decide +kernel

end MusicComparer.Client
