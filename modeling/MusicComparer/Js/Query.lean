import MusicComparer.Js.Uri

/-!
# Queries of URLs

Library `Js`. A program that writes parameters into a URL by concatenation, and a service that reads
them: the client drops the fragment and escapes some characters, the service splits the query at
`&` and `=` and undoes form encoding. `params_sentQuery_iff` says which values arrive as they were
written.
-/

namespace MusicComparer.Js

open Json (hexValue)

/-- The characters that a client sends as escapes. Delimiters are sent as they are. -/
structure Escaping (delimiters : Char → Bool) where
  illegal : Char → Bool
  legal_of_delimiter : ∀ c, delimiters c = true → illegal c = false

namespace Escaping

variable {delimiters : Char → Bool} (e : Escaping delimiters)

/-- The text that is sent. -/
def escape (cs : List Char) : List Char := escapeText (fun c ↦ !e.illegal c) cs

@[simp] theorem escape_nil : e.escape [] = [] := rfl

theorem escape_append (cs ds : List Char) : e.escape (cs ++ ds) = e.escape cs ++ e.escape ds :=
  List.flatMap_append

theorem escape_cons_of_legal {c : Char} (h : e.illegal c = false) (cs : List Char) :
    e.escape (c :: cs) = c :: e.escape cs := by
  simp [escape, escapeText, h]

theorem escape_cons_of_illegal {c : Char} (h : e.illegal c = true) (cs : List Char) :
    e.escape (c :: cs) = percentScalar c ++ e.escape cs := by
  simp [escape, escapeText, h]

theorem escape_of_legal {cs : List Char} (h : ∀ c ∈ cs, e.illegal c = false) :
    e.escape cs = cs := by
  induction cs with
  | nil => rfl
  | cons c cs ih =>
    rw [List.forall_mem_cons] at h
    rw [e.escape_cons_of_legal h.1, ih h.2]

/-- No character is sent that is not there, but those of escapes. -/
theorem not_mem_escape {d : Char} (hd : NotInEscapes d) {cs : List Char} (h : d ∉ cs) :
    d ∉ e.escape cs := by
  intro hmem
  rw [escape, escapeText, List.mem_flatMap] at hmem
  obtain ⟨c, hc, hd'⟩ := hmem
  split at hd'
  · rw [List.mem_singleton] at hd'
    exact h (hd' ▸ hc)
  · exact not_mem_percentScalar hd c hd'

/-- The text is cut at a delimiter as well after escaping as before. -/
theorem takeWhile_escape {d : Char} (hl : e.illegal d = false) (hd : NotInEscapes d)
    (cs : List Char) : (e.escape cs).takeWhile (· ≠ d) = e.escape (cs.takeWhile (· ≠ d)) :=
  takeWhile_escapeText (by rw [hl]; rfl) hd cs

end Escaping

/-- The value of a hexadecimal digit. -/
def hexValueOfChar (c : Char) : Option Nat :=
  if c.toNat < 0x80 then hexValue c.toNat.toUInt16 else none

/-- The octet of the escape with these characters. -/
def escapedOctet (c x y : Char) : Option UInt8 :=
  match hexValueOfChar x, hexValueOfChar y with
  | some a, some b => if c = '%' then some (16 * a + b).toUInt8 else none
  | _, _ => none

/-- The octets of a character that is not in an escape: a plus sign is a space. -/
def formChar (c : Char) : List UInt8 := if c = '+' then [0x20] else String.utf8EncodeChar c

/-- Form decoding. A percent sign that starts no escape stands for itself. -/
def formOctets : List Char → List UInt8
  | [] => []
  | [c] => formChar c
  | [c, x] => formChar c ++ formChar x
  | c :: x :: y :: cs =>
    match escapedOctet c x y with
    | some b => b :: formOctets cs
    | none => formChar c ++ formOctets (x :: y :: cs)

/-- The string value that a service reads: `none` where the octets are not UTF-8. -/
def formValue (cs : List Char) : Option JsString := (textOfOctets (formOctets cs)).map utf16s

/-- Name and value of a parameter. -/
def param (segment : List Char) : Option JsString × Option JsString :=
  (formValue (segment.takeWhile (· ≠ '=')), formValue (segment.dropWhile (· ≠ '=')).tail)

/-- The parameters of a query. -/
def params (query : List Char) : List (Option JsString × Option JsString) :=
  (query.splitOn '&').map param

/-- The query that a client sends for a URL: it drops the fragment and escapes the rest. -/
def sentQuery {delimiters : Char → Bool} (e : Escaping delimiters) (url : JsString) : List Char :=
  ((e.escape ((scalars url).takeWhile (· ≠ '#'))).dropWhile (· ≠ '?')).tail

/-- There is a percent sign with two hexadecimal digits. -/
def hasEscape : List Char → Bool
  | c :: x :: y :: cs => (escapedOctet c x y).isSome || hasEscape (x :: y :: cs)
  | _ => false

/-- The delimiters of queries, and the characters of escapes. -/
def isQueryDelimiter (c : Char) : Bool :=
  isAlphanumeric c || c ∈ ['&', '=', '+', '#', '%', '?']

/-- Names and values in a query, joined as a program writes them. -/
def queryText : List (List Char × JsString) → JsString
  | [] => []
  | [(name, value)] => utf16s name ++ 61 :: value
  | (name, value) :: p :: ps => utf16s name ++ 61 :: value ++ 38 :: queryText (p :: ps)

/-- Names that no reader changes. -/
def PlainName (name : List Char) : Prop := ∀ c ∈ name, c ∉ ['&', '=', '+', '#', '%']

instance : DecidablePred PlainName := fun name ↦ List.decidableBAll _ name

/-- The values that arrive as they are written. -/
structure PlainValue (s : JsString) : Prop where
  wellFormed : WellFormedText s
  no_separator : '&' ∉ scalars s
  no_fragment : '#' ∉ scalars s
  no_plus : '+' ∉ scalars s
  no_escape : hasEscape (scalars s) = false

instance : DecidablePred PlainValue := fun s ↦
  decidable_of_iff (WellFormedText s ∧ '&' ∉ scalars s ∧ '#' ∉ scalars s ∧ '+' ∉ scalars s ∧
      hasEscape (scalars s) = false)
    ⟨fun ⟨hs, ha, hf, hp, he⟩ ↦ ⟨hs, ha, hf, hp, he⟩,
      fun ⟨hs, ha, hf, hp, he⟩ ↦ ⟨hs, ha, hf, hp, he⟩⟩

/-! ### Form decoding -/

private theorem escapedOctet_eq_some {c x y : Char} {b : UInt8} (h : escapedOctet c x y = some b) :
    c = '%' ∧ (∃ n, hexValueOfChar x = some n) ∧ ∃ n, hexValueOfChar y = some n := by
  unfold escapedOctet at h
  split at h
  · next m n hm hn =>
    split at h
    · next hc => exact ⟨hc, ⟨m, hm⟩, n, hn⟩
    · cases h
  · cases h

private theorem escapedOctet_eq_none {c : Char} (h : c ≠ '%') (x y : Char) :
    escapedOctet c x y = none := by
  unfold escapedOctet
  split
  · rw [if_neg h]
  · rfl

/-- A character that is no percent sign is decoded alone. -/
theorem formOctets_cons_of_ne {c : Char} (h : c ≠ '%') (cs : List Char) :
    formOctets (c :: cs) = formChar c ++ formOctets cs := by
  match cs with
  | [] => rw [formOctets, formOctets, List.append_nil]
  | [x] => rw [formOctets, formOctets]
  | x :: y :: cs => rw [formOctets, escapedOctet_eq_none h]

/-- The escape of an octet is decoded to it. -/
private theorem formOctets_percent (b : UInt8) (cs : List Char) :
    formOctets (percent b ++ cs) = b :: formOctets cs := by
  have hdigit : ∀ n < 16, hexValueOfChar (hexDigit n) = some n := by decide
  have hb : b.toNat < 256 := b.toNat_lt
  have h : (16 * (b.toNat / 16) + b.toNat % 16).toUInt8 = b := by
    rw [Nat.div_add_mod]
    exact UInt8.ofNat_toNat
  have hoctet : escapedOctet '%' (hexDigit (b.toNat / 16)) (hexDigit (b.toNat % 16)) = some b := by
    rw [escapedOctet, hdigit _ (by omega), hdigit _ (by omega)]
    exact congrArg some h
  change formOctets ('%' :: hexDigit (b.toNat / 16) :: hexDigit (b.toNat % 16) :: cs) = _
  rw [formOctets, hoctet]

/-- The escapes of a scalar value are decoded to its octets. -/
private theorem formOctets_percentScalar (c : Char) (cs : List Char) :
    formOctets (percentScalar c ++ cs) = String.utf8EncodeChar c ++ formOctets cs := by
  rw [percentScalar]
  induction String.utf8EncodeChar c with
  | nil => rfl
  | cons b bs ih => rw [List.flatMap_cons, List.append_assoc, formOctets_percent, ih,
      List.cons_append]

/-- Without escapes every character is decoded alone. -/
theorem formOctets_of_no_escape {cs : List Char} (h : hasEscape cs = false) :
    formOctets cs = cs.flatMap formChar := by
  fun_induction formOctets cs with
  | case1 => rfl
  | case2 c => simp
  | case3 c x => simp
  | case4 c x y cs b hb ih => simp [hasEscape, hb] at h
  | case5 c x y cs hn ih =>
    rw [hasEscape, hn] at h
    rw [ih h]
    rfl

private theorem length_octets_pos (c : Char) : 0 < (String.utf8EncodeChar c).length := by
  rw [String.length_utf8EncodeChar]
  exact c.utf8Size_pos

private theorem length_formChar_le (c : Char) :
    (formChar c).length ≤ (String.utf8EncodeChar c).length := by
  unfold formChar
  split
  · exact length_octets_pos c
  · exact Nat.le_refl _

/-- Decoding makes nothing longer, and shortens every escape. -/
theorem length_formOctets (cs : List Char) : (formOctets cs).length ≤ (utf8s cs).length ∧
    (hasEscape cs = true → (formOctets cs).length < (utf8s cs).length) := by
  fun_induction formOctets cs with
  | case1 => exact ⟨Nat.le_refl _, fun h ↦ nomatch h⟩
  | case2 c =>
    refine ⟨?_, fun h ↦ nomatch h⟩
    rw [utf8s_cons, List.length_append]
    exact Nat.le_trans (length_formChar_le c) (Nat.le_add_right _ _)
  | case3 c x =>
    refine ⟨?_, fun h ↦ nomatch h⟩
    rw [utf8s_cons, utf8s_cons, List.length_append, List.length_append, List.length_append]
    have hc := length_formChar_le c
    have hx := length_formChar_le x
    omega
  | case4 c x y cs b hb ih =>
    rw [utf8s_cons, utf8s_cons, utf8s_cons]
    simp only [List.length_append, List.length_cons]
    have hc := length_octets_pos c
    have hx := length_octets_pos x
    omega
  | case5 c x y cs hn ih =>
    rw [utf8s_cons, List.length_append, List.length_append, hasEscape, hn, Option.isSome_none,
      Bool.false_or]
    have hc := length_formChar_le c
    refine ⟨by omega, fun h ↦ ?_⟩
    have := ih.2 h
    omega

/-- The texts that form decoding leaves alone. -/
theorem formOctets_eq_iff {cs : List Char} :
    formOctets cs = utf8s cs ↔ '+' ∉ cs ∧ hasEscape cs = false := by
  constructor
  · intro h
    have hescape : hasEscape cs = false := by
      rw [Bool.eq_false_iff]
      intro ht
      have hlt := (length_formOctets cs).2 ht
      rw [h] at hlt
      exact Nat.lt_irrefl _ hlt
    refine ⟨?_, hescape⟩
    rw [formOctets_of_no_escape hescape] at h
    clear hescape
    induction cs with
    | nil => exact List.not_mem_nil
    | cons c cs ih =>
      rw [List.flatMap_cons, utf8s_cons] at h
      have hc : c ≠ '+' := by
        rintro rfl
        injection h with hb
        exact absurd hb (by decide)
      rw [formChar, if_neg hc] at h
      rw [List.mem_cons, not_or]
      exact ⟨Ne.symm hc, ih (List.append_cancel_left h)⟩
  · rintro ⟨hplus, hescape⟩
    rw [formOctets_of_no_escape hescape]
    apply List.flatMap_congr
    intro c hc
    rw [formChar, if_neg]
    rintro rfl
    exact hplus hc

/-- The octet and the rest after a percent sign. -/
private def hexPair : List Char → Option (UInt8 × List Char)
  | x :: y :: cs => (escapedOctet '%' x y).map fun b ↦ (b, cs)
  | _ => none

private theorem hexPair_first {x : Char} (h : hexValueOfChar x = none) (cs : List Char) :
    hexPair (x :: cs) = none := by
  cases cs with
  | nil => rfl
  | cons y cs => simp [hexPair, escapedOctet, h]

private theorem hexPair_second (x : Char) {y : Char} (h : hexValueOfChar y = none)
    (cs : List Char) : hexPair (x :: y :: cs) = none := by
  simp [hexPair, escapedOctet, h]

private theorem formOctets_of_hexPair_none {c : Char} {cs : List Char}
    (h : c = '%' → hexPair cs = none) : formOctets (c :: cs) = formChar c ++ formOctets cs := by
  by_cases hc : c = '%'
  · subst hc
    match cs, h rfl with
    | [], _ => rw [formOctets, formOctets, List.append_nil]
    | [x], _ => rw [formOctets, formOctets]
    | x :: y :: cs, h =>
      rw [hexPair, Option.map_eq_none_iff] at h
      rw [formOctets, h]
  · exact formOctets_cons_of_ne hc cs

section Escape

variable (e : Escaping isQueryDelimiter)

/-- Hexadecimal digits are sent as they are. -/
private theorem legal_of_hexValue {x : Char} {n : Nat} (h : hexValueOfChar x = some n) :
    e.illegal x = false := by
  apply e.legal_of_delimiter
  rw [hexValueOfChar] at h
  split at h
  · next hx =>
    have hr := range_of_hexValue h
    have hnat : x.toNat.toUInt16.toNat = x.toNat := by
      rw [Nat.toUInt16_eq, UInt16.toNat_ofNat']
      omega
    rw [hnat] at hr
    rw [isQueryDelimiter, Bool.or_eq_true, isAlphanumeric_iff]
    omega
  · cases h

/-- The first character sent is a hexadecimal digit only where the first character is. -/
private theorem escape_first {x : Char} (h : hexValueOfChar x = none) (cs : List Char) :
    ∃ z zs, e.escape (x :: cs) = z :: zs ∧ hexValueOfChar z = none := by
  cases hx : e.illegal x with
  | false => exact ⟨x, e.escape cs, e.escape_cons_of_legal hx cs, h⟩
  | true =>
    obtain ⟨b, bs, hb, -⟩ := octets_lead x
    rw [e.escape_cons_of_illegal hx, percentScalar, hb]
    exact ⟨'%', _, rfl, by decide⟩

/-- Escaping neither makes nor breaks the escapes that are there. -/
private theorem hexPair_escape_none {cs : List Char} (h : hexPair cs = none) :
    hexPair (e.escape cs) = none := by
  match cs with
  | [] => rfl
  | x :: cs =>
    cases hx : hexValueOfChar x with
    | none =>
      obtain ⟨z, zs, hz, hn⟩ := escape_first e hx cs
      rw [hz, hexPair_first hn]
    | some a =>
      rw [e.escape_cons_of_legal (legal_of_hexValue e hx)]
      match cs with
      | [] => rfl
      | y :: cs =>
        cases hy : hexValueOfChar y with
        | none =>
          obtain ⟨z, zs, hz, hn⟩ := escape_first e hy cs
          rw [hz, hexPair_second x hn]
        | some b => simp [hexPair, escapedOctet, hx, hy] at h

private theorem formOctets_escape_cons {c : Char} {cs : List Char}
    (h : c = '%' → hexPair cs = none) :
    formOctets (e.escape (c :: cs)) = formChar c ++ formOctets (e.escape cs) := by
  cases hc : e.illegal c with
  | false =>
    rw [e.escape_cons_of_legal hc]
    apply formOctets_of_hexPair_none
    intro hp
    exact hexPair_escape_none e (h hp)
  | true =>
    have hplus : c ≠ '+' := by
      rintro rfl
      rw [e.legal_of_delimiter '+' (by decide)] at hc
      cases hc
    rw [e.escape_cons_of_illegal hc, formOctets_percentScalar, formChar, if_neg hplus]

/-- Escaping is undone by form decoding. -/
theorem formOctets_escape (cs : List Char) : formOctets (e.escape cs) = formOctets cs := by
  fun_induction formOctets cs with
  | case1 => rfl
  | case2 c =>
    rw [formOctets_escape_cons e fun _ ↦ rfl, e.escape_nil, formOctets, List.append_nil]
  | case3 c x =>
    rw [formOctets_escape_cons e fun _ ↦ rfl, formOctets_escape_cons e fun _ ↦ rfl, e.escape_nil,
      formOctets, List.append_nil]
  | case4 c x y cs b hb ih =>
    obtain ⟨rfl, ⟨m, hx⟩, n, hy⟩ := escapedOctet_eq_some hb
    rw [e.escape_cons_of_legal (e.legal_of_delimiter '%' (by decide)),
      e.escape_cons_of_legal (legal_of_hexValue e hx),
      e.escape_cons_of_legal (legal_of_hexValue e hy), formOctets, hb]
    exact congrArg (b :: ·) ih
  | case5 c x y cs hn ih =>
    rw [formOctets_escape_cons e, ih]
    rintro rfl
    rw [hexPair, hn, Option.map_none]

private theorem legal_of_separator {d : Char} (hd : d ∈ ['&', '=', '?', '#']) :
    e.illegal d = false := by
  apply e.legal_of_delimiter
  revert d
  rw [← List.all_iff_forall_prop]
  decide

private theorem escape_append_separator {d : Char} (hd : d ∈ ['&', '=', '?', '#'])
    (cs ds : List Char) : e.escape (cs ++ d :: ds) = e.escape cs ++ d :: e.escape ds := by
  rw [e.escape_append, e.escape_cons_of_legal (legal_of_separator e hd)]

end Escape

/-! ### Parameters -/

private theorem dropWhile_ne {d : Char} {cs : List Char} (h : d ∉ cs) (ds : List Char) :
    (cs ++ d :: ds).dropWhile (· ≠ d) = d :: ds := by
  rw [List.dropWhile_append_of_pos, List.dropWhile_cons_of_neg (by simp)]
  intro x hx
  rw [decide_eq_true_iff]
  rintro rfl
  exact h hx

/-- A segment is split at its first equals sign. -/
private theorem param_eq {name : List Char} (h : '=' ∉ name) (value : List Char) :
    param (name ++ '=' :: value) = (formValue name, formValue value) := by
  rw [param, takeWhile_ne h, dropWhile_ne h, List.takeWhile_cons_of_neg (by simp),
    List.append_nil, List.tail_cons]

private theorem head_splitOn (d : Char) (cs : List Char) :
    (cs.splitOn d).head? = some (cs.takeWhile (· ≠ d)) := by
  induction cs with
  | nil => rfl
  | cons c cs ih =>
    rw [List.splitOn_cons_eq_if_modifyHead]
    by_cases hc : c = d
    · rw [if_pos (by simpa using hc), List.takeWhile_cons_of_neg (by simpa using hc)]
      rfl
    · rw [if_neg (by simpa using hc), List.takeWhile_cons_of_pos (by simpa using hc),
        List.head?_modifyHead, ih]
      rfl

section Params

variable (e : Escaping isQueryDelimiter)

/-- What a service reads of a value that is sent. -/
private theorem formValue_escape {cs : List Char} {s : JsString} :
    formValue (e.escape cs) = some s ↔ ∃ ds, formOctets cs = utf8s ds ∧ utf16s ds = s := by
  rw [formValue, Option.map_eq_some_iff, formOctets_escape]
  simp only [textOfOctets_eq_some_iff]

private theorem hasEscape_of_not_mem {cs : List Char} (h : '%' ∉ cs) : hasEscape cs = false := by
  fun_induction hasEscape cs with
  | case1 c x y cs ih =>
    rw [List.mem_cons, not_or] at h
    rw [ih h.2, escapedOctet_eq_none (Ne.symm h.1)]
    rfl
  | case2 => rfl

/-- A plain name arrives. -/
private theorem formValue_name {name : List Char} (h : PlainName name) :
    formValue (e.escape name) = some (utf16s name) := by
  rw [formValue_escape]
  refine ⟨name, formOctets_eq_iff.mpr ⟨?_, hasEscape_of_not_mem ?_⟩, rfl⟩
  · intro hp
    exact h _ hp (by decide)
  · intro hp
    exact h _ hp (by decide)

/-- A plain value arrives. -/
private theorem formValue_value {s : JsString} (h : PlainValue s) :
    formValue (e.escape (scalars s)) = some s := by
  rw [formValue_escape]
  exact ⟨scalars s, formOctets_eq_iff.mpr ⟨h.no_plus, h.no_escape⟩, h.wellFormed⟩

/-- A value of which the part before the separators arrives as the whole is plain. -/
private theorem plainValue_of_formValue {s : JsString}
    (h : formValue (e.escape (((scalars s).takeWhile (· ≠ '#')).takeWhile (· ≠ '&'))) = some s) :
    PlainValue s := by
  rw [formValue_escape] at h
  obtain ⟨cs, ho, rfl⟩ := h
  rw [scalars_utf16s] at ho
  have hsub : (cs.takeWhile (· ≠ '#')).takeWhile (· ≠ '&') <+: cs :=
    (List.takeWhile_prefix _).trans (List.takeWhile_prefix _)
  -- nothing is cut off, since decoding makes nothing longer
  have hcs : (cs.takeWhile (· ≠ '#')).takeWhile (· ≠ '&') = cs := by
    obtain ⟨rest, hrest⟩ := hsub
    have hle := (length_formOctets ((cs.takeWhile (· ≠ '#')).takeWhile (· ≠ '&'))).1
    rw [ho] at hle
    cases rest with
    | nil => rwa [List.append_nil] at hrest
    | cons c rest =>
      have hpos := length_octets_pos c
      have hlen := congrArg (fun ds ↦ (utf8s ds).length) hrest
      simp only [utf8s, List.flatMap_append, List.flatMap_cons, List.length_append] at hlen hle
      omega
  have hmem : ∀ c ∈ cs, c ≠ '#' ∧ c ≠ '&' := by
    intro c hc
    rw [← hcs] at hc
    have hamp := List.mem_takeWhile_imp hc
    have hhash := List.mem_takeWhile_imp ((List.takeWhile_prefix _).subset hc)
    exact ⟨of_decide_eq_true hhash, of_decide_eq_true hamp⟩
  rw [hcs] at ho
  obtain ⟨hplus, hescape⟩ := formOctets_eq_iff.mp ho
  refine ⟨wellFormed_utf16s cs, ?_, ?_, ?_, ?_⟩ <;> rw [scalars_utf16s]
  · exact fun hc ↦ (hmem _ hc).2 rfl
  · exact fun hc ↦ (hmem _ hc).1 rfl
  · exact hplus
  · exact hescape

private theorem scalars_cons_of_ascii {u : UInt16} (h : u.toNat < 0x80) (us : JsString) :
    scalars (u :: us) = Char.ofNat u.toNat :: scalars us := by
  have hread := scalars_utf16s_append [Char.ofNat u.toNat] us
  rwa [utf16s_cons, utf16_of_ascii h] at hread

/-- The text of one parameter and what comes after it. -/
private theorem scalars_param (name : List Char) (value : JsString) :
    scalars (utf16s name ++ 61 :: value) = name ++ '=' :: scalars value := by
  rw [scalars_utf16s_append, scalars_cons_of_ascii (by decide)]
  rfl

private theorem scalars_params (name : List Char) (value us : JsString) :
    scalars (utf16s name ++ 61 :: value ++ 38 :: us) =
      name ++ '=' :: scalars value ++ '&' :: scalars us := by
  rw [scalars_append_cons _ (by decide), scalars_param, scalars_cons_of_ascii (by decide)]
  rfl

/-- The first parameter that is read. -/
private theorem head_params {name : List Char} (hn : PlainName name) (value : List Char) :
    (params (e.escape (name ++ '=' :: value))).head? =
      some (some (utf16s name), formValue (e.escape (value.takeWhile (· ≠ '&')))) := by
  have hamp : '&' ∉ name := fun h ↦ hn _ h (by decide)
  have heq : '=' ∉ name := fun h ↦ hn _ h (by decide)
  rw [params, List.head?_map, head_splitOn,
    e.takeWhile_escape (legal_of_separator e (by decide)) (by decide), takeWhile_ne hamp,
    List.takeWhile_cons_of_pos (by decide), escape_append_separator e (by decide), Option.map_some,
    param_eq (e.not_mem_escape (by decide) heq), formValue_name e hn]

section Parameter

variable {name : List Char} {value : JsString} (hn : PlainName name)
include hn

/-- When the first parameter arrives its value is plain, whatever is written after it. -/
private theorem plainValue_of_head {cs : List Char} (hcs : cs.head? = none ∨ cs.head? = some '&')
    (h : (params (e.escape ((name ++ '=' :: (scalars value ++ cs)).takeWhile (· ≠ '#')))).head? =
      some (some (utf16s name), some value)) : PlainValue value := by
  have hhash : '#' ∉ name := fun h ↦ hn _ h (by decide)
  rw [takeWhile_ne hhash, List.takeWhile_cons_of_pos (by decide), head_params e hn] at h
  apply plainValue_of_formValue e
  rw [Option.some_inj, Prod.mk.injEq] at h
  rw [← h.2, List.takeWhile_takeWhile, List.takeWhile_takeWhile]
  cases cs with
  | nil => rw [List.append_nil]
  | cons c cs =>
    rw [List.head?_cons, Option.some_inj] at hcs
    rcases hcs with hcs | rfl
    · cases hcs
    · rw [takeWhile_append_stop (by decide)]

variable (hv : PlainValue value)
include hv

private theorem param_escape :
    param (e.escape (name ++ '=' :: scalars value)) = (some (utf16s name), some value) := by
  have heq : '=' ∉ name := fun h ↦ hn _ h (by decide)
  rw [escape_append_separator e (by decide), param_eq (e.not_mem_escape (by decide) heq),
    formValue_name e hn, formValue_value e hv]

private theorem not_mem_parameter {d : Char} (hd : d = '&' ∨ d = '#') :
    d ∉ name ++ '=' :: scalars value := by
  rw [List.mem_append, List.mem_cons, not_or, not_or]
  rcases hd with rfl | rfl
  · exact ⟨fun h ↦ hn _ h (by decide), by decide, hv.no_separator⟩
  · exact ⟨fun h ↦ hn _ h (by decide), by decide, hv.no_fragment⟩

/-- A plain parameter at the end of a query arrives. -/
private theorem params_last :
    params (e.escape ((name ++ '=' :: scalars value).takeWhile (· ≠ '#'))) =
      [(some (utf16s name), some value)] := by
  rw [takeWhile_of_not_mem (not_mem_parameter hn hv (.inr rfl)), params,
    List.splitOn_eq_singleton, List.map_singleton, param_escape e hn hv]
  exact e.not_mem_escape (by decide) (not_mem_parameter hn hv (.inl rfl))

/-- A plain parameter arrives before the others. -/
private theorem params_cons (cs : List Char) :
    params (e.escape ((name ++ '=' :: scalars value ++ '&' :: cs).takeWhile (· ≠ '#'))) =
      (some (utf16s name), some value) :: params (e.escape (cs.takeWhile (· ≠ '#'))) := by
  rw [takeWhile_ne (not_mem_parameter hn hv (.inr rfl)), List.takeWhile_cons_of_pos (by decide),
    escape_append_separator e (by decide), params, List.splitOn_append_cons_self_of_not_mem,
    List.map_cons, param_escape e hn hv]
  · rfl
  · exact e.not_mem_escape (by decide) (not_mem_parameter hn hv (.inl rfl))

end Parameter

/-- The parameters of a query that is sent arrive exactly when all values are plain. -/
theorem params_escape_iff {ps : List (List Char × JsString)} (hne : ps ≠ [])
    (hn : ∀ p ∈ ps, PlainName p.1) :
    params (e.escape ((scalars (queryText ps)).takeWhile (· ≠ '#'))) =
        ps.map (fun p ↦ (some (utf16s p.1), some p.2)) ↔
      ∀ p ∈ ps, PlainValue p.2 := by
  induction ps using queryText.induct with
  | case1 => exact absurd rfl hne
  | case2 name value =>
    rw [List.forall_mem_singleton] at hn
    rw [queryText, scalars_param, List.map_singleton, List.forall_mem_singleton]
    constructor
    · intro h
      have hhead : (params (e.escape ((name ++ '=' :: (scalars value ++ [])).takeWhile
          (· ≠ '#')))).head? = some (some (utf16s name), some value) := by
        rw [List.append_nil, h]
        rfl
      exact plainValue_of_head e hn (.inl rfl) hhead
    · exact params_last e hn
  | case3 name value p ps ih =>
    rw [List.forall_mem_cons] at hn
    specialize ih (List.cons_ne_nil p ps) hn.2
    rw [queryText, scalars_params, List.map_cons, List.forall_mem_cons]
    constructor
    · intro h
      have hv : PlainValue value := by
        have hhead : (params (e.escape ((name ++ '=' :: (scalars value ++ '&' ::
            scalars (queryText (p :: ps)))).takeWhile (· ≠ '#')))).head? =
              some (some (utf16s name), some value) := by
          rw [← List.cons_append, ← List.append_assoc, h]
          rfl
        exact plainValue_of_head e hn.1 (.inr rfl) hhead
      rw [params_cons e hn.1 hv, List.cons.injEq] at h
      exact ⟨hv, ih.mp h.2⟩
    · rintro ⟨hv, hvs⟩
      rw [params_cons e hn.1 hv, ih.mpr hvs]

/-- The parameters that a program writes after a question mark arrive exactly when all values are
plain. -/
theorem params_sentQuery_iff {base : List Char} (hbase : '?' ∉ base ∧ '#' ∉ base)
    {ps : List (List Char × JsString)} (hne : ps ≠ []) (hn : ∀ p ∈ ps, PlainName p.1) :
    params (sentQuery e (utf16s base ++ 63 :: queryText ps)) =
        ps.map (fun p ↦ (some (utf16s p.1), some p.2)) ↔
      ∀ p ∈ ps, PlainValue p.2 := by
  have hscalars : scalars (63 :: queryText ps) = '?' :: scalars (queryText ps) :=
    scalars_cons_of_ascii (by decide) _
  rw [sentQuery, scalars_utf16s_append, hscalars, takeWhile_ne hbase.2,
    List.takeWhile_cons_of_pos (by decide), escape_append_separator e (by decide),
    dropWhile_ne (e.not_mem_escape (by decide) hbase.1), List.tail_cons]
  exact params_escape_iff e hne hn

end Params

end MusicComparer.Js
