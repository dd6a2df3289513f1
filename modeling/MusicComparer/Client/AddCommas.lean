import Mathlib.Computability.StateTransition
import MusicComparer.Js.Regex
import MusicComparer.Client.HandleData

/-!
# Thousands in groups

`addCommas`, `clientside.js:67–77`. The loop rewrites the leftmost match of `/(\d+)(\d{3})/` until
there is none. A round puts one space into the leftmost run of more than three digits, so the rounds
come from the right in each run, and run after run. What they come to is the string with the digits
grouped from the right at once, which no round changes; the spaces still missing are the measure.
-/

namespace MusicComparer.Client

open MusicComparer.Js StateTransition

/-! ### The loop of the source -/

/-- `/(\d+)(\d{3})/`, `clientside.js:72`. -/
def rgx : Pattern UInt16 :=
  .seq (.group (.repeated isDigit 1 none)) (.group (.repeated isDigit 3 (some 3)))

/-- `'$1' + ' ' + '$2'`. -/
def rgxReplacement : List (Substitute UInt16) := [.capture 1, .text [32], .capture 2]

/-- A round of the loop, `clientside.js:73–75`; `none` is the end. -/
def rgxRound (x₁ : JsString) : Option JsString :=
  if rgx.test x₁ then some (rgx.replace rgxReplacement x₁) else none

/-- The rounds of the model are those of the regular expression. -/
theorem rgxRound_eq_groupOnce (s : JsString) : rgxRound s = groupOnce s := by
  have hround : ∀ s, rgxRound s =
      (rgx.exec s).map fun x ↦ x.1 ++ x.2.expand rgxReplacement ++ x.2.rest := by
    intro s
    unfold rgxRound Pattern.test Pattern.replace
    cases rgx.exec s with
    | none => rfl
    | some x => rfl
  induction s with
  | nil => rfl
  | cons c cs ih =>
    have hhead : (rgx.attempts (c :: cs)).head? = _ := Pattern.attempts_runs isDigit 3 (c :: cs)
    rw [hround, Pattern.exec, groupOnce, hhead]
    by_cases hrun : 3 < ((c :: cs).takeWhile isDigit).length
    · simp only [if_pos hrun, if_pos (Nat.succ_le_of_lt hrun), Option.map_some]
      simp [Match.expand, rgxReplacement]
    · simp only [if_neg hrun, if_neg fun h ↦ hrun (Nat.lt_of_succ_le h), ← ih, hround,
        Option.map_map]
      rfl

/-! ### Groups from the right -/

/-- The number of digits at the start. -/
def leadingDigits (s : JsString) : Nat := (s.takeWhile isDigit).length

/-- A space before every third digit from the right of a run, as far as there are digits before
it. -/
def spaced : JsString → JsString
  | [] => []
  | c :: cs =>
    if isDigit c ∧ leadingDigits (spaced cs) = 3 then c :: 32 :: spaced cs else c :: spaced cs

/-- What is done before a part depends on it by its groups alone. -/
private theorem spaced_append_congr {t u : JsString} (h : spaced t = spaced u) (s : JsString) :
    spaced (s ++ t) = spaced (s ++ u) := by
  induction s with
  | nil => exact h
  | cons c s ih => rw [List.cons_append, List.cons_append, spaced, spaced, ih]

private theorem head_spaced (s : JsString) : (spaced s).head? = s.head? := by
  cases s with
  | nil => rfl
  | cons c cs =>
    rw [spaced]
    split <;> rfl

/-- No digit is at the start. -/
private def Bounded (s : JsString) : Prop := ∀ c ∈ s.head?, isDigit c = false

private theorem takeWhile_of_bounded {s : JsString} (h : Bounded s) : s.takeWhile isDigit = [] := by
  cases s with
  | nil => rfl
  | cons c cs => exact List.takeWhile_cons_of_neg (by simp [h c rfl])

private theorem bounded_dropWhile (s : JsString) : Bounded (s.dropWhile isDigit) := by
  intro c hc
  have hnot := List.head?_dropWhile_not isDigit s
  rw [Option.mem_def.mp hc] at hnot
  exact hnot

private theorem leadingDigits_append {t : JsString} (h : Bounded t) (s : JsString) :
    leadingDigits (s ++ t) = leadingDigits s := by
  rw [leadingDigits, leadingDigits, List.takeWhile_append, takeWhile_of_bounded h]
  split
  · next hs => rw [List.append_nil, hs]
  · rfl

private theorem bounded_spaced {s : JsString} (h : Bounded s) : Bounded (spaced s) := by
  unfold Bounded
  rw [head_spaced]
  exact h

/-- The groups of two parts are separate where no digit follows. -/
private theorem spaced_append {t : JsString} (h : Bounded t) (s : JsString) :
    spaced (s ++ t) = spaced s ++ spaced t := by
  have ht := bounded_spaced h
  induction s with
  | nil => rfl
  | cons c s ih =>
    rw [List.cons_append, spaced, spaced, ih, leadingDigits_append ht]
    split <;> rfl

/-- Three digits are not split. -/
private theorem spaced_of_short {ds : JsString} (h : ds.length ≤ 3) : spaced ds = ds := by
  induction ds with
  | nil => rfl
  | cons c ds ih =>
    rw [List.length_cons] at h
    have hlead : leadingDigits ds ≠ 3 := by
      have hle := (List.takeWhile_prefix isDigit (l := ds)).length_le
      rw [leadingDigits]
      omega
    rw [spaced, ih (by omega), if_neg (by simp [hlead])]

/-- A unit gets one space at most. -/
private theorem length_spaced (s : JsString) :
    s.length ≤ (spaced s).length ∧ (spaced s).length ≤ s.length + s.length := by
  induction s with
  | nil => exact ⟨Nat.le_refl 0, Nat.le_refl 0⟩
  | cons c s ih =>
    rw [spaced]
    split
    · simp only [List.length_cons]
      omega
    · simp only [List.length_cons]
      omega

/-! ### A round -/

/-- The digits before the last three. -/
private theorem take_eq_concat {run : JsString} (h : 4 ≤ run.length) :
    ∃ pre d, run.take (run.length - 3) = pre ++ [d] := by
  rcases List.eq_nil_or_concat (run.take (run.length - 3)) with hnil | ⟨pre, d, he⟩
  · have hzero := congrArg List.length hnil
    rw [List.length_take, List.length_nil] at hzero
    omega
  · exact ⟨pre, d, by rw [he, List.concat_eq_append]⟩

/-- A round puts a space before the last three digits of a longer run. -/
private theorem groupOnce_eq_some {s t : JsString} (h : groupOnce s = some t) :
    ∃ pre d ds post, s = pre ++ d :: (ds ++ post) ∧ t = pre ++ d :: 32 :: (ds ++ post) ∧
      isDigit d = true ∧ ds.length = 3 ∧ (∀ c ∈ ds, isDigit c = true) ∧ Bounded post := by
  induction s generalizing t with
  | nil => cases h
  | cons c cs ih =>
    rw [groupOnce] at h
    split at h
    · next hlen =>
      cases h
      have hs : (c :: cs).takeWhile isDigit ++ (c :: cs).dropWhile isDigit = c :: cs :=
        List.takeWhile_append_dropWhile
      have hpost := bounded_dropWhile (c :: cs)
      have hdigits : ∀ d ∈ (c :: cs).takeWhile isDigit, isDigit d = true := fun d hd ↦
        List.mem_takeWhile_imp hd
      generalize (c :: cs).takeWhile isDigit = run at hs hlen hdigits
      generalize (c :: cs).dropWhile isDigit = post at hs hpost
      obtain ⟨pre, d, hpre⟩ := take_eq_concat hlen
      have hrun : pre ++ [d] ++ run.drop (run.length - 3) = run := by
        rw [← hpre, List.take_append_drop]
      refine ⟨pre, d, run.drop (run.length - 3), post, ?_, ?_, ?_, ?_, ?_, hpost⟩
      · rw [← hs, ← List.singleton_append, ← List.append_assoc, ← List.append_assoc, hrun]
      · rw [hpre, List.append_assoc, List.append_assoc]
        rfl
      · apply hdigits
        rw [← hrun]
        simp
      · rw [List.length_drop]
        omega
      · intro e he
        exact hdigits e (List.mem_of_mem_drop he)
    · obtain ⟨u, hu, rfl⟩ := Option.map_eq_some_iff.mp h
      obtain ⟨pre, d, ds, post, rfl, rfl, hrest⟩ := ih hu
      exact ⟨c :: pre, d, ds, post, rfl, rfl, hrest⟩

/-- A round keeps the groups that the string comes to. -/
private theorem spaced_groupOnce {s t : JsString} (h : groupOnce s = some t) :
    spaced t = spaced s := by
  obtain ⟨pre, d, ds, post, rfl, rfl, hd, hlen, hds, hpost⟩ := groupOnce_eq_some h
  have hspace : spaced (32 :: (ds ++ post)) = 32 :: spaced (ds ++ post) :=
    if_neg fun hc ↦ absurd hc.1 (by decide)
  have hlead : leadingDigits (spaced (ds ++ post)) = 3 := by
    rw [spaced_append hpost, spaced_of_short (Nat.le_of_eq hlen),
      leadingDigits_append (bounded_spaced hpost), leadingDigits,
      List.takeWhile_eq_self_iff.mpr hds, hlen]
  have hlead' : leadingDigits (32 :: spaced (ds ++ post)) ≠ 3 := by
    rw [leadingDigits, List.takeWhile_cons_of_neg (by decide)]
    decide
  apply spaced_append_congr
  rw [spaced, hspace, if_neg fun hc ↦ hlead' hc.2, spaced, if_pos ⟨hd, hlead⟩]

private theorem length_groupOnce {s t : JsString} (h : groupOnce s = some t) :
    t.length = s.length + 1 := by
  obtain ⟨pre, d, ds, post, rfl, rfl, -⟩ := groupOnce_eq_some h
  simp only [List.length_append, List.length_cons]
  omega

/-- Without a round the digits are in groups. -/
private theorem spaced_of_groupOnce_none {s : JsString} (h : groupOnce s = none) :
    spaced s = s := by
  induction s with
  | nil => rfl
  | cons c cs ih =>
    rw [groupOnce] at h
    split at h
    · cases h
    · next hlen =>
      rw [Option.map_eq_none_iff] at h
      rw [spaced, ih h, if_neg]
      rintro ⟨hc, hlead⟩
      rw [List.takeWhile_cons_of_pos hc, List.length_cons] at hlen
      rw [leadingDigits] at hlead
      omega

/-! ### The rounds together -/

/-- With enough rounds for the spaces that are missing, the loop comes to its end. -/
private theorem groupLoop_mem_eval {n : Nat} {s : JsString}
    (h : (spaced s).length ≤ s.length + n) : groupLoop n s ∈ eval groupOnce s := by
  induction n generalizing s with
  | zero =>
    rw [groupLoop, mem_eval]
    refine ⟨.refl, ?_⟩
    cases ht : groupOnce s with
    | none => rfl
    | some t =>
      have hlen := length_groupOnce ht
      have hle := (length_spaced t).1
      rw [spaced_groupOnce ht] at hle
      omega
  | succ n ih =>
    rw [groupLoop]
    cases ht : groupOnce s with
    | none => exact mem_eval.mpr ⟨.refl, ht⟩
    | some t =>
      have hlen := length_groupOnce ht
      have hle : (spaced t).length ≤ t.length + n := by
        rw [spaced_groupOnce ht]
        omega
      rw [reaches_eval (.single ht)]
      exact ih hle

/-- The end of the loop has the groups of the start, and no others. -/
private theorem eq_spaced_of_mem_eval {s t : JsString} (h : t ∈ eval groupOnce s) :
    t = spaced s := by
  obtain ⟨hreach, hend⟩ := mem_eval.mp h
  have hkept : spaced t = spaced s := by
    clear h hend
    induction hreach with
    | refl => rfl
    | tail _ hround ih => rw [spaced_groupOnce hround, ih]
  rw [← hkept, spaced_of_groupOnce_none hend]

private theorem spaced_mem_eval (s : JsString) : spaced s ∈ eval groupOnce s := by
  have h := groupLoop_mem_eval (length_spaced s).2
  rwa [eq_spaced_of_mem_eval h] at h

private theorem groupLoop_eq_spaced (s : JsString) : groupLoop s.length s = spaced s :=
  eq_spaced_of_mem_eval (groupLoop_mem_eval (length_spaced s).2)

private theorem spaced_spaced (s : JsString) : spaced (spaced s) = spaced s :=
  spaced_of_groupOnce_none (mem_eval.mp (spaced_mem_eval s)).2

/-! ### What the groups are -/

private theorem filter_spaced (s : JsString) :
    (spaced s).filter (· != 32) = s.filter (· != 32) := by
  induction s with
  | nil => rfl
  | cons c cs ih =>
    rw [spaced]
    split
    · rw [List.filter_cons, List.filter_cons_of_neg (by decide), ih, List.filter_cons]
    · rw [List.filter_cons, ih, List.filter_cons]

private theorem leadingDigits_cons (c : UInt16) (s : JsString) :
    leadingDigits (c :: s) = if isDigit c then leadingDigits s + 1 else 0 := by
  rw [leadingDigits, List.takeWhile_cons]
  split <;> rfl

private theorem leadingDigits_spaced (s : JsString) : leadingDigits (spaced s) ≤ 3 := by
  induction s with
  | nil => exact Nat.zero_le 3
  | cons c cs ih =>
    rw [spaced]
    split
    · next h =>
      rw [leadingDigits_cons, if_pos h.1, leadingDigits_cons, if_neg (by decide)]
      exact Nat.le_add_left 1 2
    · next h =>
      rw [leadingDigits_cons]
      split
      · next hc =>
        have hlead : leadingDigits (spaced cs) ≠ 3 := fun he ↦ h ⟨hc, he⟩
        omega
      · exact Nat.zero_le 3

private theorem length_le_leadingDigits {s ds : JsString} (h : ds <+: s)
    (hds : ∀ c ∈ ds, isDigit c = true) : ds.length ≤ leadingDigits s := by
  obtain ⟨rest, rfl⟩ := h
  rw [leadingDigits, List.takeWhile_append_of_pos hds, List.length_append]
  exact Nat.le_add_right _ _

/-- No more than three digits stand together. -/
private theorem length_of_digits {s ds : JsString} (h : ds <:+: spaced s)
    (hds : ∀ c ∈ ds, isDigit c = true) : ds.length ≤ 3 := by
  induction s with
  | nil =>
    rw [List.infix_nil.mp h]
    exact Nat.zero_le 3
  | cons c cs ih =>
    have hstart : ds <+: spaced (c :: cs) → ds.length ≤ 3 := fun hp ↦
      (length_le_leadingDigits hp hds).trans (leadingDigits_spaced (c :: cs))
    rw [spaced] at h hstart
    split at h
    · next hc =>
      rw [if_pos hc] at hstart
      rcases List.infix_cons_iff.mp h with hp | h
      · exact hstart hp
      rcases List.infix_cons_iff.mp h with hp | h
      · have hle := length_le_leadingDigits hp hds
        rw [leadingDigits_cons, if_neg (by decide)] at hle
        omega
      · exact ih h
    · next hc =>
      rw [if_neg hc] at hstart
      rcases List.infix_cons_iff.mp h with hp | h
      · exact hstart hp
      · exact ih h

/-- A run of digits in groups: the first has one to three digits, the others have three, and single
spaces stand between them. -/
def Grouped (ds out : JsString) : Prop :=
  ∃ first groups, ds = first ++ groups.flatten ∧ out = [32].intercalate (first :: groups) ∧
    1 ≤ first.length ∧ first.length ≤ 3 ∧ ∀ g ∈ groups, g.length = 3

private theorem intercalate_groups (first : JsString) (groups : List JsString) :
    [32].intercalate (first :: groups) = first ++ groups.flatMap (32 :: ·) := by
  induction groups generalizing first with
  | nil => rw [List.intercalate_singleton, List.flatMap_nil, List.append_nil]
  | cons g groups ih =>
    rw [List.intercalate_cons_cons, ih, List.flatMap_cons, List.append_assoc]
    rfl

/-- The groups of a run. -/
private theorem grouped_spaced {ds : JsString} (hne : ds ≠ []) (hds : ∀ c ∈ ds, isDigit c = true) :
    Grouped ds (spaced ds) := by
  induction ds with
  | nil => exact absurd rfl hne
  | cons c ds ih =>
    rw [List.forall_mem_cons] at hds
    by_cases hnil : ds = []
    · subst hnil
      exact ⟨[c], [], rfl, spaced_of_short (Nat.le_add_left 1 2), Nat.le_refl 1,
        Nat.le_add_left 1 2, by simp⟩
    obtain ⟨first, groups, he, ht, hpos, hle, hthree⟩ := ih hnil hds.2
    have hfirst : ∀ d ∈ first, isDigit d = true := by
      intro d hd
      exact hds.2 d (he ▸ List.mem_append_left _ hd)
    have hrest : Bounded (groups.flatMap (32 :: ·)) := by
      cases groups with
      | nil => exact nofun
      | cons g gs =>
        rintro d ⟨⟩
        decide
    have hlead : leadingDigits (spaced ds) = first.length := by
      rw [ht, intercalate_groups, leadingDigits_append hrest, leadingDigits,
        List.takeWhile_eq_self_iff.mpr hfirst]
    by_cases hfull : first.length = 3
    · -- a new group starts with the digit
      refine ⟨[c], first :: groups, by rw [he]; rfl, ?_, Nat.le_refl 1, Nat.le_add_left 1 2, ?_⟩
      · rw [spaced, if_pos ⟨hds.1, hlead.trans hfull⟩, ht, intercalate_groups, intercalate_groups]
        rfl
      · rw [List.forall_mem_cons]
        exact ⟨hfull, hthree⟩
    · refine ⟨c :: first, groups, by rw [he]; rfl, ?_, ?_, ?_, hthree⟩
      · rw [spaced, if_neg fun h ↦ hfull (hlead.symm.trans h.2), ht, intercalate_groups,
          intercalate_groups]
        rfl
      · rw [List.length_cons]
        omega
      · rw [List.length_cons]
        omega

/-- The digits between two parts are a maximal run. -/
structure MaximalRun (pre ds post : JsString) : Prop where
  nonempty : ds ≠ []
  digits : ∀ c ∈ ds, isDigit c = true
  left : ∀ c ∈ pre.getLast?, isDigit c = false
  right : ∀ c ∈ post.head?, isDigit c = false

/-- Every maximal run has its own groups. -/
private theorem spaced_of_run {pre ds post : JsString} (h : MaximalRun pre ds post) :
    spaced (pre ++ ds ++ post) = spaced pre ++ spaced ds ++ spaced post := by
  rw [spaced_append h.right]
  congr 1
  rcases List.eq_nil_or_concat pre with rfl | ⟨pre, c, rfl⟩
  · rfl
  · have hc : isDigit c = false := h.left c (by simp)
    have hone : Bounded [c] := by
      rintro d ⟨⟩
      exact hc
    have hds : Bounded (c :: ds) := by
      rintro d ⟨⟩
      exact hc
    have hcons : spaced (c :: ds) = spaced [c] ++ spaced ds := by
      have hsingle : spaced [c] = [c] := spaced_of_short (Nat.le_add_left 1 2)
      rw [spaced, if_neg (by simp [hc]), hsingle]
      rfl
    rw [List.concat_eq_append, List.append_assoc, List.singleton_append, spaced_append hds,
      spaced_append hone, hcons, List.append_assoc]

/-! ### `addCommas` -/

/-- What is left of a string at its first point. -/
private theorem dropWhile_point (s : JsString) :
    s.dropWhile (· != 46) = [] ∨ ∃ rest, s.dropWhile (· != 46) = 46 :: rest := by
  have hpoint := List.head?_dropWhile_not (· != 46) s
  cases hrest : s.dropWhile (· != 46) with
  | nil => exact Or.inl rfl
  | cons c rest =>
    rw [hrest, List.head?_cons] at hpoint
    have hc : c = 46 := by simpa using hpoint
    exact Or.inr ⟨rest, by rw [hc]⟩

/-- `x₂` is the part from the point on, when there are no more points in it. -/
private theorem addCommas_eq {s : JsString} (hs : s.count 46 ≤ 1) :
    addCommas s = spaced (s.takeWhile (· != 46)) ++ s.dropWhile (· != 46) := by
  rw [addCommas, groupLoop_eq_spaced]
  congr 1
  rcases dropWhile_point s with hnil | ⟨rest, hrest⟩
  · rw [hnil]
  · have hcut : s.takeWhile (· != 46) ++ s.dropWhile (· != 46) = s :=
      List.takeWhile_append_dropWhile
    rw [hrest] at hcut
    rw [← hcut, List.count_append, List.count_cons_self] at hs
    have hnone : 46 ∉ rest := List.count_eq_zero.mp (by omega)
    have htake : rest.takeWhile (· != 46) = rest := by
      rw [List.takeWhile_eq_self_iff]
      intro d hd
      rw [bne_iff_ne]
      rintro rfl
      exact hnone hd
    rw [hrest]
    exact congrArg (46 :: ·) htake

private theorem addCommas_of_no_point {s : JsString} (hs : ∀ c ∈ s, (c != 46) = true) :
    addCommas s = spaced s := by
  have hcount : s.count 46 = 0 := List.count_eq_zero.mpr fun h ↦ absurd (hs 46 h) (by decide)
  rw [addCommas_eq (by omega), List.takeWhile_eq_self_iff.mpr hs, List.dropWhile_eq_nil_iff.mpr hs,
    List.append_nil]

private theorem filter_addCommas {s : JsString} (hs : s.count 46 ≤ 1) :
    (addCommas s).filter (· != 32) = s.filter (· != 32) := by
  rw [addCommas_eq hs, List.filter_append, filter_spaced, ← List.filter_append,
    List.takeWhile_append_dropWhile]

private theorem count_addCommas {s : JsString} (hs : s.count 46 ≤ 1) :
    (addCommas s).count 46 ≤ 1 := by
  have hcount : ∀ t : JsString, (t.filter (· != 32)).count 46 = t.count 46 := fun _ ↦
    List.count_filter (by decide)
  rw [← hcount, filter_addCommas hs, hcount]
  exact hs

/-- The result has its point where the string has it. -/
private theorem parts_addCommas {s : JsString} (hs : s.count 46 ≤ 1) :
    (addCommas s).takeWhile (· != 46) = spaced (s.takeWhile (· != 46)) ∧
      (addCommas s).dropWhile (· != 46) = s.dropWhile (· != 46) := by
  have hbefore : ∀ c ∈ spaced (s.takeWhile (· != 46)), (c != 46) = true := by
    intro c hc
    rw [bne_iff_ne]
    rintro rfl
    have hmem : 46 ∈ (spaced (s.takeWhile (· != 46))).filter (· != 32) :=
      List.mem_filter.mpr ⟨hc, by decide⟩
    rw [filter_spaced] at hmem
    exact absurd (List.mem_takeWhile_imp (List.mem_of_mem_filter hmem)) (by decide)
  have hstop : (s.dropWhile (· != 46)).takeWhile (· != 46) = [] := by
    rcases dropWhile_point s with hnil | ⟨rest, hrest⟩
    · rw [hnil, List.takeWhile_nil]
    · rw [hrest, List.takeWhile_cons_of_neg (by decide)]
  rw [addCommas_eq hs, List.takeWhile_append_of_pos hbefore, List.dropWhile_append_of_pos hbefore,
    hstop, List.append_nil]
  exact ⟨rfl, List.dropWhile_idempotent _ s⟩

/-- What `addCommas` makes of a string. -/
structure InThousands (s t : JsString) : Prop where
  /-- the loop ends with the part before the point -/
  ends : t.takeWhile (· != 46) ∈ eval rgxRound (s.takeWhile (· != 46))
  /-- nothing but spaces is added -/
  spaces : t.filter (· != 32) = s.filter (· != 32)
  /-- the part from the point on stays -/
  fraction : t.dropWhile (· != 46) = s.dropWhile (· != 46)
  /-- every maximal run of digits before the point is grouped -/
  runs : ∀ pre ds post, s.takeWhile (· != 46) = pre ++ ds ++ post → MaximalRun pre ds post →
    ∃ out, Grouped ds out ∧ t.takeWhile (· != 46) = addCommas pre ++ out ++ addCommas post
  /-- no longer run is left there -/
  short : ∀ ds, ds <:+: t.takeWhile (· != 46) → (∀ c ∈ ds, isDigit c = true) → ds.length ≤ 3

/-- `addCommas` ends on every string with at most one point, groups the digits before it by
thousands, and does not change what it has made. -/
theorem addCommas_inThousands (s : JsString) (hs : s.count 46 ≤ 1) :
    InThousands s (addCommas s) ∧ addCommas (addCommas s) = addCommas s := by
  obtain ⟨hbefore, hfraction⟩ := parts_addCommas hs
  have hround : rgxRound = groupOnce := funext rgxRound_eq_groupOnce
  refine ⟨⟨?_, filter_addCommas hs, hfraction, ?_, ?_⟩, ?_⟩
  · rw [hbefore, hround]
    exact spaced_mem_eval _
  · intro pre ds post hcut hrun
    have hpoint : ∀ c ∈ pre ++ ds ++ post, (c != 46) = true := by
      intro c hc
      rw [← hcut] at hc
      exact List.mem_takeWhile_imp (p := (· != 46)) hc
    rw [List.forall_mem_append, List.forall_mem_append] at hpoint
    refine ⟨spaced ds, grouped_spaced hrun.nonempty hrun.digits, ?_⟩
    rw [hbefore, hcut, spaced_of_run hrun, addCommas_of_no_point hpoint.1.1,
      addCommas_of_no_point hpoint.2]
  · intro ds h hds
    rw [hbefore] at h
    exact length_of_digits h hds
  · rw [addCommas_eq (count_addCommas hs), hbefore, hfraction, spaced_spaced, ← addCommas_eq hs]

/-- Two runs and a fraction. -/
theorem addCommas_inThousands_plays :
    (js "1234567 of 89012.3456").count 46 ≤ 1 ∧
    addCommas (js "1234567 of 89012.3456") = js "1 234 567 of 89 012.3456" ∧
    InThousands (js "1234567 of 89012.3456") (js "1 234 567 of 89 012.3456") := by
  have hs : (js "1234567 of 89012.3456").count 46 ≤ 1 := by decide
  have hvalue : addCommas (js "1234567 of 89012.3456") = js "1 234 567 of 89 012.3456" := by
    decide +kernel
  refine ⟨hs, hvalue, ?_⟩
  rw [← hvalue]
  exact (addCommas_inThousands _ hs).1

end MusicComparer.Client
