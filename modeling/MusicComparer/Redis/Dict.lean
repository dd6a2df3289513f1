import MusicComparer.Redis.Table

/-!
# The dictionaries of redis

Library `Redis`, from `redis-2.8.19/src/dict.c` and `dict.h`. A dictionary has two tables. While it
grows or shrinks, the entries move from the first to the second one bucket at a time, with each
operation on the dictionary, and both tables are in use. The hash function and the values are
parameters, and so is the flag `dict_can_resize`.

The allocation of a table always succeeds here, so `_dictNextPower` has no upper limit.
-/

namespace MusicComparer.Redis

/-- `dict`. `rehashidx` is the next bucket of the first table to move, and `none` is -1. -/
structure Dict (κ α : Type) where
  ht0 : Table κ α
  ht1 : Table κ α
  rehashidx : Option Nat
  iterators : Nat

variable {κ α : Type}

namespace Dict

/-- `_dictInit`. -/
def create : Dict κ α := ⟨.reset, .reset, none, 0⟩

/-- `dictIsRehashing`. -/
def isRehashing (d : Dict κ α) : Bool := d.rehashidx.isSome

/-- `dictSize`. -/
def size (d : Dict κ α) : Nat := d.ht0.used + d.ht1.used

/-- All entries, those of the first table first. -/
def entries (d : Dict κ α) : List (κ × α) := d.ht0.entries ++ d.ht1.entries

/-- The loop of `_dictNextPower`, `dict.c:843–847`. -/
def nextPowerFrom (size : Nat) : Nat → Nat → Nat
  | 0, i => i
  | fuel + 1, i => if size ≤ i then i else nextPowerFrom size fuel (i * 2)

/-- `_dictNextPower`: the first doubling of `DICT_HT_INITIAL_SIZE` that is large enough. -/
def nextPower (size : Nat) : Nat := nextPowerFrom size size 4

/-- `dictExpand`, `dict.c:204–231`. -/
def expand (d : Dict κ α) (size : Nat) : Dict κ α :=
  if d.isRehashing || size < d.ht0.used then d
  else if d.ht0.size = 0 then { d with ht0 := .alloc (nextPower size) }
  else { d with ht1 := .alloc (nextPower size), rehashidx := some 0 }

/-- `_dictExpandIfNeeded`, `dict.c:816–835`. -/
def expandIfNeeded (canResize : Bool) (d : Dict κ α) : Dict κ α :=
  if d.isRehashing then d
  else if d.ht0.size = 0 then d.expand 4
  else if d.ht0.size ≤ d.ht0.used && (canResize || 5 < d.ht0.used / d.ht0.size) then
    d.expand (d.ht0.used * 2)
  else d

/-- `dictResize`, `dict.c:192–201`. -/
def resize (canResize : Bool) (d : Dict κ α) : Dict κ α :=
  if !canResize || d.isRehashing then d else d.expand (max d.ht0.used 4)

/-- The first bucket from `i` on that is not empty, `dict.c:255`. -/
def nextBucket (t : Table κ α) (i : Nat) : Nat := i + (t.table.drop i).findIdx fun b ↦ !b.isEmpty

variable (hash : κ → Nat)

/-- One step of `dictRehash`, `dict.c:240–272`: the tables are exchanged when the first one is
empty; else all entries of its next bucket move to the second one. -/
def rehashBucket (d : Dict κ α) (i : Nat) : Dict κ α :=
  if d.ht0.used = 0 then { d with ht0 := d.ht1, ht1 := .reset, rehashidx := none }
  else
    let j := nextBucket d.ht0 i
    let moved := d.ht0.bucket j
    { d with
      ht0 := ⟨d.ht0.table.set j [], d.ht0.used - moved.length⟩
      ht1 := moved.foldl (Table.push hash) d.ht1
      rehashidx := some (j + 1) }

/-- `dictRehash`. -/
def rehash : Nat → Dict κ α → Dict κ α
  | 0, d => d
  | n + 1, d =>
    match d.rehashidx with
    | none => d
    | some i => rehash n (d.rehashBucket hash i)

/-- `_dictRehashStep`: no step while there are safe iterators. -/
def rehashStep (d : Dict κ α) : Dict κ α := if d.iterators = 0 then d.rehash hash 1 else d

variable [DecidableEq κ]

/-- The search through both tables, `dict.c:483–493`. -/
def search (d : Dict κ α) (k : κ) : Option (κ × α) :=
  match d.ht0.search hash k with
  | some e => some e
  | none => if d.isRehashing then d.ht1.search hash k else none

/-- `dictFind`. -/
def find (d : Dict κ α) (k : κ) : Dict κ α × Option α :=
  if d.ht0.size = 0 then (d, none)
  else
    let d := d.rehashStep hash
    (d, (d.search hash k).map Prod.snd)

/-- `dictAdd` by way of `dictAddRaw` and `_dictKeyIndex`; `false` is `DICT_ERR`. -/
def add (canResize : Bool) (d : Dict κ α) (k : κ) (v : α) : Dict κ α × Bool :=
  let d := (d.rehashStep hash).expandIfNeeded canResize
  if (d.search hash k).isSome then (d, false)
  else if d.isRehashing then ({ d with ht1 := d.ht1.push hash (k, v) }, true)
  else ({ d with ht0 := d.ht0.push hash (k, v) }, true)

/-- The assignment to the value of an entry that was found. -/
def setVal (d : Dict κ α) (k : κ) (v : α) : Dict κ α :=
  if (d.ht0.search hash k).isSome then { d with ht0 := d.ht0.setVal hash k v }
  else { d with ht1 := d.ht1.setVal hash k v }

/-- `dictReplace`, `dict.c:361–380`: added, or found and set. -/
def replace (canResize : Bool) (d : Dict κ α) (k : κ) (v : α) : Dict κ α :=
  match d.add hash canResize k v with
  | (d, true) => d
  | (d, false) => ((d.find hash k).1).setVal hash k v

/-- `dictReplaceRaw` and the assignment to the value of its entry, `dict.c:388–392`: found and set,
or added. -/
def replaceRaw (canResize : Bool) (d : Dict κ α) (k : κ) (v : α) : Dict κ α :=
  match d.find hash k with
  | (d, some _) => d.setVal hash k v
  | (d, none) => (d.add hash canResize k v).1

/-- `dictGenericDelete`, `dict.c:395–430`; `false` is `DICT_ERR`. -/
def delete (d : Dict κ α) (k : κ) : Dict κ α × Bool :=
  if d.ht0.size = 0 then (d, false)
  else
    let d := d.rehashStep hash
    if (d.ht0.search hash k).isSome then ({ d with ht0 := d.ht0.unlink hash k }, true)
    else if d.isRehashing && (d.ht1.search hash k).isSome then
      ({ d with ht1 := d.ht1.unlink hash k }, true)
    else (d, false)

end Dict

/-! ### Rehashing -/

/-- The first chain that is not empty. -/
private theorem findIdx_chain {β : Type} {l : List (List β)} {n : Nat} (h : l.getD n [] ≠ []) :
    l.findIdx (fun b ↦ !b.isEmpty) < l.length ∧
      l.getD (l.findIdx fun b ↦ !b.isEmpty) [] ≠ [] ∧
      ∀ j < l.findIdx (fun b ↦ !b.isEmpty), l.getD j [] = [] := by
  induction l generalizing n with
  | nil => simp at h
  | cons b l ih =>
    cases b with
    | nil =>
      cases n with
      | zero => simp at h
      | succ n =>
        obtain ⟨hlt, hat, hbefore⟩ := ih (n := n) (by simpa using h)
        rw [List.findIdx_cons]
        refine ⟨by simpa using hlt, by simpa using hat, ?_⟩
        intro j hj
        cases j with
        | zero => rfl
        | succ j => simpa using hbefore j (by simpa using hj)
    | cons e b =>
      rw [List.findIdx_cons]
      exact ⟨by simp, by simp, by simp⟩

namespace Dict

variable {hash : κ → Nat} {d : Dict κ α}

/-- The two tables are well formed. The second one is not there unless entries are being moved, and
then the buckets before `rehashidx` are empty. -/
structure WF (hash : κ → Nat) (d : Dict κ α) : Prop where
  ht0 : d.ht0.WF hash
  ht1 : d.ht1.WF hash
  idle : d.rehashidx = none → d.ht1 = .reset
  moving : ∀ i, d.rehashidx = some i →
    0 < d.ht0.size ∧ 0 < d.ht1.size ∧ ∀ j < i, d.ht0.bucket j = []

/-- Another first table of the same size with no more filled buckets. -/
private theorem WF.withHt0 (hd : d.WF hash) {t : Table κ α} (ht : t.WF hash)
    (hs : t.size = d.ht0.size) (hb : ∀ j, d.ht0.bucket j = [] → t.bucket j = []) :
    WF hash { d with ht0 := t } := by
  refine ⟨ht, hd.ht1, hd.idle, ?_⟩
  intro i hi
  obtain ⟨hs0, hs1, hbefore⟩ := hd.moving i hi
  exact ⟨by rwa [hs], hs1, fun j hj ↦ hb j (hbefore j hj)⟩

/-- Another second table of the same size, while entries are being moved. -/
private theorem WF.withHt1 (hd : d.WF hash) (hr : d.isRehashing = true) {t : Table κ α}
    (ht : t.WF hash) (hs : t.size = d.ht1.size) : WF hash { d with ht1 := t } := by
  refine ⟨hd.ht0, ht, ?_, ?_⟩
  · intro hnone
    rw [isRehashing] at hr
    exact absurd (hnone : d.rehashidx = none) (Option.isSome_iff_ne_none.mp hr)
  · intro i hi
    obtain ⟨hs0, hs1, hbefore⟩ := hd.moving i hi
    exact ⟨hs0, by rwa [hs], hbefore⟩

/-- While entries are left in the first table, the scan for the next bucket ends inside the table,
at the first bucket that is not empty. -/
theorem WF.nextBucket (hd : d.WF hash) {i : Nat} (hi : d.rehashidx = some i)
    (hu : d.ht0.used ≠ 0) :
    Dict.nextBucket d.ht0 i < d.ht0.size ∧ d.ht0.bucket (Dict.nextBucket d.ht0 i) ≠ [] ∧
      ∀ j < Dict.nextBucket d.ht0 i, d.ht0.bucket j = [] := by
  have hne : d.ht0.entries ≠ [] := by
    intro h
    rw [hd.ht0.used, h] at hu
    exact hu rfl
  obtain ⟨e, he⟩ := List.exists_mem_of_ne_nil _ hne
  obtain ⟨n, hn⟩ := Table.mem_entries_iff.mp he
  have hin : i ≤ n := by
    by_contra hlt
    rw [(hd.moving i hi).2.2 n (by omega)] at hn
    cases hn
  have hdrop : ∀ m, (d.ht0.table.drop i).getD m [] = d.ht0.bucket (i + m) := by
    intro m
    rw [Table.bucket, List.getD_eq_getElem?_getD, List.getD_eq_getElem?_getD, List.getElem?_drop]
  have hbucket : (d.ht0.table.drop i).getD (n - i) [] ≠ [] := by
    rw [hdrop, show i + (n - i) = n by omega]
    exact List.ne_nil_of_mem hn
  obtain ⟨hlt, hat, hbefore⟩ := findIdx_chain hbucket
  rw [List.length_drop] at hlt
  refine ⟨by rw [Dict.nextBucket, Table.size]; omega, ?_, ?_⟩
  · rwa [hdrop] at hat
  · intro j hj
    by_cases hji : j < i
    · exact (hd.moving i hi).2.2 j hji
    · rw [Dict.nextBucket] at hj
      have hempty := hbefore (j - i) (by omega)
      rwa [hdrop, show i + (j - i) = j by omega] at hempty

/-- A step of the rehashing keeps the entries. -/
private theorem WF.rehashBucket (hd : d.WF hash) {i : Nat} (hi : d.rehashidx = some i) :
    (d.rehashBucket hash i).WF hash ∧ (d.rehashBucket hash i).entries.Perm d.entries := by
  unfold Dict.rehashBucket
  split
  · next hu =>
    have hempty : d.ht0.entries = [] := List.eq_nil_of_length_eq_zero (hd.ht0.used ▸ hu)
    refine ⟨⟨hd.ht1, Table.wf_reset hash, fun _ ↦ rfl, fun j hj ↦ by cases hj⟩, ?_⟩
    rw [entries, entries, hempty, List.nil_append]
    exact List.Perm.of_eq (List.append_nil _)
  · next hu =>
    obtain ⟨hlt, hat, hbefore⟩ := hd.nextBucket hi hu
    obtain ⟨hsize0, hsize1, -⟩ := hd.moving i hi
    obtain ⟨hwf1, hsize, hperm⟩ := hd.ht1.foldl_push hsize1 (d.ht0.bucket (Dict.nextBucket d.ht0 i))
    have hcount := (Table.entries_perm_bucket hlt).length_eq
    have hused := hd.ht0.used
    rw [List.length_append] at hcount
    refine ⟨⟨hd.ht0.set hlt (by simp) (by rw [List.length_nil]; omega), hwf1,
      fun h ↦ (by cases h), ?_⟩, ?_⟩
    · rintro j hj
      cases hj
      refine ⟨by rwa [Table.size, List.length_set], by rwa [hsize], ?_⟩
      intro n hn
      rw [Table.bucket_set d.ht0 hlt]
      split
      · rfl
      · exact hbefore n (by omega)
    · calc ((d.ht0.table.set (Dict.nextBucket d.ht0 i) []).flatten ++ _).Perm
            ((d.ht0.table.set (Dict.nextBucket d.ht0 i) []).flatten ++
              (d.ht0.bucket (Dict.nextBucket d.ht0 i) ++ d.ht1.entries)) := hperm.append_left _
        List.Perm _ ((d.ht0.bucket (Dict.nextBucket d.ht0 i) ++
            (d.ht0.table.set (Dict.nextBucket d.ht0 i) []).flatten) ++ d.ht1.entries) := by
          rw [← List.append_assoc]
          exact List.perm_append_comm.append_right _
        List.Perm _ (d.ht0.entries ++ d.ht1.entries) :=
          (Table.entries_perm_bucket hlt).symm.append_right _

theorem WF.rehash (hd : d.WF hash) (n : Nat) :
    (d.rehash hash n).WF hash ∧ (d.rehash hash n).entries.Perm d.entries := by
  induction n generalizing d with
  | zero => exact ⟨hd, List.Perm.refl _⟩
  | succ n ih =>
    rw [Dict.rehash]
    split
    · exact ⟨hd, List.Perm.refl _⟩
    · next i hi =>
      obtain ⟨hwf, hperm⟩ := hd.rehashBucket hi
      obtain ⟨hwf', hperm'⟩ := ih hwf
      exact ⟨hwf', hperm'.trans hperm⟩

private theorem WF.rehashStep (hd : d.WF hash) :
    (d.rehashStep hash).WF hash ∧ (d.rehashStep hash).entries.Perm d.entries := by
  unfold Dict.rehashStep
  split
  · exact hd.rehash 1
  · exact ⟨hd, List.Perm.refl _⟩

/-- The loop ends at a power of two that is large enough. -/
theorem nextPower_spec (size : Nat) : size ≤ nextPower size ∧ ∃ n, nextPower size = 2 ^ n := by
  have hloop : ∀ fuel i, size ≤ i + fuel → (∃ n, i = 2 ^ n) →
      size ≤ nextPowerFrom size fuel i ∧ ∃ n, nextPowerFrom size fuel i = 2 ^ n := by
    intro fuel
    induction fuel with
    | zero => exact fun i hi hn ↦ ⟨hi, hn⟩
    | succ fuel ih =>
      rintro i hi ⟨n, rfl⟩
      rw [nextPowerFrom]
      split
      · next h => exact ⟨h, n, rfl⟩
      · have hpos := Nat.two_pow_pos n
        exact ih _ (by omega) ⟨n + 1, by rw [Nat.pow_succ]⟩
  exact hloop size 4 (by omega) ⟨2, rfl⟩

private theorem nextPower_pos (size : Nat) : 0 < nextPower size := by
  obtain ⟨n, hn⟩ := (nextPower_spec size).2
  rw [hn]
  exact Nat.two_pow_pos n

private theorem entries_alloc (n : Nat) : (Table.alloc n : Table κ α).entries = [] :=
  List.flatten_replicate_nil

/-- A new table changes no entry. -/
private theorem WF.expand (hd : d.WF hash) (size : Nat) :
    (d.expand size).WF hash ∧ (d.expand size).entries = d.entries := by
  unfold Dict.expand
  have halloc := Table.wf_alloc (α := α) hash (nextPower size) (nextPower_spec size).2
  have hsize : (Table.alloc (nextPower size) : Table κ α).size = nextPower size :=
    List.length_replicate
  split
  · exact ⟨hd, rfl⟩
  · next hr =>
    have hidle : d.rehashidx = none := by
      rw [Bool.or_eq_true, not_or, isRehashing, Option.not_isSome_iff_eq_none] at hr
      exact hr.1
    split
    · next h0 =>
      refine ⟨⟨halloc, hd.ht1, hd.idle, ?_⟩, ?_⟩
      · intro i hi
        exact absurd (hidle.symm.trans hi) (by simp)
      · rw [entries, entries, entries_alloc, Table.entries_eq_nil h0]
    · next h0 =>
      refine ⟨⟨hd.ht0, halloc, fun h ↦ (by cases h), ?_⟩, ?_⟩
      · intro i hi
        cases hi
        exact ⟨Nat.pos_of_ne_zero h0, by rw [hsize]; exact nextPower_pos size, fun j hj ↦ by omega⟩
      · rw [entries, entries, entries_alloc, hd.idle hidle]
        rfl

private theorem WF.expandIfNeeded (hd : d.WF hash) (canResize : Bool) :
    (d.expandIfNeeded canResize).WF hash ∧
      (d.expandIfNeeded canResize).entries = d.entries ∧
      0 < (d.expandIfNeeded canResize).ht0.size := by
  unfold Dict.expandIfNeeded
  split
  · next hr =>
    obtain ⟨i, hi⟩ := Option.isSome_iff_exists.mp hr
    exact ⟨hd, rfl, (hd.moving i hi).1⟩
  · next hr =>
    split
    · next h0 =>
      refine ⟨(hd.expand 4).1, (hd.expand 4).2, ?_⟩
      have hused : d.ht0.used = 0 := by
        rw [hd.ht0.used, Table.entries_eq_nil h0, List.length_nil]
      rw [Dict.expand, if_neg (by simp [hr, hused]), if_pos h0]
      rw [Table.size, Table.alloc, List.length_replicate]
      exact nextPower_pos 4
    · next h0 =>
      split
      · refine ⟨(hd.expand _).1, (hd.expand _).2, ?_⟩
        unfold Dict.expand
        split
        · exact Nat.pos_of_ne_zero h0
        · exact Nat.pos_of_ne_zero h0
      · exact ⟨hd, rfl, Nat.pos_of_ne_zero h0⟩

theorem WF.resize (hd : d.WF hash) (canResize : Bool) :
    (d.resize canResize).WF hash ∧ (d.resize canResize).entries = d.entries := by
  unfold Dict.resize
  split
  · exact ⟨hd, rfl⟩
  · exact hd.expand _

/-- The dictionary is well formed and has the entries of the map. -/
structure Represents (hash : κ → Nat) (d : Dict κ α) (m : κ → Option α) : Prop where
  wf : d.WF hash
  lists : Lists d.entries m

variable {m : κ → Option α}

theorem represents_create (hash : κ → Nat) :
    (create : Dict κ α).Represents hash fun _ ↦ none :=
  ⟨⟨Table.wf_reset hash, Table.wf_reset hash, fun _ ↦ rfl, fun i hi ↦ by cases hi⟩, Lists.nil⟩

/-- `dictSize` is the number of entries. -/
theorem WF.size_eq (hd : d.WF hash) : d.size = d.entries.length := by
  rw [size, hd.ht0.used, hd.ht1.used, entries, List.length_append]

/-- A dictionary without buckets is empty. -/
private theorem WF.entries_eq_nil (hd : d.WF hash) (h : d.ht0.size = 0) : d.entries = [] := by
  have hidle : d.rehashidx = none := by
    cases hi : d.rehashidx with
    | none => rfl
    | some i =>
      have := (hd.moving i hi).1
      omega
  rw [entries, Table.entries_eq_nil h, hd.idle hidle]
  rfl

variable [DecidableEq κ]

/-- The search finds what the map has. -/
private theorem Represents.search (hd : d.Represents hash m) (k : κ) :
    (d.search hash k).map Prod.snd = m k := by
  have hsome : ∀ {e : κ × α}, e ∈ d.entries ∧ e.1 = k → (some e).map Prod.snd = m k := by
    rintro ⟨k', v⟩ ⟨he, rfl⟩
    exact ((hd.lists.mem _ _).mp he).symm
  have hnone : d.ht0.search hash k = none → (∀ v, (k, v) ∉ d.ht1.entries) → m k = none := by
    intro h0 h1
    cases hm : m k with
    | none => rfl
    | some v =>
      rcases List.mem_append.mp ((hd.lists.mem k v).mpr hm) with he | he
      · have := hd.wf.ht0.search_isSome he
        rw [h0] at this
        cases this
      · exact absurd he (h1 v)
  unfold Dict.search
  split
  · next e he =>
    have hmem := Table.mem_of_search he
    exact hsome ⟨List.mem_append_left _ hmem.1, hmem.2⟩
  · next h0 =>
    split
    · cases h1 : d.ht1.search hash k with
      | some e =>
        have hmem := Table.mem_of_search h1
        exact hsome ⟨List.mem_append_right _ hmem.1, hmem.2⟩
      | none =>
        refine (hnone h0 ?_).symm
        intro v he
        have := hd.wf.ht1.search_isSome he
        rw [h1] at this
        cases this
    · next hr =>
      refine (hnone h0 ?_).symm
      have hidle : d.rehashidx = none := by simpa [isRehashing] using hr
      rw [hd.wf.idle hidle]
      intro v he
      cases he

omit [DecidableEq κ] in
private theorem Represents.rehashStep (hd : d.Represents hash m) :
    (d.rehashStep hash).Represents hash m :=
  ⟨hd.wf.rehashStep.1, hd.lists.perm hd.wf.rehashStep.2⟩

/-- `dictFind` finds what the map has. -/
theorem Represents.find (hd : d.Represents hash m) (k : κ) :
    (d.find hash k).1.Represents hash m ∧ (d.find hash k).2 = m k := by
  unfold Dict.find
  split
  · next h0 =>
    have hempty := hd.lists
    rw [hd.wf.entries_eq_nil h0] at hempty
    exact ⟨hd, (hempty.eq_none k).symm⟩
  · exact ⟨hd.rehashStep, hd.rehashStep.search k⟩

/-- `dictAdd` adds a key that the map does not have, and refuses one that it has. -/
theorem Represents.add (hd : d.Represents hash m) (canResize : Bool) (k : κ) (v : α) :
    (d.add hash canResize k v).2 = (m k).isNone ∧
      (d.add hash canResize k v).1.Represents hash
        (if (m k).isNone then Function.update m k (some v) else m) := by
  unfold Dict.add
  obtain ⟨hwf, hentries, hsize⟩ := hd.rehashStep.wf.expandIfNeeded canResize
  have hd' : ((d.rehashStep hash).expandIfNeeded canResize).Represents hash m :=
    ⟨hwf, by rw [hentries]; exact hd.rehashStep.lists⟩
  generalize (d.rehashStep hash).expandIfNeeded canResize = d' at hwf hsize hd' ⊢
  have hsearch : (d'.search hash k).isSome = (m k).isSome := by
    rw [← hd'.search k, Option.isSome_map]
  cases hm : m k with
  | some v' =>
    have hfound : (d'.search hash k).isSome = true := by rw [hsearch, hm]; rfl
    simp only [hfound, if_true, Option.isNone_some, Bool.false_eq_true, if_false]
    exact ⟨trivial, hd'⟩
  | none =>
    have hfound : (d'.search hash k).isSome = false := by rw [hsearch, hm]; rfl
    simp only [hfound, Bool.false_eq_true, if_false, Option.isNone_none, if_true]
    split
    · next hr =>
      obtain ⟨i, hi⟩ := Option.isSome_iff_exists.mp hr
      obtain ⟨hwf1, hperm⟩ := hwf.ht1.push (hwf.moving i hi).2.1 (k, v)
      refine ⟨rfl, hwf.withHt1 hr hwf1 (Table.size_push ..), ?_⟩
      refine (hd'.lists.cons hm v).perm ?_
      exact (hperm.append_left _).trans List.perm_middle
    · next hr =>
      have hidle : d'.rehashidx = none := by simpa [isRehashing] using hr
      obtain ⟨hwf0, hperm⟩ := hwf.ht0.push hsize (k, v)
      refine ⟨rfl, ⟨hwf0, hwf.ht1, hwf.idle, fun j hj ↦ absurd (hidle.symm.trans hj) (by simp)⟩, ?_⟩
      exact (hd'.lists.cons hm v).perm (hperm.append_right _)

/-- A key that the map has is found in one of the tables. -/
private theorem Represents.search_isSome (hd : d.Represents hash m) {k : κ}
    (hk : (m k).isSome = true) :
    (d.ht0.search hash k).isSome = true ∨
      d.isRehashing = true ∧ (d.ht1.search hash k).isSome = true := by
  rw [← hd.search k, Option.isSome_map, Dict.search] at hk
  split at hk
  · next e he => exact Or.inl (by rw [he]; rfl)
  · next h0 =>
    split at hk
    · next hr => exact Or.inr ⟨hr, hk⟩
    · cases hk

/-- The map without a key: the entry of the key is gone. -/
private theorem lists_erase (h : Lists d.entries m) {e : κ × α} {k : κ} {l : List (κ × α)}
    (hk : e.1 = k) (hperm : d.entries.Perm (e :: l)) : Lists l (Function.update m k none) := by
  obtain ⟨k', v'⟩ := e
  subst hk
  exact (h.perm hperm.symm).of_cons

/-- The map with another value for a key. -/
private theorem lists_set (h : Lists d.entries m) {e : κ × α} {k : κ} {l : List (κ × α)}
    (hk : e.1 = k) (hperm : d.entries.Perm (e :: l)) (v : α) :
    Lists ((k, v) :: l) (Function.update m k (some v)) := by
  have hcons := (lists_erase h hk hperm).cons (Function.update_self ..) v
  rwa [Function.update_idem] at hcons

/-- Assigning to the entry of a key that the map has. -/
theorem Represents.setVal (hd : d.Represents hash m) {k : κ} (hk : (m k).isSome = true)
    (v : α) : (d.setVal hash k v).Represents hash (Function.update m k (some v)) := by
  have hnodup := hd.lists.nodup
  rw [entries, List.map_append] at hnodup
  unfold Dict.setVal
  split
  · next h0 =>
    obtain ⟨e, he⟩ := Option.isSome_iff_exists.mp h0
    obtain ⟨hwf, hperm⟩ := hd.wf.ht0.setVal hnodup.of_append_left h0 v
    have hunlink := (hd.wf.ht0.unlink he).2
    refine ⟨hd.wf.withHt0 hwf (Table.size_setVal ..) fun j ↦ Table.bucket_setVal_eq_nil, ?_⟩
    exact (lists_set hd.lists (Table.mem_of_search he).2 (hunlink.append_right _) v).perm
      (hperm.append_right _)
  · next h0 =>
    obtain ⟨hr, h1⟩ := (hd.search_isSome hk).resolve_left h0
    obtain ⟨e, he⟩ := Option.isSome_iff_exists.mp h1
    obtain ⟨hwf, hperm⟩ := hd.wf.ht1.setVal hnodup.of_append_right h1 v
    have hunlink := (hd.wf.ht1.unlink he).2
    refine ⟨hd.wf.withHt1 hr hwf (Table.size_setVal ..), ?_⟩
    exact (lists_set hd.lists (Table.mem_of_search he).2
      ((hunlink.append_left _).trans List.perm_middle) v).perm
        ((hperm.append_left _).trans List.perm_middle)

/-- `dictReplace` leaves the value under the key. -/
theorem Represents.replace (hd : d.Represents hash m) (canResize : Bool) (k : κ) (v : α) :
    (d.replace hash canResize k v).Represents hash (Function.update m k (some v)) := by
  obtain ⟨hreply, hadd⟩ := hd.add canResize k v
  unfold Dict.replace
  split
  · next d' h =>
    rw [h] at hreply hadd
    rwa [← hreply, if_pos rfl] at hadd
  · next d' h =>
    rw [h] at hreply hadd
    rw [← hreply, if_neg Bool.false_ne_true] at hadd
    refine (hadd.find k).1.setVal ?_ v
    rw [← Option.not_isNone, ← hreply]
    rfl

/-- `dictReplaceRaw` with the assignment to its entry does the same. -/
theorem Represents.replaceRaw (hd : d.Represents hash m) (canResize : Bool) (k : κ) (v : α) :
    (d.replaceRaw hash canResize k v).Represents hash (Function.update m k (some v)) := by
  obtain ⟨hfind, hreply⟩ := hd.find k
  unfold Dict.replaceRaw
  split
  · next d' v' h =>
    rw [h] at hfind hreply
    exact hfind.setVal (by rw [← hreply]; rfl) v
  · next d' h =>
    rw [h] at hfind hreply
    have hadd := (hfind.add canResize k v).2
    rwa [← hreply] at hadd

/-- `dictDelete` removes the key, and tells whether the map had it. -/
theorem Represents.delete (hd : d.Represents hash m) (k : κ) :
    (d.delete hash k).2 = (m k).isSome ∧
      (d.delete hash k).1.Represents hash (Function.update m k none) := by
  have habsent : m k = none → Function.update m k none = m := fun h ↦ by
    rw [← h, Function.update_eq_self]
  unfold Dict.delete
  split
  · next h0 =>
    have hnone := (hd.find k).2
    rw [Dict.find, if_pos h0] at hnone
    rw [habsent hnone.symm, ← hnone]
    exact ⟨rfl, hd⟩
  · have hd' := hd.rehashStep
    generalize d.rehashStep hash = d' at hd'
    dsimp only
    split
    · next h0 =>
      obtain ⟨e, he⟩ := Option.isSome_iff_exists.mp h0
      obtain ⟨hwf, hperm⟩ := hd'.wf.ht0.unlink he
      refine ⟨?_, hd'.wf.withHt0 hwf (Table.size_unlink ..) fun j ↦ Table.bucket_unlink_eq_nil,
        lists_erase hd'.lists (Table.mem_of_search he).2 (hperm.append_right _)⟩
      rw [← hd'.search k, Option.isSome_map, Dict.search, he, Option.isSome_some]
    · next h0 =>
      split
      · next h1 =>
        rw [Bool.and_eq_true] at h1
        obtain ⟨e, he⟩ := Option.isSome_iff_exists.mp h1.2
        obtain ⟨hwf, hperm⟩ := hd'.wf.ht1.unlink he
        refine ⟨?_, hd'.wf.withHt1 h1.1 hwf (Table.size_unlink ..),
          lists_erase hd'.lists (Table.mem_of_search he).2
            ((hperm.append_left _).trans List.perm_middle)⟩
        have hmem := (Table.mem_of_search he)
        have hm := (hd'.lists.mem e.1 e.2).mp (List.mem_append_right _ hmem.1)
        rw [← hmem.2, hm]
        rfl
      · next h1 =>
        have hnone : m k = none := by
          cases hm : m k with
          | none => rfl
          | some v =>
            rcases hd'.search_isSome (by rw [hm]; rfl) with h | ⟨hr, h⟩
            · exact absurd h h0
            · rw [hr, h] at h1
              exact absurd rfl h1
        rw [habsent hnone, hnone]
        exact ⟨rfl, hd'⟩

end Dict

/-! ### Runs -/

/-- The operations on a dictionary, and the steps that change only its tables: resizing, rehashing
in the background, and the begin and end of a safe iterator. -/
inductive DictOp (κ α : Type) where
  | add (canResize : Bool) (k : κ) (v : α)
  | replace (canResize : Bool) (k : κ) (v : α)
  | replaceRaw (canResize : Bool) (k : κ) (v : α)
  | find (k : κ)
  | delete (k : κ)
  | resize (canResize : Bool)
  | rehash (n : Nat)
  | iterate
  | release

/-- What an operation returns. -/
inductive DictReply (α : Type) where
  | done
  | flag (b : Bool)
  | value (v : Option α)
  deriving DecidableEq, Repr

variable [DecidableEq κ]

/-- An operation on the tables. -/
def Dict.apply (hash : κ → Nat) (d : Dict κ α) : DictOp κ α → Dict κ α × DictReply α
  | .add canResize k v => ((d.add hash canResize k v).1, .flag (d.add hash canResize k v).2)
  | .replace canResize k v => (d.replace hash canResize k v, .done)
  | .replaceRaw canResize k v => (d.replaceRaw hash canResize k v, .done)
  | .find k => ((d.find hash k).1, .value (d.find hash k).2)
  | .delete k => ((d.delete hash k).1, .flag (d.delete hash k).2)
  | .resize canResize => (d.resize canResize, .done)
  | .rehash n => (d.rehash hash n, .done)
  | .iterate => ({ d with iterators := d.iterators + 1 }, .done)
  | .release => ({ d with iterators := d.iterators - 1 }, .done)

/-- What the operation is for: the same on a map. -/
def DictOp.onMap (m : κ → Option α) : DictOp κ α → (κ → Option α) × DictReply α
  | .add _ k v => (if (m k).isNone then Function.update m k (some v) else m, .flag (m k).isNone)
  | .replace _ k v | .replaceRaw _ k v => (Function.update m k (some v), .done)
  | .find k => (m, .value (m k))
  | .delete k => (Function.update m k none, .flag (m k).isSome)
  | .resize _ | .rehash _ | .iterate | .release => (m, .done)

/-- Each operation on the tables is the operation on the map. -/
theorem Dict.Represents.apply {hash : κ → Nat} {d : Dict κ α} {m : κ → Option α}
    (hd : d.Represents hash m) (op : DictOp κ α) :
    (d.apply hash op).1.Represents hash (op.onMap m).1 ∧ (d.apply hash op).2 = (op.onMap m).2 := by
  cases op with
  | add canResize k v =>
    obtain ⟨hreply, hadd⟩ := hd.add canResize k v
    exact ⟨hadd, congrArg DictReply.flag hreply⟩
  | replace canResize k v => exact ⟨hd.replace canResize k v, rfl⟩
  | replaceRaw canResize k v => exact ⟨hd.replaceRaw canResize k v, rfl⟩
  | find k => exact ⟨(hd.find k).1, congrArg DictReply.value (hd.find k).2⟩
  | delete k => exact ⟨(hd.delete k).2, congrArg DictReply.flag (hd.delete k).1⟩
  | resize canResize =>
    obtain ⟨hwf, hentries⟩ := hd.wf.resize canResize
    exact ⟨⟨hwf, hentries ▸ hd.lists⟩, rfl⟩
  | rehash n =>
    obtain ⟨hwf, hperm⟩ := hd.wf.rehash n
    exact ⟨⟨hwf, hd.lists.perm hperm⟩, rfl⟩
  | iterate => exact ⟨⟨⟨hd.wf.ht0, hd.wf.ht1, hd.wf.idle, hd.wf.moving⟩, hd.lists⟩, rfl⟩
  | release => exact ⟨⟨⟨hd.wf.ht0, hd.wf.ht1, hd.wf.idle, hd.wf.moving⟩, hd.lists⟩, rfl⟩

/-- The dictionary after a list of operations, with what they returned. -/
def Dict.applyAll (hash : κ → Nat) : Dict κ α → List (DictOp κ α) → Dict κ α × List (DictReply α)
  | d, [] => (d, [])
  | d, op :: ops =>
    let (d', rs) := applyAll hash (d.apply hash op).1 ops
    (d', (d.apply hash op).2 :: rs)

/-- The map after a list of operations, with what they return. -/
def DictOp.allOnMap : (κ → Option α) → List (DictOp κ α) → (κ → Option α) × List (DictReply α)
  | m, [] => (m, [])
  | m, op :: ops =>
    let (m', rs) := allOnMap (op.onMap m).1 ops
    (m', (op.onMap m).2 :: rs)

theorem Dict.Represents.applyAll {hash : κ → Nat} {d : Dict κ α} {m : κ → Option α}
    (hd : d.Represents hash m) (ops : List (DictOp κ α)) :
    (d.applyAll hash ops).1.Represents hash (DictOp.allOnMap m ops).1 ∧
      (d.applyAll hash ops).2 = (DictOp.allOnMap m ops).2 := by
  induction ops generalizing d m with
  | nil => exact ⟨hd, rfl⟩
  | cons op ops ih =>
    obtain ⟨hstep, hreply⟩ := hd.apply op
    obtain ⟨hrun, hreplies⟩ := ih hstep
    exact ⟨hrun, congrArg₂ List.cons hreply hreplies⟩

/-- For every hash function and every sequence of operations on a new dictionary, with resizing
allowed or not, rehashing and iterators at any time: the operations return what they return on a
map, and the dictionary has as many entries as `dictSize` says, those of the map. -/
theorem dict_refines_map (hash : κ → Nat) (ops : List (DictOp κ α)) :
    ((Dict.create : Dict κ α).applyAll hash ops).2 =
        (DictOp.allOnMap (fun _ ↦ none) ops).2 ∧
      Lists ((Dict.create : Dict κ α).applyAll hash ops).1.entries
        (DictOp.allOnMap (fun _ ↦ none) ops).1 ∧
      ((Dict.create : Dict κ α).applyAll hash ops).1.size =
        ((Dict.create : Dict κ α).applyAll hash ops).1.entries.length := by
  obtain ⟨hd, hreplies⟩ := (Dict.represents_create hash).applyAll ops
  exact ⟨hreplies, hd.lists, hd.wf.size_eq⟩

/-- Nine keys with the same hash value, and the last of them is found while they are being moved. -/
example : ((Dict.create : Dict Nat Nat).applyAll (fun _ ↦ 6)
    ((List.range 9).map (fun k ↦ .add true k (k * k)) ++ [.find 8])).2.getLast? =
      some (.value (some 64)) := by
  decide +kernel

omit [DecidableEq κ] in
/-- Every step of the rehashing moves on by at least one bucket, and behind the last one the tables
are exchanged. -/
private theorem rehashidx_rehash {hash : κ → Nat} {d : Dict κ α} (hd : d.WF hash) {n : Nat}
    (hn : ∀ i, d.rehashidx = some i → d.ht0.size - i < n) :
    (d.rehash hash n).rehashidx = none := by
  induction n generalizing d with
  | zero =>
    cases hi : d.rehashidx with
    | none => exact hi
    | some i => exact absurd (hn i hi) (by omega)
  | succ n ih =>
    rw [Dict.rehash]
    split
    · next hi => exact hi
    · next i hi =>
      apply ih (hd.rehashBucket hi).1
      intro j hj
      rw [Dict.rehashBucket] at hj ⊢
      split at hj
      · cases hj
      · next hu =>
        rw [if_neg hu]
        cases hj
        have hle : i ≤ Dict.nextBucket d.ht0 i := Nat.le_add_right _ _
        have hlt := (hd.nextBucket hi hu).1
        have hi := hn i hi
        simp only [Table.size, List.length_set] at hi hlt ⊢
        omega

/-- For every hash function and in every state that operations on a new dictionary reach: every
entry is in the bucket of its hash value modulo the number of buckets; the assertion of
`dict.c:254` holds and the scan for the next bucket ends inside the table; and one step for each
bucket and one more finish the rehashing. -/
theorem dict_rehash_safe (hash : κ → Nat) (ops : List (DictOp κ α)) :
    let d := ((Dict.create : Dict κ α).applyAll hash ops).1
    (∀ e ∈ d.entries, e ∈ d.ht0.bucket (hash e.1 % d.ht0.size) ∨
        e ∈ d.ht1.bucket (hash e.1 % d.ht1.size)) ∧
      (∀ i, d.rehashidx = some i → d.ht0.used ≠ 0 → i < d.ht0.size ∧
        Dict.nextBucket d.ht0 i < d.ht0.size ∧ d.ht0.bucket (Dict.nextBucket d.ht0 i) ≠ []) ∧
      (d.rehash hash (d.ht0.size + 1)).rehashidx = none := by
  have hd := (((Dict.represents_create hash).applyAll ops).1).wf
  generalize ((Dict.create : Dict κ α).applyAll hash ops).1 = d at hd
  dsimp only
  have hplaced : ∀ {t : Table κ α}, t.WF hash →
      ∀ e ∈ t.entries, e ∈ t.bucket (hash e.1 % t.size) := by
    intro t ht e he
    obtain ⟨i, hi⟩ := Table.mem_entries_iff.mp he
    have hpos : 0 < t.size := by
      rcases Nat.eq_zero_or_pos t.size with h0 | h0
      · rw [Table.entries_eq_nil h0] at he
        cases he
      · exact h0
    rwa [← ht.index_eq_mod hpos, ht.placed i e hi]
  refine ⟨?_, ?_, rehashidx_rehash hd fun i _ ↦ by omega⟩
  · intro e he
    rcases List.mem_append.mp he with he | he
    · exact Or.inl (hplaced hd.ht0 e he)
    · exact Or.inr (hplaced hd.ht1 e he)
  · intro i hi hu
    obtain ⟨hlt, hne, -⟩ := hd.nextBucket hi hu
    have hle : i ≤ Dict.nextBucket d.ht0 i := Nat.le_add_right _ _
    exact ⟨by omega, hlt, hne⟩

end MusicComparer.Redis
