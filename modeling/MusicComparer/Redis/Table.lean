import Mathlib.Algebra.Ring.Nat
import Mathlib.Data.List.Flatten
import Mathlib.Data.List.GetD
import Mathlib.Data.List.Nodup
import Mathlib.Data.List.Perm.Basic
import Mathlib.Logic.Function.Basic

/-!
# Hash tables with chains

Library `Redis`, the `dictht` of `redis-2.8.19/src/dict.h` with the operations that `dict.c`
performs on one table. The number of buckets is a power of two, and an entry is added at the head of
the chain of its bucket. A table is read through its entries, up to order, and these through the map
they list.
-/

namespace MusicComparer.Redis

/-- `dictht`: the chains of the buckets and the number of entries. -/
structure Table (κ α : Type) where
  table : List (List (κ × α))
  used : Nat

variable {κ α : Type}

namespace Table

/-- `_dictReset`. -/
def reset : Table κ α := ⟨[], 0⟩

/-- Number of buckets. -/
def size (t : Table κ α) : Nat := t.table.length

/-- The bucket of a hash value, `h & sizemask`. -/
def index (t : Table κ α) (h : Nat) : Nat := h &&& (t.size - 1)

/-- The chain at an index. -/
def bucket (t : Table κ α) (i : Nat) : List (κ × α) := t.table.getD i []

/-- All entries. -/
def entries (t : Table κ α) : List (κ × α) := t.table.flatten

/-- A new table with empty buckets, `dict.c:214–218`. -/
def alloc (size : Nat) : Table κ α := ⟨List.replicate size [], 0⟩

variable (hash : κ → Nat)

/-- Put an entry at the head of its chain. -/
def push (t : Table κ α) (e : κ × α) : Table κ α :=
  let i := t.index (hash e.1)
  ⟨t.table.set i (e :: t.bucket i), t.used + 1⟩

variable [DecidableEq κ]

/-- The walk along the chain of a key, `dict.c:484–490`. -/
def search (t : Table κ α) (k : κ) : Option (κ × α) :=
  (t.bucket (t.index (hash k))).find? fun e ↦ e.1 = k

/-- Unlink the entry of a key, `dict.c:406–426`. -/
def unlink (t : Table κ α) (k : κ) : Table κ α :=
  let i := t.index (hash k)
  ⟨t.table.set i ((t.bucket i).eraseP fun e ↦ e.1 = k), t.used - 1⟩

/-- Set the value of the entry of a key, `dictSetVal`. -/
def setVal (t : Table κ α) (k : κ) (v : α) : Table κ α :=
  let i := t.index (hash k)
  ⟨t.table.set i ((t.bucket i).map fun e ↦ if e.1 = k then (k, v) else e), t.used⟩

end Table

/-! ### Chains -/

/-- A table with another chain in one bucket, up to order. -/
private theorem flatten_set_perm {β : Type} (l : List (List β)) {i : Nat} (h : i < l.length)
    (b : List β) : (l.set i b).flatten.Perm (b ++ (l.set i []).flatten) := by
  induction l generalizing i with
  | nil => simp at h
  | cons c l ih =>
    cases i with
    | zero => simp
    | succ i =>
      have hi : i < l.length := by simpa using h
      simp only [List.set_cons_succ, List.flatten_cons]
      calc (c ++ (l.set i b).flatten).Perm (c ++ (b ++ (l.set i []).flatten)) :=
            (ih hi).append_left c
        List.Perm _ (b ++ (c ++ (l.set i []).flatten)) := by
            rw [← List.append_assoc, ← List.append_assoc]
            exact List.perm_append_comm.append_right _

/-- The entry of a key in a chain, and the rest of the chain. -/
private theorem perm_cons_eraseP [DecidableEq κ] {b : List (κ × α)} {k : κ} {e : κ × α}
    (h : b.find? (fun e ↦ e.1 = k) = some e) :
    b.Perm (e :: b.eraseP fun e ↦ e.1 = k) := by
  induction b with
  | nil => cases h
  | cons c b ih =>
    by_cases hc : c.1 = k
    · rw [List.find?_cons_of_pos (by simpa using hc), Option.some_inj] at h
      rw [List.eraseP_cons_of_pos (by simpa using hc), h]
    · rw [List.find?_cons_of_neg (by simpa using hc)] at h
      rw [List.eraseP_cons_of_neg (by simpa using hc)]
      exact ((ih h).cons c).trans (List.Perm.swap e c _)

/-- Setting the value of a key that a chain has once. -/
private theorem map_perm_cons_eraseP [DecidableEq κ] {b : List (κ × α)} {k : κ} (v : α)
    (hb : (b.map Prod.fst).Nodup) (h : (b.find? fun e ↦ e.1 = k).isSome = true) :
    (b.map fun e ↦ if e.1 = k then (k, v) else e).Perm ((k, v) :: b.eraseP fun e ↦ e.1 = k) := by
  induction b with
  | nil => cases h
  | cons c b ih =>
    rw [List.map_cons, List.nodup_cons] at hb
    by_cases hc : c.1 = k
    · have hrest : (b.map fun e ↦ if e.1 = k then (k, v) else e) = b := by
        conv_rhs => rw [← List.map_id b]
        apply List.map_congr_left
        intro e he
        rw [if_neg, id]
        rintro rfl
        exact hb.1 (hc ▸ List.mem_map_of_mem he)
      rw [List.map_cons, if_pos hc, List.eraseP_cons_of_pos (by simpa using hc), hrest]
    · rw [List.find?_cons_of_neg (by simpa using hc)] at h
      rw [List.map_cons, if_neg hc, List.eraseP_cons_of_neg (by simpa using hc)]
      exact ((ih hb.2 h).cons c).trans (List.Perm.swap (k, v) c _)

namespace Table

variable {hash : κ → Nat} {t : Table κ α}

/-- Every entry is in the bucket of its key, `used` counts the entries, and the size is a power of
two. -/
structure WF (hash : κ → Nat) (t : Table κ α) : Prop where
  placed : ∀ i, ∀ e ∈ t.bucket i, t.index (hash e.1) = i
  used : t.used = t.entries.length
  pow : t.size = 0 ∨ ∃ n, t.size = 2 ^ n

theorem index_lt (h : 0 < t.size) (n : Nat) : t.index n < t.size := by
  have := Nat.and_le_right (n := n) (m := t.size - 1)
  rw [index]
  omega

/-- The bucket is the hash value modulo the number of buckets. -/
theorem WF.index_eq_mod (ht : t.WF hash) (h : 0 < t.size) (n : Nat) : t.index n = n % t.size := by
  rcases ht.pow with h0 | ⟨m, hm⟩
  · omega
  · rw [index, hm, Nat.and_two_pow_sub_one_eq_mod]

theorem bucket_set (t : Table κ α) {i : Nat} (h : i < t.size) (b : List (κ × α)) (n j : Nat) :
    (⟨t.table.set i b, n⟩ : Table κ α).bucket j = if j = i then b else t.bucket j := by
  unfold bucket
  rw [List.getD_eq_getElem?_getD, List.getElem?_set, List.getD_eq_getElem?_getD]
  by_cases hj : j = i
  · subst hj
    have hlen : j < t.table.length := h
    rw [if_pos rfl, if_pos rfl, if_pos hlen, Option.getD_some]
  · rw [if_neg (Ne.symm hj), if_neg hj]

theorem mem_entries_iff {e : κ × α} : e ∈ t.entries ↔ ∃ i, e ∈ t.bucket i := by
  unfold entries bucket
  rw [List.mem_flatten]
  constructor
  · rintro ⟨b, hb, he⟩
    obtain ⟨i, hi, rfl⟩ := List.getElem_of_mem hb
    exact ⟨i, by rwa [List.getD_eq_getElem _ _ hi]⟩
  · rintro ⟨i, he⟩
    by_cases hi : i < t.table.length
    · rw [List.getD_eq_getElem _ _ hi] at he
      exact ⟨_, List.getElem_mem hi, he⟩
    · rw [List.getD_eq_default _ _ (by omega)] at he
      cases he

/-- A table without buckets has no entries. -/
theorem entries_eq_nil (h : t.size = 0) : t.entries = [] := by
  rw [entries, List.eq_nil_of_length_eq_zero h, List.flatten_nil]

/-- The entries of one bucket, and the others. -/
theorem entries_perm_bucket {i : Nat} (h : i < t.size) :
    t.entries.Perm (t.bucket i ++ (t.table.set i []).flatten) := by
  have hlen : i < t.table.length := h
  have hset : t.table.set i (t.bucket i) = t.table := by
    rw [bucket, List.getD_eq_getElem _ _ hlen, List.set_getElem_self]
  have hperm := flatten_set_perm t.table h (t.bucket i)
  rwa [hset] at hperm

/-- Replacing one chain by a chain of entries of the same bucket. -/
theorem WF.set (ht : t.WF hash) {i : Nat} (h : i < t.size) {b : List (κ × α)} {n : Nat}
    (hb : ∀ e ∈ b, t.index (hash e.1) = i)
    (hn : n + (t.bucket i).length = t.used + b.length) :
    WF hash ⟨t.table.set i b, n⟩ := by
  have hsize : (⟨t.table.set i b, n⟩ : Table κ α).size = t.size := List.length_set
  have hindex : (⟨t.table.set i b, n⟩ : Table κ α).index = t.index := by
    funext m
    rw [index, index, hsize]
  refine ⟨?_, ?_, by rw [hsize]; exact ht.pow⟩
  · intro j e he
    rw [bucket_set t h] at he
    rw [hindex]
    split at he
    · next hj => rw [hb e he, hj]
    · exact ht.placed j e he
  · have h1 := (flatten_set_perm t.table h b).length_eq
    have h2 := (entries_perm_bucket h).length_eq
    have h3 := ht.used
    simp only [entries, List.length_append] at h1 h2 h3 ⊢
    omega

/-- Adding an entry at the head of its chain. -/
theorem WF.push (ht : t.WF hash) (h : 0 < t.size) (e : κ × α) :
    (t.push hash e).WF hash ∧ (t.push hash e).entries.Perm (e :: t.entries) := by
  have hi := index_lt h (hash e.1)
  constructor
  · refine ht.set hi ?_ ?_
    · intro e' he'
      rcases List.mem_cons.mp he' with rfl | he'
      · rfl
      · exact ht.placed _ e' he'
    · rw [List.length_cons]
      omega
  · refine (flatten_set_perm t.table hi _).trans ?_
    rw [List.cons_append]
    exact ((entries_perm_bucket hi).symm).cons e

theorem size_push (hash : κ → Nat) (t : Table κ α) (e : κ × α) : (t.push hash e).size = t.size :=
  List.length_set

/-- Moving a chain to a table. -/
theorem WF.foldl_push (ht : t.WF hash) (h : 0 < t.size) (b : List (κ × α)) :
    (b.foldl (Table.push hash) t).WF hash ∧ (b.foldl (Table.push hash) t).size = t.size ∧
      (b.foldl (Table.push hash) t).entries.Perm (b ++ t.entries) := by
  induction b generalizing t with
  | nil => exact ⟨ht, rfl, List.Perm.refl _⟩
  | cons e b ih =>
    obtain ⟨hwf, hperm⟩ := ht.push h e
    obtain ⟨hwf', hsize', hperm'⟩ := ih hwf (by rwa [size_push])
    refine ⟨hwf', hsize'.trans (size_push hash t e), hperm'.trans ?_⟩
    exact (hperm.append_left b).trans List.perm_middle

theorem wf_alloc (hash : κ → Nat) (n : Nat) (hn : ∃ m, n = 2 ^ m) :
    (Table.alloc n : Table κ α).WF hash := by
  have hbucket : ∀ i, (Table.alloc n : Table κ α).bucket i = [] := by
    intro i
    rw [bucket, alloc, List.getD_eq_getElem?_getD, List.getElem?_replicate]
    split <;> rfl
  refine ⟨?_, ?_, Or.inr (by rwa [size, alloc, List.length_replicate])⟩
  · intro i e he
    rw [hbucket] at he
    cases he
  · rw [entries, alloc, List.flatten_replicate_nil, List.length_nil]

theorem wf_reset (hash : κ → Nat) : (Table.reset : Table κ α).WF hash :=
  ⟨fun i e he ↦ by simp [bucket, reset] at he, rfl, Or.inl rfl⟩

variable [DecidableEq κ]

/-- What the search finds is an entry of the key. -/
theorem mem_of_search {k : κ} {e : κ × α} (h : t.search hash k = some e) :
    e ∈ t.entries ∧ e.1 = k := by
  have hk := List.find?_some h
  exact ⟨mem_entries_iff.mpr ⟨_, List.mem_of_find?_eq_some h⟩, by simpa using hk⟩

/-- The search finds every key of the table. -/
theorem WF.search_isSome (ht : t.WF hash) {e : κ × α} (he : e ∈ t.entries) :
    (t.search hash e.1).isSome = true := by
  obtain ⟨i, hi⟩ := mem_entries_iff.mp he
  rw [search, List.find?_isSome]
  refine ⟨e, ?_, by simp⟩
  rwa [ht.placed i e hi]

/-- A table in which something is found has buckets. -/
private theorem size_pos_of_search {k : κ} (h : (t.search hash k).isSome = true) : 0 < t.size := by
  obtain ⟨e, he⟩ := Option.isSome_iff_exists.mp h
  have hmem := (mem_of_search he).1
  rw [entries, List.mem_flatten] at hmem
  obtain ⟨b, hb, -⟩ := hmem
  exact List.length_pos_of_mem hb

/-- Unlinking takes the entry of the key away, and no other. -/
theorem WF.unlink (ht : t.WF hash) {k : κ} {e : κ × α} (h : t.search hash k = some e) :
    (t.unlink hash k).WF hash ∧ t.entries.Perm (e :: (t.unlink hash k).entries) := by
  have hi := index_lt (size_pos_of_search (by rw [h]; rfl)) (hash k)
  have hperm := perm_cons_eraseP h
  constructor
  · refine ht.set hi ?_ ?_
    · intro e' he'
      exact ht.placed _ e' (List.mem_of_mem_eraseP he')
    · have hlen := hperm.length_eq
      have hused := ht.used
      have hall := (entries_perm_bucket hi).length_eq
      rw [List.length_cons] at hlen
      rw [List.length_append] at hall
      omega
  · calc t.entries.Perm (t.bucket (t.index (hash k)) ++ (t.table.set _ []).flatten) :=
          entries_perm_bucket hi
      List.Perm _ (e :: ((t.bucket (t.index (hash k))).eraseP (fun e ↦ e.1 = k) ++
          (t.table.set (t.index (hash k)) []).flatten)) := hperm.append_right _
      List.Perm _ (e :: (t.unlink hash k).entries) :=
          ((flatten_set_perm t.table hi _).symm).cons e

theorem size_unlink (hash : κ → Nat) (t : Table κ α) (k : κ) :
    (t.unlink hash k).size = t.size :=
  List.length_set

/-- Neither unlinking nor setting a value fills an empty bucket. -/
theorem bucket_unlink_eq_nil {k : κ} {j : Nat} (h : t.bucket j = []) :
    (t.unlink hash k).bucket j = [] := by
  by_cases hs : 0 < t.size
  · rw [Table.unlink, bucket_set t (index_lt hs _)]
    split
    · next hj => rw [← hj, h, List.eraseP_nil]
    · exact h
  · rw [Table.unlink, bucket, List.set_eq_of_length_le (by rw [size] at hs; omega)]
    exact h

theorem bucket_setVal_eq_nil {k : κ} {v : α} {j : Nat} (h : t.bucket j = []) :
    (t.setVal hash k v).bucket j = [] := by
  by_cases hs : 0 < t.size
  · rw [Table.setVal, bucket_set t (index_lt hs _)]
    split
    · next hj => rw [← hj, h, List.map_nil]
    · exact h
  · rw [Table.setVal, bucket, List.set_eq_of_length_le (by rw [size] at hs; omega)]
    exact h

/-- Setting a value is unlinking the entry and adding the new one, up to order. -/
theorem WF.setVal (ht : t.WF hash) {k : κ} (hk : (t.entries.map Prod.fst).Nodup)
    (h : (t.search hash k).isSome = true) (v : α) :
    (t.setVal hash k v).WF hash ∧
      (t.setVal hash k v).entries.Perm ((k, v) :: (t.unlink hash k).entries) := by
  have hi := index_lt (size_pos_of_search h) (hash k)
  have hb : ((t.bucket (t.index (hash k))).map Prod.fst).Nodup := by
    have hperm := ((entries_perm_bucket hi).map Prod.fst).nodup_iff.mp hk
    rw [List.map_append] at hperm
    exact hperm.of_append_left
  constructor
  · refine ht.set hi ?_ ?_
    · intro e' he'
      obtain ⟨e, he, rfl⟩ := List.mem_map.mp he'
      split
      · rfl
      · exact ht.placed _ e he
    · rw [List.length_map]
  · refine (flatten_set_perm t.table hi _).trans ?_
    refine ((map_perm_cons_eraseP v hb h).append_right _).trans ?_
    rw [List.cons_append]
    exact ((flatten_set_perm t.table hi _).symm).cons (k, v)

theorem size_setVal (hash : κ → Nat) (t : Table κ α) (k : κ) (v : α) :
    (t.setVal hash k v).size = t.size :=
  List.length_set

end Table

/-! ### Contents -/

/-- The list has an entry for every key of the map, once, and no others. -/
structure Lists (l : List (κ × α)) (m : κ → Option α) : Prop where
  nodup : (l.map Prod.fst).Nodup
  mem : ∀ k v, (k, v) ∈ l ↔ m k = some v

namespace Lists

variable {l l' : List (κ × α)} {m : κ → Option α}

/-- The order does not matter. -/
theorem perm (h : Lists l m) (hp : l'.Perm l) : Lists l' m :=
  ⟨(hp.map Prod.fst).nodup_iff.mpr h.nodup, fun k v ↦ hp.mem_iff.trans (h.mem k v)⟩

theorem nil : Lists ([] : List (κ × α)) fun _ ↦ none := ⟨List.nodup_nil, by simp⟩

/-- The map of the empty list. -/
theorem eq_none (h : Lists ([] : List (κ × α)) m) (k : κ) : m k = none := by
  cases hm : m k with
  | none => rfl
  | some v => exact absurd ((h.mem k v).mpr hm) (by simp)

variable [DecidableEq κ]

/-- One entry more. -/
theorem cons (h : Lists l m) {k : κ} (hk : m k = none) (v : α) :
    Lists ((k, v) :: l) (Function.update m k (some v)) := by
  constructor
  · rw [List.map_cons, List.nodup_cons]
    refine ⟨?_, h.nodup⟩
    intro hm
    obtain ⟨⟨k', v'⟩, he, rfl⟩ := List.mem_map.mp hm
    rw [h.mem, hk] at he
    cases he
  · intro k' v'
    rw [List.mem_cons, h.mem, Prod.mk.injEq]
    by_cases he : k' = k
    · subst he
      simp [hk, eq_comm]
    · simp [he]

/-- One entry less. -/
theorem of_cons {k : κ} {v : α} (h : Lists ((k, v) :: l) m) :
    Lists l (Function.update m k none) := by
  have hk : k ∉ l.map Prod.fst := (List.nodup_cons.mp h.nodup).1
  refine ⟨(List.nodup_cons.mp h.nodup).2, ?_⟩
  intro k' v'
  by_cases he : k' = k
  · subst he
    rw [Function.update_self]
    simp only [reduceCtorEq, iff_false]
    exact fun hm ↦ hk (List.mem_map_of_mem hm)
  · rw [Function.update_of_ne he, ← h.mem, List.mem_cons, Prod.mk.injEq]
    simp [he]

end Lists

end MusicComparer.Redis
