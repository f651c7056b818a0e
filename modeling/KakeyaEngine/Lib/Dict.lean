import Mathlib.Data.List.Nodup
import Mathlib.Algebra.BigOperators.Group.List.Basic
import Mathlib.Algebra.GroupWithZero.Nat

/-!
# Insertion-ordered dictionaries

`Dict κ ν` is a finite map that remembers the order in which its keys were first stored: a list of entries whose
keys are pairwise distinct.  `set` replaces the value of a stored key in place and puts a new key at the end,
`erase` drops a key and keeps the order of the others, and `moveToEnd` makes a key the youngest one.  The lemmas
describe each operation through `get?`, and through `total`, the sum of a weight over the stored values.
-/

/-- A finite map with the order of its keys. -/
structure Dict (κ ν : Type) where
  entries : List (κ × ν)
  nodup : (entries.map Prod.fst).Nodup

namespace Dict

variable {κ ν : Type}

/-- The dictionary without keys. -/
def empty : Dict κ ν := ⟨[], List.nodup_nil⟩

/-- The keys, oldest first. -/
def keys (d : Dict κ ν) : List κ := d.entries.map Prod.fst

/-- The values, in the order of their keys. -/
def values (d : Dict κ ν) : List ν := d.entries.map Prod.snd

/-- The number of keys. -/
def size (d : Dict κ ν) : Nat := d.entries.length

/-- The entries whose value satisfies `p`. -/
def filter (p : ν → Bool) (d : Dict κ ν) : Dict κ ν :=
  ⟨d.entries.filter fun e => p e.2, d.nodup.sublist (List.filter_sublist.map Prod.fst)⟩

/-- The sum of the weights of the stored values. -/
def total (f : ν → Nat) (d : Dict κ ν) : Nat := (d.values.map f).sum

@[simp] theorem total_empty (f : ν → Nat) : total f (empty : Dict κ ν) = 0 := rfl

@[simp] theorem size_empty : size (empty : Dict κ ν) = 0 := rfl

variable [DecidableEq κ]

/-- The value stored under `k`. -/
def get? (d : Dict κ ν) (k : κ) : Option ν := (d.entries.find? fun e => e.1 = k).map Prod.snd

/-- Whether `k` is stored. -/
def contains (d : Dict κ ν) (k : κ) : Bool := (d.get? k).isSome

/-- Drops `k`, if it is stored. -/
def erase (d : Dict κ ν) (k : κ) : Dict κ ν :=
  ⟨d.entries.filter fun e => e.1 ≠ k, d.nodup.sublist (List.filter_sublist.map Prod.fst)⟩

private theorem nodup_replace (l : List (κ × ν)) (k : κ) (v : ν) (h : (l.map Prod.fst).Nodup) :
    ((l.map fun e => if e.1 = k then (k, v) else e).map Prod.fst).Nodup := by
  have e : (l.map fun e => if e.1 = k then (k, v) else e).map Prod.fst = l.map Prod.fst := by
    rw [List.map_map]
    apply List.map_congr_left
    intro x _
    by_cases hx : x.1 = k <;> simp [hx]
  rw [e]; exact h

omit [DecidableEq κ] in
private theorem nodup_snoc {l : List (κ × ν)} {k : κ} (v : ν) (h : (l.map Prod.fst).Nodup)
    (hk : k ∉ l.map Prod.fst) : ((l ++ [(k, v)]).map Prod.fst).Nodup := by
  rw [List.map_append, List.nodup_append]
  refine ⟨h, by simp, ?_⟩
  intro a ha b hb
  simp only [List.map_cons, List.map_nil, List.mem_singleton] at hb
  subst hb
  exact fun e => hk (e ▸ ha)

/-- Stores `v` under `k`: in place when `k` is stored, at the end otherwise. -/
def set (d : Dict κ ν) (k : κ) (v : ν) : Dict κ ν :=
  if h : k ∈ d.entries.map Prod.fst then
    ⟨d.entries.map fun e => if e.1 = k then (k, v) else e, nodup_replace d.entries k v d.nodup⟩
  else
    ⟨d.entries ++ [(k, v)], nodup_snoc v d.nodup h⟩

/-- Makes `k` the youngest key. -/
def moveToEnd (d : Dict κ ν) (k : κ) : Dict κ ν :=
  match d.get? k with
  | none => d
  | some v => (d.erase k).set k v

/-- Stores entries one after the other. -/
def update (d : Dict κ ν) (entries : List (κ × ν)) : Dict κ ν := entries.foldl (fun d e => d.set e.1 e.2) d

/-- The entries of a list of which the last one of each key counts. -/
def ofEntries (entries : List (κ × ν)) : Dict κ ν := empty.update entries

/-! ### Looking up a key -/

theorem mem_entries_iff {d : Dict κ ν} {k : κ} {v : ν} : (k, v) ∈ d.entries ↔ d.get? k = some v := by
  obtain ⟨l, hl⟩ := d
  unfold get?
  dsimp only
  induction l with
  | nil => simp
  | cons e l ih =>
    obtain ⟨k', v'⟩ := e
    simp only [List.map_cons, List.nodup_cons] at hl
    by_cases h : k' = k
    · subst h
      have hv : (k', v) ∉ l := fun hm => hl.1 (List.mem_map_of_mem (f := Prod.fst) hm)
      simp [hv, eq_comm]
    · have h' : ¬ k = k' := fun e => h e.symm
      simp [h, h', ih hl.2]

theorem mem_keys_iff {d : Dict κ ν} {k : κ} : k ∈ d.keys ↔ ∃ v, d.get? k = some v := by
  unfold keys
  rw [List.mem_map]
  constructor
  · rintro ⟨⟨k', v⟩, hm, rfl⟩
    exact ⟨v, mem_entries_iff.1 hm⟩
  · rintro ⟨v, hv⟩
    exact ⟨(k, v), mem_entries_iff.2 hv, rfl⟩

theorem mem_values_iff {d : Dict κ ν} {v : ν} : v ∈ d.values ↔ ∃ k, d.get? k = some v := by
  unfold values
  rw [List.mem_map]
  constructor
  · rintro ⟨⟨k, v'⟩, hm, rfl⟩
    exact ⟨k, mem_entries_iff.1 hm⟩
  · rintro ⟨k, hk⟩
    exact ⟨(k, v), mem_entries_iff.2 hk, rfl⟩

theorem not_mem_keys_iff {d : Dict κ ν} {k : κ} : k ∉ d.keys ↔ d.get? k = none := by
  rw [mem_keys_iff]
  cases h : d.get? k <;> simp

@[simp] theorem get?_empty (k : κ) : (empty : Dict κ ν).get? k = none := rfl

@[simp] theorem contains_iff {d : Dict κ ν} {k : κ} : d.contains k = true ↔ ∃ v, d.get? k = some v := by
  unfold contains
  exact Option.isSome_iff_exists

theorem mem_set_entries {d : Dict κ ν} {k k' : κ} {v v' : ν} :
    (k', v') ∈ (d.set k v).entries ↔ if k' = k then v' = v else (k', v') ∈ d.entries := by
  unfold set
  split
  · rename_i h
    simp only [List.mem_map] at h ⊢
    constructor
    · rintro ⟨⟨a, b⟩, hm, he⟩
      by_cases ha : a = k
      · simp only [ha, ↓reduceIte, Prod.mk.injEq] at he
        simp [he.1.symm, he.2.symm]
      · simp only [ha, ↓reduceIte, Prod.mk.injEq] at he
        obtain ⟨rfl, rfl⟩ := he
        simpa [ha] using hm
    · intro hm
      by_cases hk : k' = k
      · subst hk
        obtain ⟨e, he, rfl⟩ := h
        have hv : v' = v := by simpa using hm
        exact ⟨e, he, by simp [hv]⟩
      · simp only [hk, ↓reduceIte] at hm
        exact ⟨(k', v'), hm, by simp [hk]⟩
  · rename_i h
    simp only [List.mem_append, List.mem_singleton, Prod.mk.injEq]
    by_cases hk : k' = k
    · subst hk
      have : (k', v') ∉ d.entries := fun hm => h (List.mem_map_of_mem (f := Prod.fst) hm)
      simp [this]
    · simp [hk]

theorem get?_set (d : Dict κ ν) (k k' : κ) (v : ν) :
    (d.set k v).get? k' = if k' = k then some v else d.get? k' := by
  apply Option.ext
  intro v'
  rw [← mem_entries_iff, mem_set_entries]
  split
  · simp [eq_comm]
  · exact mem_entries_iff

@[simp] theorem get?_set_self (d : Dict κ ν) (k : κ) (v : ν) : (d.set k v).get? k = some v := by
  simp [get?_set]

theorem get?_set_ne {d : Dict κ ν} {k k' : κ} (v : ν) (h : k' ≠ k) : (d.set k v).get? k' = d.get? k' := by
  simp [get?_set, h]

theorem get?_erase (d : Dict κ ν) (k k' : κ) :
    (d.erase k).get? k' = if k' = k then none else d.get? k' := by
  apply Option.ext
  intro v
  rw [← mem_entries_iff]
  unfold erase
  by_cases h : k' = k
  · simp [h]
  · simp [h, mem_entries_iff]

@[simp] theorem get?_erase_self (d : Dict κ ν) (k : κ) : (d.erase k).get? k = none := by
  simp [get?_erase]

theorem get?_erase_ne {d : Dict κ ν} {k k' : κ} (h : k' ≠ k) : (d.erase k).get? k' = d.get? k' := by
  simp [get?_erase, h]

@[simp] theorem get?_moveToEnd (d : Dict κ ν) (k k' : κ) : (d.moveToEnd k).get? k' = d.get? k' := by
  unfold moveToEnd
  split
  · rfl
  · rename_i v hv
    rw [get?_set, get?_erase]
    split
    · rename_i h; rw [h, hv]
    · rfl

theorem get?_filter (d : Dict κ ν) (p : ν → Bool) (k : κ) :
    (d.filter p).get? k = (d.get? k).filter p := by
  apply Option.ext
  intro v
  rw [← mem_entries_iff]
  unfold filter
  simp [mem_entries_iff, Option.filter_eq_some_iff]

/-! ### Sizes and totals -/

theorem total_set_new {d : Dict κ ν} {k : κ} (f : ν → Nat) (v : ν) (h : d.get? k = none) :
    total f (d.set k v) = total f d + f v := by
  have hk : k ∉ d.entries.map Prod.fst := not_mem_keys_iff.2 h
  unfold total values set
  simp [hk]

theorem size_set_new {d : Dict κ ν} {k : κ} (v : ν) (h : d.get? k = none) : (d.set k v).size = d.size + 1 := by
  have hk : k ∉ d.entries.map Prod.fst := not_mem_keys_iff.2 h
  unfold size set
  simp [hk]

theorem size_set_old {d : Dict κ ν} {k : κ} {v' : ν} (v : ν) (h : d.get? k = some v') :
    (d.set k v).size = d.size := by
  have hk : k ∈ d.entries.map Prod.fst := mem_keys_iff.2 ⟨v', h⟩
  unfold size set
  simp [hk]

private theorem sum_filter_key {l : List (κ × ν)} (f : ν → Nat) {k : κ} {v : ν}
    (hl : (l.map Prod.fst).Nodup) (h : (k, v) ∈ l) :
    ((l.map Prod.snd).map f).sum =
      (((l.filter fun e => e.1 ≠ k).map Prod.snd).map f).sum + f v := by
  induction l with
  | nil => simp at h
  | cons e l ih =>
    obtain ⟨k', v'⟩ := e
    simp only [List.map_cons, List.nodup_cons] at hl
    rcases List.mem_cons.1 h with he | hm
    · obtain ⟨rfl, rfl⟩ := Prod.mk.injEq .. ▸ he
      have hf : l.filter (fun e => e.1 ≠ k) = l := by
        rw [List.filter_eq_self]
        intro x hx
        have : x.1 ≠ k := fun e => hl.1 (e ▸ List.mem_map_of_mem (f := Prod.fst) hx)
        simpa using this
      rw [List.filter_cons_of_neg (by simp), List.map_cons, List.map_cons, List.sum_cons]
      rw [hf]; exact Nat.add_comm _ _
    · have hne : k' ≠ k := by
        rintro rfl
        exact hl.1 (List.mem_map_of_mem (f := Prod.fst) hm)
      have := ih hl.2 hm
      simp only [List.map_cons, List.sum_cons, ne_eq, hne, not_false_eq_true, decide_true,
        List.filter_cons_of_pos] at this ⊢
      omega

/-- Dropping a stored key takes its weight out of the total. -/
theorem total_erase {d : Dict κ ν} {k : κ} {v : ν} (f : ν → Nat) (h : d.get? k = some v) :
    total f d = total f (d.erase k) + f v :=
  sum_filter_key f d.nodup (mem_entries_iff.2 h)

theorem size_erase {d : Dict κ ν} {k : κ} {v : ν} (h : d.get? k = some v) : d.size = (d.erase k).size + 1 := by
  have := total_erase (fun _ => 1) h
  simpa [total, values, size, Function.comp_def] using this

theorem erase_of_absent {d : Dict κ ν} {k : κ} (h : d.get? k = none) : d.erase k = d := by
  obtain ⟨l, hl⟩ := d
  unfold erase
  congr 1
  rw [List.filter_eq_self]
  intro e he
  have : e.1 ≠ k := by
    rintro rfl
    have := mem_entries_iff.1 (show (e.1, e.2) ∈ (⟨l, hl⟩ : Dict κ ν).entries from he)
    rw [h] at this
    cases this
  simpa using this

private theorem filter_replace (l : List (κ × ν)) (k : κ) (v : ν) :
    ((l.map fun e => if e.1 = k then (k, v) else e).filter fun e => e.1 ≠ k) = l.filter fun e => e.1 ≠ k := by
  induction l with
  | nil => rfl
  | cons e l ih =>
    by_cases he : e.1 = k
    · simpa [he] using ih
    · simpa [he] using ih

/-- Storing what is stored changes nothing. -/
theorem set_of_get? {d : Dict κ ν} {k : κ} {v : ν} (h : d.get? k = some v) : d.set k v = d := by
  have hmem : (k, v) ∈ d.entries := mem_entries_iff.2 h
  have hkey : k ∈ d.entries.map Prod.fst := List.mem_map.2 ⟨_, hmem, rfl⟩
  obtain ⟨l, hl⟩ := d
  unfold set
  rw [dif_pos hkey]
  congr 1
  -- the entry of the key is the one that is stored
  have hsame : ∀ e ∈ l, (if e.1 = k then (k, v) else e) = e := by
    intro e he
    split
    · rename_i hek
      have hget := mem_entries_iff.1 (show (e.1, e.2) ∈ (⟨l, hl⟩ : Dict κ ν).entries from he)
      rw [hek, h] at hget
      rw [Option.some.inj hget, ← hek]
    · rfl
  rw [List.map_congr_left hsame, List.map_id']

/-- What is erased need not be written first. -/
theorem erase_set (d : Dict κ ν) (k : κ) (v : ν) : (d.set k v).erase k = d.erase k := by
  obtain ⟨l, hl⟩ := d
  unfold erase set
  split
  · congr 1
    exact filter_replace l k v
  · simp

@[simp] theorem total_moveToEnd (f : ν → Nat) (d : Dict κ ν) (k : κ) : total f (d.moveToEnd k) = total f d := by
  unfold moveToEnd
  split
  · rfl
  · rename_i v hv
    rw [total_set_new f v (get?_erase_self d k), ← total_erase f hv]

/-- The weight of a stored value is part of the total. -/
theorem total_set_old {d : Dict κ ν} {k : κ} {v : ν} (f : ν → Nat) (v' : ν) (h : d.get? k = some v) :
    total f (d.set k v') + f v = total f d + f v' := by
  have hold := total_erase f h
  have hnew := total_erase f (get?_set_self d k v')
  rw [erase_set] at hnew
  omega

theorem le_total {d : Dict κ ν} {k : κ} {v : ν} (f : ν → Nat) (h : d.get? k = some v) : f v ≤ total f d := by
  rw [total_erase f h]; omega

/-! ### Storing many entries -/

theorem get?_update_isSome {d : Dict κ ν} {k : κ} (entries : List (κ × ν)) (h : ((d.get? k).isSome = true)) :
    ((d.update entries).get? k).isSome = true := by
  induction entries generalizing d with
  | nil => exact h
  | cons e es ih =>
    refine ih (d := d.set e.1 e.2) ?_
    rw [get?_set]
    split
    · rfl
    · exact h

/-- A list with entries gives a dictionary with keys. -/
theorem keys_ofEntries_ne_nil {entries : List (κ × ν)} (h : entries ≠ []) : (ofEntries entries).keys ≠ [] := by
  obtain ⟨e, es, rfl⟩ := List.exists_cons_of_ne_nil h
  have hget := get?_update_isSome es (d := (empty : Dict κ ν).set e.1 e.2) (k := e.1) (by rw [get?_set_self]; rfl)
  obtain ⟨v, hv⟩ := Option.isSome_iff_exists.mp hget
  have hmem : e.1 ∈ (ofEntries (e :: es)).keys := mem_keys_iff.mpr ⟨v, hv⟩
  intro hnil
  rw [hnil] at hmem
  cases hmem

theorem get?_update_of_not_mem {d : Dict κ ν} {k : κ} {entries : List (κ × ν)} (h : k ∉ entries.map Prod.fst) :
    (d.update entries).get? k = d.get? k := by
  induction entries generalizing d with
  | nil => rfl
  | cons e es ih =>
    rw [List.map_cons, List.mem_cons, not_or] at h
    have hrest := ih (d := d.set e.1 e.2) h.2
    rw [get?_set_ne _ h.1] at hrest
    exact hrest

theorem get?_update_of_mem {d : Dict κ ν} {k : κ} {v : ν} {entries : List (κ × ν)}
    (hnodup : (entries.map Prod.fst).Nodup) (h : (k, v) ∈ entries) : (d.update entries).get? k = some v := by
  induction entries generalizing d with
  | nil => cases h
  | cons e es ih =>
    rw [List.map_cons, List.nodup_cons] at hnodup
    rcases List.mem_cons.mp h with rfl | h
    · refine (get?_update_of_not_mem (d := d.set k v) hnodup.1).trans ?_
      exact get?_set_self d k v
    · exact ih (d := d.set e.1 e.2) hnodup.2 h

/-- Every entry after an update is an old or a stored one. -/
theorem mem_entries_update {d : Dict κ ν} {entries : List (κ × ν)} {e : κ × ν} (h : e ∈ (d.update entries).entries) :
    e ∈ d.entries ∨ e ∈ entries := by
  induction entries generalizing d with
  | nil => exact .inl h
  | cons e' es ih =>
    rcases ih (d := d.set e'.1 e'.2) h with hset | hes
    · rw [mem_set_entries] at hset
      split at hset
      · rename_i hk
        exact .inr (List.mem_cons.mpr (.inl (Prod.ext hk hset)))
      · exact .inl hset
    · exact .inr (List.mem_cons_of_mem _ hes)

/-- A key of a list of entries has a value in the dictionary, and it is one of those listed for it. -/
theorem exists_get?_ofEntries {k : κ} {entries : List (κ × ν)} (h : k ∈ entries.map Prod.fst) :
    ∃ v, (ofEntries entries).get? k = some v ∧ (k, v) ∈ entries := by
  have hsome : ∀ (d : Dict κ ν) (es : List (κ × ν)), k ∈ es.map Prod.fst → ((d.update es).get? k).isSome = true := by
    intro d es
    induction es generalizing d with
    | nil => exact fun hk => nomatch hk
    | cons e es ih =>
      intro hk
      by_cases hes : k ∈ es.map Prod.fst
      · exact ih (d.set e.1 e.2) hes
      · have he : k = e.1 := (List.mem_cons.mp hk).resolve_right hes
        exact get?_update_isSome es (by rw [he, get?_set_self]; rfl)
  obtain ⟨v, hv⟩ := Option.isSome_iff_exists.mp (hsome empty entries h)
  refine ⟨v, hv, (mem_entries_update (mem_entries_iff.mpr hv)).resolve_left ?_⟩
  exact List.not_mem_nil

theorem entries_set_new {d : Dict κ ν} {k : κ} (v : ν) (h : k ∉ d.keys) : (d.set k v).entries = d.entries ++ [(k, v)] := by
  have hk : k ∉ d.entries.map Prod.fst := h
  unfold set
  rw [dif_neg hk]

theorem entries_update {d : Dict κ ν} {entries : List (κ × ν)} (h : ((d.entries ++ entries).map Prod.fst).Nodup) :
    (d.update entries).entries = d.entries ++ entries := by
  induction entries generalizing d with
  | nil => rw [List.append_nil]; rfl
  | cons e es ih =>
    have hnew : e.1 ∉ d.keys := by
      rw [List.map_append, List.map_cons, List.nodup_append] at h
      exact fun hk => h.2.2 _ hk _ List.mem_cons_self rfl
    have hset := entries_set_new e.2 hnew
    have hrest := ih (d := d.set e.1 e.2) (by rw [hset, List.append_assoc]; exact h)
    rw [hset, List.append_assoc] at hrest
    exact hrest

/-- Entries with distinct keys are the entries of their dictionary. -/
theorem entries_ofEntries {entries : List (κ × ν)} (h : (entries.map Prod.fst).Nodup) :
    (ofEntries entries).entries = entries := entries_update (d := empty) h

theorem mem_keys_ofEntries {k : κ} {entries : List (κ × ν)} : k ∈ (ofEntries entries).keys ↔ k ∈ entries.map Prod.fst := by
  constructor
  · intro h
    obtain ⟨e, he, rfl⟩ := List.mem_map.mp h
    exact List.mem_map_of_mem ((mem_entries_update he).resolve_left List.not_mem_nil)
  · intro h
    obtain ⟨v, hv, -⟩ := exists_get?_ofEntries h
    exact mem_keys_iff.mpr ⟨v, hv⟩

/-- Replacing every value by one that is made from it and its key. -/
theorem get?_ofEntries_map {μ : Type} (d : Dict κ ν) (f : κ → ν → μ) (k : κ) :
    (ofEntries (d.entries.map fun e => (e.1, f e.1 e.2))).get? k = (d.get? k).map (f k) := by
  have hkeys : (d.entries.map fun e => (e.1, f e.1 e.2)).map Prod.fst = d.entries.map Prod.fst := by
    rw [List.map_map]
    rfl
  have hentries := entries_ofEntries (hkeys ▸ d.nodup : ((d.entries.map fun e => (e.1, f e.1 e.2)).map Prod.fst).Nodup)
  ext w
  rw [← mem_entries_iff, hentries, List.mem_map, Option.map_eq_some_iff]
  constructor
  · rintro ⟨⟨k', v⟩, he, heq⟩
    obtain ⟨rfl, rfl⟩ := Prod.mk.inj heq
    exact ⟨v, mem_entries_iff.mp he, rfl⟩
  · rintro ⟨v, hv, rfl⟩
    exact ⟨(k, v), mem_entries_iff.mpr hv, rfl⟩

theorem ofEntries_entries (d : Dict κ ν) : ofEntries d.entries = d := by
  have h := entries_ofEntries d.nodup
  rcases hd : ofEntries d.entries with ⟨l, hl⟩
  rw [hd] at h
  cases d
  cases h
  rfl

end Dict
