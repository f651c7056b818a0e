import Mathlib.Logic.Relation
import KakeyaEngine.Lib.Dict

/-!
# Climbing along links

`climb` follows the links of a dictionary from one key to the next until it finds a key with a property.  It stops at the key
that stands for no link, at a key that is not stored and at one that it has been at, so it ends where the links are cyclic or
lead nowhere.  It finds a key exactly when the links lead to one (`climb_isSome_iff`).
-/

namespace Climb

open Relation

variable {κ ν : Type} [DecidableEq κ]

theorem unvisited_lt {keys visited : List κ} {cursor : κ} (hmem : cursor ∈ keys) (hvisited : cursor ∉ visited) :
    (keys.filter (· ∉ cursor :: visited)).length < (keys.filter (· ∉ visited)).length := by
  have hfilter : keys.filter (· ∉ cursor :: visited) = (keys.filter (· ∉ visited)).filter (· ≠ cursor) := by
    rw [List.filter_filter]
    apply List.filter_congr
    intro k _
    simp [not_or]
  rw [hfilter]
  apply List.length_filter_lt_length_iff_exists.mpr
  exact ⟨cursor, List.mem_filter.mpr ⟨hmem, by simpa using hvisited⟩, by simp⟩

/-- The first key with the property on the way up from a key, and the number of links to it. -/
def climb (links : Dict κ ν) (up : ν → κ) (top : κ) (found : κ → Bool) (visited : List κ) (cursor : κ) (distance : Nat) :
    Option (κ × Nat) :=
  if cursor = top ∨ cursor ∈ visited then none
  else if found cursor then some (cursor, distance)
  else
    match hget : links.get? cursor with
    | none => none
    | some v => climb links up top found (cursor :: visited) (up v) (distance + 1)
termination_by (links.keys.filter (· ∉ visited)).length
decreasing_by
  rename_i hstop _
  exact unvisited_lt (Dict.mem_keys_iff.mpr ⟨_, hget⟩) fun h => hstop (.inr h)

variable (links : Dict κ ν) (up : ν → κ) (top : κ)

/-- The key is stored and links to the other one. -/
def Link (x y : κ) : Prop := ∃ v, links.get? x = some v ∧ up v = y ∧ y ≠ top

variable {links up top} {found : κ → Bool} {visited : List κ} {cursor : κ} {distance : Nat}

/-- What is found has the property and lies on the way. -/
theorem climb_some {y : κ} {n : Nat} (h : climb links up top found visited cursor distance = some (y, n)) :
    cursor ≠ top ∧ found y = true ∧ ReflTransGen (Link links up top) cursor y := by
  induction visited, cursor, distance using climb.induct links up top found with
  | case1 visited cursor distance hstop =>
    rw [climb, if_pos hstop] at h
    cases h
  | case2 visited cursor distance hstop hfound =>
    rw [climb, if_neg hstop, if_pos hfound] at h
    obtain ⟨rfl, rfl⟩ := Prod.mk.inj (Option.some.inj h)
    exact ⟨fun htop => hstop (.inl htop), hfound, .refl⟩
  | case3 visited cursor distance hstop hfound hget =>
    rw [climb, if_neg hstop, if_neg hfound, hget] at h
    cases h
  | case4 visited cursor distance hstop hfound v hget ih =>
    rw [climb, if_neg hstop, if_neg hfound, hget] at h
    obtain ⟨htop, hy, hreach⟩ := ih h
    exact ⟨fun htop' => hstop (.inl htop'), hy, ReflTransGen.head ⟨v, hget, rfl, htop⟩ hreach⟩

/-- The keys that a climb has been at in vain are closed under the links, up to the key that it is at. -/
structure Vain (links : Dict κ ν) (up : ν → κ) (top : κ) (found : κ → Bool) (visited : List κ) (cursor : κ) : Prop where
  notFound : ∀ x ∈ visited, found x = false
  closed : ∀ x ∈ visited, ∀ y, Link links up top x y → y ∈ visited ∨ y = cursor

/-- A climb in vain leaves a part without the property that the links do not leave. -/
theorem climb_none (hvain : Vain links up top found visited cursor)
    (h : climb links up top found visited cursor distance = none) :
    ∃ part : List κ, visited ⊆ part ∧ (∀ x ∈ part, found x = false) ∧ (∀ x ∈ part, ∀ y, Link links up top x y → y ∈ part) ∧
      (cursor ≠ top → cursor ∈ part) := by
  induction visited, cursor, distance using climb.induct links up top found with
  | case1 visited cursor distance hstop =>
    rcases Classical.em (cursor ∈ visited) with hmem | hmem
    · refine ⟨visited, List.Subset.refl _, hvain.notFound, fun x hx y hxy => ?_, fun _ => hmem⟩
      rcases hvain.closed x hx y hxy with hy | rfl
      · exact hy
      · exact hmem
    · have htop : cursor = top := hstop.resolve_right hmem
      refine ⟨visited, List.Subset.refl _, hvain.notFound, fun x hx y hxy => ?_, fun hne => absurd htop hne⟩
      -- no link leads to the top
      obtain ⟨v, hget, hup, hne⟩ := hxy
      rcases hvain.closed x hx y ⟨v, hget, hup, hne⟩ with hy | rfl
      · exact hy
      · exact absurd htop hne
  | case2 visited cursor distance hstop hfound =>
    rw [climb, if_neg hstop, if_pos hfound] at h
    cases h
  | case3 visited cursor distance hstop hfound hget =>
    refine ⟨cursor :: visited, List.subset_cons_self _ _, ?_, ?_, fun _ => List.mem_cons_self⟩
    · intro x hx
      rcases List.mem_cons.mp hx with rfl | hx
      · exact Bool.eq_false_iff.mpr hfound
      · exact hvain.notFound x hx
    · intro x hx y hxy
      rcases List.mem_cons.mp hx with rfl | hx
      · obtain ⟨v, hv, -⟩ := hxy
        rw [hget] at hv
        cases hv
      · rcases hvain.closed x hx y hxy with hy | rfl
        · exact List.mem_cons_of_mem _ hy
        · exact List.mem_cons_self
  | case4 visited cursor distance hstop hfound v hget ih =>
    rw [climb, if_neg hstop, if_neg hfound, hget] at h
    have hvain' : Vain links up top found (cursor :: visited) (up v) := by
      constructor
      · intro x hx
        rcases List.mem_cons.mp hx with rfl | hx
        · exact Bool.eq_false_iff.mpr hfound
        · exact hvain.notFound x hx
      · intro x hx y hxy
        rcases List.mem_cons.mp hx with rfl | hx
        · obtain ⟨w, hw, rfl, -⟩ := hxy
          rw [hget] at hw
          exact .inr (congrArg up (Option.some.inj hw)).symm
        · rcases hvain.closed x hx y hxy with hy | rfl
          · exact .inl (List.mem_cons_of_mem _ hy)
          · exact .inl List.mem_cons_self
    obtain ⟨part, hsub, hnot, hclosed, -⟩ := ih hvain' h
    exact ⟨part, fun x hx => hsub (List.mem_cons_of_mem _ hx), hnot, hclosed, fun _ => hsub List.mem_cons_self⟩

/-- A climb finds a key exactly when the links lead to one with the property. -/
theorem climb_isSome_iff (htop : cursor ≠ top) :
    (climb links up top found [] cursor distance).isSome = true ↔
      ∃ y, ReflTransGen (Link links up top) cursor y ∧ found y = true := by
  constructor
  · intro h
    obtain ⟨⟨y, n⟩, hy⟩ := Option.isSome_iff_exists.mp h
    obtain ⟨-, hfound, hreach⟩ := climb_some hy
    exact ⟨y, hreach, hfound⟩
  · rintro ⟨y, hreach, hfound⟩
    rw [Option.isSome_iff_ne_none]
    intro hnone
    have hvain : Vain links up top found [] cursor := ⟨fun x hx => (by cases hx), fun x hx => (by cases hx)⟩
    obtain ⟨part, -, hnot, hclosed, hcursor⟩ := climb_none hvain hnone
    have hmem : y ∈ part := by
      clear hfound
      induction hreach with
      | refl => exact hcursor htop
      | tail _ hlink ih => exact hclosed _ ih _ hlink
    rw [hnot y hmem] at hfound
    cases hfound

/-! ### Items with a parent -/

variable {α : Type} (key parent : α → κ)

/-- The items under their keys. -/
def byKey (items : List α) : Dict κ α := Dict.ofEntries (items.map fun a => (key a, a))

/-- The item with the first key has the second one as its parent. -/
def Parent (top : κ) (items : List α) (x y : κ) : Prop := ∃ a ∈ items, key a = x ∧ parent a = y ∧ y ≠ top

variable {key parent} {items : List α}

theorem get?_byKey (h : (items.map key).Nodup) (k : κ) (a : α) :
    (byKey key items).get? k = some a ↔ a ∈ items ∧ key a = k := by
  have hnodup : ((items.map fun a => (key a, a)).map Prod.fst).Nodup := by
    rw [List.map_map]
    exact h
  unfold byKey
  rw [← Dict.mem_entries_iff, Dict.entries_ofEntries hnodup, List.mem_map]
  constructor
  · rintro ⟨a', hmem, heq⟩
    obtain ⟨rfl, rfl⟩ := Prod.mk.inj heq
    exact ⟨hmem, rfl⟩
  · rintro ⟨hmem, rfl⟩
    exact ⟨a, hmem, rfl⟩

theorem get?_byKey_self (h : (items.map key).Nodup) {a : α} (hmem : a ∈ items) : (byKey key items).get? (key a) = some a :=
  (get?_byKey h (key a) a).mpr ⟨hmem, rfl⟩

/-- Distinct keys make an item the only one with its key. -/
theorem eq_of_key (h : (items.map key).Nodup) {a b : α} (ha : a ∈ items) (hb : b ∈ items) (hkey : key a = key b) : a = b := by
  have hget := get?_byKey_self h ha
  rw [hkey, get?_byKey_self h hb] at hget
  exact (Option.some.inj hget).symm

theorem link_byKey (h : (items.map key).Nodup) : Link (byKey key items) parent top = Parent key parent top items := by
  funext x y
  refine propext ⟨?_, ?_⟩
  · rintro ⟨a, hget, hparent, hne⟩
    obtain ⟨hmem, hkey⟩ := (get?_byKey h x a).mp hget
    exact ⟨a, hmem, hkey, hparent, hne⟩
  · rintro ⟨a, hmem, hkey, hparent, hne⟩
    exact ⟨a, (get?_byKey h x a).mpr ⟨hmem, hkey⟩, hparent, hne⟩

/-- What lies above an item lies at or above its parent. -/
theorem transGen_parent (h : (items.map key).Nodup) {a : α} (hmem : a ∈ items) (k : κ) :
    TransGen (Parent key parent top items) (key a) k ↔
      parent a ≠ top ∧ ReflTransGen (Parent key parent top items) (parent a) k := by
  rw [TransGen.head'_iff]
  constructor
  · rintro ⟨p, ⟨a', hmem', hkey, rfl, hne⟩, hreach⟩
    obtain rfl := eq_of_key h hmem' hmem hkey
    exact ⟨hne, hreach⟩
  · rintro ⟨hne, hreach⟩
    exact ⟨parent a, ⟨a, hmem, rfl, rfl, hne⟩, hreach⟩

/-- A climb from the parent of an item finds what lies above the item. -/
theorem climb_parent_isSome_iff (h : (items.map key).Nodup) {a : α} (hmem : a ∈ items) :
    (climb (byKey key items) parent top found [] (parent a) distance).isSome = true ↔
      ∃ k, TransGen (Parent key parent top items) (key a) k ∧ found k = true := by
  by_cases htop : parent a = top
  · rw [climb, if_pos (.inl htop)]
    refine ⟨fun hnone => (by cases hnone), ?_⟩
    rintro ⟨k, hreach, -⟩
    exact absurd htop ((transGen_parent h hmem k).mp hreach).1
  · rw [climb_isSome_iff htop, link_byKey h]
    constructor
    · rintro ⟨k, hreach, hfound⟩
      exact ⟨k, (transGen_parent h hmem k).mpr ⟨htop, hreach⟩, hfound⟩
    · rintro ⟨k, hreach, hfound⟩
      exact ⟨k, ((transGen_parent h hmem k).mp hreach).2, hfound⟩

/-- Where what is looked for is a property of the item above. -/
theorem climb_parent_any_iff (h : (items.map key).Nodup) {a : α} (hmem : a ∈ items) (p : α → Bool) :
    (climb (byKey key items) parent top (fun k => ((byKey key items).get? k).any p) [] (parent a) distance).isSome = true ↔
      ∃ b ∈ items, TransGen (Parent key parent top items) (key a) (key b) ∧ p b = true := by
  rw [climb_parent_isSome_iff h hmem]
  constructor
  · rintro ⟨k, hreach, hfound⟩
    obtain ⟨b, hget, hp⟩ := Option.any_eq_true _ _ |>.mp hfound
    obtain ⟨hb, rfl⟩ := (get?_byKey h k b).mp hget
    exact ⟨b, hb, hreach, hp⟩
  · rintro ⟨b, hb, hreach, hp⟩
    refine ⟨key b, hreach, ?_⟩
    rw [get?_byKey_self h hb]
    exact hp

omit [DecidableEq κ] in
/-- The links depend on the keys and the parents alone. -/
theorem parent_congr {items' : List α} (h : items.map (fun a => (key a, parent a)) = items'.map fun a => (key a, parent a)) :
    Parent key parent top items = Parent key parent top items' := by
  have hmem : ∀ (items : List α) (x y : κ),
      Parent key parent top items x y ↔ (x, y) ∈ items.map (fun a => (key a, parent a)) ∧ y ≠ top := by
    intro items x y
    rw [List.mem_map]
    constructor
    · rintro ⟨a, hmem, rfl, rfl, hne⟩
      exact ⟨⟨a, hmem, rfl⟩, hne⟩
    · rintro ⟨⟨a, hmem, heq⟩, hne⟩
      obtain ⟨rfl, rfl⟩ := Prod.mk.inj heq
      exact ⟨a, hmem, rfl, rfl, hne⟩
  funext x y
  rw [propext (hmem items x y), propext (hmem items' x y), h]

end Climb
