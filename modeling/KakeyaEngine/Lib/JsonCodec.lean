import KakeyaEngine.Lib.PyValue
import Mathlib.Data.List.Forall2
import Mathlib.Data.Option.Basic

/-!
# JSON as a parameter

A `JsonCodec` writes untyped values as bytes and reads them.  Texts are written with sorted keys, so a value comes back with
the entries of its objects in another order: it is `Alike` the one that was written.  Looking a key up, running over a list
and reading a number or a string give the same on both.
-/

/-- The same value up to the order of the entries of objects. -/
inductive PyValue.Alike : PyValue → PyValue → Prop
  | null : Alike .null .null
  | bool (b : Bool) : Alike (.bool b) (.bool b)
  | int (n : Int) : Alike (.int n) (.int n)
  | float (text : String) : Alike (.float text) (.float text)
  | str (s : String) : Alike (.str s) (.str s)
  | list {vs ws : List PyValue} (h : List.Forall₂ Alike vs ws) : Alike (.list vs) (.list ws)
  | dict {es fs : List (String × PyValue)}
      (h : ∀ k, Option.Rel Alike ((Dict.ofEntries es).get? k) ((Dict.ofEntries fs).get? k)) : Alike (.dict es) (.dict fs)

namespace PyValue

/-- A value is alike to itself. -/
theorem Alike.refl : ∀ v : PyValue, Alike v v
  | .null => .null
  | .bool b => .bool b
  | .int n => .int n
  | .float text => .float text
  | .str s => .str s
  | .list vs => .list (List.forall₂_same.mpr fun v _ => Alike.refl v)
  | .dict es => .dict fun k => by
    rcases hk : (Dict.ofEntries es).get? k with _ | v
    · exact .none
    · have hmem : (k, v) ∈ es :=
        (Dict.mem_entries_update (Dict.mem_entries_iff.mpr hk)).resolve_left List.not_mem_nil
      exact .some (Alike.refl v)
decreasing_by
  · simp_wf
    rename_i hv
    have := List.sizeOf_lt_of_mem hv
    omega
  · simp_wf
    have := List.sizeOf_lt_of_mem hmem
    simp only [Prod.mk.sizeOf_spec] at this
    omega

theorem Alike.eq_int {n : Int} {w : PyValue} (h : Alike (.int n) w) : w = .int n := by
  cases h
  rfl

theorem Alike.eq_str {s : String} {w : PyValue} (h : Alike (.str s) w) : w = .str s := by
  cases h
  rfl

theorem Alike.list_eq {vs : List PyValue} {w : PyValue} (h : Alike (.list vs) w) :
    ∃ ws, w = .list ws ∧ List.Forall₂ Alike vs ws := by
  cases h with
  | list h => exact ⟨_, rfl, h⟩

private theorem forall₂_ints {ns : List Int} {ws : List PyValue} (h : List.Forall₂ Alike (ns.map .int) ws) :
    ws = ns.map .int := by
  induction ns generalizing ws with
  | nil => exact List.forall₂_nil_left_iff.mp h
  | cons n ns ih =>
    obtain ⟨w, ws', hw, hws, rfl⟩ := List.forall₂_cons_left_iff.mp h
    rw [List.map_cons, hw.eq_int, ih hws]

/-- A list of numbers comes back as it is. -/
theorem Alike.eq_ints {ns : List Int} {w : PyValue} (h : Alike (.list (ns.map .int)) w) : w = .list (ns.map .int) := by
  obtain ⟨ws, rfl, hws⟩ := h.list_eq
  rw [forall₂_ints hws]

/-- Two mappings that hold alike values under every key. -/
def AlikeDict (d d' : Dict String PyValue) : Prop := ∀ k, Option.Rel Alike (d.get? k) (d'.get? k)

theorem AlikeDict.get? {d d' : Dict String PyValue} (h : AlikeDict d d') {k : String} {v : PyValue}
    (hv : d.get? k = some v) : ∃ w, d'.get? k = some w ∧ Alike v w := by
  have hk := h k
  rw [hv] at hk
  cases hd' : d'.get? k with
  | none =>
    rw [hd'] at hk
    cases hk
  | some w =>
    rw [hd'] at hk
    cases hk with
    | some hvw => exact ⟨w, rfl, hvw⟩

theorem AlikeDict.erase {d d' : Dict String PyValue} (h : AlikeDict d d') (k : String) :
    AlikeDict (d.erase k) (d'.erase k) := fun k' => by
  rw [Dict.get?_erase, Dict.get?_erase]
  split
  · exact .none
  · exact h k'

theorem Alike.mapping {es : List (String × PyValue)} {w : PyValue} (h : Alike (.dict es) w) :
    ∃ d', w.mapping? = some d' ∧ AlikeDict (Dict.ofEntries es) d' := by
  cases h with
  | dict h => exact ⟨_, rfl, h⟩

/-- Entries with alike values in another order. -/
theorem Alike.dict_of_perm {es fs fs' : List (String × PyValue)} (hnodup : (es.map Prod.fst).Nodup)
    (h : List.Forall₂ (fun e f => e.1 = f.1 ∧ Alike e.2 f.2) es fs') (hperm : fs'.Perm fs) :
    Alike (.dict es) (.dict fs) := by
  have hkeys : es.map Prod.fst = fs'.map Prod.fst := by
    clear hnodup hperm
    induction h with
    | nil => rfl
    | cons h _ ih => rw [List.map_cons, List.map_cons, h.1, ih]
  have hnodup' : (fs.map Prod.fst).Nodup := (hperm.map Prod.fst).nodup_iff.mp (hkeys ▸ hnodup)
  refine Alike.dict fun k => ?_
  cases hk : (Dict.ofEntries es).get? k with
  | none =>
    have hnone : (Dict.ofEntries fs).get? k = none := by
      rw [← Dict.not_mem_keys_iff] at hk ⊢
      unfold Dict.keys at hk ⊢
      rw [Dict.entries_ofEntries hnodup, hkeys] at hk
      rw [Dict.entries_ofEntries hnodup']
      exact fun hmem => hk ((hperm.map Prod.fst).mem_iff.mpr hmem)
    rw [hnone]
    exact .none
  | some v =>
    rw [← Dict.mem_entries_iff, Dict.entries_ofEntries hnodup] at hk
    obtain ⟨w, hw, hvw⟩ : ∃ w, (k, w) ∈ fs' ∧ Alike v w := by
      clear hnodup hperm hkeys hnodup'
      induction h with
      | nil => cases hk
      | @cons e f es fs' hef _ ih =>
        rcases List.mem_cons.mp hk with rfl | hk
        · exact ⟨f.2, List.mem_cons.mpr (.inl (Prod.ext hef.1 rfl)), hef.2⟩
        · obtain ⟨w, hw, hvw⟩ := ih hk
          exact ⟨w, List.mem_cons_of_mem _ hw, hvw⟩
    have hget : (Dict.ofEntries fs).get? k = some w := by
      rw [← Dict.mem_entries_iff, Dict.entries_ofEntries hnodup']
      exact hperm.mem_iff.mp hw
    rw [hget]
    exact .some hvw

end PyValue

/-- Writing values as JSON texts and reading them. -/
structure JsonCodec (ε : Type) where
  dumps : PyValue → List UInt8
  loads : List UInt8 → Except ε PyValue

/-- Reading the text of a value gives the value, up to the order of the entries of objects. -/
def JsonCodec.Inverts {ε : Type} (J : JsonCodec ε) (v : PyValue) : Prop :=
  ∃ w, J.loads (J.dumps v) = .ok w ∧ v.Alike w
