import KakeyaEngine.Ledger.Obligations
import KakeyaEngine.Lib.Cycles
import Mathlib.Data.List.Sort
import Mathlib.Data.List.Dedup
import Mathlib.Data.String.Basic

/-!
# The target of a repair

An obligation of the proof ledger is pending when it is unresolved, no obligation above it is quarantined or has its premise
disproved, and no obligation of the same kind hangs from it.  Parent links may be dangling or cyclic, so every walk along them
stops where it has been.  What is selected for repair is a pending obligation, at or below the target of the backjump when
there is one (`repairTargets`).
-/

namespace KakeyaEngine

namespace Planning

open Relation
open Climb (climb Link climb_isSome_iff)
open Ledger (ProofObligation ProofObligationLedger byId Parent DistinctIds)

/-! ### Pending obligations -/

/-- The status refutes what hangs from the obligation. -/
def Invalid (item : ProofObligation) : Prop :=
  item.status = "QUARANTINED" ∨
    (item.status = "DISPROVED" ∧ item.invalidationKind ∈ ["PREMISE", "PREMISE_INVALIDATED"])

instance (item : ProofObligation) : Decidable (Invalid item) := inferInstanceAs (Decidable (_ ∨ _))

/-- The walk up from the parent of an obligation, until an invalid one is met. -/
def invalidatedByAncestor (byId : Dict String ProofObligation) (item : ProofObligation) : Bool :=
  (climb byId (·.parentId) "" (fun cursor => (byId.get? cursor).any fun ancestor => decide (Invalid ancestor))
    [] item.parentId 0).isSome

/-- The same walk. -/
def hasInvalidAncestor (byId : Dict String ProofObligation) (item : ProofObligation) : Bool :=
  invalidatedByAncestor byId item

/-- The ids of the unresolved obligations for which a walk finds nothing. -/
def unresolved (invalidated : ProofObligation → Bool) (obligations : List ProofObligation) : List String :=
  (obligations.filter fun item => decide (item.status = "UNRESOLVED") && !invalidated item).map (·.obligationId)

def unresolvedParents (unresolved : List String) (obligations : List ProofObligation) : List String :=
  (obligations.filter fun item => item.obligationId ∈ unresolved ∧ item.parentId ≠ "").map (·.parentId)

def pendingLeafIds (ledger : ProofObligationLedger) : List String :=
  let unresolved := unresolved (invalidatedByAncestor (byId ledger.obligations)) ledger.obligations
  let unresolvedParents := unresolvedParents unresolved ledger.obligations
  (unresolved.dedup.filter (· ∉ unresolvedParents)).mergeSort fun a b => decide (a ≤ b)

def pendingObligations : Option ProofObligationLedger → List ProofObligation
  | none => []
  | some ledger =>
    let eligible := unresolved (hasInvalidAncestor (byId ledger.obligations)) ledger.obligations
    let unresolvedParentIds := unresolvedParents eligible ledger.obligations
    ledger.obligations.filter fun item =>
      item.obligationId ∈ eligible ∧ item.obligationId ∉ unresolvedParentIds

/-! ### Selecting a target -/

/-- `parents`. -/
def parents (ledger : ProofObligationLedger) : Dict String String :=
  Dict.ofEntries (ledger.obligations.map fun item => (item.obligationId, item.parentId))

def descendsFromBackjump (parents : Dict String String) (backjumpTarget obligationId : String) : Bool :=
  (climb parents id "" (fun cursor => decide (cursor = backjumpTarget)) [] obligationId 0).isSome

/-- The leaf that a backjump selects, if any. -/
def backjumpLeaf (leaves : List String) (parents : Dict String String) (backjumpTarget : String) : Option String :=
  if backjumpTarget = "" then none
  else if backjumpTarget ∈ leaves then some backjumpTarget
  else (leaves.filter (descendsFromBackjump parents backjumpTarget)).head?

/-- The first leaf above the current target. -/
def leafAbove (leaves : List String) (parents : Dict String String) (currentTarget : String) : Option String :=
  (climb parents id "" (fun cursor => decide (cursor ∈ leaves)) [] ((parents.get? currentTarget).getD "") 0).map
    Prod.fst

def distanceFromCurrent (parents : Dict String String) (currentTarget obligationId : String) : Int :=
  match climb parents id "" (fun cursor => decide (cursor = currentTarget)) [] obligationId 0 with
  | some (_, distance) => distance
  | none => -1

/-- The comparison of two descendants. -/
def Nearer (a b : Int × String) : Prop := a.1 < b.1 ∨ (a.1 = b.1 ∧ a.2 < b.2)

instance (a b : Int × String) : Decidable (Nearer a b) := inferInstanceAs (Decidable (_ ∨ _))

/-- `max(descendants)`. -/
def farthest : List (Int × String) → Option (Int × String)
  | [] => none
  | item :: rest =>
    match farthest rest with
    | none => some item
    | some other => if Nearer item other then some other else some item

def descendants (leaves : List String) (parents : Dict String String) (currentTarget : String) : List (Int × String) :=
  (leaves.filter fun obligationId => 0 ≤ distanceFromCurrent parents currentTarget obligationId).map fun obligationId =>
    (distanceFromCurrent parents currentTarget obligationId, obligationId)

def selectRepairTarget (currentTarget : String) (ledger : ProofObligationLedger) : Except String String :=
  match pendingLeafIds ledger with
  | [] => .error "proof ledger has no unresolved leaf"
  | first :: rest =>
    let leaves := first :: rest
    let parents := parents ledger
    match backjumpLeaf leaves parents ledger.backjumpTargetId with
    | some leaf => .ok leaf
    | none =>
      if currentTarget ∈ leaves then .ok currentTarget
      else
        match leafAbove leaves parents currentTarget with
        | some leaf => .ok leaf
        | none =>
          match farthest (descendants leaves parents currentTarget) with
          | some (_, leaf) => .ok leaf
          | none => .ok first

/-! ### The obligations above another one -/

/-- What `load_proof_ledger` checks of the ids, and that none is empty. -/
structure ProperIds (ledger : ProofObligationLedger) : Prop where
  distinct : DistinctIds ledger.obligations
  nonempty : ∀ item ∈ ledger.obligations, item.obligationId ≠ ""

variable (ledger : ProofObligationLedger)

/-- An unresolved obligation without an invalid one above it. -/
structure Open (item : ProofObligation) : Prop where
  mem : item ∈ ledger.obligations
  status : item.status = "UNRESOLVED"
  valid : ∀ ancestor ∈ ledger.obligations,
    TransGen (Parent ledger.obligations) item.obligationId ancestor.obligationId → ¬ Invalid ancestor

/-- An open obligation from which no open one hangs. -/
structure Pending (item : ProofObligation) : Prop where
  isOpen : Open ledger item
  leaf : ∀ child, Open ledger child → child.parentId ≠ item.obligationId

/-- The first id is the second one or has it above. -/
def AtOrBelow (id target : String) : Prop := ReflTransGen (Parent ledger.obligations) id target

/-! ### Walks along the parents -/

variable {ledger}

theorem get?_parents (h : ProperIds ledger) (id parent : String) :
    (parents ledger).get? id = some parent ↔
      ∃ item ∈ ledger.obligations, item.obligationId = id ∧ item.parentId = parent := by
  have hnodup : ((ledger.obligations.map fun item => (item.obligationId, item.parentId)).map Prod.fst).Nodup := by
    rw [List.map_map]
    exact h.distinct
  unfold parents
  rw [← Dict.mem_entries_iff, Dict.entries_ofEntries hnodup, List.mem_map]
  constructor
  · rintro ⟨item, hmem, heq⟩
    obtain ⟨hid, hparent⟩ := Prod.mk.inj heq
    exact ⟨item, hmem, hid, hparent⟩
  · rintro ⟨item, hmem, hid, hparent⟩
    exact ⟨item, hmem, Prod.ext hid hparent⟩

theorem link_parents (h : ProperIds ledger) : Link (parents ledger) id "" = Parent ledger.obligations := by
  funext id parent
  refine propext ⟨?_, ?_⟩
  · rintro ⟨p, hget, rfl, hne⟩
    obtain ⟨item, hmem, hid, hparent⟩ := (get?_parents h id p).mp hget
    exact ⟨item, hmem, hid, hparent, hne⟩
  · rintro ⟨item, hmem, hid, hparent, hne⟩
    exact ⟨parent, (get?_parents h id parent).mpr ⟨item, hmem, hid, hparent⟩, rfl, hne⟩

/-- The walk finds an invalid obligation exactly when one lies above. -/
theorem invalidatedByAncestor_iff (h : ProperIds ledger) {item : ProofObligation} (hmem : item ∈ ledger.obligations) :
    invalidatedByAncestor (byId ledger.obligations) item = true ↔
      ∃ ancestor ∈ ledger.obligations,
        TransGen (Parent ledger.obligations) item.obligationId ancestor.obligationId ∧ Invalid ancestor := by
  unfold invalidatedByAncestor
  rw [byId, Climb.climb_parent_any_iff h.distinct hmem]
  simp only [decide_eq_true_eq]
  exact Iff.rfl

/-! ### The pending obligations of a ledger -/

theorem mem_unresolved (h : ProperIds ledger) (id : String) :
    id ∈ unresolved (invalidatedByAncestor (byId ledger.obligations)) ledger.obligations ↔
      ∃ item, Open ledger item ∧ item.obligationId = id := by
  unfold unresolved
  rw [List.mem_map]
  refine exists_congr fun item => and_congr_left fun _ => ?_
  rw [List.mem_filter, Bool.and_eq_true, decide_eq_true_eq, Bool.not_eq_true']
  constructor
  · rintro ⟨hmem, hstatus, hvalid⟩
    refine ⟨hmem, hstatus, fun ancestor hmem' hreach hinvalid => ?_⟩
    rw [(invalidatedByAncestor_iff h hmem).mpr ⟨ancestor, hmem', hreach, hinvalid⟩] at hvalid
    cases hvalid
  · intro hopen
    refine ⟨hopen.mem, hopen.status, Bool.eq_false_iff.mpr fun hfound => ?_⟩
    obtain ⟨ancestor, hmem', hreach, hinvalid⟩ := (invalidatedByAncestor_iff h hopen.mem).mp hfound
    exact hopen.valid ancestor hmem' hreach hinvalid

theorem mem_unresolved_id (h : ProperIds ledger) {item : ProofObligation} (hmem : item ∈ ledger.obligations) :
    item.obligationId ∈ unresolved (invalidatedByAncestor (byId ledger.obligations)) ledger.obligations ↔
      Open ledger item := by
  rw [mem_unresolved h]
  constructor
  · rintro ⟨item', hopen, hid⟩
    obtain rfl := Climb.eq_of_key h.distinct hopen.mem hmem hid
    exact hopen
  · exact fun hopen => ⟨item, hopen, rfl⟩

theorem mem_unresolvedParents (h : ProperIds ledger) {id : String} (hne : id ≠ "") :
    id ∈ unresolvedParents
        (unresolved (invalidatedByAncestor (byId ledger.obligations)) ledger.obligations)
        ledger.obligations ↔
      ∃ child, Open ledger child ∧ child.parentId = id := by
  unfold unresolvedParents
  rw [List.mem_map]
  refine exists_congr fun child => and_congr_left fun hparent => ?_
  rw [List.mem_filter, decide_eq_true_eq, hparent]
  constructor
  · rintro ⟨hmem, hid, -⟩
    exact (mem_unresolved_id h hmem).mp hid
  · exact fun hopen => ⟨hopen.mem, (mem_unresolved_id h hopen.mem).mpr hopen, hne⟩

theorem pending_iff (h : ProperIds ledger) {item : ProofObligation} (hmem : item ∈ ledger.obligations) :
    Pending ledger item ↔
      item.obligationId ∈
          unresolved (invalidatedByAncestor (byId ledger.obligations)) ledger.obligations ∧
        item.obligationId ∉ unresolvedParents
          (unresolved (invalidatedByAncestor (byId ledger.obligations)) ledger.obligations)
          ledger.obligations := by
  rw [mem_unresolved_id h hmem, mem_unresolvedParents h (h.nonempty item hmem)]
  constructor
  · intro hpending
    exact ⟨hpending.isOpen, fun ⟨child, hopen, hparent⟩ => hpending.leaf child hopen hparent⟩
  · rintro ⟨hopen, hleaf⟩
    exact ⟨hopen, fun child hchild hparent => hleaf ⟨child, hchild, hparent⟩⟩

theorem mem_pendingLeafIds (h : ProperIds ledger) (id : String) :
    id ∈ pendingLeafIds ledger ↔ ∃ item, Pending ledger item ∧ item.obligationId = id := by
  unfold pendingLeafIds
  rw [List.mem_mergeSort, List.mem_filter, List.mem_dedup, decide_eq_true_eq]
  constructor
  · rintro ⟨hid, hleaf⟩
    obtain ⟨item, hopen, rfl⟩ := (mem_unresolved h id).mp hid
    exact ⟨item, (pending_iff h hopen.mem).mpr ⟨hid, hleaf⟩, rfl⟩
  · rintro ⟨item, hpending, rfl⟩
    exact (pending_iff h hpending.isOpen.mem).mp hpending

theorem mem_pendingObligations (h : ProperIds ledger) (item : ProofObligation) :
    item ∈ pendingObligations (some ledger) ↔ Pending ledger item := by
  unfold pendingObligations
  rw [List.mem_filter, decide_eq_true_eq]
  constructor
  · rintro ⟨hmem, hpending⟩
    exact (pending_iff h hmem).mpr hpending
  · exact fun hpending => ⟨hpending.isOpen.mem, (pending_iff h hpending.isOpen.mem).mp hpending⟩

theorem nodup_pendingLeafIds (ledger : ProofObligationLedger) : (pendingLeafIds ledger).Nodup := by
  unfold pendingLeafIds
  exact (List.mergeSort_perm _ _).nodup_iff.mpr ((List.nodup_dedup _).filter _)

/-- Both lists have the same ids, each once. -/
theorem pendingObligations_perm (h : ProperIds ledger) :
    ((pendingObligations (some ledger)).map (·.obligationId)).Perm (pendingLeafIds ledger) := by
  have hnodup : ((pendingObligations (some ledger)).map (·.obligationId)).Nodup :=
    h.distinct.sublist (List.filter_sublist.map _)
  rw [List.perm_ext_iff_of_nodup hnodup (nodup_pendingLeafIds ledger)]
  intro id
  rw [mem_pendingLeafIds h, List.mem_map]
  exact exists_congr fun item => and_congr_left fun _ => mem_pendingObligations h item

/-! ### The selected target -/

theorem farthest_mem {items : List (Int × String)} {item : Int × String} (h : farthest items = some item) :
    item ∈ items := by
  induction items generalizing item with
  | nil => cases h
  | cons first rest ih =>
    unfold farthest at h
    split at h
    · cases h
      exact List.mem_cons_self
    · rename_i other hother
      split at h
      · cases h
        exact List.mem_cons_of_mem _ (ih hother)
      · cases h
        exact List.mem_cons_self

theorem descendsFromBackjump_iff (h : ProperIds ledger) {id target : String} (hne : id ≠ "") :
    descendsFromBackjump (parents ledger) target id = true ↔ AtOrBelow ledger id target := by
  unfold descendsFromBackjump AtOrBelow
  rw [climb_isSome_iff hne, link_parents h]
  constructor
  · rintro ⟨id', hreach, hfound⟩
    rw [← of_decide_eq_true hfound]
    exact hreach
  · exact fun hreach => ⟨target, hreach, decide_eq_true rfl⟩

/-- Nothing with an id is at or below the empty one. -/
theorem AtOrBelow.ne_empty {id target : String} (h : AtOrBelow ledger id target) (hne : id ≠ "") : target ≠ "" := by
  rcases ReflTransGen.cases_tail h with rfl | ⟨_, -, _, _, _, _, htarget⟩
  · exact hne
  · exact htarget

theorem backjumpLeaf_some (h : ProperIds ledger) {leaves : List String} (hleaves : ∀ leaf ∈ leaves, leaf ≠ "")
    {target leaf : String} (hleaf : backjumpLeaf leaves (parents ledger) target = some leaf) :
    leaf ∈ leaves ∧ AtOrBelow ledger leaf target := by
  unfold backjumpLeaf at hleaf
  split at hleaf
  · cases hleaf
  · split at hleaf
    · rename_i hmem
      cases hleaf
      exact ⟨hmem, .refl⟩
    · obtain ⟨hmem, hbelow⟩ := List.mem_filter.mp (List.mem_of_head? hleaf)
      exact ⟨hmem, (descendsFromBackjump_iff h (hleaves leaf hmem)).mp hbelow⟩

/-- A leaf at or below the target of the backjump is enough for the backjump to select one. -/
theorem backjumpLeaf_none (h : ProperIds ledger) {leaves : List String} (hleaves : ∀ leaf ∈ leaves, leaf ≠ "")
    {target : String} (hnone : backjumpLeaf leaves (parents ledger) target = none) :
    ∀ leaf ∈ leaves, ¬ AtOrBelow ledger leaf target := by
  intro leaf hmem hbelow
  have hne := hleaves leaf hmem
  unfold backjumpLeaf at hnone
  rw [if_neg (hbelow.ne_empty hne)] at hnone
  split at hnone
  · cases hnone
  · rw [List.head?_eq_none_iff, List.filter_eq_nil_iff] at hnone
    exact hnone leaf hmem ((descendsFromBackjump_iff h hne).mpr hbelow)

theorem leafAbove_mem {leaves : List String} {parents : Dict String String} {currentTarget leaf : String}
    (h : leafAbove leaves parents currentTarget = some leaf) : leaf ∈ leaves := by
  obtain ⟨⟨leaf', distance⟩, hclimb, rfl⟩ := Option.map_eq_some_iff.mp h
  exact of_decide_eq_true (Climb.climb_some hclimb).2.1

theorem farthest_descendant_mem {leaves : List String} {parents : Dict String String} {currentTarget leaf : String}
    {distance : Int} (h : farthest (descendants leaves parents currentTarget) = some (distance, leaf)) :
    leaf ∈ leaves := by
  obtain ⟨leaf', hmem, heq⟩ := List.mem_map.mp (farthest_mem h)
  rw [← (Prod.mk.inj heq).2]
  exact (List.mem_filter.mp hmem).1

theorem selectRepairTarget_error_iff (currentTarget : String) (ledger : ProofObligationLedger) :
    (∃ e, selectRepairTarget currentTarget ledger = .error e) ↔ pendingLeafIds ledger = [] := by
  unfold selectRepairTarget
  split
  · rename_i hnil
    exact ⟨fun _ => hnil, fun _ => ⟨_, rfl⟩⟩
  · rename_i first rest hcons
    refine ⟨?_, fun hnil => (by rw [hcons] at hnil; cases hnil)⟩
    rintro ⟨e, h⟩
    dsimp only at h
    split at h
    · cases h
    · split at h
      · cases h
      · split at h
        · cases h
        · split at h <;> cases h

theorem selectRepairTarget_ok (h : ProperIds ledger) {currentTarget target : String}
    (hok : selectRepairTarget currentTarget ledger = .ok target) :
    target ∈ pendingLeafIds ledger ∧
      ((∃ leaf ∈ pendingLeafIds ledger, AtOrBelow ledger leaf ledger.backjumpTargetId) →
        AtOrBelow ledger target ledger.backjumpTargetId) := by
  have hne : ∀ leaf ∈ pendingLeafIds ledger, leaf ≠ "" := by
    intro leaf hleaf
    obtain ⟨item, hpending, rfl⟩ := (mem_pendingLeafIds h leaf).mp hleaf
    exact h.nonempty item hpending.isOpen.mem
  unfold selectRepairTarget at hok
  split at hok
  · cases hok
  · rename_i first rest hcons
    rw [hcons] at hne ⊢
    dsimp only at hok
    split at hok
    · rename_i leaf hleaf
      cases hok
      obtain ⟨hmem, hbelow⟩ := backjumpLeaf_some h hne hleaf
      exact ⟨hmem, fun _ => hbelow⟩
    · rename_i hnone
      have hno := backjumpLeaf_none h hne hnone
      refine ⟨?_, fun ⟨leaf, hmem, hbelow⟩ => absurd hbelow (hno leaf hmem)⟩
      split at hok
      · rename_i hcurrent
        cases hok
        exact hcurrent
      · split at hok
        · rename_i leaf habove
          cases hok
          exact leafAbove_mem habove
        · split at hok
          · rename_i hfar
            cases hok
            exact farthest_descendant_mem hfar
          · cases hok
            exact List.mem_cons_self

/-- Without cycles of parents an open obligation has a pending one at or below it. -/
theorem exists_pending (h : ProperIds ledger) (hacyclic : Cycles.Acyclic (Parent ledger.obligations)) {item : ProofObligation}
    (hopen : Open ledger item) : ∃ item, Pending ledger item := by
  have hchild : Cycles.Acyclic fun a b : ProofObligation => Parent ledger.obligations b.obligationId a.obligationId := by
    intro a ha
    have hup : ∀ x y : ProofObligation,
        TransGen (fun a b : ProofObligation => Parent ledger.obligations b.obligationId a.obligationId) x y →
          TransGen (Parent ledger.obligations) y.obligationId x.obligationId := by
      intro x y hxy
      induction hxy with
      | single hstep => exact .single hstep
      | tail _ hstep ih => exact .head hstep ih
    exact hacyclic a.obligationId (hup a a ha)
  obtain ⟨leaf, -, hleaf, hno⟩ :=
    Cycles.exists_closed hchild ledger.obligations (Open ledger) ⟨item, hopen.mem, hopen⟩
  refine ⟨leaf, hleaf, fun child hchild hparent => ?_⟩
  exact hno child hchild.mem hchild ⟨child, hchild.mem, rfl, hparent, h.nonempty leaf hleaf.mem⟩

/-- A ledger with distinct, nonempty ids: its pending obligations, and the target that is selected among them. -/
theorem repairTargets (ledger : ProofObligationLedger) (h : ProperIds ledger) :
    (∀ id, id ∈ pendingLeafIds ledger ↔ ∃ item, Pending ledger item ∧ item.obligationId = id) ∧
      (pendingLeafIds ledger).Nodup ∧
      (∀ item, item ∈ pendingObligations (some ledger) ↔ Pending ledger item) ∧
      ((pendingObligations (some ledger)).map (·.obligationId)).Perm (pendingLeafIds ledger) ∧
      (∀ currentTarget,
        ((∃ e, selectRepairTarget currentTarget ledger = .error e) ↔ ¬ ∃ item, Pending ledger item) ∧
          ∀ target, selectRepairTarget currentTarget ledger = .ok target →
            (∃ item, Pending ledger item ∧ item.obligationId = target) ∧
              ((∃ item, Pending ledger item ∧ AtOrBelow ledger item.obligationId ledger.backjumpTargetId) →
                AtOrBelow ledger target ledger.backjumpTargetId)) ∧
      (Cycles.Acyclic (Parent ledger.obligations) → (∃ item, Open ledger item) → ∃ item, Pending ledger item) := by
  have hnil : pendingLeafIds ledger = [] ↔ ¬ ∃ item, Pending ledger item := by
    rw [List.eq_nil_iff_forall_not_mem]
    constructor
    · rintro hno ⟨item, hpending⟩
      exact hno _ ((mem_pendingLeafIds h _).mpr ⟨item, hpending, rfl⟩)
    · intro hno id hid
      obtain ⟨item, hpending, -⟩ := (mem_pendingLeafIds h id).mp hid
      exact hno ⟨item, hpending⟩
  refine ⟨mem_pendingLeafIds h, nodup_pendingLeafIds ledger, mem_pendingObligations h, pendingObligations_perm h, ?_,
    fun hacyclic ⟨item, hopen⟩ => exists_pending h hacyclic hopen⟩
  intro currentTarget
  refine ⟨(selectRepairTarget_error_iff currentTarget ledger).trans hnil, fun target hok => ?_⟩
  obtain ⟨hmem, hbackjump⟩ := selectRepairTarget_ok h hok
  refine ⟨(mem_pendingLeafIds h target).mp hmem, fun ⟨item, hpending, hbelow⟩ => ?_⟩
  exact hbackjump ⟨_, (mem_pendingLeafIds h _).mpr ⟨item, hpending, rfl⟩, hbelow⟩

/-- An obligation below another one. -/
def hanging (id parentId : String) : ProofObligation := { obligationId := id, statement := "", parentId := parentId }

/-- A lemma that hangs from the root, which hangs from an obligation that is not listed. -/
def danglingLedger : ProofObligationLedger where
  ledgerId := "ledger"
  obligations := [hanging "root" "goal", hanging "lemma" "root"]
  backjumpTargetId := "goal"

theorem repairTargets_dangling :
    "lemma" ∈ pendingLeafIds danglingLedger ∧
      ∃ target, selectRepairTarget "" danglingLedger = .ok target ∧ AtOrBelow danglingLedger target "goal" := by
  have hids : ProperIds danglingLedger := ⟨by unfold DistinctIds; decide, by decide⟩
  have hroot : hanging "root" "goal" ∈ danglingLedger.obligations := List.mem_cons_self
  have hlemma : hanging "lemma" "root" ∈ danglingLedger.obligations := List.mem_cons_of_mem _ List.mem_cons_self
  have hvalid : ∀ item ∈ danglingLedger.obligations, ¬ Invalid item := by decide
  have hleaf : ∀ item ∈ danglingLedger.obligations, item.parentId ≠ "lemma" := by decide
  have hopen : Open danglingLedger (hanging "lemma" "root") :=
    ⟨hlemma, rfl, fun ancestor hmem _ => hvalid ancestor hmem⟩
  have hpending : Pending danglingLedger (hanging "lemma" "root") :=
    ⟨hopen, fun child hchild => hleaf child hchild.mem⟩
  have hbelow : AtOrBelow danglingLedger "lemma" "goal" := by
    have hstep : Parent danglingLedger.obligations "lemma" "root" := ⟨_, hlemma, rfl, rfl, by decide⟩
    have hgoal : Parent danglingLedger.obligations "root" "goal" := ⟨_, hroot, rfl, rfl, by decide⟩
    exact (ReflTransGen.single hstep).tail hgoal
  obtain ⟨hleaves, -, -, -, hselect, -⟩ := repairTargets danglingLedger hids
  obtain ⟨herror, hok⟩ := hselect ""
  refine ⟨(hleaves _).mpr ⟨_, hpending, rfl⟩, ?_⟩
  cases htarget : selectRepairTarget "" danglingLedger with
  | error e => exact absurd ⟨_, hpending⟩ (herror.mp ⟨e, htarget⟩)
  | ok target => exact ⟨target, rfl, (hok target htarget).2 ⟨_, hpending, hbelow⟩⟩

end Planning

end KakeyaEngine
