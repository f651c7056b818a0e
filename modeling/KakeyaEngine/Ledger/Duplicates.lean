import KakeyaEngine.Ledger.Obligations
import Mathlib.Data.List.Forall2

/-!
# Rejecting semantic duplicates

The audit runs over the ledger once and rejects an unresolved obligation that is equivalent to one above it, or whose parent
it has rejected before.  What it leaves has no obligation that is equivalent to one above it, and a second audit finds
nothing.  It can leave an unresolved obligation below a rejected one: `audit_closed_iff` says for which ledgers it does not.
The test of equivalence is a parameter.
-/

namespace KakeyaEngine

namespace Ledger

open Relation
open Climb (climb)

/-- `_semantic_equivalence`: whether two statements are equivalent, and the score. -/
abbrev Equivalence := String → String → Bool × String

variable (equivalence : Equivalence)

/-- The walk up from the parent, until an equivalent obligation is met. -/
def equivalentAncestor (byId : Dict String ProofObligation) (item : ProofObligation) : Option (String × String) :=
  (climb byId (·.parentId) ""
      (fun cursor => (byId.get? cursor).any fun ancestor => (equivalence ancestor.statement item.statement).1)
      [] item.parentId 0).map fun found =>
    (found.1, ((byId.get? found.1).map fun ancestor => (equivalence ancestor.statement item.statement).2).getD "0.0")

/-- What the obligation is rejected as a duplicate of, and the score. -/
def duplicateOf (byId : Dict String ProofObligation) (rejectedIds : List String) (item : ProofObligation) :
    Option (String × String) :=
  if item.status ≠ "UNRESOLVED" ∨ item.parentId = "" then none
  else
    match equivalentAncestor equivalence byId item with
    | some found => some found
    | none => if item.parentId ∈ rejectedIds then some (item.parentId, "0.0") else none

def rejectDuplicate (item : ProofObligation) (original : String) : ProofObligation :=
  { item with
    status := "REJECTED_DUPLICATE"
    lastEvidence := "Semantic duplicate/cyclic descendant of " ++ original ++ "." }

/-- The loop over the obligations, with the ids that it has rejected. -/
def auditItems (byId : Dict String ProofObligation) :
    List String → List ProofObligation → List ProofObligation × List (String × String × String)
  | _, [] => ([], [])
  | rejectedIds, item :: items =>
    match duplicateOf equivalence byId rejectedIds item with
    | none =>
      let rest := auditItems byId rejectedIds items
      (item :: rest.1, rest.2)
    | some (original, score) =>
      let rest := auditItems byId (item.obligationId :: rejectedIds) items
      (rejectDuplicate item original :: rest.1, (item.obligationId, original, score) :: rest.2)

def auditLedgerSemanticDuplicates (ledger : ProofObligationLedger) :
    ProofObligationLedger × List (String × String × String) :=
  let audited := auditItems equivalence (byId ledger.obligations) [] ledger.obligations
  ({ ledger with
    obligations := audited.1
    version := if audited.2 = [] then ledger.version else ledger.version + 1 }, audited.2)

/-! ### Which obligations are rejected -/

/-- One obligation lies above another one. -/
def Above (obligations : List ProofObligation) (ancestor item : ProofObligation) : Prop :=
  ancestor ∈ obligations ∧ TransGen (Parent obligations) item.obligationId ancestor.obligationId

/-- An unresolved obligation that is equivalent to one above it. -/
def Duplicate (obligations : List ProofObligation) (item : ProofObligation) : Prop :=
  item.status = "UNRESOLVED" ∧
    ∃ ancestor, Above obligations ancestor item ∧ (equivalence ancestor.statement item.statement).1 = true

/-- The first id stands before the second one in the list. -/
def ListedBefore (obligations : List ProofObligation) (id id' : String) : Prop :=
  (obligations.map (·.obligationId)).idxOf id < (obligations.map (·.obligationId)).idxOf id'

instance (obligations : List ProofObligation) (id id' : String) : Decidable (ListedBefore obligations id id') :=
  inferInstanceAs (Decidable (_ < _))

/-- A duplicate, or an unresolved obligation that is listed after its parent, which is joined to a duplicate. -/
inductive Joined (obligations : List ProofObligation) : ProofObligation → Prop
  | duplicate {item : ProofObligation} (h : Duplicate equivalence obligations item) : Joined obligations item
  | child {item parent : ProofObligation} (hstatus : item.status = "UNRESOLVED") (hmem : parent ∈ obligations)
      (hparent : item.parentId = parent.obligationId) (hne : item.parentId ≠ "")
      (hbefore : ListedBefore obligations parent.obligationId item.obligationId) (h : Joined obligations parent) :
      Joined obligations item

/-- What the audit does to an obligation. -/
inductive Audited (obligations : List ProofObligation) : ProofObligation → ProofObligation → Prop
  | rejected {item : ProofObligation} (original : String) (h : Joined equivalence obligations item) :
      Audited obligations item (rejectDuplicate item original)
  | kept {item : ProofObligation} (h : ¬ Joined equivalence obligations item) : Audited obligations item item

variable {equivalence} {obligations : List ProofObligation}

theorem equivalentAncestor_isSome (h : DistinctIds obligations) {item : ProofObligation} (hmem : item ∈ obligations) :
    (equivalentAncestor equivalence (byId obligations) item).isSome = true ↔
      ∃ ancestor, Above obligations ancestor item ∧ (equivalence ancestor.statement item.statement).1 = true := by
  unfold equivalentAncestor
  rw [Option.isSome_map, byId, Climb.climb_parent_any_iff h hmem]
  constructor
  · rintro ⟨ancestor, hancestor, hreach, hequivalent⟩
    exact ⟨ancestor, ⟨hancestor, hreach⟩, hequivalent⟩
  · rintro ⟨ancestor, ⟨hancestor, hreach⟩, hequivalent⟩
    exact ⟨ancestor, hancestor, hreach, hequivalent⟩

theorem Duplicate.parentId_ne (h : DistinctIds obligations) {item : ProofObligation} (hmem : item ∈ obligations)
    (hduplicate : Duplicate equivalence obligations item) : item.parentId ≠ "" := by
  obtain ⟨-, ancestor, ⟨-, hreach⟩, -⟩ := hduplicate
  exact ((Climb.transGen_parent h hmem _).mp hreach).1

/-- In the middle of the loop the ids that were rejected are those of the joined obligations before. -/
theorem duplicateOf_isSome {done items : List ProofObligation} {item : ProofObligation} {rejectedIds : List String}
    (hobligations : obligations = done ++ item :: items) (h : DistinctIds obligations)
    (hrejected : ∀ id, id ∈ rejectedIds ↔ ∃ x ∈ done, x.obligationId = id ∧ Joined equivalence obligations x) :
    (duplicateOf equivalence (byId obligations) rejectedIds item).isSome = true ↔ Joined equivalence obligations item := by
  have hmem : item ∈ obligations := by rw [hobligations]; exact List.mem_append_right _ List.mem_cons_self
  have hids : obligations.map (·.obligationId) =
      done.map (·.obligationId) ++ item.obligationId :: items.map (·.obligationId) := by
    rw [hobligations, List.map_append, List.map_cons]
  have hnew : item.obligationId ∉ done.map (·.obligationId) := by
    have hnodup : (obligations.map (·.obligationId)).Nodup := h
    rw [hids] at hnodup
    exact fun hold => (List.nodup_append.mp hnodup).2.2 _ hold _ List.mem_cons_self rfl
  -- what is listed before the obligation is what the loop has done
  have hbefore : ∀ id, ListedBefore obligations id item.obligationId ↔ id ∈ done.map (·.obligationId) := by
    intro id
    unfold ListedBefore
    rw [hids, List.idxOf_append_of_notMem hnew, List.idxOf_cons_self]
    by_cases hid : id ∈ done.map (·.obligationId)
    · rw [List.idxOf_append_of_mem hid]
      have hlt := List.idxOf_lt_length_of_mem hid
      exact ⟨fun _ => hid, fun _ => by omega⟩
    · rw [List.idxOf_append_of_notMem hid]
      exact ⟨fun hlt => absurd hlt (by omega), fun hmem => absurd hmem hid⟩
  unfold duplicateOf
  constructor
  · intro hsome
    split at hsome
    · cases hsome
    · rename_i hopen
      rw [not_or, not_not] at hopen
      cases hancestor : equivalentAncestor equivalence (byId obligations) item with
      | some found =>
        exact .duplicate ⟨hopen.1, (equivalentAncestor_isSome h hmem).mp (by rw [hancestor]; rfl)⟩
      | none =>
        rw [hancestor] at hsome
        dsimp only at hsome
        split at hsome
        · rename_i hin
          obtain ⟨parent, hdone, hid, hjoined⟩ := (hrejected _).mp hin
          refine .child hopen.1 ?_ hid.symm hopen.2 ((hbefore _).mpr (List.mem_map_of_mem hdone)) hjoined
          rw [hobligations]
          exact List.mem_append_left _ hdone
        · cases hsome
  · intro hjoined
    cases hjoined with
    | duplicate hduplicate =>
      have hopen : ¬ (item.status ≠ "UNRESOLVED" ∨ item.parentId = "") := by
        rw [not_or, not_not]
        exact ⟨hduplicate.1, hduplicate.parentId_ne h hmem⟩
      rw [if_neg hopen]
      obtain ⟨found, hfound⟩ := Option.isSome_iff_exists.mp ((equivalentAncestor_isSome h hmem).mpr hduplicate.2)
      rw [hfound]
      rfl
    | @child _ parent hstatus hparentMem hparent hne hlisted hjoined =>
      rw [if_neg (by rw [not_or, not_not]; exact ⟨hstatus, hne⟩)]
      split
      · rfl
      · obtain ⟨x, hx, hid⟩ := List.mem_map.mp ((hbefore _).mp hlisted)
        have hxmem : x ∈ obligations := by rw [hobligations]; exact List.mem_append_left _ hx
        obtain rfl : x = parent := Climb.eq_of_key h hxmem hparentMem hid
        rw [if_pos ((hrejected _).mpr ⟨x, hx, hparent.symm, hjoined⟩)]
        rfl

/-- The loop rejects the joined obligations and reports each. -/
theorem auditItems_spec (h : DistinctIds obligations) {done items : List ProofObligation} {rejectedIds : List String}
    (hobligations : obligations = done ++ items)
    (hrejected : ∀ id, id ∈ rejectedIds ↔ ∃ x ∈ done, x.obligationId = id ∧ Joined equivalence obligations x) :
    List.Forall₂ (Audited equivalence obligations) items
        (auditItems equivalence (byId obligations) rejectedIds items).1 ∧
      ((∀ item ∈ items, ¬ Joined equivalence obligations item) →
        (auditItems equivalence (byId obligations) rejectedIds items).2 = []) := by
  induction items generalizing done rejectedIds with
  | nil => exact ⟨.nil, fun _ => rfl⟩
  | cons item items ih =>
    have hjoined := duplicateOf_isSome hobligations h hrejected
    have hobligations' : obligations = (done ++ [item]) ++ items := by rw [List.append_assoc]; exact hobligations
    unfold auditItems
    cases hduplicate : duplicateOf equivalence (byId obligations) rejectedIds item with
    | none =>
      have hnot : ¬ Joined equivalence obligations item := by
        rw [← hjoined, hduplicate]
        exact Bool.false_ne_true
      have hrejected' : ∀ id, id ∈ rejectedIds ↔
          ∃ x ∈ done ++ [item], x.obligationId = id ∧ Joined equivalence obligations x := by
        intro id
        rw [hrejected]
        constructor
        · rintro ⟨x, hx, hid, hx'⟩
          exact ⟨x, List.mem_append_left _ hx, hid, hx'⟩
        · rintro ⟨x, hx, hid, hx'⟩
          rcases List.mem_append.mp hx with hx | hx
          · exact ⟨x, hx, hid, hx'⟩
          · rw [List.mem_singleton.mp hx] at hx'
            exact absurd hx' hnot
      obtain ⟨haudited, hreport⟩ := ih hobligations' hrejected'
      exact ⟨.cons (.kept hnot) haudited, fun hall => hreport fun x hx => hall x (List.mem_cons_of_mem _ hx)⟩
    | some found =>
      obtain ⟨original, score⟩ := found
      have hyes : Joined equivalence obligations item := hjoined.mp (by rw [hduplicate]; rfl)
      have hrejected' : ∀ id, id ∈ item.obligationId :: rejectedIds ↔
          ∃ x ∈ done ++ [item], x.obligationId = id ∧ Joined equivalence obligations x := by
        intro id
        rw [List.mem_cons, hrejected]
        constructor
        · rintro (rfl | ⟨x, hx, hid, hx'⟩)
          · exact ⟨item, List.mem_append_right _ (List.mem_singleton_self _), rfl, hyes⟩
          · exact ⟨x, List.mem_append_left _ hx, hid, hx'⟩
        · rintro ⟨x, hx, hid, hx'⟩
          rcases List.mem_append.mp hx with hx | hx
          · exact .inr ⟨x, hx, hid, hx'⟩
          · rw [List.mem_singleton.mp hx] at hid
            exact .inl hid.symm
      obtain ⟨haudited, -⟩ := ih hobligations' hrejected'
      exact ⟨.cons (.rejected original hyes) haudited, fun hall => absurd hyes (hall item List.mem_cons_self)⟩

theorem auditItems_all (h : DistinctIds obligations) :
    List.Forall₂ (Audited equivalence obligations) obligations
        (auditItems equivalence (byId obligations) [] obligations).1 ∧
      ((∀ item ∈ obligations, ¬ Joined equivalence obligations item) →
        (auditItems equivalence (byId obligations) [] obligations).2 = []) := by
  refine auditItems_spec h (List.nil_append obligations).symm fun id => ?_
  constructor
  · intro hid
    cases hid
  · rintro ⟨x, hx, -⟩
    cases hx

/-! ### The ledger after the audit -/

variable {ledger : ProofObligationLedger}

variable (equivalence ledger) in
/-- The ledger that the audit leaves. -/
def audited : ProofObligationLedger := (auditLedgerSemanticDuplicates equivalence ledger).1

theorem forall₂_audited (h : DistinctIds ledger.obligations) :
    List.Forall₂ (Audited equivalence ledger.obligations) ledger.obligations (audited equivalence ledger).obligations :=
  (auditItems_all h).1

/-- The audit changes the status and the evidence alone. -/
theorem Audited.frame {item item' : ProofObligation} (h : Audited equivalence obligations item item') :
    item'.obligationId = item.obligationId ∧ item'.parentId = item.parentId ∧ item'.statement = item.statement := by
  cases h with
  | rejected => exact ⟨rfl, rfl, rfl⟩
  | kept => exact ⟨rfl, rfl, rfl⟩

theorem Audited.unresolved {item item' : ProofObligation} (h : Audited equivalence obligations item item')
    (hstatus : item'.status = "UNRESOLVED") : item' = item ∧ ¬ Joined equivalence obligations item := by
  cases h with
  | rejected => exact absurd hstatus (show "REJECTED_DUPLICATE" ≠ "UNRESOLVED" by decide)
  | kept h => exact ⟨rfl, h⟩

theorem map_audited {β : Type} {f : ProofObligation → β} {items items' : List ProofObligation}
    (h : List.Forall₂ (Audited equivalence obligations) items items')
    (hf : ∀ item item', Audited equivalence obligations item item' → f item' = f item) : items'.map f = items.map f := by
  induction h with
  | nil => rfl
  | cons hitem _ ih => rw [List.map_cons, List.map_cons, hf _ _ hitem, ih]

theorem exists_of_mem_audited {items items' : List ProofObligation}
    (h : List.Forall₂ (Audited equivalence obligations) items items') :
    (∀ item ∈ items, ∃ item' ∈ items', Audited equivalence obligations item item') ∧
      ∀ item' ∈ items', ∃ item ∈ items, Audited equivalence obligations item item' := by
  induction h with
  | nil => exact ⟨List.forall_mem_nil _, List.forall_mem_nil _⟩
  | cons hitem _ ih =>
    constructor
    · intro x hx
      rcases List.mem_cons.mp hx with rfl | hx
      · exact ⟨_, List.mem_cons_self, hitem⟩
      · obtain ⟨x', hx', hxx'⟩ := ih.1 x hx
        exact ⟨x', List.mem_cons_of_mem _ hx', hxx'⟩
    · intro x' hx'
      rcases List.mem_cons.mp hx' with rfl | hx'
      · exact ⟨_, List.mem_cons_self, hitem⟩
      · obtain ⟨x, hx, hxx'⟩ := ih.2 x' hx'
        exact ⟨x, List.mem_cons_of_mem _ hx, hxx'⟩

theorem parent_audited (h : DistinctIds ledger.obligations) :
    Parent (audited equivalence ledger).obligations = Parent ledger.obligations :=
  Climb.parent_congr (map_audited (forall₂_audited h) fun _ _ hitem =>
    Prod.ext hitem.frame.1 hitem.frame.2.1)

theorem distinctIds_audited (h : DistinctIds ledger.obligations) :
    DistinctIds (audited equivalence ledger).obligations := by
  unfold DistinctIds
  rw [map_audited (forall₂_audited h) fun _ _ hitem => hitem.frame.1]
  exact h

/-- What lies above in the ledger that is left comes from what lay above. -/
theorem above_audited (h : DistinctIds ledger.obligations) {item ancestor' : ProofObligation}
    (habove : Above (audited equivalence ledger).obligations ancestor' item) :
    ∃ ancestor, Above ledger.obligations ancestor item ∧ Audited equivalence ledger.obligations ancestor ancestor' := by
  obtain ⟨hmem', hreach⟩ := habove
  obtain ⟨ancestor, hmem, haudited⟩ := (exists_of_mem_audited (forall₂_audited h)).2 ancestor' hmem'
  rw [parent_audited h, haudited.frame.1] at hreach
  exact ⟨ancestor, ⟨hmem, hreach⟩, haudited⟩

theorem above_audited' (h : DistinctIds ledger.obligations) {item ancestor : ProofObligation}
    (habove : Above ledger.obligations ancestor item) :
    ∃ ancestor', Above (audited equivalence ledger).obligations ancestor' item ∧
      Audited equivalence ledger.obligations ancestor ancestor' := by
  obtain ⟨hmem, hreach⟩ := habove
  obtain ⟨ancestor', hmem', haudited⟩ := (exists_of_mem_audited (forall₂_audited h)).1 ancestor hmem
  refine ⟨ancestor', ⟨hmem', ?_⟩, haudited⟩
  rw [parent_audited h, haudited.frame.1]
  exact hreach

/-- An unresolved obligation that is left was there before, and nothing above it is equivalent to it. -/
theorem unresolved_audited (h : DistinctIds ledger.obligations) {item : ProofObligation}
    (hmem : item ∈ (audited equivalence ledger).obligations) (hstatus : item.status = "UNRESOLVED") :
    item ∈ ledger.obligations ∧ ¬ Joined equivalence ledger.obligations item := by
  obtain ⟨item₀, hmem₀, haudited⟩ := (exists_of_mem_audited (forall₂_audited h)).2 item hmem
  obtain ⟨rfl, hnot⟩ := haudited.unresolved hstatus
  exact ⟨hmem₀, hnot⟩

theorem not_equivalent_audited (h : DistinctIds ledger.obligations) {item ancestor' : ProofObligation}
    (hmem : item ∈ (audited equivalence ledger).obligations) (hstatus : item.status = "UNRESOLVED")
    (habove : Above (audited equivalence ledger).obligations ancestor' item) :
    (equivalence ancestor'.statement item.statement).1 = false := by
  obtain ⟨-, hnot⟩ := unresolved_audited h hmem hstatus
  obtain ⟨ancestor, habove, haudited⟩ := above_audited h habove
  rw [haudited.frame.2.2]
  exact Bool.eq_false_iff.mpr fun hequivalent => hnot (.duplicate ⟨hstatus, ancestor, habove, hequivalent⟩)

/-- Nothing is joined to a duplicate without a duplicate at it or above it. -/
theorem Joined.exists_duplicate {item : ProofObligation} (h : Joined equivalence obligations item)
    (hmem : item ∈ obligations) :
    ∃ d ∈ obligations, Duplicate equivalence obligations d ∧ (d = item ∨ Above obligations d item) := by
  induction h with
  | duplicate h => exact ⟨_, hmem, h, .inl rfl⟩
  | @child item parent hstatus hparentMem hparent hne _ _ ih =>
    obtain ⟨d, hd, hduplicate, hwhere⟩ := ih hparentMem
    have hedge : Parent obligations item.obligationId parent.obligationId := ⟨item, hmem, rfl, hparent, hparent ▸ hne⟩
    refine ⟨d, hd, hduplicate, .inr ⟨hd, ?_⟩⟩
    rcases hwhere with rfl | ⟨-, hreach⟩
    · exact .single hedge
    · exact .head hedge hreach

/-- A second audit has nothing to reject. -/
theorem not_joined_audited (h : DistinctIds ledger.obligations) {item : ProofObligation}
    (hmem : item ∈ (audited equivalence ledger).obligations) :
    ¬ Joined equivalence (audited equivalence ledger).obligations item := by
  intro hjoined
  obtain ⟨d, hd, ⟨hstatus, ancestor, habove, hequivalent⟩, -⟩ := hjoined.exists_duplicate hmem
  rw [not_equivalent_audited h hd hstatus habove] at hequivalent
  cases hequivalent

theorem audited_audited (h : DistinctIds ledger.obligations) :
    auditLedgerSemanticDuplicates equivalence (audited equivalence ledger) = (audited equivalence ledger, []) := by
  have hdistinct : DistinctIds (audited equivalence ledger).obligations := distinctIds_audited h
  obtain ⟨haudited, hreport⟩ : _ ∧ _ := auditItems_all hdistinct
  have hreport := hreport fun item hmem => not_joined_audited h hmem
  have hkept : ∀ {items items' : List ProofObligation}, items ⊆ (audited equivalence ledger).obligations →
      List.Forall₂ (Audited equivalence (audited equivalence ledger).obligations) items items' → items' = items := by
    intro items items' hsub hall
    induction hall with
    | nil => rfl
    | cons hitem _ ih =>
      rw [List.cons_subset] at hsub
      cases hitem with
      | rejected _ hjoined => exact absurd hjoined (not_joined_audited h hsub.1)
      | kept => rw [ih hsub.2]
  unfold auditLedgerSemanticDuplicates
  dsimp only
  rw [hreport, hkept (List.Subset.refl _) haudited, if_pos rfl]

variable (equivalence ledger) in
/-- What the audit is for: no unresolved obligation is left that repeats or hangs below a rejected one, and a second audit
changes nothing. -/
structure AuditClosed : Prop where
  distinct : ∀ item ∈ (audited equivalence ledger).obligations, item.status = "UNRESOLVED" →
    ∀ ancestor, Above (audited equivalence ledger).obligations ancestor item →
      (equivalence ancestor.statement item.statement).1 = false
  unrejected : ∀ item ∈ (audited equivalence ledger).obligations, item.status = "UNRESOLVED" →
    ∀ ancestor, Above (audited equivalence ledger).obligations ancestor item → ancestor.status ≠ "REJECTED_DUPLICATE"
  stable : auditLedgerSemanticDuplicates equivalence (audited equivalence ledger) = (audited equivalence ledger, [])

variable (equivalence) in
/-- Every unresolved obligation below a rejected one or below a duplicate is joined to a duplicate. -/
def AllJoined (obligations : List ProofObligation) : Prop :=
  ∀ item ∈ obligations, item.status = "UNRESOLVED" → ∀ ancestor, Above obligations ancestor item →
    (ancestor.status = "REJECTED_DUPLICATE" ∨ Duplicate equivalence obligations ancestor) →
      Joined equivalence obligations item

theorem allJoined_of_closed (h : DistinctIds ledger.obligations) (hclosed : AuditClosed equivalence ledger) :
    AllJoined equivalence ledger.obligations := by
  intro item hmem hstatus ancestor habove hrejected
  by_cases hjoined : Joined equivalence ledger.obligations item
  · exact hjoined
  · obtain ⟨item', hmem', haudited⟩ := (exists_of_mem_audited (forall₂_audited h)).1 item hmem
    cases haudited with
    | rejected _ hyes => exact hyes
    | kept =>
      obtain ⟨ancestor', habove', haudited'⟩ := above_audited' h habove
      refine absurd ?_ (hclosed.unrejected item hmem' hstatus ancestor' habove')
      cases haudited' with
      | rejected => rfl
      | kept hnot =>
        rcases hrejected with hrejected | hduplicate
        · exact hrejected
        · exact absurd (.duplicate hduplicate) hnot

theorem closed_of_allJoined (h : DistinctIds ledger.obligations) (hall : AllJoined equivalence ledger.obligations) :
    AuditClosed equivalence ledger where
  distinct := fun item hmem hstatus ancestor habove => not_equivalent_audited h hmem hstatus habove
  unrejected := by
    intro item hmem hstatus ancestor' habove' hrejected
    obtain ⟨hmem₀, hnot⟩ := unresolved_audited h hmem hstatus
    obtain ⟨ancestor, habove, haudited⟩ := above_audited h habove'
    apply hnot
    cases haudited with
    | kept => exact hall item hmem₀ hstatus ancestor' habove (.inl hrejected)
    | rejected _ hjoined =>
      obtain ⟨d, hd, hduplicate, hwhere⟩ := hjoined.exists_duplicate habove.1
      refine hall item hmem₀ hstatus d ?_ (.inr hduplicate)
      rcases hwhere with rfl | ⟨-, hreach⟩
      · exact habove
      · exact ⟨hd, habove.2.trans hreach⟩
  stable := audited_audited h

/-- The audit closes the ledgers in which every unresolved obligation below a rejected one or below a duplicate is joined to
a duplicate by unresolved obligations that are listed after their parents. -/
theorem audit_closed_iff (equivalence : Equivalence) (ledger : ProofObligationLedger) (h : DistinctIds ledger.obligations) :
    AuditClosed equivalence ledger ↔ AllJoined equivalence ledger.obligations := by
  constructor
  · exact fun hclosed => allJoined_of_closed h hclosed
  · exact fun hall => closed_of_allJoined h hall

/-- Statements are equivalent when they are the same text. -/
def sameText : Equivalence := fun left right => (decide (left = right), "1.0")

/-- A root, an obligation that repeats it and one that hangs from that. -/
def repeated : List ProofObligation :=
  [{ obligationId := "root", statement := "a" }, { obligationId := "copy", statement := "a", parentId := "root" },
    { obligationId := "leaf", statement := "b", parentId := "copy" }]

theorem audit_closed_repeated : AuditClosed sameText { ledgerId := "l", obligations := repeated } := by
  have hdistinct : DistinctIds repeated := by unfold DistinctIds; decide
  refine (audit_closed_iff sameText { ledgerId := "l", obligations := repeated } hdistinct).mpr ?_
  have hcopy : Joined sameText repeated { obligationId := "copy", statement := "a", parentId := "root" } := by
    refine .duplicate ⟨rfl, { obligationId := "root", statement := "a" }, ⟨List.mem_cons_self, .single ?_⟩, rfl⟩
    exact ⟨_, List.mem_cons_of_mem _ List.mem_cons_self, rfl, rfl, by decide⟩
  intro item hmem _ ancestor ⟨_, hreach⟩ _
  rcases List.mem_cons.mp hmem with rfl | hmem
  · exact absurd rfl ((Climb.transGen_parent hdistinct List.mem_cons_self _).mp hreach).1
  · rcases List.mem_cons.mp hmem with rfl | hmem
    · exact hcopy
    · obtain rfl := List.mem_singleton.mp hmem
      exact .child rfl (List.mem_cons_of_mem _ List.mem_cons_self) rfl (by decide) (by decide) hcopy

/-- The obligation that hangs from the copy is listed first, and is left below it. -/
theorem listed_first_not_closed :
    ¬ AuditClosed sameText { ledgerId := "l", obligations := repeated.reverse } := by
  intro hclosed
  have hdistinct : DistinctIds repeated.reverse := by unfold DistinctIds; decide
  have hroot : ({ obligationId := "root", statement := "a" } : ProofObligation) ∈ repeated.reverse :=
    List.mem_reverse.mpr List.mem_cons_self
  have hcopy : ({ obligationId := "copy", statement := "a", parentId := "root" } : ProofObligation) ∈ repeated.reverse :=
    List.mem_reverse.mpr (List.mem_cons_of_mem _ List.mem_cons_self)
  have hduplicate : Duplicate sameText repeated.reverse
      { obligationId := "copy", statement := "a", parentId := "root" } :=
    ⟨rfl, _, ⟨hroot, .single ⟨_, hcopy, rfl, rfl, by decide⟩⟩, rfl⟩
  have hleaf : Joined sameText repeated.reverse { obligationId := "leaf", statement := "b", parentId := "copy" } :=
    allJoined_of_closed hdistinct hclosed _ List.mem_cons_self rfl _
      ⟨hcopy, .single ⟨_, List.mem_cons_self, rfl, rfl, by decide⟩⟩ (.inr hduplicate)
  have hbelow : ∀ item ∈ repeated.reverse, item.parentId ≠ "leaf" := by decide
  have hstatement : ∀ item ∈ repeated.reverse, item.statement = "b" → item.obligationId = "leaf" := by decide
  have hid : ∀ item ∈ repeated.reverse, item.obligationId = "copy" → ¬ ListedBefore repeated.reverse item.obligationId "leaf" := by
    decide
  cases hleaf with
  | duplicate hduplicate =>
    obtain ⟨-, ancestor, ⟨hmem, hreach⟩, hequivalent⟩ := hduplicate
    rw [hstatement ancestor hmem (of_decide_eq_true hequivalent)] at hreach
    obtain ⟨_, -, item, hitem, -, hparent, -⟩ := TransGen.tail'_iff.mp hreach
    exact hbelow item hitem hparent
  | child _ hmem hparent _ hbefore _ => exact hid _ hmem hparent.symm hbefore

end Ledger

end KakeyaEngine
