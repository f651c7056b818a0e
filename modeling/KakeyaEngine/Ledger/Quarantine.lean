import KakeyaEngine.Ledger.Obligations
import KakeyaEngine.Lib.Cycles
import Mathlib.Data.List.Perm.Subperm

/-!
# Invalidated premises and what hangs below them

A verified invalidation of an obligation's premise quarantines everything below it, and its reversal gives the statuses back.
An obligation keeps one quarantine root and one prior status only.  So the quarantined obligations are those below an
invalidated one, and everything returns to where it was, in the runs whose steps do not invalidate below an invalidated
obligation and do not reverse an invalidation that has another one between it and what hangs below (`shadow_of_run`).
-/

namespace KakeyaEngine

namespace Ledger

open Relation
open Cycles (Acyclic)

structure PremiseReview where
  status : String
  verified : Bool
  confidence : String := "0.0"
  evidenceType : String := ""
  evidenceSource : String := ""
  auditorRunId : String := ""
  proponentRunId : String := ""
  reason : String := ""

/-! ### Descendants -/

/-- One round of the loop: the obligations whose parent has been found. -/
def addChildren (found : List String) : List ProofObligation → List String
  | [] => found
  | item :: items =>
    addChildren
      (if item.obligationId ∉ found ∧ item.parentId ∈ found then item.obligationId :: found else found) items

/-- The `while` loop of `_descendant_ids`, with the number of rounds that are left. -/
def addDescendants (obligations : List ProofObligation) : (rounds : Nat) → List String → List String
  | 0, found => found
  | rounds + 1, found =>
    let found' := addChildren found obligations
    if found'.length = found.length then found else addDescendants obligations rounds found'

def descendantIds (obligations : List ProofObligation) (rootId : String) : List String :=
  (addDescendants obligations (obligations.length + 1) [rootId]).filter (· ≠ rootId)

/-! ### Invalidations and reversals -/

/-- `invalidation_kind in {"PREMISE", "PREMISE_INVALIDATED"}`. -/
def isPremise (kind : String) : Bool := kind == "PREMISE" || kind == "PREMISE_INVALIDATED"

/-- `prior or "UNRESOLVED"`. -/
def orUnresolved (prior : String) : String := if prior = "" then "UNRESOLVED" else prior

/-- The update of the obligations with the ids. -/
def updateIds (p : String → Bool) (f : ProofObligation → ProofObligation) (obligations : List ProofObligation) :
    List ProofObligation :=
  obligations.map fun item => if p item.obligationId then f item else item

def clearTemporaryQuarantine (rootId : String) (item : ProofObligation) : ProofObligation :=
  if item.temporaryQuarantineRootId ≠ rootId then item
  else
    { item with
      temporaryQuarantineReason := ""
      temporaryQuarantineRootId := ""
      temporaryQuarantineRunId := "" }

/-- What happens to the root of a reversal. -/
def restoreRoot (review : PremiseReview) (root : ProofObligation) : ProofObligation :=
  if isPremise root.invalidationKind then
    { root with
      status := orUnresolved root.invalidationPriorStatus
      invalidationKind := ""
      invalidationPriorStatus := ""
      premiseReviewStatus := review.status }
  else { root with premiseReviewStatus := review.status }

/-- What happens to an obligation below the root of a reversal. -/
def release (rootId : String) (descendant : ProofObligation) : ProofObligation :=
  if descendant.quarantineRootId = rootId then
    { descendant with
      status :=
        if descendant.status = "QUARANTINED" then orUnresolved descendant.quarantinePriorStatus else descendant.status
      quarantineReason := ""
      quarantineRootId := ""
      quarantineRunId := ""
      quarantinePriorStatus := ""
      quarantineConfidence := "0.0"
      quarantineEvidenceType := ""
      quarantineEvidenceSource := ""
      quarantineAuditorRunId := ""
      quarantineProponentRunId := ""
      quarantineReversibleStatus := "REVERSED" }
  else descendant

def reverseLesson (rootId : String) (lesson : NoGoLesson) : NoGoLesson :=
  if lesson.sourceObligationId = rootId ∧ lesson.reversibleStatus = "ACTIVE" then
    { lesson with reversibleStatus := "REVERSED" }
  else lesson

def reversePremiseInvalidation (rootId : String) (review : PremiseReview) (ledger : ProofObligationLedger) :
    ProofObligationLedger :=
  if rootId ∉ ledger.obligations.map (·.obligationId) then ledger
  else
    let descendants := descendantIds ledger.obligations rootId
    { ledger with
      obligations :=
        (updateIds (· ∈ descendants) (release rootId)
          (updateIds (· = rootId) (restoreRoot review) ledger.obligations)).map (clearTemporaryQuarantine rootId)
      noGoLessons := ledger.noGoLessons.map (reverseLesson rootId)
      backjumpTargetId := "" }

/-- What happens to the target of an invalidation. -/
def invalidate (target : ProofObligation) : ProofObligation :=
  { target with
    invalidationPriorStatus :=
      if isPremise target.invalidationKind then target.invalidationPriorStatus else target.status
    status := "DISPROVED"
    invalidationKind := "PREMISE_INVALIDATED"
    premiseReviewStatus := "PREMISE_INVALIDATED" }

/-- What happens to an obligation below the target of an invalidation. -/
def quarantine (targetId runId : String) (review : PremiseReview) (descendant : ProofObligation) : ProofObligation :=
  if descendant.status = "QUARANTINED" ∧ descendant.quarantineRootId = targetId ∧
      descendant.quarantineReversibleStatus = "ACTIVE" then descendant
  else
    { descendant with
      quarantinePriorStatus := descendant.status
      status := "QUARANTINED"
      quarantineReason := "Verified premise invalidation at " ++ targetId ++ "."
      quarantineRootId := targetId
      quarantineRunId := runId
      quarantineConfidence := review.confidence
      quarantineEvidenceType := review.evidenceType
      quarantineEvidenceSource := review.evidenceSource
      quarantineAuditorRunId := review.auditorRunId
      quarantineProponentRunId := review.proponentRunId
      quarantineReversibleStatus := "ACTIVE" }

/-- The lesson takes the place of the first one with its claim hash, or the last place. -/
def recordLesson (lesson : NoGoLesson) : List NoGoLesson → List NoGoLesson
  | [] => [lesson]
  | existing :: lessons =>
    if existing.claimHash = lesson.claimHash then lesson :: lessons else existing :: recordLesson lesson lessons

def upgradePremiseInvalidation (targetId refutedPremise evidence runId : String) (review : Option PremiseReview)
    (boundClaimHash : String) (ledger : ProofObligationLedger) : ProofObligationLedger :=
  match review with
  | none => ledger
  | some review =>
    if !review.verified || boundClaimHash = "" then ledger
    else
      let descendants := descendantIds ledger.obligations targetId
      { ledger with
        obligations :=
          (updateIds (· ∈ descendants) (quarantine targetId runId review)
            (updateIds (· = targetId) invalidate ledger.obligations)).map (clearTemporaryQuarantine targetId)
        noGoLessons := recordLesson
          { claimHash := boundClaimHash
            refutedPremise := refutedPremise
            evidence := evidence
            sourceObligationId := targetId
            runId := runId
            confidence := review.confidence
            evidenceType := review.evidenceType
            evidenceSource := review.evidenceSource
            auditorRunId := review.auditorRunId
            proponentRunId := review.proponentRunId
            reversibleStatus := "ACTIVE" }
          ledger.noGoLessons }

/-! ### Runs -/

/-- A verified invalidation of an obligation. -/
structure VerifiedInvalidation where
  targetId : String
  refutedPremise : String
  evidence : String
  runId : String
  review : PremiseReview
  boundClaimHash : String
  verified : review.verified = true
  bound : boundClaimHash ≠ ""

inductive PremiseEvent
  | invalidated (v : VerifiedInvalidation)
  | reversed (rootId : String) (review : PremiseReview)

def ProofObligationLedger.after (ledger : ProofObligationLedger) : PremiseEvent → ProofObligationLedger
  | .invalidated v =>
    upgradePremiseInvalidation v.targetId v.refutedPremise v.evidence v.runId (some v.review) v.boundClaimHash ledger
  | .reversed rootId review => reversePremiseInvalidation rootId review ledger

/-- The obligation with the first id hangs from the second one. -/
def Hangs (obligations : List ProofObligation) (id parent : String) : Prop :=
  ∃ item ∈ obligations, item.obligationId = id ∧ item.parentId = parent

/-- The second id is a proper ancestor of the first one. -/
def Below (obligations : List ProofObligation) : String → String → Prop := TransGen (Hangs obligations)

/-- The premise of the obligation is invalidated at present. -/
def Invalidated (obligations : List ProofObligation) (id : String) : Prop :=
  ∃ item ∈ obligations, item.obligationId = id ∧ isPremise item.invalidationKind = true

/-- A ledger without invalidations. -/
structure Uninvalidated (ledger : ProofObligationLedger) : Prop where
  distinct : DistinctIds ledger.obligations
  acyclic : Acyclic (Hangs ledger.obligations)
  premises : ∀ item ∈ ledger.obligations, isPremise item.invalidationKind = false
  statuses : ∀ item ∈ ledger.obligations, item.status ≠ "QUARANTINED"
  lessons : ∀ lesson ∈ ledger.noGoLessons, lesson.reversibleStatus ≠ "ACTIVE"

/-- An obligation is invalidated while nothing above it is, and its invalidation is reversed while nothing above it is
invalidated and nothing hangs from an invalidated one below it. -/
def Unnested (obligations : List ProofObligation) : PremiseEvent → Prop
  | .invalidated v => ∀ a, Below obligations v.targetId a → ¬ Invalidated obligations a
  | .reversed rootId _ => Invalidated obligations rootId →
      (∀ a, Below obligations rootId a → ¬ Invalidated obligations a) ∧
        ∀ d, Below obligations d rootId → Invalidated obligations d → ∀ x, ¬ Hangs obligations x d

/-- The ledgers that are reached from one by invalidations of its obligations and reversals, all with the property. -/
inductive Reached (allowed : List ProofObligation → PremiseEvent → Prop) (start : ProofObligationLedger) :
    ProofObligationLedger → Prop
  | start : Reached allowed start start
  | invalidated {ledger : ProofObligationLedger} (h : Reached allowed start ledger) (v : VerifiedInvalidation)
      (hmem : v.targetId ∈ ledger.obligations.map (·.obligationId)) (hallowed : allowed ledger.obligations (.invalidated v)) :
      Reached allowed start (ledger.after (.invalidated v))
  | reversed {ledger : ProofObligationLedger} (h : Reached allowed start ledger) (rootId : String) (review : PremiseReview)
      (hallowed : allowed ledger.obligations (.reversed rootId review)) :
      Reached allowed start (ledger.after (.reversed rootId review))

/-- The quarantined obligations are the shadow of the invalidated ones. -/
structure Shadow (start ledger : ProofObligationLedger) : Prop where
  quarantined_iff : ∀ item ∈ ledger.obligations, item.status = "QUARANTINED" ↔
    ∃ a, Below ledger.obligations item.obligationId a ∧ Invalidated ledger.obligations a
  root : ∀ item ∈ ledger.obligations, item.status = "QUARANTINED" →
    Below ledger.obligations item.obligationId item.quarantineRootId ∧
      Invalidated ledger.obligations item.quarantineRootId
  restored : (∀ id, ¬ Invalidated ledger.obligations id) →
    ledger.obligations.map (fun item => (item.obligationId, item.status)) =
        start.obligations.map (fun item => (item.obligationId, item.status)) ∧
      ∀ lesson ∈ ledger.noGoLessons, lesson.reversibleStatus ≠ "ACTIVE"

/-! ### What the loop finds -/

variable {obligations : List ProofObligation}

/-- What the loop has found on the way: the root and obligations that lead to it. -/
structure FoundBelow (obligations : List ProofObligation) (rootId : String) (found : List String) : Prop where
  nodup : found.Nodup
  root : rootId ∈ found
  listed : found ⊆ rootId :: obligations.map (·.obligationId)
  leads : ∀ id ∈ found, ReflTransGen (Hangs obligations) id rootId

theorem addChildren_found {rootId : String} {items : List ProofObligation} (hitems : items ⊆ obligations)
    {found : List String} (h : FoundBelow obligations rootId found) :
    FoundBelow obligations rootId (addChildren found items) := by
  induction items generalizing found with
  | nil => exact h
  | cons item items ih =>
    rw [List.cons_subset] at hitems
    unfold addChildren
    split
    · rename_i hnew
      refine ih hitems.2 ⟨List.nodup_cons.mpr ⟨hnew.1, h.nodup⟩, List.mem_cons_of_mem _ h.root, ?_, ?_⟩
      · exact List.cons_subset.mpr ⟨List.mem_cons_of_mem _ (List.mem_map_of_mem hitems.1), h.listed⟩
      · intro id hid
        rcases List.mem_cons.mp hid with rfl | hid
        · exact .head ⟨item, hitems.1, rfl, rfl⟩ (h.leads _ hnew.2)
        · exact h.leads id hid
    · exact ih hitems.2 h

theorem length_le_addChildren (found : List String) (items : List ProofObligation) :
    found.length ≤ (addChildren found items).length := by
  induction items generalizing found with
  | nil => exact Nat.le_refl _
  | cons item items ih =>
    unfold addChildren
    split
    · have hrest := ih (item.obligationId :: found)
      rw [List.length_cons] at hrest
      omega
    · exact ih found

/-- A round that adds nothing has found every child. -/
theorem addChildren_closed {found : List String} {items : List ProofObligation}
    (h : (addChildren found items).length = found.length) :
    ∀ item ∈ items, item.parentId ∈ found → item.obligationId ∈ found := by
  induction items with
  | nil => exact List.forall_mem_nil _
  | cons item items ih =>
    unfold addChildren at h
    split at h
    · have hlong := length_le_addChildren (item.obligationId :: found) items
      rw [List.length_cons] at hlong
      omega
    · rename_i hold
      intro item' hmem hparent
      rcases List.mem_cons.mp hmem with rfl | hmem
      · by_cases hid : item'.obligationId ∈ found
        · exact hid
        · exact absurd ⟨hid, hparent⟩ hold
      · exact ih h item' hmem hparent

/-- The loop ends with a set that is closed, since each round but the last adds an obligation. -/
theorem addDescendants_spec {rootId : String} {rounds : Nat} {found : List String}
    (h : FoundBelow obligations rootId found) (hrounds : obligations.length + 1 < found.length + rounds) :
    FoundBelow obligations rootId (addDescendants obligations rounds found) ∧
      ∀ item ∈ obligations, item.parentId ∈ addDescendants obligations rounds found →
        item.obligationId ∈ addDescendants obligations rounds found := by
  induction rounds generalizing found with
  | zero =>
    have hlength := (List.subperm_of_subset h.nodup h.listed).length_le
    rw [List.length_cons, List.length_map] at hlength
    omega
  | succ rounds ih =>
    unfold addDescendants
    dsimp only
    split
    · rename_i hsame
      exact ⟨h, addChildren_closed hsame⟩
    · rename_i hmore
      have hlong := length_le_addChildren found obligations
      exact ih (addChildren_found (List.Subset.refl _) h) (by omega)

/-- The descendants of an obligation are those that have it above. -/
theorem mem_descendantIds (hacyclic : Acyclic (Hangs obligations)) (rootId id : String) :
    id ∈ descendantIds obligations rootId ↔ Below obligations id rootId := by
  have hstart : FoundBelow obligations rootId [rootId] := by
    refine ⟨List.nodup_singleton _, List.mem_singleton_self _, ?_, fun id hid => ?_⟩
    · exact List.cons_subset.mpr ⟨List.mem_cons_self, List.nil_subset _⟩
    · rw [List.mem_singleton.mp hid]
  have hrounds : obligations.length + 1 < [rootId].length + (obligations.length + 1) := by
    rw [List.length_singleton]
    omega
  obtain ⟨hfound, hclosed⟩ := addDescendants_spec hstart hrounds
  unfold descendantIds
  rw [List.mem_filter, decide_eq_true_eq]
  constructor
  · rintro ⟨hid, hne⟩
    rcases ReflTransGen.cases_head (hfound.leads id hid) with heq | ⟨parent, hedge, hpath⟩
    · exact absurd heq hne
    · exact TransGen.head' hedge hpath
  · intro hbelow
    refine ⟨?_, ?_⟩
    · have hmem : ∀ x, ReflTransGen (Hangs obligations) x rootId →
          x ∈ addDescendants obligations (obligations.length + 1) [rootId] := by
        intro x hx
        induction hx using ReflTransGen.head_induction_on with
        | refl => exact hfound.root
        | head hedge _ ih =>
          obtain ⟨item, hitem, rfl, rfl⟩ := hedge
          exact hclosed item hitem ih
      exact hmem id hbelow.to_reflTransGen
    · rintro rfl
      exact hacyclic id hbelow

/-! ### One obligation -/

variable {hangs : String → String → Prop} {invalid invalid' : String → Prop}

variable (hangs invalid) in
/-- The topmost invalidated ancestor of an id. -/
structure Topmost (id root : String) : Prop where
  above : TransGen hangs id root
  isInvalid : invalid root
  top : ∀ a, TransGen hangs root a → ¬ invalid a

/-- The status of an obligation without an invalidated ancestor. -/
def ownStatus (base : String) (item : ProofObligation) : String :=
  if isPremise item.invalidationKind then "DISPROVED" else base

variable (hangs invalid) in
/-- The fields of an obligation whose status was `base` at first. -/
structure Shaded (base : String) (item : ProofObligation) : Prop where
  free : (∀ a, TransGen hangs item.obligationId a → ¬ invalid a) → item.status = ownStatus base item
  prior : isPremise item.invalidationKind = true → item.invalidationPriorStatus = base
  quarantined : ∀ root, Topmost hangs invalid item.obligationId root →
    item.status = "QUARANTINED" ∧ item.quarantineRootId = root ∧ item.quarantineReversibleStatus = "ACTIVE"
  -- with more than one invalidated ancestor the status before is lost
  alone : ∀ root, Topmost hangs invalid item.obligationId root →
    (∀ a, TransGen hangs item.obligationId a → invalid a → a = root) → item.quarantinePriorStatus = ownStatus base item

/-- Two ancestors of one id are the same or one is above the other. -/
theorem ancestors_total (hfun : Relator.RightUnique hangs) {id a b : String} (ha : TransGen hangs id a)
    (hb : TransGen hangs id b) : a = b ∨ TransGen hangs a b ∨ TransGen hangs b a := by
  rcases ReflTransGen.total_of_right_unique hfun ha.to_reflTransGen hb.to_reflTransGen with hab | hba
  · rcases reflTransGen_iff_eq_or_transGen.mp hab with rfl | hab
    · exact .inl rfl
    · exact .inr (.inl hab)
  · rcases reflTransGen_iff_eq_or_transGen.mp hba with rfl | hba
    · exact .inl rfl
    · exact .inr (.inr hba)

theorem Topmost.unique (hfun : Relator.RightUnique hangs) {id root root' : String} (h : Topmost hangs invalid id root)
    (h' : Topmost hangs invalid id root') : root = root' := by
  rcases ancestors_total hfun h.above h'.above with heq | habove | habove
  · exact heq
  · exact absurd h'.isInvalid (h.top root' habove)
  · exact absurd h.isInvalid (h'.top root habove)

/-- What is above an id counts alone. -/
theorem Shaded.congr {base : String} {item : ProofObligation} (h : Shaded hangs invalid base item)
    (hinvalid : ∀ a, TransGen hangs item.obligationId a → (invalid' a ↔ invalid a)) : Shaded hangs invalid' base item := by
  have htop : ∀ root, Topmost hangs invalid' item.obligationId root → Topmost hangs invalid item.obligationId root := by
    intro root hroot
    refine ⟨hroot.above, (hinvalid root hroot.above).mp hroot.isInvalid, fun a ha hbad => hroot.top a ha ?_⟩
    exact (hinvalid a (hroot.above.trans ha)).mpr hbad
  refine ⟨fun hfree => h.free fun a ha hbad => hfree a ha ((hinvalid a ha).mpr hbad), h.prior,
    fun root hroot => h.quarantined root (htop root hroot), fun root hroot halone => h.alone root (htop root hroot) ?_⟩
  exact fun a ha hbad => halone a ha ((hinvalid a ha).mpr hbad)

/-- The temporary quarantine does not count. -/
theorem Shaded.clear {base : String} {item : ProofObligation} (h : Shaded hangs invalid base item) (rootId : String) :
    Shaded hangs invalid base (clearTemporaryQuarantine rootId item) := by
  unfold clearTemporaryQuarantine
  split
  · exact h
  · exact ⟨h.free, h.prior, h.quarantined, h.alone⟩

section Invalidation

variable {targetId : String} (htop : ∀ a, TransGen hangs targetId a → ¬ invalid a)
  (hacyclic : Acyclic hangs) (hinvalid : ∀ a, invalid' a ↔ invalid a ∨ a = targetId)

include htop hacyclic hinvalid

/-- The target of an invalidation. -/
theorem Shaded.invalidate {base : String} {item : ProofObligation} (h : Shaded hangs invalid base item)
    (hid : item.obligationId = targetId) : Shaded hangs invalid' base (invalidate item) := by
  have hfree : ∀ a, TransGen hangs item.obligationId a → ¬ invalid' a := by
    intro a ha hbad
    rw [hid] at ha
    rcases (hinvalid a).mp hbad with hbad | rfl
    · exact htop a ha hbad
    · exact hacyclic a ha
  refine ⟨fun _ => rfl, fun _ => ?_, fun root hroot => absurd hroot.isInvalid (hfree root hroot.above),
    fun root hroot => absurd hroot.isInvalid (hfree root hroot.above)⟩
  show (if isPremise item.invalidationKind then item.invalidationPriorStatus else item.status) = base
  split
  · rename_i hpremise
    exact h.prior hpremise
  · rename_i hpremise
    have hstatus := h.free fun a ha => htop a (hid ▸ ha)
    unfold ownStatus at hstatus
    rw [if_neg hpremise] at hstatus
    exact hstatus

/-- What lies below the target of an invalidation. -/
theorem Shaded.quarantine (hfun : Relator.RightUnique hangs) {base : String} {item : ProofObligation}
    (h : Shaded hangs invalid base item) (hbelow : TransGen hangs item.obligationId targetId)
    (hshadow : item.status = "QUARANTINED" → ∃ root, Topmost hangs invalid item.obligationId root)
    (runId : String) (review : PremiseReview) :
    Shaded hangs invalid' base (quarantine targetId runId review item) := by
  have htarget : Topmost hangs invalid' item.obligationId targetId := by
    refine ⟨hbelow, (hinvalid targetId).mpr (.inr rfl), fun a ha hbad => ?_⟩
    rcases (hinvalid a).mp hbad with hbad | rfl
    · exact htop a ha hbad
    · exact hacyclic a ha
  have hroot : ∀ root, Topmost hangs invalid' item.obligationId root → root = targetId :=
    fun root hroot => hroot.unique hfun htarget
  unfold Ledger.quarantine
  split
  · rename_i hkeep
    obtain ⟨root, hold⟩ := hshadow hkeep.1
    obtain rfl : root = targetId := (h.quarantined root hold).2.1.symm.trans hkeep.2.1
    refine ⟨fun hfree => absurd htarget.isInvalid (hfree _ hbelow), h.prior, fun root' hroot' => ?_,
      fun root' hroot' halone => ?_⟩
    · obtain rfl := hroot root' hroot'
      exact hkeep
    · obtain rfl := hroot root' hroot'
      exact h.alone root' hold fun a ha hbad => halone a ha ((hinvalid a).mpr (.inl hbad))
  · rename_i hchange
    refine ⟨fun hfree => absurd htarget.isInvalid (hfree _ hbelow), h.prior,
      fun root hroot' => ⟨rfl, (hroot root hroot').symm, rfl⟩, fun root hroot' halone => ?_⟩
    -- an invalidated ancestor from before would be the target itself, which had quarantined the obligation
    refine h.free fun a ha hbad => hchange ?_
    obtain rfl : a = targetId := (halone a ha ((hinvalid a).mpr (.inl hbad))).trans (hroot root hroot')
    exact h.quarantined a ⟨ha, hbad, htop⟩

end Invalidation

section Reversal

variable {rootId base : String} {item : ProofObligation} (h : Shaded hangs invalid base item) (hbase : base ≠ "")

include h

/-- The root of a reversal that is not invalidated. -/
theorem Shaded.restoreRoot_of_valid (hvalid : isPremise item.invalidationKind = false) (review : PremiseReview) :
    Shaded hangs invalid base (restoreRoot review item) := by
  unfold restoreRoot
  rw [if_neg (by rw [hvalid]; exact Bool.false_ne_true)]
  exact ⟨h.free, h.prior, h.quarantined, h.alone⟩

/-- What lies below a root that is not invalidated: such a root has quarantined nothing. -/
theorem Shaded.release_of_valid (hvalid : ¬ invalid rootId)
    (hshadow : item.status = "QUARANTINED" → ∃ root, Topmost hangs invalid item.obligationId root) :
    Shaded hangs invalid base (release rootId item) := by
  unfold release
  split
  · rename_i hroot
    have hstatus : item.status ≠ "QUARANTINED" := by
      intro hstatus
      obtain ⟨root, htop⟩ := hshadow hstatus
      obtain rfl : root = rootId := (h.quarantined root htop).2.1.symm.trans hroot
      exact hvalid htop.isInvalid
    rw [if_neg hstatus]
    exact ⟨h.free, h.prior, fun root htop => absurd (h.quarantined root htop).1 hstatus,
      fun root htop => absurd (h.quarantined root htop).1 hstatus⟩
  · exact h

variable (htop : ∀ a, TransGen hangs rootId a → ¬ invalid a) (hinvalid : ∀ a, invalid' a ↔ invalid a ∧ a ≠ rootId)

include hbase htop hinvalid

/-- The root of a reversal. -/
theorem Shaded.restoreRoot (hid : item.obligationId = rootId) (hpremise : isPremise item.invalidationKind = true)
    (review : PremiseReview) : Shaded hangs invalid' base (restoreRoot review item) := by
  have hfree : ∀ a, TransGen hangs item.obligationId a → ¬ invalid' a :=
    fun a ha hbad => htop a (hid ▸ ha) ((hinvalid a).mp hbad).1
  unfold Ledger.restoreRoot
  rw [if_pos hpremise, h.prior hpremise]
  have hstatus : orUnresolved base = base := if_neg hbase
  refine ⟨fun _ => hstatus, fun hkind => absurd (show isPremise "" = true from hkind) (by decide),
    fun root hroot => ?_, fun root hroot => ?_⟩
  · exact absurd hroot.isInvalid (hfree root hroot.above)
  · exact absurd hroot.isInvalid (hfree root hroot.above)

/-- What lies below the root of a reversal, when nothing hangs from another invalidated obligation below it. -/
theorem Shaded.release (hfun : Relator.RightUnique hangs) (hbelow : TransGen hangs item.obligationId rootId)
    (hroot : invalid rootId) (hchildless : ∀ d, TransGen hangs d rootId → invalid d → ∀ x, ¬ hangs x d) :
    Shaded hangs invalid' base (release rootId item) := by
  have halone : ∀ a, TransGen hangs item.obligationId a → invalid a → a = rootId := by
    intro a ha hbad
    rcases ancestors_total hfun ha hbelow with heq | habove | habove
    · exact heq
    · obtain ⟨x, -, hlast⟩ := TransGen.tail'_iff.mp ha
      exact absurd hlast (hchildless a habove hbad x)
    · exact absurd hbad (htop a habove)
  have htopmost : Topmost hangs invalid item.obligationId rootId := ⟨hbelow, hroot, htop⟩
  obtain ⟨hstatus, hrootId, -⟩ := h.quarantined rootId htopmost
  have hprior := h.alone rootId htopmost halone
  have hnonempty : ownStatus base item ≠ "" := by
    unfold ownStatus
    split
    · decide
    · exact hbase
  have hnone : ∀ a, TransGen hangs item.obligationId a → ¬ invalid' a := by
    intro a ha hbad
    obtain ⟨hbad, hne⟩ := (hinvalid a).mp hbad
    exact hne (halone a ha hbad)
  unfold Ledger.release
  rw [if_pos hrootId, if_pos hstatus, hprior]
  have hown : orUnresolved (ownStatus base item) = ownStatus base item := if_neg hnonempty
  refine ⟨fun _ => hown, h.prior, fun root hroot => ?_, fun root hroot => ?_⟩
  · exact absurd hroot.isInvalid (hnone root hroot.above)
  · exact absurd hroot.isInvalid (hnone root hroot.above)

end Reversal

/-! ### The ledger -/

variable {ledger start : ProofObligationLedger}

theorem hangs_rightUnique (h : DistinctIds obligations) : Relator.RightUnique (Hangs obligations) := by
  rintro id parent parent' ⟨item, hmem, hid, rfl⟩ ⟨item', hmem', hid', rfl⟩
  rw [Climb.eq_of_key h hmem hmem' (hid.trans hid'.symm)]

/-- The parents depend on the ids and the parent ids alone. -/
theorem hangs_congr {obligations' : List ProofObligation}
    (h : obligations.map (fun item => (item.obligationId, item.parentId)) =
      obligations'.map fun item => (item.obligationId, item.parentId)) : Hangs obligations = Hangs obligations' := by
  have hmem : ∀ (items : List ProofObligation) (x y : String),
      Hangs items x y ↔ (x, y) ∈ items.map fun item => (item.obligationId, item.parentId) := by
    intro items x y
    rw [List.mem_map]
    exact exists_congr fun item => and_congr_right fun _ => ⟨fun ⟨hx, hy⟩ => Prod.ext hx hy, Prod.mk.inj⟩
  funext x y
  rw [propext (hmem obligations x y), propext (hmem obligations' x y), h]

/-- What an event does to one obligation. -/
def change (descendants : List String) (rootId : String) (atRoot below : ProofObligation → ProofObligation)
    (item : ProofObligation) : ProofObligation :=
  clearTemporaryQuarantine rootId
    (if item.obligationId ∈ descendants then below item
    else if item.obligationId = rootId then atRoot item else item)

/-- An event changes its root and what lies below it. -/
theorem map_change {descendants : List String} {rootId : String} {atRoot below : ProofObligation → ProofObligation}
    (hroot : rootId ∉ descendants) (hid : ∀ item, (atRoot item).obligationId = item.obligationId) :
    (updateIds (· ∈ descendants) below (updateIds (· = rootId) atRoot obligations)).map
        (clearTemporaryQuarantine rootId) =
      obligations.map (change descendants rootId atRoot below) := by
  unfold updateIds
  rw [List.map_map, List.map_map]
  apply List.map_congr_left
  intro item _
  unfold change
  simp only [Function.comp_apply, decide_eq_true_eq]
  congr 1
  by_cases hitem : item.obligationId = rootId
  · rw [if_pos hitem, hid, hitem, if_neg hroot, if_neg hroot]
  · rw [if_neg hitem]

theorem clearTemporaryQuarantine_frame (rootId : String) (item : ProofObligation) :
    (clearTemporaryQuarantine rootId item).obligationId = item.obligationId ∧
      (clearTemporaryQuarantine rootId item).parentId = item.parentId ∧
      (clearTemporaryQuarantine rootId item).invalidationKind = item.invalidationKind := by
  unfold clearTemporaryQuarantine
  split <;> exact ⟨rfl, rfl, rfl⟩

/-- Where neither update changes ids and parents, nor the lower one the kind. -/
theorem change_frame (descendants : List String) (rootId : String) {atRoot below : ProofObligation → ProofObligation}
    (hroot : ∀ item, (atRoot item).obligationId = item.obligationId ∧ (atRoot item).parentId = item.parentId)
    (hbelow : ∀ item, (below item).obligationId = item.obligationId ∧ (below item).parentId = item.parentId ∧
      (below item).invalidationKind = item.invalidationKind) (item : ProofObligation) :
    (change descendants rootId atRoot below item).obligationId = item.obligationId ∧
      (change descendants rootId atRoot below item).parentId = item.parentId ∧
      (change descendants rootId atRoot below item).invalidationKind =
        if item.obligationId ∉ descendants ∧ item.obligationId = rootId then (atRoot item).invalidationKind
        else item.invalidationKind := by
  unfold change
  obtain ⟨hid, hparent, hkind⟩ := clearTemporaryQuarantine_frame rootId
    (if item.obligationId ∈ descendants then below item else if item.obligationId = rootId then atRoot item else item)
  rw [hid, hparent, hkind]
  by_cases hmem : item.obligationId ∈ descendants
  · rw [if_pos hmem, if_neg fun hand => hand.1 hmem]
    exact hbelow item
  · rw [if_neg hmem]
    by_cases hitem : item.obligationId = rootId
    · rw [if_pos hitem, if_pos ⟨hmem, hitem⟩]
      exact ⟨(hroot item).1, (hroot item).2, rfl⟩
    · rw [if_neg hitem, if_neg fun hand => hitem hand.2]
      exact ⟨rfl, rfl, rfl⟩

theorem invalidate_frame (item : ProofObligation) :
    (invalidate item).obligationId = item.obligationId ∧ (invalidate item).parentId = item.parentId := ⟨rfl, rfl⟩

theorem quarantine_frame (targetId runId : String) (review : PremiseReview) (item : ProofObligation) :
    (quarantine targetId runId review item).obligationId = item.obligationId ∧
      (quarantine targetId runId review item).parentId = item.parentId ∧
      (quarantine targetId runId review item).invalidationKind = item.invalidationKind := by
  unfold quarantine
  split <;> exact ⟨rfl, rfl, rfl⟩

theorem restoreRoot_frame (review : PremiseReview) (item : ProofObligation) :
    (restoreRoot review item).obligationId = item.obligationId ∧ (restoreRoot review item).parentId = item.parentId := by
  unfold restoreRoot
  split <;> exact ⟨rfl, rfl⟩

theorem isPremise_restoreRoot (review : PremiseReview) (item : ProofObligation) :
    isPremise (restoreRoot review item).invalidationKind = false := by
  unfold restoreRoot
  split
  · rfl
  · rename_i hpremise
    exact Bool.eq_false_iff.mpr hpremise

theorem release_frame (rootId : String) (item : ProofObligation) :
    (release rootId item).obligationId = item.obligationId ∧ (release rootId item).parentId = item.parentId ∧
      (release rootId item).invalidationKind = item.invalidationKind := by
  unfold release
  split <;> exact ⟨rfl, rfl, rfl⟩

/-! ### One event -/

/-- An obligation of the ledger and the one that it was at first. -/
structure Tracked (start obligations : List ProofObligation) (item₀ item : ProofObligation) : Prop where
  id : item.obligationId = item₀.obligationId
  parent : item.parentId = item₀.parentId
  nonempty : item₀.status ≠ ""
  unquarantined : item₀.status ≠ "QUARANTINED"
  premise : isPremise item.invalidationKind = true ↔ Invalidated obligations item.obligationId
  shaded : Shaded (Hangs start) (Invalidated obligations) item₀.status item

structure RunInv (start ledger : ProofObligationLedger) : Prop where
  items : List.Forall₂ (Tracked start.obligations ledger.obligations) start.obligations ledger.obligations
  lessons : ∀ lesson ∈ ledger.noGoLessons, lesson.reversibleStatus = "ACTIVE" →
    Invalidated ledger.obligations lesson.sourceObligationId

theorem RunInv.map_eq {β : Type} (h : RunInv start ledger) (f : ProofObligation → β)
    (hf : ∀ item₀ item, Tracked start.obligations ledger.obligations item₀ item → f item = f item₀) :
    ledger.obligations.map f = start.obligations.map f := by
  have hmap : ∀ {items₀ items : List ProofObligation},
      List.Forall₂ (Tracked start.obligations ledger.obligations) items₀ items → items.map f = items₀.map f := by
    intro items₀ items hitems
    induction hitems with
    | nil => rfl
    | cons hitem _ ih => rw [List.map_cons, List.map_cons, hf _ _ hitem, ih]
  exact hmap h.items

theorem RunInv.hangs_eq (h : RunInv start ledger) : Hangs ledger.obligations = Hangs start.obligations :=
  hangs_congr (h.map_eq _ fun _ _ hitem => Prod.ext hitem.id hitem.parent)

theorem RunInv.below_eq (h : RunInv start ledger) : Below ledger.obligations = TransGen (Hangs start.obligations) := by
  unfold Below
  rw [h.hangs_eq]

theorem RunInv.exists_tracked (h : RunInv start ledger) {item : ProofObligation} (hmem : item ∈ ledger.obligations) :
    ∃ item₀ ∈ start.obligations, Tracked start.obligations ledger.obligations item₀ item := by
  have hall : ∀ {items₀ items : List ProofObligation},
      List.Forall₂ (Tracked start.obligations ledger.obligations) items₀ items → item ∈ items →
        ∃ item₀ ∈ items₀, Tracked start.obligations ledger.obligations item₀ item := by
    intro items₀ items hitems
    induction hitems with
    | nil => exact fun hnil => (by cases hnil)
    | cons hitem _ ih =>
      intro hmem
      rcases List.mem_cons.mp hmem with rfl | hmem
      · exact ⟨_, List.mem_cons_self, hitem⟩
      · obtain ⟨item₀, hmem₀, htracked⟩ := ih hmem
        exact ⟨item₀, List.mem_cons_of_mem _ hmem₀, htracked⟩
  exact hall h.items hmem

/-- An invalidated ancestor is below a topmost one, or is it. -/
theorem exists_topmost (hacyclic : Acyclic (Hangs start.obligations)) {id a : String}
    (ha : TransGen (Hangs start.obligations) id a) (hbad : Invalidated obligations a) :
    ∃ root, Topmost (Hangs start.obligations) (Invalidated obligations) id root := by
  have htrans : Acyclic (TransGen (Hangs start.obligations)) := by
    intro x hx
    exact hacyclic x (TransGen.closed (fun _ _ hpath => hpath) x x hx)
  have hlisted : ∀ x, Invalidated obligations x → x ∈ obligations.map (·.obligationId) := by
    rintro x ⟨item, hmem, rfl, -⟩
    exact List.mem_map_of_mem hmem
  obtain ⟨root, -, ⟨hroot, hbad⟩, htop⟩ := Cycles.exists_closed htrans (obligations.map (·.obligationId))
    (fun x => TransGen (Hangs start.obligations) id x ∧ Invalidated obligations x) ⟨a, hlisted a hbad, ha, hbad⟩
  exact ⟨root, hroot, hbad, fun x hx hbad' => htop x (hlisted x hbad') ⟨hroot.trans hx, hbad'⟩ hx⟩

/-- Only what lies below an invalidated obligation is quarantined. -/
theorem Tracked.topmost (hacyclic : Acyclic (Hangs start.obligations)) {item₀ item : ProofObligation}
    (h : Tracked start.obligations obligations item₀ item) (hstatus : item.status = "QUARANTINED") :
    ∃ root, Topmost (Hangs start.obligations) (Invalidated obligations) item.obligationId root := by
  by_cases hbad : ∃ a, TransGen (Hangs start.obligations) item.obligationId a ∧ Invalidated obligations a
  · obtain ⟨a, ha, hbad⟩ := hbad
    exact exists_topmost hacyclic ha hbad
  · have hown := h.shaded.free fun a ha hinvalid => hbad ⟨a, ha, hinvalid⟩
    rw [hstatus] at hown
    unfold ownStatus at hown
    split at hown
    · exact absurd hown (by decide)
    · exact absurd hown.symm h.unquarantined

/-- An event that keeps the ids and tracks each obligation keeps the invariant of the obligations. -/
theorem RunInv.change_items (h : RunInv start ledger) {f : ProofObligation → ProofObligation}
    (hf : ∀ item₀ item, Tracked start.obligations ledger.obligations item₀ item →
      Tracked start.obligations (ledger.obligations.map f) item₀ (f item)) :
    List.Forall₂ (Tracked start.obligations (ledger.obligations.map f)) start.obligations
      (ledger.obligations.map f) := by
  rw [List.forall₂_map_right_iff]
  exact h.items.imp hf

theorem invalidated_map {f : ProofObligation → ProofObligation} (hid : ∀ item, (f item).obligationId = item.obligationId)
    (x : String) : Invalidated (obligations.map f) x ↔
      ∃ item ∈ obligations, item.obligationId = x ∧ isPremise (f item).invalidationKind = true := by
  constructor
  · rintro ⟨item', hmem, hx, hpremise⟩
    obtain ⟨item, hitem, rfl⟩ := List.mem_map.mp hmem
    exact ⟨item, hitem, (hid item).symm.trans hx, hpremise⟩
  · rintro ⟨item, hitem, hx, hpremise⟩
    exact ⟨f item, List.mem_map_of_mem hitem, (hid item).trans hx, hpremise⟩

theorem mem_recordLesson {lesson lesson' : NoGoLesson} {lessons : List NoGoLesson}
    (h : lesson' ∈ recordLesson lesson lessons) : lesson' = lesson ∨ lesson' ∈ lessons := by
  induction lessons with
  | nil => exact .inl (List.mem_singleton.mp h)
  | cons existing lessons ih =>
    unfold recordLesson at h
    split at h
    · rcases List.mem_cons.mp h with rfl | h
      · exact .inl rfl
      · exact .inr (List.mem_cons_of_mem _ h)
    · rcases List.mem_cons.mp h with rfl | h
      · exact .inr List.mem_cons_self
      · rcases ih h with rfl | h
        · exact .inl rfl
        · exact .inr (List.mem_cons_of_mem _ h)

/-- The descendants of an id in a ledger that was reached. -/
theorem RunInv.mem_descendantIds (h : RunInv start ledger) (hacyclic : Acyclic (Hangs start.obligations)) (rootId id : String) :
    id ∈ descendantIds ledger.obligations rootId ↔ TransGen (Hangs start.obligations) id rootId := by
  rw [Ledger.mem_descendantIds (h.hangs_eq ▸ hacyclic), h.below_eq]

theorem RunInv.root_not_mem (h : RunInv start ledger) (hacyclic : Acyclic (Hangs start.obligations)) (rootId : String) :
    rootId ∉ descendantIds ledger.obligations rootId :=
  fun hin => hacyclic _ ((h.mem_descendantIds hacyclic rootId rootId).mp hin)

/-! ### An invalidation -/

/-- What an invalidation does to one obligation. -/
def VerifiedInvalidation.change (v : VerifiedInvalidation) (obligations : List ProofObligation) :
    ProofObligation → ProofObligation :=
  Ledger.change (descendantIds obligations v.targetId) v.targetId invalidate (quarantine v.targetId v.runId v.review)

/-- The lesson of an invalidation. -/
def VerifiedInvalidation.lesson (v : VerifiedInvalidation) : NoGoLesson where
  claimHash := v.boundClaimHash
  refutedPremise := v.refutedPremise
  evidence := v.evidence
  sourceObligationId := v.targetId
  runId := v.runId
  confidence := v.review.confidence
  evidenceType := v.review.evidenceType
  evidenceSource := v.review.evidenceSource
  auditorRunId := v.review.auditorRunId
  proponentRunId := v.review.proponentRunId
  reversibleStatus := "ACTIVE"

theorem after_invalidated (v : VerifiedInvalidation) (hroot : v.targetId ∉ descendantIds ledger.obligations v.targetId) :
    ledger.after (.invalidated v) =
      { ledger with
        obligations := ledger.obligations.map (v.change ledger.obligations)
        noGoLessons := recordLesson v.lesson ledger.noGoLessons } := by
  unfold VerifiedInvalidation.change
  rw [← map_change hroot fun item => (invalidate_frame item).1]
  unfold ProofObligationLedger.after upgradePremiseInvalidation
  dsimp only
  rw [if_neg (by rw [v.verified, decide_eq_false v.bound]; exact Bool.false_ne_true)]
  rfl

theorem VerifiedInvalidation.change_frame (v : VerifiedInvalidation) (obligations : List ProofObligation)
    (item : ProofObligation) :
    (v.change obligations item).obligationId = item.obligationId ∧
      (v.change obligations item).parentId = item.parentId ∧
      (v.change obligations item).invalidationKind =
        if item.obligationId ∉ descendantIds obligations v.targetId ∧ item.obligationId = v.targetId then
          "PREMISE_INVALIDATED"
        else item.invalidationKind :=
  Ledger.change_frame _ _ invalidate_frame (quarantine_frame v.targetId v.runId v.review) item

/-- The target is invalidated afterwards, the others are as before. -/
theorem invalidated_change (v : VerifiedInvalidation) (hroot : v.targetId ∉ descendantIds obligations v.targetId)
    (hmem : v.targetId ∈ obligations.map (·.obligationId)) (a : String) :
    Invalidated (obligations.map (v.change obligations)) a ↔ Invalidated obligations a ∨ a = v.targetId := by
  have hframe := v.change_frame obligations
  rw [invalidated_map fun item => (hframe item).1]
  constructor
  · rintro ⟨item, hitem, rfl, hpremise⟩
    by_cases hid : item.obligationId = v.targetId
    · exact .inr hid
    · rw [(hframe item).2.2, if_neg fun hand => hid hand.2] at hpremise
      exact .inl ⟨item, hitem, rfl, hpremise⟩
  · rintro (⟨item, hitem, rfl, hpremise⟩ | rfl)
    · refine ⟨item, hitem, rfl, ?_⟩
      rw [(hframe item).2.2]
      split
      · rfl
      · exact hpremise
    · obtain ⟨item, hitem, hid⟩ := List.mem_map.mp hmem
      refine ⟨item, hitem, hid, ?_⟩
      rw [(hframe item).2.2, if_pos ⟨hid ▸ hroot, hid⟩]
      rfl

/-- An invalidation that nothing above its target forbids. -/
theorem RunInv.invalidated (h : RunInv start ledger) (hacyclic : Acyclic (Hangs start.obligations))
    (hdistinct : DistinctIds start.obligations) (v : VerifiedInvalidation)
    (hmem : v.targetId ∈ ledger.obligations.map (·.obligationId))
    (hallowed : Unnested ledger.obligations (.invalidated v)) : RunInv start (ledger.after (.invalidated v)) := by
  have htop : ∀ a, TransGen (Hangs start.obligations) v.targetId a → ¬ Invalidated ledger.obligations a := by
    rw [← h.below_eq]
    exact hallowed
  have hdescendants := h.mem_descendantIds hacyclic v.targetId
  have hroot := h.root_not_mem hacyclic v.targetId
  have hinvalid := invalidated_change v hroot hmem
  rw [after_invalidated v hroot]
  constructor
  · refine h.change_items fun item₀ item htracked => ?_
    obtain ⟨hid, hparent, hkind⟩ := v.change_frame ledger.obligations item
    refine ⟨hid.trans htracked.id, hparent.trans htracked.parent, htracked.nonempty, htracked.unquarantined, ?_, ?_⟩
    · rw [hid, hinvalid, hkind, ← htracked.premise]
      by_cases hitem : item.obligationId = v.targetId
      · rw [if_pos ⟨hitem ▸ hroot, hitem⟩]
        exact ⟨fun _ => .inr hitem, fun _ => rfl⟩
      · rw [if_neg fun hand => hitem hand.2]
        exact ⟨.inl, fun hor => hor.resolve_right hitem⟩
    · refine Shaded.clear ?_ v.targetId
      by_cases hin : item.obligationId ∈ descendantIds ledger.obligations v.targetId
      · rw [if_pos hin]
        exact htracked.shaded.quarantine htop hacyclic hinvalid (hangs_rightUnique hdistinct) ((hdescendants _).mp hin)
          (htracked.topmost hacyclic) v.runId v.review
      · rw [if_neg hin]
        by_cases hitem : item.obligationId = v.targetId
        · rw [if_pos hitem]
          exact htracked.shaded.invalidate htop hacyclic hinvalid hitem
        · rw [if_neg hitem]
          refine htracked.shaded.congr fun a ha => ?_
          rw [hinvalid]
          refine ⟨fun hor => hor.resolve_right ?_, .inl⟩
          rintro rfl
          exact hin ((hdescendants _).mpr ha)
  · intro lesson hlesson hactive
    rw [hinvalid]
    rcases mem_recordLesson hlesson with rfl | hold
    · exact .inr rfl
    · exact .inl (h.lessons lesson hold hactive)

/-! ### A reversal -/

/-- What a reversal does to one obligation. -/
def reversal (rootId : String) (review : PremiseReview) (obligations : List ProofObligation) :
    ProofObligation → ProofObligation :=
  change (descendantIds obligations rootId) rootId (restoreRoot review) (release rootId)

theorem after_reversed (rootId : String) (review : PremiseReview)
    (hroot : rootId ∉ descendantIds ledger.obligations rootId) (hmem : rootId ∈ ledger.obligations.map (·.obligationId)) :
    ledger.after (.reversed rootId review) =
      { ledger with
        obligations := ledger.obligations.map (reversal rootId review ledger.obligations)
        noGoLessons := ledger.noGoLessons.map (reverseLesson rootId)
        backjumpTargetId := "" } := by
  unfold reversal
  rw [← map_change hroot fun item => (restoreRoot_frame review item).1]
  unfold ProofObligationLedger.after reversePremiseInvalidation
  dsimp only
  rw [if_neg fun hnot => hnot hmem]

theorem reversal_frame (rootId : String) (review : PremiseReview) (obligations : List ProofObligation)
    (item : ProofObligation) :
    (reversal rootId review obligations item).obligationId = item.obligationId ∧
      (reversal rootId review obligations item).parentId = item.parentId ∧
      (reversal rootId review obligations item).invalidationKind =
        if item.obligationId ∉ descendantIds obligations rootId ∧ item.obligationId = rootId then
          (restoreRoot review item).invalidationKind
        else item.invalidationKind :=
  change_frame _ _ (restoreRoot_frame review) (release_frame rootId) item

/-- The root is not invalidated afterwards, the others are as before. -/
theorem invalidated_reversal (rootId : String) (review : PremiseReview)
    (hroot : rootId ∉ descendantIds obligations rootId) (a : String) :
    Invalidated (obligations.map (reversal rootId review obligations)) a ↔ Invalidated obligations a ∧ a ≠ rootId := by
  have hframe := reversal_frame rootId review obligations
  rw [invalidated_map fun item => (hframe item).1]
  constructor
  · rintro ⟨item, hitem, rfl, hpremise⟩
    rw [(hframe item).2.2] at hpremise
    by_cases hid : item.obligationId = rootId
    · rw [if_pos ⟨hid ▸ hroot, hid⟩, isPremise_restoreRoot] at hpremise
      cases hpremise
    · rw [if_neg fun hand => hid hand.2] at hpremise
      exact ⟨⟨item, hitem, rfl, hpremise⟩, hid⟩
  · rintro ⟨⟨item, hitem, rfl, hpremise⟩, hne⟩
    refine ⟨item, hitem, rfl, ?_⟩
    rw [(hframe item).2.2, if_neg fun hand => hne hand.2]
    exact hpremise

/-- The obligations after a reversal of an invalidation that meets no other one. -/
theorem Tracked.reversal_invalid (h : RunInv start ledger) (hacyclic : Acyclic (Hangs start.obligations))
    (hdistinct : DistinctIds start.obligations) {rootId : String} (review : PremiseReview)
    (hallowed : Unnested ledger.obligations (.reversed rootId review))
    (hbad : Invalidated ledger.obligations rootId) {item₀ item : ProofObligation}
    (htracked : Tracked start.obligations ledger.obligations item₀ item) :
    Shaded (Hangs start.obligations) (Invalidated (ledger.obligations.map (reversal rootId review ledger.obligations)))
      item₀.status (reversal rootId review ledger.obligations item) := by
  have hdescendants := h.mem_descendantIds hacyclic rootId
  have hinvalid := invalidated_reversal rootId review (h.root_not_mem hacyclic rootId)
  obtain ⟨htop, hchildless⟩ := hallowed hbad
  rw [h.below_eq] at htop hchildless
  rw [h.hangs_eq] at hchildless
  refine Shaded.clear ?_ rootId
  by_cases hin : item.obligationId ∈ descendantIds ledger.obligations rootId
  · rw [if_pos hin]
    exact htracked.shaded.release htracked.nonempty htop hinvalid (hangs_rightUnique hdistinct)
      ((hdescendants _).mp hin) hbad hchildless
  · rw [if_neg hin]
    by_cases hitem : item.obligationId = rootId
    · rw [if_pos hitem]
      exact htracked.shaded.restoreRoot htracked.nonempty htop hinvalid hitem
        (htracked.premise.mpr (hitem ▸ hbad)) review
    · rw [if_neg hitem]
      refine htracked.shaded.congr fun a ha => ?_
      rw [hinvalid]
      refine ⟨And.left, fun ha' => ⟨ha', ?_⟩⟩
      rintro rfl
      exact hin ((hdescendants _).mpr ha)

/-- The obligations after a reversal of what is not invalidated. -/
theorem Tracked.reversal_valid (h : RunInv start ledger) (hacyclic : Acyclic (Hangs start.obligations))
    {rootId : String} (review : PremiseReview) (hbad : ¬ Invalidated ledger.obligations rootId)
    {item₀ item : ProofObligation} (htracked : Tracked start.obligations ledger.obligations item₀ item) :
    Shaded (Hangs start.obligations) (Invalidated (ledger.obligations.map (reversal rootId review ledger.obligations)))
      item₀.status (reversal rootId review ledger.obligations item) := by
  have hsame : ∀ a, Invalidated (ledger.obligations.map (reversal rootId review ledger.obligations)) a ↔
      Invalidated ledger.obligations a := by
    intro a
    rw [invalidated_reversal rootId review (h.root_not_mem hacyclic rootId)]
    exact ⟨And.left, fun ha => ⟨ha, fun heq => hbad (heq ▸ ha)⟩⟩
  refine Shaded.congr (Shaded.clear ?_ rootId) fun a _ => hsame a
  by_cases hin : item.obligationId ∈ descendantIds ledger.obligations rootId
  · rw [if_pos hin]
    exact htracked.shaded.release_of_valid hbad (htracked.topmost hacyclic)
  · rw [if_neg hin]
    by_cases hitem : item.obligationId = rootId
    · rw [if_pos hitem]
      have hvalid : isPremise item.invalidationKind = false :=
        Bool.eq_false_iff.mpr fun hpremise => hbad (hitem ▸ htracked.premise.mp hpremise)
      exact htracked.shaded.restoreRoot_of_valid hvalid review
    · rw [if_neg hitem]
      exact htracked.shaded

theorem RunInv.reversed (h : RunInv start ledger) (hacyclic : Acyclic (Hangs start.obligations))
    (hdistinct : DistinctIds start.obligations) (rootId : String) (review : PremiseReview)
    (hallowed : Unnested ledger.obligations (.reversed rootId review)) :
    RunInv start (ledger.after (.reversed rootId review)) := by
  by_cases hmem : rootId ∈ ledger.obligations.map (·.obligationId)
  · have hroot := h.root_not_mem hacyclic rootId
    have hinvalid := invalidated_reversal rootId review hroot
    rw [after_reversed rootId review hroot hmem]
    constructor
    · refine h.change_items fun item₀ item htracked => ?_
      obtain ⟨hid, hparent, hkind⟩ := reversal_frame rootId review ledger.obligations item
      refine ⟨hid.trans htracked.id, hparent.trans htracked.parent, htracked.nonempty, htracked.unquarantined, ?_, ?_⟩
      · rw [hid, hinvalid, hkind, ← htracked.premise]
        by_cases hitem : item.obligationId = rootId
        · rw [if_pos ⟨hitem ▸ hroot, hitem⟩, isPremise_restoreRoot]
          exact ⟨fun hfalse => (by cases hfalse), fun hand => absurd hitem hand.2⟩
        · rw [if_neg fun hand => hitem hand.2]
          exact ⟨fun hpremise => ⟨hpremise, hitem⟩, And.left⟩
      · by_cases hbad : Invalidated ledger.obligations rootId
        · exact htracked.reversal_invalid h hacyclic hdistinct review hallowed hbad
        · exact htracked.reversal_valid h hacyclic review hbad
    · intro lesson hlesson hactive
      obtain ⟨old, hold, rfl⟩ := List.mem_map.mp hlesson
      rw [hinvalid]
      unfold reverseLesson at hactive ⊢
      split at hactive
      · exact absurd hactive (show "REVERSED" ≠ "ACTIVE" by decide)
      · rename_i hkept
        rw [if_neg hkept]
        exact ⟨h.lessons old hold hactive, fun hsource => hkept ⟨hsource, hactive⟩⟩
  · have hafter : ledger.after (.reversed rootId review) = ledger := by
      unfold ProofObligationLedger.after reversePremiseInvalidation
      dsimp only
      rw [if_pos hmem]
    rw [hafter]
    exact h

/-! ### Runs of events -/

theorem runInv_start (h : Uninvalidated start) (hnonempty : ∀ item ∈ start.obligations, item.status ≠ "") :
    RunInv start start := by
  have hvalid : ∀ a, ¬ Invalidated start.obligations a := by
    rintro a ⟨item, hitem, -, hpremise⟩
    rw [h.premises item hitem] at hpremise
    cases hpremise
  constructor
  · rw [List.forall₂_same]
    intro item hitem
    have hpremise := h.premises item hitem
    refine ⟨rfl, rfl, hnonempty item hitem, h.statuses item hitem, ?_, fun _ => ?_, fun hkind => ?_, fun root hroot => ?_,
      fun root hroot => ?_⟩
    · rw [hpremise]
      exact ⟨fun hfalse => (by cases hfalse), fun hbad => absurd hbad (hvalid _)⟩
    · unfold ownStatus
      rw [if_neg (by rw [hpremise]; exact Bool.false_ne_true)]
    · rw [hpremise] at hkind
      cases hkind
    · exact absurd hroot.isInvalid (hvalid root)
    · exact absurd hroot.isInvalid (hvalid root)
  · exact fun lesson hlesson hactive => absurd hactive (h.lessons lesson hlesson)

theorem RunInv.shadow (h : RunInv start ledger) (hacyclic : Acyclic (Hangs start.obligations)) : Shadow start ledger := by
  constructor
  · intro item hmem
    obtain ⟨item₀, -, htracked⟩ := h.exists_tracked hmem
    rw [h.below_eq]
    constructor
    · intro hstatus
      obtain ⟨root, hroot⟩ := htracked.topmost hacyclic hstatus
      exact ⟨root, hroot.above, hroot.isInvalid⟩
    · rintro ⟨a, ha, hbad⟩
      obtain ⟨root, hroot⟩ := exists_topmost hacyclic ha hbad
      exact (htracked.shaded.quarantined root hroot).1
  · intro item hmem hstatus
    obtain ⟨item₀, -, htracked⟩ := h.exists_tracked hmem
    obtain ⟨root, hroot⟩ := htracked.topmost hacyclic hstatus
    rw [h.below_eq, (htracked.shaded.quarantined root hroot).2.1]
    exact ⟨hroot.above, hroot.isInvalid⟩
  · intro hvalid
    refine ⟨h.map_eq _ fun item₀ item htracked => Prod.ext htracked.id ?_,
      fun lesson hlesson hactive => hvalid _ (h.lessons lesson hlesson hactive)⟩
    have hstatus := htracked.shaded.free fun a _ => hvalid a
    unfold ownStatus at hstatus
    rw [if_neg fun hpremise => hvalid _ (htracked.premise.mp hpremise)] at hstatus
    exact hstatus

/-- In a run of unnested events, from a ledger without invalidations and without empty statuses, the quarantined obligations
are the shadow of the invalidated ones. -/
theorem shadow_of_run (start ledger : ProofObligationLedger) (h : Uninvalidated start)
    (hnonempty : ∀ item ∈ start.obligations, item.status ≠ "") (hrun : Reached Unnested start ledger) :
    Shadow start ledger := by
  have hinv : RunInv start ledger := by
    induction hrun with
    | start => exact runInv_start h hnonempty
    | invalidated _ v hmem hallowed ih => exact ih.invalidated h.acyclic h.distinct v hmem hallowed
    | reversed _ rootId review hallowed ih => exact ih.reversed h.acyclic h.distinct rootId review hallowed
  exact hinv.shadow h.acyclic

/-! ### A chain of obligations -/

/-- Three obligations, each below the one before. -/
def chain : ProofObligationLedger where
  ledgerId := "ledger"
  obligations :=
    [{ obligationId := "a", statement := "" }, { obligationId := "b", statement := "", parentId := "a" },
      { obligationId := "c", statement := "", parentId := "b" }]

/-- A verified invalidation. -/
def refuted (targetId : String) : VerifiedInvalidation where
  targetId := targetId
  refutedPremise := "premise"
  evidence := "evidence"
  runId := "run"
  review := { status := "PREMISE_INVALIDATED", verified := true }
  boundClaimHash := "hash"
  verified := rfl
  bound := by decide

def rescued : PremiseReview := { status := "RESCUED", verified := true }

theorem chain_uninvalidated : Uninvalidated chain := by
  refine ⟨by unfold DistinctIds; decide, ?_, by decide, by decide, List.forall_mem_nil _⟩
  refine Cycles.acyclic_of_rank (fun id => if id = "c" then 3 else if id = "b" then 2 else if id = "a" then 1 else 0) ?_
  rintro x y ⟨item, hitem, rfl, rfl⟩
  revert item
  decide

theorem chain_shadow : Shadow chain (chain.after (.invalidated (refuted "a"))) := by
  refine shadow_of_run chain _ chain_uninvalidated (by decide) (.invalidated .start (refuted "a") (by decide) ?_)
  rintro a - ⟨item, hitem, -, hpremise⟩
  rw [chain_uninvalidated.premises item hitem] at hpremise
  cases hpremise

/-- The middle one is invalidated, then the first one, and both are reversed in the other order. -/
def nestedReversals : ProofObligationLedger :=
  (((chain.after (.invalidated (refuted "b"))).after (.invalidated (refuted "a"))).after (.reversed "a" rescued)).after
    (.reversed "b" rescued)

/-- The last one stays quarantined below nothing. -/
theorem nestedReversals_not_shadow :
    Uninvalidated chain ∧ Reached (fun _ _ => True) chain nestedReversals ∧
      (∀ id, ¬ Invalidated nestedReversals.obligations id) ∧
      nestedReversals.obligations.map (·.status) = ["UNRESOLVED", "UNRESOLVED", "QUARANTINED"] ∧
      ¬ Shadow chain nestedReversals := by
  have hpremises : ∀ item ∈ nestedReversals.obligations, isPremise item.invalidationKind = false := by decide
  have hvalid : ∀ id, ¬ Invalidated nestedReversals.obligations id := by
    rintro id ⟨item, hitem, -, hpremise⟩
    rw [hpremises item hitem] at hpremise
    cases hpremise
  refine ⟨chain_uninvalidated, ?_, hvalid, by decide, fun hshadow => ?_⟩
  · have hb : Reached (fun _ _ => True) chain (chain.after (.invalidated (refuted "b"))) :=
      .invalidated .start (refuted "b") (by decide) trivial
    exact .reversed (.reversed (.invalidated hb (refuted "a") (by decide) trivial) "a" rescued trivial) "b" rescued trivial
  · exact absurd (hshadow.restored hvalid).1 (by decide)

end Ledger

end KakeyaEngine
