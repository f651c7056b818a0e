import KakeyaEngine.LeanGate.Contract
import KakeyaEngine.Ledger.Storage
import KakeyaEngine.Lib.Machine

/-!
# Committing a certified child

A verified decomposition puts its child below the target.  The child's id is a hash of the certificate and the label, and a
result whose child is in the ledger already is not committed again, if the child still has the hash of the certificate.  A
decomposition of the child itself overwrites that hash, and a call that raises has already formalised the target.  In the
runs without these two steps the ledger can always be loaded from its file, every result that was applied gives the same
child again and changes nothing, and a call that raises changes nothing (`committed_of_run`).
-/

namespace KakeyaEngine

namespace Ledger

/-! ### The call -/

/-- The child that the decomposer has proposed. -/
structure ProposedChild where
  label : String
  statement : String

structure FormalizationBundle where
  parentSignatureSource : String
  parentSignatureHash : String
  /-- `child["lean_signature"]`. -/
  childLeanSignature : String

structure Validation where
  childSignatureHashes : Dict String String
  reductionProofHash : String

structure DecompositionCertificateResult where
  verified : Bool
  /-- `artifacts["decomposer"].child`. -/
  child : ProposedChild
  /-- `artifacts["formalizer"]`. -/
  formalizer : FormalizationBundle
  roleRunIds : Dict String String
  validation : Validation
  certificateHash : String

/-- The first obligation with the id. -/
def findObligation (obligations : List ProofObligation) (id : String) : Option ProofObligation :=
  obligations.find? fun item => item.obligationId = id

/-- The update of the first obligation with the id. -/
def updateObligation (id : String) (f : ProofObligation → ProofObligation) : List ProofObligation → List ProofObligation
  | [] => []
  | item :: items => if item.obligationId = id then f item :: items else item :: updateObligation id f items

def formalizeParent (formalization : FormalizationBundle) (parent : ProofObligation) : ProofObligation :=
  if parent.formalStatus = "UNFORMALIZED" then
    { parent with
      formalStatus := "FORMALIZED"
      leanSignature := formalization.parentSignatureSource
      leanSignatureHash := formalization.parentSignatureHash }
  else parent

def certifyParent (result : DecompositionCertificateResult) (parent : ProofObligation) : ProofObligation :=
  { parent with
    decompositionCertificateHash := result.certificateHash
    reductionTheoremHash := result.validation.reductionProofHash
    reductionTheoremStatus := "PROVED"
    decompositionRoleRunIds := result.roleRunIds
    certificateReversibleStatus := "ACTIVE" }

def childId (targetId : String) (result : DecompositionCertificateResult) : String :=
  targetId ++ "-" ++
    String.ofList ((LeanGate.hexdigest (result.certificateHash ++ ":" ++ result.child.label).toList).take 10)

def certifiedChild (targetId : String) (result : DecompositionCertificateResult) (runId signatureHash : String) :
    ProofObligation where
  obligationId := childId targetId result
  statement := result.child.statement
  parentId := targetId
  lastRunId := runId
  lastEvidence := "Persisted from verified decomposition certificate."
  formalStatus := "FORMALIZED"
  leanSignature := result.formalizer.childLeanSignature
  leanSignatureHash := signatureHash
  decompositionCertificateHash := result.certificateHash
  reductionTheoremHash := result.validation.reductionProofHash
  reductionTheoremStatus := "PROVED"
  decompositionRoleRunIds := result.roleRunIds
  certificateReversibleStatus := "ACTIVE"

/-- The ledger with the obligation changed. -/
def ProofObligationLedger.update (ledger : ProofObligationLedger) (id : String) (f : ProofObligation → ProofObligation) :
    ProofObligationLedger :=
  { ledger with obligations := updateObligation id f ledger.obligations }

/-- The ledger with the child, certified. -/
def ProofObligationLedger.commit (ledger : ProofObligationLedger) (targetId : String)
    (result : DecompositionCertificateResult) (item : ProofObligation) : ProofObligationLedger :=
  { ledger with
    obligations := updateObligation targetId (certifyParent result) (ledger.obligations ++ [item])
    version := ledger.version + 1 }

/-- `persist_verified_decomposition`: the obligations that are returned, or the error that is raised, and the ledger. -/
def persistVerifiedDecomposition (ledger : ProofObligationLedger) (targetId : String)
    (result : DecompositionCertificateResult) (runId : String) :
    Except String (List ProofObligation) × ProofObligationLedger :=
  if result.verified = false then (.ok [], ledger)
  else
    match findObligation ledger.obligations targetId with
    | none => (.error "StopIteration", ledger)
    | some _ =>
      let formalized := ledger.update targetId (formalizeParent result.formalizer)
      match result.validation.childSignatureHashes.get? result.child.label with
      | none => (.error "KeyError", formalized)
      | some signatureHash =>
        let item := certifiedChild targetId result runId signatureHash
        match findObligation formalized.obligations item.obligationId with
        | some existing =>
          if existing.decompositionCertificateHash ≠ result.certificateHash then
            (.error "child ID collision with another certificate", formalized)
          else (.ok [existing], formalized)
        | none => (.ok [item], formalized.commit targetId result item)

/-! ### Looking an obligation up -/

theorem findObligation_update {f : ProofObligation → ProofObligation}
    (hid : ∀ item, (f item).obligationId = item.obligationId) (obligations : List ProofObligation) (id id' : String) :
    findObligation (updateObligation id f obligations) id' =
      (findObligation obligations id').map fun item => if id' = id then f item else item := by
  induction obligations with
  | nil => rfl
  | cons item items ih =>
    unfold findObligation at ih ⊢
    unfold updateObligation
    by_cases hitem : item.obligationId = id'
    · by_cases hupdate : item.obligationId = id
      · have heq : id' = id := hitem.symm.trans hupdate
        rw [if_pos hupdate, List.find?_cons_of_pos (by simpa [hid] using hitem), List.find?_cons_of_pos (by simpa using hitem)]
        simp [heq]
      · have hne : ¬ id' = id := fun heq => hupdate (hitem.trans heq)
        rw [if_neg hupdate, List.find?_cons_of_pos (by simpa using hitem), List.find?_cons_of_pos (by simpa using hitem)]
        simp [hne]
    · by_cases hupdate : item.obligationId = id
      · have hne : ¬ id' = id := fun heq => hitem (hupdate.trans heq.symm)
        rw [if_pos hupdate, List.find?_cons_of_neg (by simpa [hid] using hitem), List.find?_cons_of_neg (by simpa using hitem)]
        simp [hne]
      · rw [if_neg hupdate, List.find?_cons_of_neg (by simpa using hitem), List.find?_cons_of_neg (by simpa using hitem), ih]

theorem findObligation_append (obligations : List ProofObligation) (item : ProofObligation) (id : String) :
    findObligation (obligations ++ [item]) id =
      (findObligation obligations id).or (if item.obligationId = id then some item else none) := by
  unfold findObligation
  rw [List.find?_append, List.find?_singleton]
  simp only [decide_eq_true_eq]

theorem findObligation_eq_some {obligations : List ProofObligation} {id : String} {item : ProofObligation}
    (h : findObligation obligations id = some item) : item ∈ obligations ∧ item.obligationId = id :=
  ⟨List.mem_of_find?_eq_some h, by simpa using List.find?_some h⟩

theorem findObligation_eq_none {obligations : List ProofObligation} {id : String} :
    findObligation obligations id = none ↔ id ∉ obligations.map (·.obligationId) := by
  unfold findObligation
  rw [List.find?_eq_none, List.mem_map]
  simp

/-- A field that an update keeps. -/
theorem map_updateObligation {β : Type} {g : ProofObligation → β} {f : ProofObligation → ProofObligation}
    (hg : ∀ item, g (f item) = g item) (id : String) (obligations : List ProofObligation) :
    (updateObligation id f obligations).map g = obligations.map g := by
  induction obligations with
  | nil => rfl
  | cons item items ih =>
    unfold updateObligation
    split
    · rw [List.map_cons, List.map_cons, hg]
    · rw [List.map_cons, List.map_cons, ih]

/-- An update that leaves the obligation as it is. -/
theorem updateObligation_self {f : ProofObligation → ProofObligation} {id : String} {obligations : List ProofObligation}
    {item : ProofObligation} (hfind : findObligation obligations id = some item) (hf : f item = item) :
    updateObligation id f obligations = obligations := by
  induction obligations with
  | nil => rfl
  | cons first items ih =>
    unfold findObligation at ih hfind
    unfold updateObligation
    by_cases hfirst : first.obligationId = id
    · rw [List.find?_cons_of_pos (by simpa using hfirst)] at hfind
      obtain rfl := Option.some.inj hfind
      rw [if_pos hfirst, hf]
    · rw [List.find?_cons_of_neg (by simpa using hfirst)] at hfind
      rw [if_neg hfirst, ih hfind]

/-! ### What the call does to the obligations -/

theorem formalizeParent_obligationId (formalization : FormalizationBundle) (parent : ProofObligation) :
    (formalizeParent formalization parent).obligationId = parent.obligationId := by
  unfold formalizeParent
  split <;> rfl

theorem formalizeParent_parentId (formalization : FormalizationBundle) (parent : ProofObligation) :
    (formalizeParent formalization parent).parentId = parent.parentId := by
  unfold formalizeParent
  split <;> rfl

theorem formalizeParent_decompositionCertificateHash (formalization : FormalizationBundle) (parent : ProofObligation) :
    (formalizeParent formalization parent).decompositionCertificateHash = parent.decompositionCertificateHash := by
  unfold formalizeParent
  split <;> rfl

theorem formalizeParent_formalStatus (formalization : FormalizationBundle) (parent : ProofObligation) :
    (formalizeParent formalization parent).formalStatus ≠ "UNFORMALIZED" := by
  unfold formalizeParent
  split
  · show "FORMALIZED" ≠ "UNFORMALIZED"
    decide
  · assumption

theorem formalizeParent_self {formalization : FormalizationBundle} {parent : ProofObligation}
    (h : parent.formalStatus ≠ "UNFORMALIZED") : formalizeParent formalization parent = parent := by
  unfold formalizeParent
  rw [if_neg h]

theorem childId_ne (targetId : String) (result : DecompositionCertificateResult) : childId targetId result ≠ targetId := by
  intro h
  have hlength := congrArg String.length h
  unfold childId at hlength
  rw [String.length_append, String.length_append] at hlength
  have hdash : "-".length = 1 := rfl
  omega

/-! ### The checks of the ledger -/

/-- The checks read the ids and parents of the obligations only. -/
theorem Accepted.congr {ledger ledger' : ProofObligationLedger} (h : Accepted ledger)
    (hschema : ledger'.schemaVersion = ledger.schemaVersion) (hledgerId : ledger'.ledgerId = ledger.ledgerId)
    (hlessons : ledger'.noGoLessons = ledger.noGoLessons)
    (hlinks : ledger'.obligations.map (fun item => (item.obligationId, item.parentId)) =
      ledger.obligations.map fun item => (item.obligationId, item.parentId)) : Accepted ledger' := by
  have hids : ledger'.obligations.map (·.obligationId) = ledger.obligations.map (·.obligationId) := by
    have hfst := congrArg (List.map Prod.fst) hlinks
    rwa [List.map_map, List.map_map] at hfst
  refine ⟨hschema ▸ h.schema, hledgerId ▸ h.ledgerId, fun hnil => h.nonempty ?_, ?_, hlessons ▸ h.claims, fun item hmem => ?_⟩
  · rw [hnil] at hlinks
    exact List.map_eq_nil_iff.mp hlinks.symm
  · unfold DistinctIds
    rw [hids]
    exact h.distinct
  · have hlink : (item.obligationId, item.parentId) ∈ ledger.obligations.map fun item => (item.obligationId, item.parentId) :=
      hlinks ▸ List.mem_map_of_mem hmem
    obtain ⟨item₀, hmem₀, hlink₀⟩ := List.mem_map.mp hlink
    obtain ⟨hid, hparent⟩ := Prod.mk.inj hlink₀
    unfold ParentOk
    rw [hids, ← hid, ← hparent]
    exact h.parents item₀ hmem₀

/-- A new obligation below another one. -/
theorem Accepted.append {ledger : ProofObligationLedger} (h : Accepted ledger) {item : ProofObligation}
    (hnew : item.obligationId ∉ ledger.obligations.map (·.obligationId))
    (hparent : item.parentId ∈ ledger.obligations.map (·.obligationId)) (hne : item.parentId ≠ item.obligationId) :
    Accepted { ledger with obligations := ledger.obligations ++ [item] } := by
  refine ⟨h.schema, h.ledgerId, List.append_ne_nil_of_left_ne_nil h.nonempty _, ?_, h.claims, fun item' hmem hhas => ?_⟩
  · unfold DistinctIds
    rw [List.map_append, List.map_singleton, List.nodup_append]
    refine ⟨h.distinct, List.nodup_singleton _, fun id hid id' hid' heq => hnew ?_⟩
    rw [← List.mem_singleton.mp hid', ← heq]
    exact hid
  · show item'.parentId ∈ (ledger.obligations ++ [item]).map (·.obligationId) ∧ _
    rw [List.map_append]
    rcases List.mem_append.mp hmem with hmem | hmem
    · have hok := h.parents item' hmem hhas
      exact ⟨List.mem_append_left _ hok.1, hok.2⟩
    · rw [List.mem_singleton.mp hmem]
      exact ⟨List.mem_append_left _ hparent, hne⟩

theorem Accepted.formalized {ledger : ProofObligationLedger} (h : Accepted ledger) (targetId : String)
    (formalization : FormalizationBundle) : Accepted (ledger.update targetId (formalizeParent formalization)) :=
  h.congr rfl rfl rfl (map_updateObligation (fun item => by
    rw [formalizeParent_obligationId, formalizeParent_parentId]) _ _)

theorem Accepted.committed {ledger : ProofObligationLedger} (h : Accepted ledger) {targetId : String}
    (result : DecompositionCertificateResult) {item : ProofObligation}
    (hnew : item.obligationId ∉ ledger.obligations.map (·.obligationId))
    (htarget : targetId ∈ ledger.obligations.map (·.obligationId)) (hparent : item.parentId = targetId) :
    Accepted (ledger.commit targetId result item) := by
  have happend : Accepted { ledger with obligations := ledger.obligations ++ [item] } := by
    refine h.append hnew (hparent ▸ htarget) fun heq => hnew ?_
    rw [← heq, hparent]
    exact htarget
  exact happend.congr rfl rfl rfl (map_updateObligation (f := certifyParent result) (fun _ => rfl) _ _)

/-! ### What is committed -/

/-- The result is in the ledger: its target is formalised, and its child has the hash of the certificate. -/
structure Settled (ledger : ProofObligationLedger) (targetId : String) (result : DecompositionCertificateResult) : Prop where
  target : ∃ parent, findObligation ledger.obligations targetId = some parent ∧ parent.formalStatus ≠ "UNFORMALIZED"
  signature : ∃ hash, result.validation.childSignatureHashes.get? result.child.label = some hash
  child : ∃ item, findObligation ledger.obligations (childId targetId result) = some item ∧
    item.decompositionCertificateHash = result.certificateHash

/-- A result that is in the ledger gives its child again and changes nothing. -/
theorem Settled.replay {ledger : ProofObligationLedger} {targetId : String} {result : DecompositionCertificateResult}
    (h : Settled ledger targetId result) (hverified : result.verified = true) (runId : String) :
    ∃ item, findObligation ledger.obligations (childId targetId result) = some item ∧
      persistVerifiedDecomposition ledger targetId result runId = (.ok [item], ledger) := by
  obtain ⟨parent, hparent, hformal⟩ := h.target
  obtain ⟨hash, hhash⟩ := h.signature
  obtain ⟨item, hitem, hcertificate⟩ := h.child
  have hself : ledger.update targetId (formalizeParent result.formalizer) = ledger := by
    unfold ProofObligationLedger.update
    rw [updateObligation_self hparent (formalizeParent_self hformal)]
  refine ⟨item, hitem, ?_⟩
  unfold persistVerifiedDecomposition
  rw [if_neg (by rw [hverified]; decide), hparent]
  dsimp only
  rw [hhash, hself]
  dsimp only
  have hfound : findObligation ledger.obligations (certifiedChild targetId result runId hash).obligationId = some item := hitem
  rw [hfound]
  dsimp only
  rw [if_neg (not_not.mpr hcertificate)]

/-- What a change of the ledger keeps of its obligations: they stay formalised, and those other than the `changed` ones keep
the hash of their certificate. -/
def Stays (ledger ledger' : ProofObligationLedger) (changed : String → Prop) : Prop :=
  ∀ id item, findObligation ledger.obligations id = some item →
    ∃ item', findObligation ledger'.obligations id = some item' ∧
      (item.formalStatus ≠ "UNFORMALIZED" → item'.formalStatus ≠ "UNFORMALIZED") ∧
      (¬ changed id → item'.decompositionCertificateHash = item.decompositionCertificateHash)

theorem Settled.stays {ledger ledger' : ProofObligationLedger} {targetId : String} {result : DecompositionCertificateResult}
    {changed : String → Prop} (h : Settled ledger targetId result) (hstays : Stays ledger ledger' changed)
    (hchild : ∀ item, findObligation ledger'.obligations (childId targetId result) = some item →
      changed (childId targetId result) → item.decompositionCertificateHash = result.certificateHash) :
    Settled ledger' targetId result := by
  obtain ⟨parent, hparent, hformal⟩ := h.target
  obtain ⟨item, hitem, hcertificate⟩ := h.child
  obtain ⟨parent', hparent', hformal', -⟩ := hstays _ _ hparent
  obtain ⟨item', hitem', -, hsame⟩ := hstays _ _ hitem
  refine ⟨⟨parent', hparent', hformal' hformal⟩, h.signature, item', hitem', ?_⟩
  by_cases hchanged : changed (childId targetId result)
  · exact hchild item' hitem' hchanged
  · rw [hsame hchanged, hcertificate]

theorem stays_formalized (ledger : ProofObligationLedger) (targetId : String) (formalization : FormalizationBundle) :
    Stays ledger (ledger.update targetId (formalizeParent formalization)) fun _ => False := by
  intro id item hitem
  have hfind := findObligation_update (formalizeParent_obligationId formalization) ledger.obligations targetId id
  rw [hitem] at hfind
  refine ⟨_, hfind, ?_⟩
  dsimp only
  split
  · exact ⟨fun _ => formalizeParent_formalStatus _ _, fun _ => formalizeParent_decompositionCertificateHash _ _⟩
  · exact ⟨fun hformal => hformal, fun _ => rfl⟩

theorem findObligation_commit (ledger : ProofObligationLedger) (targetId : String) (result : DecompositionCertificateResult)
    (item : ProofObligation) (id : String) :
    findObligation (ledger.commit targetId result item).obligations id =
      ((findObligation ledger.obligations id).or (if item.obligationId = id then some item else none)).map
        fun item => if id = targetId then certifyParent result item else item := by
  have hfind := findObligation_update (f := certifyParent result) (fun _ => rfl) (ledger.obligations ++ [item]) targetId id
  rw [findObligation_append] at hfind
  exact hfind

theorem stays_commit (ledger : ProofObligationLedger) (targetId : String) (result : DecompositionCertificateResult)
    (item : ProofObligation) : Stays ledger (ledger.commit targetId result item) (· = targetId) := by
  intro id item₀ hitem₀
  have hfind := findObligation_commit ledger targetId result item id
  rw [hitem₀, Option.some_or, Option.map_some] at hfind
  refine ⟨_, hfind, ?_⟩
  dsimp only
  split
  · rename_i hid
    exact ⟨fun hformal => hformal, fun hne => absurd hid hne⟩
  · exact ⟨fun hformal => hformal, fun _ => rfl⟩

/-! ### Runs -/

/-- A command on the ledger: a commit, saving and reloading, and anything else that changes the ledger. -/
inductive LedgerCommand
  | persist (targetId : String) (result : DecompositionCertificateResult) (runId : String)
  | reload
  | other (change : ProofObligationLedger → ProofObligationLedger)

/-- A result that was applied, with the ids of what was returned. -/
structure AppliedResult where
  targetId : String
  result : DecompositionCertificateResult
  returned : List String

/-- The ledger, with the results that were applied. -/
structure CommitState where
  ledger : ProofObligationLedger
  applied : List AppliedResult

def commitStep (s : CommitState) : LedgerCommand → Except String (List ProofObligation) × CommitState
  | .persist targetId result runId =>
    match persistVerifiedDecomposition s.ledger targetId result runId with
    | (.ok items, ledger) => (.ok items, ⟨ledger, ⟨targetId, result, items.map (·.obligationId)⟩ :: s.applied⟩)
    | (.error e, ledger) => (.error e, { s with ledger := ledger })
  | .reload =>
    match loadProofLedger (some (saveProofLedger s.ledger)) with
    | .ok (some ledger) => (.ok [], { s with ledger := ledger })
    | .ok none => (.ok [], s)
    | .error e => (.error e, s)
  | .other change => (.ok [], { s with ledger := change s.ledger })

/-- The call finds the target and adds a child to it. -/
def AddsChild (ledger : ProofObligationLedger) (targetId : String) (result : DecompositionCertificateResult) : Prop :=
  (result.validation.childSignatureHashes.get? result.child.label).isSome = true ∧
    findObligation ledger.obligations (childId targetId result) = none

/-- Nothing stands in the way of the result: its child has a signature, and no obligation with another certificate has the
child's id. -/
def Unopposed (ledger : ProofObligationLedger) (targetId : String) (result : DecompositionCertificateResult) : Prop :=
  (result.validation.childSignatureHashes.get? result.child.label).isSome = true ∧
    ∀ existing, findObligation ledger.obligations (childId targetId result) = some existing →
      existing.decompositionCertificateHash = result.certificateHash

/-- The commands that keep what is committed.  A commit to a target that is not formalised yet is unopposed, and none adds a
child to the child of a result that was applied and has another certificate.  Other commands leave a ledger that is
accepted, with the obligations it had, formalised ones still formalised and with the same certificates. -/
def KeepsCommitted (s : CommitState) : LedgerCommand → Prop
  | .persist targetId result _ => result.verified = true → ∀ parent, findObligation s.ledger.obligations targetId = some parent →
      (parent.formalStatus = "UNFORMALIZED" → Unopposed s.ledger targetId result) ∧
        (AddsChild s.ledger targetId result → ∀ a ∈ s.applied, a.result.verified = true →
          childId a.targetId a.result = targetId → a.result.certificateHash = result.certificateHash)
  | .reload => True
  | .other change => Accepted (change s.ledger) ∧ Stays s.ledger (change s.ledger) fun _ => False

/-- An applied result is in the ledger, if it was verified. -/
def AppliedSettled (ledger : ProofObligationLedger) (a : AppliedResult) : Prop :=
  (a.result.verified = true → Settled ledger a.targetId a.result) ∧
    a.returned = if a.result.verified = true then [childId a.targetId a.result] else []

structure CommitInv (s : CommitState) : Prop where
  accepted : Accepted s.ledger
  applied : ∀ a ∈ s.applied, AppliedSettled s.ledger a

/-- Everything that was applied is applied again without a change. -/
theorem AppliedSettled.replay {ledger : ProofObligationLedger} {a : AppliedResult} (h : AppliedSettled ledger a)
    (runId : String) : ∃ items, persistVerifiedDecomposition ledger a.targetId a.result runId = (.ok items, ledger) ∧
      items.map (·.obligationId) = a.returned := by
  rw [h.2]
  by_cases hverified : a.result.verified = true
  · obtain ⟨item, hitem, hreplay⟩ := (h.1 hverified).replay hverified runId
    refine ⟨[item], hreplay, ?_⟩
    rw [if_pos hverified, List.map_singleton, (findObligation_eq_some hitem).2]
  · refine ⟨[], ?_, ?_⟩
    · unfold persistVerifiedDecomposition
      rw [if_pos (by simpa using hverified)]
    · rw [if_neg hverified, List.map_nil]

theorem AppliedSettled.stays {ledger ledger' : ProofObligationLedger} {a : AppliedResult} (h : AppliedSettled ledger a)
    (hstays : Stays ledger ledger' fun _ => False) : AppliedSettled ledger' a :=
  ⟨fun hverified => (h.1 hverified).stays hstays fun _ _ hfalse => hfalse.elim, h.2⟩

theorem commitStep_reload {s : CommitState} (h : Accepted s.ledger) : commitStep s .reload = (.ok [], s) := by
  unfold commitStep
  dsimp only
  rw [(loadProofLedger_save_iff s.ledger).mpr h]

/-- What a commit can do: nothing, with an unverified result or without the target; to formalise the target and raise, or
find the child; and to add the child. -/
theorem persist_cases (ledger : ProofObligationLedger) (targetId : String) (result : DecompositionCertificateResult)
    (runId : String) :
    (result.verified = false ∧ persistVerifiedDecomposition ledger targetId result runId = (.ok [], ledger)) ∨
    (findObligation ledger.obligations targetId = none ∧
      persistVerifiedDecomposition ledger targetId result runId = (.error "StopIteration", ledger)) ∨
    ∃ parent, result.verified = true ∧ findObligation ledger.obligations targetId = some parent ∧
      ((∃ e, ¬ Unopposed ledger targetId result ∧
          persistVerifiedDecomposition ledger targetId result runId =
            (.error e, ledger.update targetId (formalizeParent result.formalizer))) ∨
        (∃ hash item, result.validation.childSignatureHashes.get? result.child.label = some hash ∧
          findObligation (ledger.update targetId (formalizeParent result.formalizer)).obligations (childId targetId result) =
            some item ∧ item.decompositionCertificateHash = result.certificateHash ∧
          persistVerifiedDecomposition ledger targetId result runId =
            (.ok [item], ledger.update targetId (formalizeParent result.formalizer))) ∨
        ∃ hash, result.validation.childSignatureHashes.get? result.child.label = some hash ∧
          findObligation ledger.obligations (childId targetId result) = none ∧
          persistVerifiedDecomposition ledger targetId result runId =
            (.ok [certifiedChild targetId result runId hash],
              (ledger.update targetId (formalizeParent result.formalizer)).commit targetId result
                (certifiedChild targetId result runId hash))) := by
  have hfind : findObligation (ledger.update targetId (formalizeParent result.formalizer)).obligations
      (childId targetId result) = findObligation ledger.obligations (childId targetId result) := by
    refine (findObligation_update (formalizeParent_obligationId result.formalizer) ledger.obligations targetId _).trans ?_
    simp only [if_neg (childId_ne targetId result), Option.map_id']
  by_cases hverified : result.verified = false
  · left
    refine ⟨hverified, ?_⟩
    unfold persistVerifiedDecomposition
    rw [if_pos hverified]
  right
  cases hparent : findObligation ledger.obligations targetId with
  | none =>
    left
    refine ⟨rfl, ?_⟩
    unfold persistVerifiedDecomposition
    rw [if_neg hverified, hparent]
  | some parent =>
    right
    refine ⟨parent, by simpa using hverified, rfl, ?_⟩
    unfold persistVerifiedDecomposition
    rw [if_neg hverified, hparent]
    dsimp only
    cases hhash : result.validation.childSignatureHashes.get? result.child.label with
    | none =>
      left
      refine ⟨"KeyError", fun hunopposed => ?_, rfl⟩
      have hsome := hunopposed.1
      rw [hhash] at hsome
      cases hsome
    | some hash =>
      dsimp only
      have hid : (certifiedChild targetId result runId hash).obligationId = childId targetId result := rfl
      rw [hid, hfind]
      cases hexisting : findObligation ledger.obligations (childId targetId result) with
      | none =>
        right; right
        exact ⟨hash, rfl, rfl, rfl⟩
      | some existing =>
        dsimp only
        by_cases hcertificate : existing.decompositionCertificateHash = result.certificateHash
        · right; left
          refine ⟨hash, existing, rfl, rfl, hcertificate, ?_⟩
          rw [if_neg (not_not.mpr hcertificate)]
        · left
          refine ⟨"child ID collision with another certificate",
            fun hunopposed => hcertificate (hunopposed.2 existing hexisting), ?_⟩
          rw [if_pos hcertificate]

/-- A call that raises leaves the ledger as it was. -/
theorem commitStep_error {s : CommitState} (hinv : CommitInv s) {command : LedgerCommand} (hkeeps : KeepsCommitted s command)
    {e : String} (h : (commitStep s command).1 = .error e) : (commitStep s command).2 = s := by
  cases command with
  | reload =>
    rw [commitStep_reload hinv.accepted] at h ⊢
  | other change => cases h
  | persist targetId result runId =>
    unfold commitStep at h ⊢
    dsimp only at h ⊢
    rcases persist_cases s.ledger targetId result runId with ⟨-, hcall⟩ | ⟨-, hcall⟩ | ⟨parent, hverified, hparent, hcase⟩
    · rw [hcall] at h
      cases h
    · rw [hcall]
    rcases hcase with ⟨e', hopposed, hcall⟩ | ⟨hash, item, -, -, -, hcall⟩ | ⟨hash, -, -, hcall⟩
    · -- the target is formalised, so formalising it changes nothing
      have hformal : parent.formalStatus ≠ "UNFORMALIZED" := fun hunformalized =>
        hopposed ((hkeeps hverified parent hparent).1 hunformalized)
      rw [hcall]
      unfold ProofObligationLedger.update
      rw [updateObligation_self hparent (formalizeParent_self hformal)]
    · rw [hcall] at h
      cases h
    · rw [hcall] at h
      cases h

/-- The formalised target. -/
theorem findObligation_formalized {ledger : ProofObligationLedger} {targetId : String} {parent : ProofObligation}
    (h : findObligation ledger.obligations targetId = some parent) (formalization : FormalizationBundle) :
    findObligation (ledger.update targetId (formalizeParent formalization)).obligations targetId =
      some (formalizeParent formalization parent) := by
  refine (findObligation_update (formalizeParent_obligationId formalization) ledger.obligations targetId targetId).trans ?_
  rw [h, Option.map_some, if_pos rfl]

/-- Adding a child keeps what is settled, unless it overwrites the hash of another certificate. -/
theorem AppliedSettled.commit {ledger : ProofObligationLedger} {a : AppliedResult} (h : AppliedSettled ledger a)
    {targetId : String} {result : DecompositionCertificateResult} {parent : ProofObligation}
    (htarget : findObligation ledger.obligations targetId = some parent) (item : ProofObligation)
    (hsame : a.result.verified = true → childId a.targetId a.result = targetId →
      a.result.certificateHash = result.certificateHash) : AppliedSettled (ledger.commit targetId result item) a := by
  refine ⟨fun hverified => (h.1 hverified).stays (stays_commit ledger targetId result item) ?_, h.2⟩
  intro item' hitem' hchild
  have hfind := findObligation_commit ledger targetId result item targetId
  rw [hchild] at hitem'
  rw [htarget, Option.some_or, Option.map_some, if_pos rfl, hitem'] at hfind
  rw [hsame hverified hchild, Option.some.inj hfind]
  rfl

theorem CommitInv.step {s : CommitState} (hinv : CommitInv s) {command : LedgerCommand} (hkeeps : KeepsCommitted s command) :
    CommitInv (commitStep s command).2 := by
  cases command with
  | reload =>
    rw [commitStep_reload hinv.accepted]
    exact hinv
  | other change => exact ⟨hkeeps.1, fun a ha => (hinv.applied a ha).stays hkeeps.2⟩
  | persist targetId result runId =>
    cases hraises : (commitStep s (.persist targetId result runId)).1 with
    | error e =>
      rw [commitStep_error hinv hkeeps hraises]
      exact hinv
    | ok items =>
      unfold commitStep at hraises ⊢
      dsimp only at hraises ⊢
      rcases persist_cases s.ledger targetId result runId with
        ⟨hverified, hcall⟩ | ⟨-, hcall⟩ | ⟨parent, hverified, hparent, hcase⟩
      · rw [hcall]
        refine ⟨hinv.accepted, List.forall_mem_cons.mpr ⟨⟨fun htrue => ?_, ?_⟩, hinv.applied⟩⟩
        · rw [hverified] at htrue
          cases htrue
        · rw [if_neg (by rw [hverified]; decide)]
          rfl
      · rw [hcall] at hraises
        cases hraises
      have hstays := stays_formalized s.ledger targetId result.formalizer
      have hformalized := findObligation_formalized hparent result.formalizer
      rcases hcase with ⟨e', -, hcall⟩ | ⟨hash, item, hhash, hitem, hcertificate, hcall⟩ | ⟨hash, hhash, hnew, hcall⟩
      · rw [hcall] at hraises
        cases hraises
      · rw [hcall]
        refine ⟨hinv.accepted.formalized targetId _, List.forall_mem_cons.mpr ⟨⟨fun _ => ?_, ?_⟩, fun a ha => ?_⟩⟩
        · exact ⟨⟨_, hformalized, formalizeParent_formalStatus _ _⟩, ⟨hash, hhash⟩, item, hitem, hcertificate⟩
        · rw [if_pos hverified, List.map_singleton, (findObligation_eq_some hitem).2]
        · exact (hinv.applied a ha).stays hstays
      · rw [hcall]
        set formalized := s.ledger.update targetId (formalizeParent result.formalizer) with hledger
        set item := certifiedChild targetId result runId hash with hitem
        have hids : formalized.obligations.map (·.obligationId) = s.ledger.obligations.map (·.obligationId) :=
          map_updateObligation (formalizeParent_obligationId result.formalizer) _ _
        have hfresh : findObligation formalized.obligations (childId targetId result) = none := by
          rw [findObligation_eq_none, hids, ← findObligation_eq_none]
          exact hnew
        have htarget : targetId ∈ formalized.obligations.map (·.obligationId) := by
          obtain ⟨hmem, hid⟩ := findObligation_eq_some hformalized
          exact hid ▸ List.mem_map_of_mem hmem
        have hparent' := findObligation_commit formalized targetId result item targetId
        rw [hformalized, Option.some_or, Option.map_some, if_pos rfl] at hparent'
        have hchild := findObligation_commit formalized targetId result item (childId targetId result)
        rw [hfresh, Option.none_or, if_pos (show item.obligationId = childId targetId result from rfl), Option.map_some,
          if_neg (childId_ne targetId result)] at hchild
        refine ⟨(hinv.accepted.formalized targetId _).committed result (findObligation_eq_none.mp hfresh) htarget rfl,
          List.forall_mem_cons.mpr ⟨⟨fun _ => ?_, ?_⟩, fun a ha => ?_⟩⟩
        · exact ⟨⟨_, hparent', formalizeParent_formalStatus _ parent⟩, ⟨hash, hhash⟩, item, hchild, rfl⟩
        · rw [if_pos hverified, List.map_singleton]
          rfl
        · refine ((hinv.applied a ha).stays hstays).commit hformalized item ?_
          exact (hkeeps hverified parent hparent).2 ⟨by rw [hhash]; rfl, hnew⟩ a ha

/-- In the runs that keep what is committed, the ledger is always loaded from its own file with the same contents, every
result that was applied gives the same child again and changes nothing, and a call that raises leaves the ledger. -/
theorem committed_of_run {file : Option PyValue} {ledger : ProofObligationLedger}
    (hload : loadProofLedger file = .ok (some ledger)) {commands : List LedgerCommand}
    (hkeeps : Machine.AllSteps commitStep KeepsCommitted ⟨ledger, []⟩ commands) :
    let s := Machine.final commitStep ⟨ledger, []⟩ commands
    loadProofLedger (some (saveProofLedger s.ledger)) = .ok (some s.ledger) ∧
      (∀ a ∈ s.applied, ∀ runId, ∃ items, persistVerifiedDecomposition s.ledger a.targetId a.result runId = (.ok items, s.ledger) ∧
        items.map (·.obligationId) = a.returned) ∧
      Machine.AllSteps commitStep (fun s command => ∀ e, (commitStep s command).1 = .error e → (commitStep s command).2 = s)
        ⟨ledger, []⟩ commands := by
  have hstart : CommitInv ⟨ledger, []⟩ := ⟨accepted_of_load hload, fun _ ha => (List.not_mem_nil ha).elim⟩
  have hinv : CommitInv (Machine.final commitStep ⟨ledger, []⟩ commands) :=
    Machine.final_of_steps (fun _ _ hinv hkeeps => hinv.step hkeeps) hstart hkeeps
  refine ⟨(loadProofLedger_save_iff _).mpr hinv.accepted, fun a ha runId => (hinv.applied a ha).replay runId, ?_⟩
  exact (hkeeps.and_of_steps (fun _ _ hinv hkeeps => hinv.step hkeeps) hstart).mono fun s command hstep e herror => commitStep_error hstep.1 hstep.2 herror

/-! ### A child that is decomposed itself -/

def rootLedger : ProofObligationLedger where
  ledgerId := "L"
  obligations := [{ obligationId := "R", statement := "the goal" }]

/-- A verified result with the hash. -/
def certificate (hash : String) : DecompositionCertificateResult where
  verified := true
  child := ⟨"C1", "a lemma"⟩
  formalizer := ⟨"theorem goal : True := by", "h", "theorem lemma1 : True := by"⟩
  roleRunIds := Dict.empty
  validation := ⟨Dict.ofEntries [("C1", "h1")], "p"⟩
  certificateHash := hash

/-- The root is decomposed, and then its child. -/
def redecomposedLedger : ProofObligationLedger :=
  (persistVerifiedDecomposition (persistVerifiedDecomposition rootLedger "R" (certificate "first") "run").2
    (childId "R" (certificate "first")) (certificate "second") "run").2

/-- A ledger in which another obligation has the id of the child. -/
def collidingLedger : ProofObligationLedger :=
  { rootLedger with
    obligations := rootLedger.obligations ++
      [{ obligationId := childId "R" (certificate "first"), statement := "another lemma", parentId := "R" }] }

/-- The error that a call raises. -/
def errorOf (out : Except String (List ProofObligation) × ProofObligationLedger) : Option String :=
  match out.1 with
  | .error e => some e
  | .ok _ => none

def formalStatusOf (ledger : ProofObligationLedger) (id : String) : Option String :=
  (findObligation ledger.obligations id).map (·.formalStatus)

/-- When a child has been decomposed itself, its result is applied again with an error; and a call that raises has
formalised its target. -/
theorem redecomposed_not_replayed :
    (Accepted rootLedger ∧
      errorOf (persistVerifiedDecomposition rootLedger "R" (certificate "first") "run") = none ∧
      errorOf (persistVerifiedDecomposition redecomposedLedger "R" (certificate "first") "again") =
        some "child ID collision with another certificate") ∧
    Accepted collidingLedger ∧
      errorOf (persistVerifiedDecomposition collidingLedger "R" (certificate "first") "run") =
        some "child ID collision with another certificate" ∧
      formalStatusOf collidingLedger "R" = some "UNFORMALIZED" ∧
      formalStatusOf (persistVerifiedDecomposition collidingLedger "R" (certificate "first") "run").2 "R" =
        some "FORMALIZED" := by
  decide +kernel

theorem keeps_rootLedger : Machine.AllSteps commitStep KeepsCommitted ⟨rootLedger, []⟩
    [.persist "R" (certificate "first") "run", .reload] := by
  refine ⟨fun _ parent _ => ⟨fun _ => ⟨rfl, fun existing hexisting => ?_⟩, fun _ a ha => (List.not_mem_nil ha).elim⟩,
    trivial, trivial⟩
  obtain ⟨hmem, hid⟩ := findObligation_eq_some hexisting
  obtain rfl := List.mem_singleton.mp hmem
  exact absurd hid.symm (childId_ne "R" (certificate "first"))

theorem committed_rootLedger :
    loadProofLedger (some (saveProofLedger
        (Machine.final commitStep ⟨rootLedger, []⟩ [.persist "R" (certificate "first") "run", .reload]).ledger)) =
      .ok (some (Machine.final commitStep ⟨rootLedger, []⟩ [.persist "R" (certificate "first") "run", .reload]).ledger) :=
  (committed_of_run ((loadProofLedger_save_iff rootLedger).mpr (by decide)) keeps_rootLedger).1

end Ledger

end KakeyaEngine
