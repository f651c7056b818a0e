import KakeyaEngine.Ledger.Obligations
import KakeyaEngine.Lib.RecordCodec

/-!
# The file of a ledger

A ledger is written with all the fields of its obligations and lessons, and is loaded back by keyword.  A file is kept as the
value that its text stands for.  What is written is read as it was (`readLedger_save`), so a ledger is loaded from its own file
if and only if it passes the checks (`loadProofLedger_save_iff`).
-/

namespace KakeyaEngine

namespace Ledger

open RecordCodec

/-! ### The fields -/

def obligationFields : List (RecordField ProofObligation) := [
  text "obligation_id" (·.obligationId) fun x item => { item with obligationId := x },
  text "statement" (·.statement) fun x item => { item with statement := x },
  text "status" (·.status) fun x item => { item with status := x },
  text "parent_id" (·.parentId) fun x item => { item with parentId := x },
  text "last_run_id" (·.lastRunId) fun x item => { item with lastRunId := x },
  text "last_evidence" (·.lastEvidence) fun x item => { item with lastEvidence := x },
  text "formal_status" (·.formalStatus) fun x item => { item with formalStatus := x },
  text "lean_signature" (·.leanSignature) fun x item => { item with leanSignature := x },
  text "lean_signature_hash" (·.leanSignatureHash) fun x item => { item with leanSignatureHash := x },
  text "formalization_error" (·.formalizationError) fun x item => { item with formalizationError := x },
  text "invalidation_kind" (·.invalidationKind) fun x item => { item with invalidationKind := x },
  text "quarantine_reason" (·.quarantineReason) fun x item => { item with quarantineReason := x },
  text "quarantine_root_id" (·.quarantineRootId) fun x item => { item with quarantineRootId := x },
  text "quarantine_run_id" (·.quarantineRunId) fun x item => { item with quarantineRunId := x },
  text "quarantine_prior_status" (·.quarantinePriorStatus) fun x item => { item with quarantinePriorStatus := x },
  float "quarantine_confidence" (·.quarantineConfidence) fun x item => { item with quarantineConfidence := x },
  text "quarantine_evidence_type" (·.quarantineEvidenceType) fun x item => { item with quarantineEvidenceType := x },
  text "quarantine_evidence_source" (·.quarantineEvidenceSource) fun x item =>
    { item with quarantineEvidenceSource := x },
  text "quarantine_auditor_run_id" (·.quarantineAuditorRunId) fun x item => { item with quarantineAuditorRunId := x },
  text "quarantine_proponent_run_id" (·.quarantineProponentRunId) fun x item =>
    { item with quarantineProponentRunId := x },
  text "quarantine_reversible_status" (·.quarantineReversibleStatus) fun x item =>
    { item with quarantineReversibleStatus := x },
  text "premise_review_status" (·.premiseReviewStatus) fun x item => { item with premiseReviewStatus := x },
  text "temporary_quarantine_reason" (·.temporaryQuarantineReason) fun x item =>
    { item with temporaryQuarantineReason := x },
  text "temporary_quarantine_root_id" (·.temporaryQuarantineRootId) fun x item =>
    { item with temporaryQuarantineRootId := x },
  text "temporary_quarantine_run_id" (·.temporaryQuarantineRunId) fun x item =>
    { item with temporaryQuarantineRunId := x },
  text "invalidation_prior_status" (·.invalidationPriorStatus) fun x item => { item with invalidationPriorStatus := x },
  float "premise_audit_confidence" (·.premiseAuditConfidence) fun x item => { item with premiseAuditConfidence := x },
  text "premise_audit_evidence_type" (·.premiseAuditEvidenceType) fun x item =>
    { item with premiseAuditEvidenceType := x },
  text "premise_audit_evidence_source" (·.premiseAuditEvidenceSource) fun x item =>
    { item with premiseAuditEvidenceSource := x },
  text "premise_auditor_run_id" (·.premiseAuditorRunId) fun x item => { item with premiseAuditorRunId := x },
  text "premise_proponent_run_id" (·.premiseProponentRunId) fun x item => { item with premiseProponentRunId := x },
  text "premise_review_reason" (·.premiseReviewReason) fun x item => { item with premiseReviewReason := x },
  text "decomposition_certificate_hash" (·.decompositionCertificateHash) fun x item =>
    { item with decompositionCertificateHash := x },
  text "reduction_theorem_hash" (·.reductionTheoremHash) fun x item => { item with reductionTheoremHash := x },
  text "reduction_theorem_status" (·.reductionTheoremStatus) fun x item => { item with reductionTheoremStatus := x },
  textMap "decomposition_role_run_ids" (·.decompositionRoleRunIds) fun x item =>
    { item with decompositionRoleRunIds := x },
  texts "dependency_labels" (·.dependencyLabels) fun x item => { item with dependencyLabels := x },
  texts "dependency_ids" (·.dependencyIds) fun x item => { item with dependencyIds := x },
  text "certificate_reversible_status" (·.certificateReversibleStatus) fun x item =>
    { item with certificateReversibleStatus := x },
  texts "public_assumptions" (·.publicAssumptions) fun x item => { item with publicAssumptions := x }]

def lessonFields : List (RecordField NoGoLesson) := [
  text "claim_hash" (·.claimHash) fun x lesson => { lesson with claimHash := x },
  text "refuted_premise" (·.refutedPremise) fun x lesson => { lesson with refutedPremise := x },
  text "evidence" (·.evidence) fun x lesson => { lesson with evidence := x },
  text "source_obligation_id" (·.sourceObligationId) fun x lesson => { lesson with sourceObligationId := x },
  text "run_id" (·.runId) fun x lesson => { lesson with runId := x },
  float "confidence" (·.confidence) fun x lesson => { lesson with confidence := x },
  text "evidence_type" (·.evidenceType) fun x lesson => { lesson with evidenceType := x },
  text "evidence_source" (·.evidenceSource) fun x lesson => { lesson with evidenceSource := x },
  text "auditor_run_id" (·.auditorRunId) fun x lesson => { lesson with auditorRunId := x },
  text "proponent_run_id" (·.proponentRunId) fun x lesson => { lesson with proponentRunId := x },
  text "reversible_status" (·.reversibleStatus) fun x lesson => { lesson with reversibleStatus := x }]

/-- The fields of a ledger beside its obligations and lessons. -/
def ledgerFields : List (RecordField ProofObligationLedger) := [
  text "ledger_id" (·.ledgerId) fun x ledger => { ledger with ledgerId := x },
  number "version" (·.version) fun x ledger => { ledger with version := x },
  number "schema_version" (·.schemaVersion) fun x ledger => { ledger with schemaVersion := x },
  text "backjump_target_id" (·.backjumpTargetId) fun x ledger => { ledger with backjumpTargetId := x }]

def requiredOfObligation : List String := ["obligation_id", "statement"]

def requiredOfLesson : List String :=
  ["claim_hash", "refuted_premise", "evidence", "source_obligation_id", "run_id"]

theorem obligationFields_keyed : Keyed obligationFields requiredOfObligation := ⟨by decide, by decide⟩

theorem lessonFields_keyed : Keyed lessonFields requiredOfLesson := ⟨by decide, by decide⟩

theorem ledgerFields_keyed : Keyed ledgerFields ["ledger_id"] := ⟨by decide, by decide⟩

/-! ### Saving and loading -/

/-- `asdict(ledger)`. -/
def ledgerEntries (ledger : ProofObligationLedger) : List (String × PyValue) := [
  ("ledger_id", .str ledger.ledgerId),
  ("obligations", .list (ledger.obligations.map fun item => .dict (asdict obligationFields item))),
  ("version", .int ledger.version),
  ("schema_version", .int ledger.schemaVersion),
  ("no_go_lessons", .list (ledger.noGoLessons.map fun lesson => .dict (asdict lessonFields lesson))),
  ("backjump_target_id", .str ledger.backjumpTargetId)]

/-- `save_proof_ledger`: the value that is written. -/
def saveProofLedger (ledger : ProofObligationLedger) : PyValue := .dict (ledgerEntries ledger)

/-- `ProofObligation(**item)`. -/
def readObligation (v : PyValue) : Option ProofObligation :=
  v.mapping?.bind (build obligationFields requiredOfObligation { obligationId := "", statement := "" })

/-- `NoGoLesson(**item)`. -/
def readLesson (v : PyValue) : Option NoGoLesson :=
  v.mapping?.bind (build lessonFields requiredOfLesson
    { claimHash := "", refutedPremise := "", evidence := "", sourceObligationId := "", runId := "" })

/-- `raw.pop("obligations", [])`, read. -/
def readObligations : Option PyValue → Option (List ProofObligation)
  | none => some []
  | some (.list items) => items.mapM readObligation
  | some _ => none

/-- `raw.pop("no_go_lessons", []) or []`, read. -/
def readLessons : Option PyValue → Option (List NoGoLesson)
  | none => some []
  | some (.list items) => items.mapM readLesson
  | some v => if v.truthy then none else some []

/-- The ledger of a value, without the checks. -/
def readLedger (raw : PyValue) : Option ProofObligationLedger :=
  raw.mapping?.bind fun entries =>
    (readObligations (entries.get? "obligations")).bind fun obligations =>
      (readLessons (entries.get? "no_go_lessons")).bind fun lessons =>
        build ledgerFields ["ledger_id"] { ledgerId := "", obligations := obligations, noGoLessons := lessons }
          ((entries.erase "obligations").erase "no_go_lessons")

/-- An obligation has no parent, or another obligation of the ledger. -/
def ParentOk (ledger : ProofObligationLedger) (item : ProofObligation) : Prop :=
  item.parentId ≠ "" →
    item.parentId ∈ ledger.obligations.map (·.obligationId) ∧ item.parentId ≠ item.obligationId

/-- The checks of a ledger that has been read. -/
structure Accepted (ledger : ProofObligationLedger) : Prop where
  schema : ledger.schemaVersion = 1
  ledgerId : ledger.ledgerId ≠ ""
  nonempty : ledger.obligations ≠ []
  distinct : DistinctIds ledger.obligations
  claims : (ledger.noGoLessons.map (·.claimHash)).Nodup
  parents : ∀ item ∈ ledger.obligations, ParentOk ledger item

instance (ledger : ProofObligationLedger) (item : ProofObligation) : Decidable (ParentOk ledger item) :=
  inferInstanceAs (Decidable (_ → _ ∧ _))

instance (ledger : ProofObligationLedger) : Decidable (Accepted ledger) :=
  have : Decidable (DistinctIds ledger.obligations) := inferInstanceAs (Decidable (List.Nodup _))
  decidable_of_iff (ledger.schemaVersion = 1 ∧ ledger.ledgerId ≠ "" ∧ ledger.obligations.isEmpty = false ∧
      DistinctIds ledger.obligations ∧ (ledger.noGoLessons.map (·.claimHash)).Nodup ∧
      ∀ item ∈ ledger.obligations, ParentOk ledger item)
    ⟨fun ⟨h₁, h₂, h₃, h₄, h₅, h₆⟩ => ⟨h₁, h₂, List.isEmpty_eq_false_iff.mp h₃, h₄, h₅, h₆⟩,
      fun h => ⟨h.schema, h.ledgerId, List.isEmpty_eq_false_iff.mpr h.nonempty, h.distinct, h.claims, h.parents⟩⟩

/-- `load_proof_ledger`, of a file that may not exist. -/
def loadProofLedger : Option PyValue → Except String (Option ProofObligationLedger)
  | none => .ok none
  | some raw =>
    match readLedger raw with
    | none => .error "TypeError"
    | some ledger => if Accepted ledger then .ok (some ledger) else .error "invalid proof obligation ledger"

theorem copies_obligation (item : ProofObligation) :
    obligationFields.foldl (fun acc f => f.copy item acc) { obligationId := "", statement := "" } = item := by
  unfold obligationFields
  simp only [List.foldl_cons, List.foldl_nil, text, float, texts, textMap]

theorem copies_lesson (lesson : NoGoLesson) :
    lessonFields.foldl (fun acc f => f.copy lesson acc)
      { claimHash := "", refutedPremise := "", evidence := "", sourceObligationId := "", runId := "" } = lesson := by
  unfold lessonFields
  simp only [List.foldl_cons, List.foldl_nil, text, float]

theorem readObligation_asdict (item : ProofObligation) :
    readObligation (.dict (asdict obligationFields item)) = some item := by
  unfold readObligation PyValue.mapping?
  rw [Option.bind_some]
  exact build_asdict obligationFields_keyed (copies_obligation item)

theorem readLesson_asdict (lesson : NoGoLesson) : readLesson (.dict (asdict lessonFields lesson)) = some lesson := by
  unfold readLesson PyValue.mapping?
  rw [Option.bind_some]
  exact build_asdict lessonFields_keyed (copies_lesson lesson)

theorem nodup_ledgerEntries (ledger : ProofObligationLedger) : ((ledgerEntries ledger).map Prod.fst).Nodup := by
  have hkeys : (ledgerEntries ledger).map Prod.fst =
      ["ledger_id", "obligations", "version", "schema_version", "no_go_lessons", "backjump_target_id"] := rfl
  rw [hkeys]
  decide

theorem get?_ledgerEntries {ledger : ProofObligationLedger} {key : String} {v : PyValue} :
    (Dict.ofEntries (ledgerEntries ledger)).get? key = some v ↔ (key, v) ∈ ledgerEntries ledger := by
  rw [← Dict.mem_entries_iff, Dict.entries_ofEntries (nodup_ledgerEntries ledger)]

/-- The header of a ledger is written beside its obligations and lessons. -/
theorem get?_ledgerFields {ledger : ProofObligationLedger} {f : RecordField ProofObligationLedger} (hf : f ∈ ledgerFields) :
    (((Dict.ofEntries (ledgerEntries ledger)).erase "obligations").erase "no_go_lessons").get? f.key =
      some (f.get ledger) := by
  have hmem : (f.key, f.get ledger) ∈ ledgerEntries ledger ∧ f.key ≠ "no_go_lessons" ∧ f.key ≠ "obligations" := by
    unfold ledgerFields at hf
    rcases List.mem_cons.mp hf with rfl | hf
    · exact ⟨.head _, by decide, by decide⟩
    rcases List.mem_cons.mp hf with rfl | hf
    · exact ⟨.tail _ (.tail _ (.head _)), by decide, by decide⟩
    rcases List.mem_cons.mp hf with rfl | hf
    · exact ⟨.tail _ (.tail _ (.tail _ (.head _))), by decide, by decide⟩
    obtain rfl := List.mem_singleton.mp hf
    exact ⟨.tail _ (.tail _ (.tail _ (.tail _ (.tail _ (.head _))))), by decide, by decide⟩
  rw [Dict.get?_erase_ne hmem.2.1, Dict.get?_erase_ne hmem.2.2, get?_ledgerEntries]
  exact hmem.1

/-- Nothing else is left when the obligations and lessons are taken out. -/
theorem keys_ledgerFields {ledger : ProofObligationLedger} {key : String}
    (h : key ∈ (((Dict.ofEntries (ledgerEntries ledger)).erase "obligations").erase "no_go_lessons").keys) :
    key ∈ ledgerFields.map (·.key) := by
  obtain ⟨v, hget⟩ := Dict.mem_keys_iff.mp h
  rw [Dict.get?_erase, Dict.get?_erase] at hget
  split_ifs at hget with hlessons hobligations
  have hkey : key ∈ (ledgerEntries ledger).map Prod.fst := List.mem_map_of_mem (f := Prod.fst) (get?_ledgerEntries.mp hget)
  simp only [ledgerEntries, List.map_cons, List.map_nil, List.mem_cons, List.not_mem_nil, or_false, hlessons,
    hobligations, false_or] at hkey
  rcases hkey with rfl | rfl | rfl | rfl <;> decide

/-- What is written is read as it was. -/
theorem readLedger_save (ledger : ProofObligationLedger) : readLedger (saveProofLedger ledger) = some ledger := by
  have hobligations : (ledger.obligations.map fun item => PyValue.dict (asdict obligationFields item)).mapM readObligation =
      some ledger.obligations :=
    mapM_map _ readObligation readObligation_asdict _
  have hlessons : (ledger.noGoLessons.map fun lesson => PyValue.dict (asdict lessonFields lesson)).mapM readLesson =
      some ledger.noGoLessons :=
    mapM_map _ readLesson readLesson_asdict _
  unfold readLedger saveProofLedger PyValue.mapping?
  rw [Option.bind_some, get?_ledgerEntries.mpr (.tail _ (.head _)),
    get?_ledgerEntries.mpr (.tail _ (.tail _ (.tail _ (.tail _ (.head _)))))]
  unfold readObligations readLessons
  dsimp only
  rw [hobligations, hlessons, Option.bind_some, Option.bind_some]
  refine build_of_get? ledgerFields_keyed rfl (fun _ hkey => keys_ledgerFields hkey) fun f hf => ?_
  exact get?_ledgerFields hf

/-- A ledger that is loaded passes the checks. -/
theorem accepted_of_load {file : Option PyValue} {ledger : ProofObligationLedger}
    (h : loadProofLedger file = .ok (some ledger)) : Accepted ledger := by
  unfold loadProofLedger at h
  split at h
  · cases h
  · split at h
    · cases h
    · split at h
      · rename_i haccepted
        obtain rfl := Option.some.inj (Except.ok.inj h)
        exact haccepted
      · cases h

/-- A ledger is loaded from its own file, with the same contents, if and only if it passes the checks. -/
theorem loadProofLedger_save_iff (ledger : ProofObligationLedger) :
    loadProofLedger (some (saveProofLedger ledger)) = .ok (some ledger) ↔ Accepted ledger := by
  refine ⟨accepted_of_load, fun haccepted => ?_⟩
  unfold loadProofLedger
  dsimp only
  rw [readLedger_save]
  dsimp only
  rw [if_pos haccepted]

end Ledger

end KakeyaEngine
