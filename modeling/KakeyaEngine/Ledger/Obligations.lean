import KakeyaEngine.Lib.Climb
import KakeyaEngine.Lib.PyValue

/-!
# The ledger of proof obligations

An obligation hangs from its parent by the parent's id.  A ledger lists its obligations in any order, and the ids say which
obligation is meant; a ledger that is loaded has distinct ids.
-/

namespace KakeyaEngine

namespace Ledger

/-- A floating point number is kept as its text. -/
structure ProofObligation where
  obligationId : String
  statement : String
  status : String := "UNRESOLVED"
  parentId : String := ""
  lastRunId : String := ""
  lastEvidence : String := ""
  formalStatus : String := "UNFORMALIZED"
  leanSignature : String := ""
  leanSignatureHash : String := ""
  formalizationError : String := ""
  invalidationKind : String := ""
  quarantineReason : String := ""
  quarantineRootId : String := ""
  quarantineRunId : String := ""
  quarantinePriorStatus : String := ""
  quarantineConfidence : String := "0.0"
  quarantineEvidenceType : String := ""
  quarantineEvidenceSource : String := ""
  quarantineAuditorRunId : String := ""
  quarantineProponentRunId : String := ""
  quarantineReversibleStatus : String := ""
  premiseReviewStatus : String := ""
  temporaryQuarantineReason : String := ""
  temporaryQuarantineRootId : String := ""
  temporaryQuarantineRunId : String := ""
  invalidationPriorStatus : String := ""
  premiseAuditConfidence : String := "0.0"
  premiseAuditEvidenceType : String := ""
  premiseAuditEvidenceSource : String := ""
  premiseAuditorRunId : String := ""
  premiseProponentRunId : String := ""
  premiseReviewReason : String := ""
  decompositionCertificateHash : String := ""
  reductionTheoremHash : String := ""
  reductionTheoremStatus : String := ""
  decompositionRoleRunIds : Dict String String := Dict.empty
  dependencyLabels : List String := []
  dependencyIds : List String := []
  certificateReversibleStatus : String := ""
  publicAssumptions : List String := []

structure NoGoLesson where
  claimHash : String
  refutedPremise : String
  evidence : String
  sourceObligationId : String
  runId : String
  confidence : String := "0.0"
  evidenceType : String := ""
  evidenceSource : String := ""
  auditorRunId : String := ""
  proponentRunId : String := ""
  reversibleStatus : String := "ACTIVE"

structure ProofObligationLedger where
  ledgerId : String
  obligations : List ProofObligation
  version : Int := 1
  schemaVersion : Int := 1
  noGoLessons : List NoGoLesson := []
  backjumpTargetId : String := ""

/-- `by_id`. -/
def byId (obligations : List ProofObligation) : Dict String ProofObligation := Climb.byKey (·.obligationId) obligations

/-- The obligation with the first id has the second one as its parent. -/
def Parent (obligations : List ProofObligation) : String → String → Prop :=
  Climb.Parent (·.obligationId) (·.parentId) "" obligations

/-- No two obligations share an id. -/
def DistinctIds (obligations : List ProofObligation) : Prop := (obligations.map (·.obligationId)).Nodup

end Ledger

end KakeyaEngine
