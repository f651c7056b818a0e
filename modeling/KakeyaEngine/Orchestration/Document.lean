import KakeyaEngine.Auth.Metadata
import KakeyaEngine.Orchestration.Checkpoint

/-!
# Persisted checkpoints

A checkpoint file holds one JSON object, and nothing but its loader looks at the types of its fields: a loaded checkpoint
has a value for every field of the dataclass, and its artifact references have exactly their seven keys.
`loadCheckpoint` migrates the documents of older schemas before it builds the checkpoint, and compares the capabilities of
the runtime with those the document was written under.  Documents are the values that their texts stand for.
-/

namespace KakeyaEngine

namespace Orchestration

open ProofState

/-! ### The fields and their defaults -/

def schemaVersion : Int := 10

def architectureVersion : Int := 8

def typedArchitectureMinVersion : Int := 7

def transportVersion : Int := 4

def mathIrVersion : Int := 3

def mathRegistryVersion : Int := 3

def hostCompilerVersion : Int := 2

def moveRegistryVersion : Int := 5

def plannerVersion : Int := 1

def tournamentVersion : Int := 2

def contractVersion : Int := 2

def proofSearchVersion : Int := 1

def protocolVersion : Int := 1

def strategyTournamentMigrationEvent : String := "strategy_tournament_stepwise_generator_v1"

/-- `REQUIRED_TYPED_CAPABILITIES`. -/
def requiredTypedCapabilities : PyValue :=
  .dict [("typed_role_transport", .bool true), ("host_owned_public_assumptions", .bool true),
    ("explicit_restriction_moves", .bool true), ("legacy_model_artifact_execution", .bool false),
    ("journaled_checkpoint_changes", .bool true), ("strategy_tournament", .bool true),
    ("research_contract_gate", .bool true), ("stepwise_lean_feedback", .bool true),
    ("legacy_strategy_generator_execution", .bool false), ("atomic_define_one_concept", .bool true),
    ("mathematical_progress_invariant", .bool true), ("autonomous_definition_resolution", .bool true),
    ("legacy_definition_registry_execution", .bool false), ("generic_definition_reframe_execution", .bool false)]

/-- The digests of the two registries of the runtime. -/
structure RegistryHashes where
  transport : String
  math : String

/-- `current_capability_manifest`. -/
def currentCapabilityManifest (hashes : RegistryHashes) : List (String × PyValue) :=
  [("typed_transport_version", .int transportVersion), ("typed_transport_registry_hash", .str hashes.transport),
    ("math_ir_version", .int mathIrVersion), ("math_registry_version", .int mathRegistryVersion),
    ("math_registry_hash", .str hashes.math), ("host_compiler_version", .int hostCompilerVersion),
    ("move_registry_version", .int moveRegistryVersion), ("evidence_planner_version", .int plannerVersion),
    ("strategy_tournament_version", .int tournamentVersion), ("research_contract_version", .int contractVersion),
    ("proof_search_version", .int proofSearchVersion), ("atomic_definition_version", .int protocolVersion),
    ("capability_flags", requiredTypedCapabilities)]

def emptyProgress : PyValue :=
  .dict [("definitions_added", .int 0), ("existing_definitions_resolved", .int 0), ("lemmas_proved", .int 0),
    ("accepted_children", .int 0), ("subgoals_closed", .int 0), ("verified_counterexamples", .int 0)]

/-- The fields of the dataclass with their defaults. -/
def fieldDefaults (hashes : RegistryHashes) (now : PyValue) : List (String × PyValue) :=
    [("state", .str strategyTournament.value), ("target_obligation_id", .str ""), ("candidate_sha256", .str ""),
    ("strategy_sha256", .str ""), ("parent_statement_sha256", .str ""), ("parent_signature_sha256", .str ""),
    ("root_goal_sha256", .str ""), ("current_role", .str "strategy_tournament"), ("validated_artifacts", .dict []),
    ("retry_counters", .dict []), ("decomposition_iteration", .int 0), ("synthesis_iteration", .int 0),
    ("viewpoint", .str ""), ("viewpoints_tried", .list []), ("semantic_rejection", .dict []),
    ("decomposition_proposals", .list []), ("novel_proposals", .int 0), ("mathematical_retries", .int 0),
    ("formalizer_substate", .str ""), ("lean_contract_id", .str ""), ("lean_contract_version", .int 0),
    ("lean_symbol_table_id", .str ""), ("lean_symbol_table_version", .int 0), ("formalizer_unit_hashes", .dict []),
    ("last_transition_reason", .str "new-checkpoint"), ("resume_origin", .str ""), ("strategy_reused", .bool false),
    ("source_run_ids", .list []), ("ledger_id", .str ""), ("ledger_version", .int 0), ("orchestration_id", .str ""),
    ("commit_key", .str ""), ("committed", .bool false), ("blocked_reason", .str ""),
    ("last_failure_fingerprint", .str ""), ("identical_failure_count", .int 0), ("last_blocked_event_id", .str ""),
    ("invalidated_artifacts", .dict []), ("advisory_artifacts", .dict []), ("reuse_map", .dict []),
    ("recovery_events", .list []), ("architecture_version", .int architectureVersion),
    ("typed_transport_version", .int transportVersion), ("typed_transport_registry_hash", .str hashes.transport),
    ("math_ir_version", .int mathIrVersion), ("math_registry_version", .int mathRegistryVersion),
    ("math_registry_hash", .str hashes.math), ("host_compiler_version", .int hostCompilerVersion),
    ("move_registry_version", .int moveRegistryVersion), ("evidence_planner_version", .int plannerVersion),
    ("strategy_tournament_version", .int tournamentVersion), ("research_contract_version", .int contractVersion),
    ("proof_search_version", .int proofSearchVersion), ("atomic_definition_version", .int protocolVersion),
    ("capability_flags", requiredTypedCapabilities), ("adapter_status", .str ""), ("typed_ir_hash", .str ""),
    ("lean_declaration_hash", .str ""), ("proposition_hash", .str ""), ("elaborated_theorem_id", .str ""),
    ("active_gate", .str ""), ("migration_event", .str ""), ("migration_snapshot", .str ""),
    ("scratchpad_refs", .list []), ("candidate_set_hash", .str ""), ("candidate_hashes", .list []),
    ("candidate_count", .int 0), ("ranking_hash", .str ""), ("ranked_candidate_ids", .list []),
    ("selected_move_id", .str ""), ("evidence_gap_graph_hash", .str ""), ("proof_plan_hash", .str ""),
    ("proof_plan_id", .str ""), ("executable_plan_node_id", .str ""), ("plan_score_explanation", .dict []),
    ("theorem_card_ids", .list []), ("theorem_card_index_hash", .str ""), ("stagnation_reason", .str ""),
    ("semantic_stagnation_count", .int 0), ("protocol_error_count", .int 0), ("public_assumptions_hash", .str ""),
    ("child_public_assumptions_hash", .str ""), ("reduction_public_assumptions_hash", .str ""),
    ("strategy_event_id", .str ""), ("strategy_event_type", .str ""), ("strategy_plan_ids", .list []),
    ("feasible_strategy_plan_ids", .list []), ("pareto_plan_ids", .list []), ("selected_strategy_plan_id", .str ""),
    ("strategy_tournament_hash", .str ""), ("research_contract_id", .str ""), ("research_contract_hash", .str ""),
    ("research_contract_rejection_codes", .list []), ("branches_killed", .int 0), ("branch_history", .dict []),
    ("lean_actions_attempted", .int 0), ("lean_actions_accepted", .int 0), ("subgoals_closed", .int 0),
    ("subgoals_remaining", .int 0), ("new_elaborated_definitions", .int 0), ("new_elaborated_lemmas", .int 0),
    ("accepted_children", .int 0), ("verified_counterexamples", .int 0), ("definitions_added", .int 0),
    ("existing_definitions_resolved", .int 0), ("lemmas_proved", .int 0), ("progress_vector", emptyProgress),
    ("progress_fingerprint", .str ""), ("forbidden_semantic_fingerprints", .list []),
    ("current_definition_gap_id", .str ""), ("definition_candidate_count", .int 0),
    ("lean_definition_status", .str ""), ("definition_store_hash", .str ""), ("definition_environment_hash", .str ""),
    ("definition_store_hash_delta", .str ""), ("definition_environment_hash_delta", .str ""),
    ("definition_query_hash", .str ""), ("definition_source_statuses", .dict []),
    ("definition_property_statuses", .dict []), ("definition_branch_hashes", .list []),
    ("definition_exhaustion_hash", .str ""), ("definition_interface_hash", .str ""),
    ("definition_backjump_target", .str ""), ("proof_tokens_consumed", .int 0), ("proof_search_state_path", .str ""),
    ("created_at", now), ("updated_at", now), ("schema_version", .int schemaVersion)]

/-- The names of the fields. -/
def fieldNames : List String := (fieldDefaults ⟨"", ""⟩ .null).map Prod.fst

theorem nodup_fieldNames : fieldNames.Nodup := by decide +kernel

/-- A checkpoint as it was loaded: a value for every field. -/
structure StoredCheckpoint where
  fields : Dict String PyValue
  complete : fields.keys = fieldNames

namespace StoredCheckpoint

/-- The checkpoint with the given field values. -/
def ofFields (v : String → PyValue) : StoredCheckpoint where
  fields :=
    { entries := fieldNames.map fun n => (n, v n)
      nodup := by
        rw [List.map_map]
        exact (List.map_id' _).symm ▸ nodup_fieldNames }
  complete := by
    unfold Dict.keys
    rw [List.map_map]
    exact List.map_id' _

def get (c : StoredCheckpoint) (name : String) : PyValue := (c.fields.get? name).getD .null

def set (c : StoredCheckpoint) (name : String) (v : PyValue) : StoredCheckpoint :=
  ofFields fun n => if n = name then v else c.get n

/-- `asdict(checkpoint)`. -/
def asdict (c : StoredCheckpoint) : PyValue := .dict c.fields.entries

/-- `checkpoint.proof_state`. -/
def proofState (c : StoredCheckpoint) : Except CheckpointError ProofState :=
  match c.get "state" with
  | .str s =>
    match ofValue? s with
    | some state => .ok state
    | none => .error (invalidState s)
  | v => .error (invalidState (v.text id))

/-- `adapter_blocked`. -/
def adapterBlocked (c : StoredCheckpoint) (reason status : String) (now : PyValue) : StoredCheckpoint :=
  (((c.set "adapter_status" (.str status)).set "blocked_reason" (.str reason)).set "last_transition_reason"
    (.str (status ++ ":" ++ reason))).set "updated_at" now

end StoredCheckpoint

/-! ### Conversions -/

section Conversions

variable (u : Auth.Unicode)

/-- `int(value)`. -/
def toInt : PyValue → Except CheckpointError Int
  | .bool b => .ok (if b then 1 else 0)
  | .int n => .ok n
  | .float t =>
    match (PyValue.float t).number? with
    | some q => .ok (PyValue.truncate q)
    | none => .error (.valueError "cannot convert float to integer")
  | .str s =>
    match Auth.parseInt u s with
    | some n => .ok n
    | none => .error (.valueError "invalid literal for int()")
  | _ => .error .typeError

/-- What a `for` loop runs over. -/
def iterate : PyValue → Except CheckpointError (List PyValue)
  | .list items => .ok items
  | .dict entries => .ok ((Dict.ofEntries entries).keys.map .str)
  | .str s => .ok (s.toList.map fun c => .str (String.ofList [c]))
  | _ => .error .typeError

/-! ### The novelty manifest -/

/-- The markers of `decomposition_rejection_reason_code`. -/
def rejectionReasonCodes : List (String × String) :=
  [("semantic-signature-duplicate", "SEMANTIC_DUPLICATE"), ("structural-signature-duplicate", "STRUCTURAL_DUPLICATE"),
    ("bidirectionally entails ancestor", "CYCLIC_EQUIVALENT"), ("not strictly simpler", "NOT_STRICTLY_SIMPLER"),
    ("structural delta", "NO_STRUCTURAL_DELTA"), ("disconnected child", "DISCONNECTED_CHILD"),
    ("reduction", "FAILED_REDUCTION"), ("definition", "DEFINITION_GAP")]

def decompositionRejectionReasonCode (reason : String) : String :=
  let text := LeanGate.squeeze (Auth.lower u reason)
  match rejectionReasonCodes.find? fun m => LeanGate.occursIn m.1.toList text with
  | some m => m.2
  | none => "OTHER"

-- how strings are quoted inside other values
variable (quote : String → String)

/-- One record of the manifest. -/
def manifestRecord (item : PyValue) : Except CheckpointError PyValue :=
  match item.mapping? with
  | none => .error .attributeError
  | some m => do
    let field (name : String) : String := ((m.get? name).getD (.str "")).text quote
    let reasons ← iterate ((m.get? "rejection_reasons").getD (.list []))
    let iteration ← toInt u ((m.get? "decomposition_iteration").getD (.int 0))
    .ok (.dict [("proposal_sha256", .str (field "proposal_sha256")), ("semantic_hash", .str (field "semantic_hash")),
      ("structural_signature", .str (field "structural_signature")),
      ("rejection_reasons", .list (reasons.map fun r => .str (r.text quote))),
      ("rejection_reason_codes",
        .list (reasons.map fun r => .str (decompositionRejectionReasonCode u (r.text quote)))),
      ("viewpoint", .str (field "viewpoint")), ("decomposition_iteration", .int iteration),
      ("source_run_id", .str (field "source_run_id"))])

/-- `decomposition_novelty_manifest`, from the proposals and the viewpoints. -/
def noveltyManifest (proposals viewpoints : PyValue) : Except CheckpointError PyValue := do
  let items ← iterate proposals
  let records ← items.mapM (manifestRecord u quote)
  let tried ← iterate viewpoints
  .ok (.dict [("schema_version", .int 1), ("records", .list records), ("viewpoints_tried", .list tried)])

/-- The manifest that a save writes first, if there are proposals. -/
def savedManifest (proposals viewpoints : PyValue) : Except CheckpointError (Option PyValue) :=
  if proposals.truthy then (noveltyManifest u quote proposals viewpoints).map some else .ok none

/-- `save_checkpoint`: the document that replaces the file. -/
def saveCheckpoint (c : StoredCheckpoint) (now : PyValue) : Except CheckpointError PyValue := do
  let c := c.set "updated_at" now
  let _ ← savedManifest u quote (c.get "decomposition_proposals") (c.get "viewpoints_tried")
  let _ ← c.proofState
  .ok c.asdict

/-! ### Compatibility -/

variable (hashes : RegistryHashes)

/-- `checkpoint_compatibility_errors`. -/
def checkpointCompatibilityErrors (c : StoredCheckpoint) : Except CheckpointError (List String) :=
  match (c.get "architecture_version").number? with
  | none => .error .typeError
  | some architecture =>
    if architecture < typedArchitectureMinVersion then .ok ["LEGACY_ARCHITECTURE_EXECUTION_DISABLED"]
    else
      .ok ((if architecture ≠ architectureVersion then
          ["ARCHITECTURE_VERSION_MISMATCH:" ++ (c.get "architecture_version").text quote ++ "!=" ++
            toString architectureVersion]
        else []) ++
        (if (c.get "schema_version").same (.int schemaVersion) then []
        else
          ["SCHEMA_VERSION_MISMATCH:" ++ (c.get "schema_version").text quote ++ "!=" ++ toString schemaVersion]) ++
        ((currentCapabilityManifest hashes).filter fun e => !(c.get e.1).same e.2).map fun e =>
          e.1.toUpper ++ "_MISMATCH")

/-- `integration_block_incompatible_checkpoint`. -/
def integrationBlock (c : StoredCheckpoint) (now : PyValue) : Except CheckpointError StoredCheckpoint := do
  let errors ← checkpointCompatibilityErrors quote hashes c
  if errors = [] then .ok c
  else .ok (c.adapterBlocked ("checkpoint capability incompatibility: " ++ ";".intercalate errors)
    "INTEGRATION_BLOCKED" now)

/-! ### Loading -/

/-- The keys of an artifact reference. -/
def artifactKeys : List String :=
  ["role", "sha256", "schema_version", "dependencies", "path", "source_run_id", "validated_at"]

/-- `ArtifactRef(**value)`. -/
def artifactRef (value : PyValue) : Except CheckpointError PyValue :=
  match value.mapping? with
  | none => .error .typeError
  | some m =>
    if m.keys.all (· ∈ artifactKeys) ∧ artifactKeys.all (m.contains ·) then
      .ok (.dict (artifactKeys.map fun k => (k, (m.get? k).getD .null)))
    else .error .typeError

/-- A mapping whose `items()` are read. -/
def itemsOf : PyValue → Except CheckpointError (Dict String PyValue)
  | .dict entries => .ok (Dict.ofEntries entries)
  | _ => .error .attributeError

/-- A mapping from which keys are popped with a default. -/
def poppable : PyValue → Except CheckpointError (Dict String PyValue)
  | .dict entries => .ok (Dict.ofEntries entries)
  | .list _ => .error .typeError
  | _ => .error .attributeError

/-- The roles whose artifacts older schemas let the model write. -/
def legacyRoles : List String :=
  ["strategy", "generator", "critic", "synthesis", "decomposer", "formalizer_parent_signature",
    "formalizer_child_signature", "formalizer_reduction_signature", "formalizer", "prover", "adversarial_proponent",
    "judge"]

/-- What is kept of a removed reference. -/
def legacyEntry (reference : Dict String PyValue) : Dict String PyValue :=
  reference.update [("audit_only", .bool true), ("reason_codes", strings ["LEGACY_MODEL_JSON_OR_LEAN"]),
    ("migration_event", .str strategyTournamentMigrationEvent)]

/-- The loop over the legacy roles, on the validated and the invalidated artifacts. -/
def removeLegacy (artifacts : Dict String PyValue) (invalidated : PyValue) :
    List String → Except CheckpointError (Dict String PyValue × PyValue)
  | [] => .ok (artifacts, invalidated)
  | role :: roles =>
    match artifacts.get? role with
    | none => removeLegacy artifacts invalidated roles
    | some reference =>
      if reference.truthy then
        match reference.mapping? with
        | none => .error .typeError
        | some ref =>
          match ref.get? "sha256", invalidated.mapping? with
          | none, _ => .error (.keyError "sha256")
          | some _, none => .error .typeError
          | some sha256, some kept =>
            removeLegacy (artifacts.erase role)
              (.dict (kept.set (sha256.text quote) (.dict (legacyEntry ref).entries)).entries) roles
      else removeLegacy (artifacts.erase role) invalidated roles

/-- The state that documents of older architectures are moved to. -/
def migratedState (legacyState : String) : ProofState :=
  if legacyState = reframe.value then definitionResolution else strategyTournament

/-- The fields that the migration resets whatever they were. -/
def migrationResets : List (String × PyValue) :=
  [("migration_event", .str strategyTournamentMigrationEvent), ("architecture_version", .int architectureVersion)] ++
    currentCapabilityManifest hashes ++
    [("adapter_status", .str ""), ("formalizer_substate", .str ""), ("lean_contract_id", .str ""),
      ("lean_contract_version", .int 0), ("formalizer_unit_hashes", .dict [])]

/-- Drops the counter of the old protocol from a mapping. -/
def popAttempt : PyValue → PyValue
  | .dict entries => .dict ((Dict.ofEntries entries).erase "protocol_attempt").entries
  | v => v

/-- Drops the counter of the old protocol from the semantic rejection. -/
def popSemantic (raw : Dict String PyValue) : Dict String PyValue :=
  match raw.get? "semantic_rejection" with
  | some v => raw.set "semantic_rejection" (popAttempt v)
  | none => raw

/-- Drops the counter of the old protocol from the proposals of a list. -/
def popProposals : PyValue → Except CheckpointError PyValue
  | .list items => .ok (.list (items.map popAttempt))
  | .dict entries => .ok (.dict entries)
  | .str s => .ok (.str s)
  | _ => .error .typeError

/-- The recovery events with the migration added to them. -/
def addMigrationEvent (legacySchema : Int) (legacyState : String) (now : PyValue) (state : Option PyValue) :
    PyValue → Except CheckpointError PyValue
  | .list events =>
    match state with
    | none => .error (.keyError "state")
    | some state =>
      .ok (.list (events ++ [.dict
        [("event_type", .str "OPERATOR_MIGRATION"), ("event_id", .str strategyTournamentMigrationEvent),
          ("from_schema", .int legacySchema), ("to_schema", .int schemaVersion), ("from_state", .str legacyState),
          ("target_state", state), ("created_at", now)]]))
  | _ => .error .attributeError

/-- The migration of a document of an older schema. -/
def migrate (legacySchema legacyArchitecture : Int) (legacyState : String) (now : PyValue) (raw : Dict String PyValue) :
    Except CheckpointError (Dict String PyValue) := do
  let artifacts ← poppable ((raw.get? "validated_artifacts").getD (.dict []))
  let (artifacts, invalidated) ←
    removeLegacy quote artifacts ((raw.get? "invalidated_artifacts").getD (.dict [])) legacyRoles
  let raw := (raw.set "validated_artifacts" (.dict artifacts.entries)).set "invalidated_artifacts" invalidated
  let raw :=
    if legacyArchitecture < architectureVersion then
      raw.update [("state", .str (migratedState legacyState).value),
        ("current_role", .str (migratedState legacyState).value.toLower), ("resume_origin", .str legacyState),
        ("last_transition_reason", .str "strategy-tournament-v1:legacy-strategy-generator-audit-only"),
        ("blocked_reason", .str "")]
    else raw
  let raw := raw.update (migrationResets hashes)
  let counters ← itemsOf ((raw.get? "retry_counters").getD (.dict []))
  let raw := raw.set "retry_counters"
    (.dict (counters.entries.filter fun e => e.1 ≠ "FORMALIZER" ∧ e.1 ≠ "PROVER"))
  let raw := popSemantic raw
  let proposals ← popProposals ((raw.get? "decomposition_proposals").getD (.list []))
  let raw := if raw.contains "decomposition_proposals" then raw.set "decomposition_proposals" proposals else raw
  let events ← addMigrationEvent legacySchema legacyState now (raw.get? "state")
    ((raw.get? "recovery_events").getD (.list []))
  .ok ((raw.set "recovery_events" events).set "schema_version" (.int schemaVersion))

/-- Builds the checkpoint from the fields that are known.  The defaults that the loader sets before it does so are those
of the dataclass. -/
def buildCheckpoint (now : PyValue) (raw : Dict String PyValue) : Except CheckpointError StoredCheckpoint := do
  let artifacts ← itemsOf ((raw.get? "validated_artifacts").getD (.dict []))
  let references ← artifacts.entries.mapM fun e => (artifactRef e.2).map fun r => (e.1, r)
  let raw := raw.set "validated_artifacts" (.dict references)
  let c := StoredCheckpoint.ofFields fun name =>
    (raw.get? name).getD (((fieldDefaults hashes now).lookup name).getD .null)
  let _ ← c.proofState
  .ok c

/-- `load_checkpoint`, from the value of the file's text. -/
def loadCheckpoint (now : PyValue) (document : PyValue) : Except CheckpointError StoredCheckpoint := do
  match document.mapping? with
  | none => .error (.valueError "orchestration checkpoint must be an object")
  | some raw => do
    let legacySchema ← toInt u ((raw.get? "schema_version").getD (.int 1))
    let legacyArchitecture ← toInt u ((raw.get? "architecture_version").getD (.int 1))
    let legacyState := ((raw.get? "state").getD (.str needsStrategy.value)).text quote
    let missing :=
      if schemaVersion ≤ legacySchema ∧ architectureVersion ≤ legacyArchitecture then
        ((currentCapabilityManifest hashes).map Prod.fst).filter fun name => !raw.contains name
      else []
    let raw ←
      if legacySchema < schemaVersion then migrate quote hashes legacySchema legacyArchitecture legacyState now raw
      else .ok raw
    let c ← buildCheckpoint hashes now raw
    if missing ≠ [] then
      .ok (c.adapterBlocked ("checkpoint capability incompatibility: MISSING_CAPABILITY_FIELDS:" ++
        ",".intercalate (missing.mergeSort (· ≤ ·))) "INTEGRATION_BLOCKED" now)
    else integrationBlock quote hashes c now

end Conversions

end Orchestration

end KakeyaEngine
