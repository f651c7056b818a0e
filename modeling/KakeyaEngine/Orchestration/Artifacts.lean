import KakeyaEngine.Lib.JsonCodec
import KakeyaEngine.Orchestration.CrashConsistency
import Mathlib.Data.List.TakeWhile

/-!
# Loading validated artifacts

`load_validated_artifacts` walks the states of the role order and loads the artifact of each.  It stops at the first state
that has no artifact of its own, so it loads at most the four roles before the host gate, and everything that is validated
exactly when proof search or a role before it has no artifact (`load_complete_iff`).  Reading a file and `json.loads` are
parameters.
-/

namespace KakeyaEngine

namespace Orchestration

open ProofState PyValue
open LeanGate (hexDigits)

/-! ### Storing -/

/-- The bytes that `persist_validated_artifact` writes. -/
def encodePayload (payload : PyValue) : List UInt8 := utf8 (dumps compactLayout payload)

/-- `hashlib.sha256(encoded).hexdigest()`. -/
def sha256Hex (encoded : List UInt8) : String := String.ofList ((Sha256.sha256 encoded).flatMap hexDigits)

/-- The reference that `persist_validated_artifact` enters for the role. -/
def persistedRef (checkpointPath : Path) (role : String) (payload : PyValue) (dependencies : List String)
    (sourceRunId : String) (artifactSchemaVersion : Int) (validatedAt : PyValue) : ArtifactRef where
  role := role
  sha256 := sha256Hex (encodePayload payload)
  schemaVersion := artifactSchemaVersion
  dependencies := dependencies
  path := (checkpointPath.artifact (sha256Hex (encodePayload payload))).text
  sourceRunId := sourceRunId
  validatedAt := validatedAt

/-- It is the one that the checkpoint is saved with. -/
theorem asdict_persistedRef (p : Path) (role : String) (payload : PyValue) (dependencies : List String)
    (sourceRunId : String) (version : Int) (validatedAt : PyValue) :
    PyValue.dict (persistedRef p role payload dependencies sourceRunId version validatedAt).asdict =
      newReference p role payload dependencies sourceRunId version validatedAt := rfl

/-! ### Loading -/

inductive ReloadError
  | raised (e : CheckpointError)
  | osError (path : String)
  | jsonError

/-- What reading files gives, and what reading a JSON text gives. -/
structure ArtifactSource where
  readBytes : String → Option (List UInt8)
  loads : List UInt8 → Except ReloadError PyValue

/-- `dependency_roles`. -/
def dependencyRoles : String → Option (List String)
  | "definition_auditor" => some []
  | "counterexample_worker" => some ["definition_auditor"]
  | "decomposer" => some ["definition_auditor"]
  | "math_ir_translator" => some ["decomposer"]
  | "proof_search" => some ["math_ir_translator"]
  | "adversarial_proponent" => some ["decomposer", "math_ir_translator", "proof_search"]
  | _ => none

section Load

variable (source : ArtifactSource) (c : OrchestrationCheckpoint)

/-- `d[key]`. -/
def lookup {ν : Type} (d : Dict String ν) (key : String) : Except ReloadError ν :=
  match d.get? key with
  | some v => .ok v
  | none => .error (.raised (.keyError key))

/-- Whether the dependencies of a reference are those loaded before it. -/
def dependenciesValid (role : String) (ref : ArtifactRef) (hashes : Dict String String) : Except ReloadError Bool :=
  if role = "judge" then .ok (ref.dependencies.length = 1)
  else
    match dependencyRoles role with
    | none => .error (.raised (.keyError role))
    | some names => do
      let expected ← names.mapM (lookup hashes)
      .ok (ref.dependencies = expected)

/-- The payload of one artifact. -/
def loadArtifact (role : String) (ref : ArtifactRef) (hashes : Dict String String) :
    Except ReloadError (Dict String PyValue) := do
  let valid ← dependenciesValid role ref hashes
  if ref.schemaVersion ≠ 1 ∨ valid = false then
    .error (.raised (.valueError (role ++ " artifact dependency mismatch")))
  else
    match source.readBytes ref.path with
    | none => .error (.osError ref.path)
    | some encoded =>
      if sha256Hex encoded ≠ ref.sha256 then .error (.raised (.valueError (role ++ " artifact hash mismatch")))
      else do
        let payload ← source.loads encoded
        match payload.mapping? with
        | none => .error (.raised (.valueError (role ++ " artifact schema mismatch")))
        | some loaded => .ok loaded

/-- The loop over the role order. -/
def loadStates : List ProofState → Dict String (Dict String PyValue) → Dict String String →
    Except ReloadError (Dict String (Dict String PyValue))
  | [], loaded, _ => .ok loaded
  | state :: states, loaded, hashes =>
    match roleArtifactKeys state with
    | none => .ok loaded
    | some role =>
      match c.validatedArtifacts.get? role with
      | none => .ok loaded
      | some ref => do
        let payload ← loadArtifact source role ref hashes
        loadStates states (loaded.set role payload) (hashes.set role ref.sha256)

def loadValidatedArtifacts : Except ReloadError (Dict String (Dict String PyValue)) :=
  loadStates source c roleOrder Dict.empty Dict.empty

end Load

/-! ### What should be loaded -/

section Expected

variable (c : OrchestrationCheckpoint)

/-- The role has a validated artifact. -/
def Validated (role : String) : Prop := (c.validatedArtifacts.get? role).isSome = true

instance (role : String) : Decidable (Validated c role) := inferInstanceAs (Decidable (_ = true))

/-- The roles of the role order up to the first one without an artifact; states without an artifact of their own are
passed over. -/
def expectedRoles : List String := (roleOrder.filterMap roleArtifactKeys).takeWhile fun role => Validated c role

/-- The dependencies of a reference are the hashes of the artifacts that the role depends on, for the judge any one. -/
def DependenciesMatch (role : String) (ref : ArtifactRef) : Prop :=
  if role = "judge" then ref.dependencies.length = 1
  else ref.dependencies.map some =
    ((dependencyRoles role).getD []).map fun name => (c.validatedArtifacts.get? name).map (·.sha256)

variable (source : ArtifactSource)

/-- The reference was made by `persist_validated_artifact` for the payload, and its file is intact. -/
structure Persisted (role : String) (ref : ArtifactRef) (payload : PyValue) : Prop where
  made : ∃ p dependencies sourceRunId version validatedAt,
    ref = persistedRef p role payload dependencies sourceRunId version validatedAt
  intact : source.readBytes ref.path = some (encodePayload payload)

/-- The validated artifacts were persisted with the dependencies that are checked, their files are intact, and
`json.loads` reads back what `json.dumps` wrote for them. -/
def Restorable (payloads : String → List (String × PyValue)) : Prop :=
  ∀ role ∈ expectedRoles c, ∃ ref, c.validatedArtifacts.get? role = some ref ∧
    Persisted source role ref (.dict (payloads role)) ∧ DependenciesMatch c role ref ∧
    (⟨encodePayload, source.loads⟩ : JsonCodec ReloadError).Inverts (.dict (payloads role))

/-- Loading returns the payload of every expected role, in order. -/
def LoadsAll (payloads : String → List (String × PyValue)) : Prop :=
  ∃ loaded, loadValidatedArtifacts source c = .ok loaded ∧ loaded.keys = expectedRoles c ∧
    ∀ role ∈ expectedRoles c, ∃ payload, loaded.get? role = some payload ∧
      AlikeDict (Dict.ofEntries (payloads role)) payload

/-- The reference of a role matches its file and the references before it. -/
structure Matches (role : String) (ref : ArtifactRef) : Prop where
  schema : ref.schemaVersion = 1
  dependencies : DependenciesMatch c role ref
  file : ∃ encoded, source.readBytes ref.path = some encoded ∧ sha256Hex encoded = ref.sha256

/-- When loading returns, every returned role matches: it raises on a mismatch. -/
def RaisesOnMismatch : Prop :=
  ∀ loaded, loadValidatedArtifacts source c = .ok loaded → ∀ role ∈ loaded.keys,
    ∃ ref, c.validatedArtifacts.get? role = some ref ∧ Matches c source role ref

end Expected

/-! ### One artifact -/

open Fallible (bind_eq_ok mapM_cons_eq_ok)

theorem lookup_eq_ok {ν : Type} {d : Dict String ν} {key : String} {v : ν} :
    lookup d key = .ok v ↔ d.get? key = some v := by
  unfold lookup
  split
  · rename_i w hw
    rw [hw]
    exact ⟨fun h => congrArg some (Except.ok.inj h), fun h => congrArg Except.ok (Option.some.inj h)⟩
  · rename_i hnone
    rw [hnone]
    constructor
    · intro h
      cases h
    · intro h
      cases h

theorem mapM_lookup {d : Dict String String} {names expected : List String} :
    names.mapM (lookup d) = .ok expected ↔ names.map d.get? = expected.map some := by
  induction names generalizing expected with
  | nil =>
    constructor
    · intro h
      obtain rfl := Except.ok.inj h
      rfl
    · intro h
      obtain rfl := List.map_eq_nil_iff.mp h.symm
      rfl
  | cons name names ih =>
    rw [mapM_cons_eq_ok]
    constructor
    · rintro ⟨v, vs, hv, hvs, rfl⟩
      rw [List.map_cons, List.map_cons, lookup_eq_ok.mp hv, ih.mp hvs]
    · intro h
      obtain ⟨v, vs, rfl, hv, hvs⟩ := List.map_eq_cons_iff.mp h.symm
      exact ⟨v, vs, lookup_eq_ok.mpr hv.symm, ih.mpr hvs.symm, rfl⟩

theorem loadArtifact_ok {source : ArtifactSource} {role : String} {ref : ArtifactRef} {hashes : Dict String String}
    {payload : Dict String PyValue} :
    loadArtifact source role ref hashes = .ok payload ↔
      dependenciesValid role ref hashes = .ok true ∧ ref.schemaVersion = 1 ∧ ∃ encoded v,
        source.readBytes ref.path = some encoded ∧ sha256Hex encoded = ref.sha256 ∧ source.loads encoded = .ok v ∧
          v.mapping? = some payload := by
  unfold loadArtifact
  rw [bind_eq_ok]
  constructor
  · rintro ⟨valid, hvalid, h⟩
    split at h
    · cases h
    rename_i hok
    obtain ⟨hschema, hvalid'⟩ := not_or.mp hok
    rw [Bool.not_eq_false] at hvalid'
    subst hvalid'
    split at h
    · cases h
    rename_i encoded hread
    split at h
    · cases h
    rename_i hdigest
    obtain ⟨v, hv, h⟩ := bind_eq_ok.mp h
    split at h
    · cases h
    rename_i loaded hloaded
    obtain rfl := Except.ok.inj h
    exact ⟨hvalid, not_not.mp hschema, encoded, v, hread, not_not.mp hdigest, hv, hloaded⟩
  · rintro ⟨hvalid, hschema, encoded, v, hread, hdigest, hv, hmap⟩
    refine ⟨true, hvalid, ?_⟩
    rw [if_neg (by simp [hschema]), hread]
    dsimp only
    rw [if_neg (not_not_intro hdigest), hv]
    simp only [bind, Except.bind, hmap]

/-- The hashes are those of the artifacts of these roles. -/
def Tracks (c : OrchestrationCheckpoint) (done : List String) (hashes : Dict String String) : Prop :=
  ∀ name, hashes.get? name = if name ∈ done then (c.validatedArtifacts.get? name).map (·.sha256) else none

/-- With the hashes of the artifacts that the role depends on, the check of the dependencies is exact. -/
theorem dependenciesValid_iff {c : OrchestrationCheckpoint} {done : List String} {hashes : Dict String String}
    (htracks : Tracks c done hashes) {role : String} (ref : ArtifactRef)
    (hknown : role = "judge" ∨ (dependencyRoles role).isSome = true)
    (hdone : ∀ name ∈ (dependencyRoles role).getD [], name ∈ done) :
    dependenciesValid role ref hashes = .ok true ↔ DependenciesMatch c role ref := by
  unfold dependenciesValid DependenciesMatch
  split
  · rw [Except.ok.injEq, decide_eq_true_eq]
  rename_i hjudge
  obtain ⟨names, hnames⟩ := Option.isSome_iff_exists.mp (hknown.resolve_left hjudge)
  rw [hnames] at hdone ⊢
  have hmap : names.map hashes.get? = names.map fun name => (c.validatedArtifacts.get? name).map (·.sha256) :=
    List.map_congr_left fun name hname => (htracks name).trans (if_pos (hdone name hname))
  dsimp only [Option.getD_some]
  rw [← hmap, bind_eq_ok]
  constructor
  · rintro ⟨expected, hexpected, h⟩
    rw [of_decide_eq_true (Except.ok.inj h)]
    exact (mapM_lookup.mp hexpected).symm
  · intro h
    exact ⟨ref.dependencies, mapM_lookup.mpr h.symm, by simp⟩

/-! ### The loop -/

/-- The roles of the states up to the first one without an artifact, its own or validated. -/
def reached (c : OrchestrationCheckpoint) : List ProofState → List String
  | [] => []
  | state :: states =>
    match roleArtifactKeys state with
    | none => []
    | some role => if Validated c role then role :: reached c states else []

/-- Every role is known and depends on roles before it only. -/
def DependsBackward : List String → List ProofState → Prop
  | _, [] => True
  | done, state :: states =>
    match roleArtifactKeys state with
    | none => True
    | some role => (role = "judge" ∨ (dependencyRoles role).isSome = true) ∧
        (∀ name ∈ (dependencyRoles role).getD [], name ∈ done) ∧ DependsBackward (done ++ [role]) states

theorem dependsBackward_roleOrder : DependsBackward [] roleOrder := by
  simp [DependsBackward, roleOrder, roleArtifactKeys, dependencyRoles]

/-- The roles of the states are distinct, and none is among those loaded. -/
def Fresh (done : List String) (states : List ProofState) : Prop := (done ++ states.filterMap roleArtifactKeys).Nodup

theorem Fresh.cons {done : List String} {state : ProofState} {states : List ProofState} {role : String}
    (h : Fresh done (state :: states)) (hrole : roleArtifactKeys state = some role) :
    role ∉ done ∧ Fresh (done ++ [role]) states := by
  unfold Fresh at h
  rw [List.filterMap_cons_some hrole] at h
  refine ⟨fun hmem => (List.nodup_append.mp h).2.2 role hmem role List.mem_cons_self rfl, ?_⟩
  unfold Fresh
  rwa [List.append_assoc]

theorem keys_set_fresh {ν : Type} {d : Dict String ν} {role : String} (v : ν) (h : role ∉ d.keys) :
    (d.set role v).keys = d.keys ++ [role] := by
  unfold Dict.keys
  rw [Dict.entries_set_new v h, List.map_append]
  rfl

theorem Tracks.set {c : OrchestrationCheckpoint} {done : List String} {hashes : Dict String String} {role : String}
    {ref : ArtifactRef} (h : Tracks c done hashes) (href : c.validatedArtifacts.get? role = some ref) :
    Tracks c (done ++ [role]) (hashes.set role ref.sha256) := by
  intro name
  rw [Dict.get?_set]
  split
  · rename_i hname
    subst hname
    rw [if_pos (by simp), href]
    rfl
  · rename_i hname
    rw [h name]
    exact if_congr (by simp [hname]) rfl rfl

section Loop

variable {source : ArtifactSource} {c : OrchestrationCheckpoint}

/-- What the loop returns: the roles that it reached, each with a reference that matches. -/
theorem loadStates_ok {states : List ProofState} {loaded loaded' : Dict String (Dict String PyValue)}
    {hashes : Dict String String} (h : loadStates source c states loaded hashes = .ok loaded')
    (hback : DependsBackward loaded.keys states) (hfresh : Fresh loaded.keys states)
    (htracks : Tracks c loaded.keys hashes)
    (hloaded : ∀ role ∈ loaded.keys, ∃ ref, c.validatedArtifacts.get? role = some ref ∧ Matches c source role ref) :
    loaded'.keys = loaded.keys ++ reached c states ∧
      ∀ role ∈ loaded'.keys, ∃ ref, c.validatedArtifacts.get? role = some ref ∧ Matches c source role ref := by
  induction states generalizing loaded hashes with
  | nil =>
    obtain rfl := Except.ok.inj h
    exact ⟨(List.append_nil _).symm, hloaded⟩
  | cons state states ih =>
    unfold loadStates at h
    unfold reached
    unfold DependsBackward at hback
    rcases hkey : roleArtifactKeys state with _ | role
    · rw [hkey] at h
      obtain rfl := Except.ok.inj h
      exact ⟨(List.append_nil _).symm, hloaded⟩
    rw [hkey] at h hback
    dsimp only at h hback ⊢
    rcases href : c.validatedArtifacts.get? role with _ | ref
    · rw [href] at h
      obtain rfl := Except.ok.inj h
      rw [if_neg (by simp [Validated, href]), List.append_nil]
      exact ⟨rfl, hloaded⟩
    rw [href] at h
    obtain ⟨payload, hpayload, h⟩ := bind_eq_ok.mp h
    obtain ⟨hknown, hdone, hback⟩ := hback
    obtain ⟨hnew, hfresh⟩ := hfresh.cons hkey
    obtain ⟨hvalid, hschema, encoded, v, hread, hdigest, -, -⟩ := loadArtifact_ok.mp hpayload
    have hmatches : Matches c source role ref :=
      ⟨hschema, (dependenciesValid_iff htracks ref hknown hdone).mp hvalid, encoded, hread, hdigest⟩
    have hkeys := keys_set_fresh payload hnew
    rw [if_pos (by simp [Validated, href])]
    have hrest := ih h (hkeys ▸ hback) (hkeys ▸ hfresh) (hkeys ▸ htracks.set href) ?_
    · rw [hkeys, List.append_assoc] at hrest
      exact hrest
    · intro r hr
      rw [hkeys, List.mem_append, List.mem_singleton] at hr
      rcases hr with hr | rfl
      · exact hloaded r hr
      · exact ⟨ref, href, hmatches⟩

/-- The reference was persisted in the current version, with intact files and the dependencies that are checked. -/
def Reloads (source : ArtifactSource) (c : OrchestrationCheckpoint) (payloads : String → List (String × PyValue))
    (role : String) : Prop :=
  ∃ ref, c.validatedArtifacts.get? role = some ref ∧ ref.schemaVersion = 1 ∧
    Persisted source role ref (.dict (payloads role)) ∧ DependenciesMatch c role ref ∧
    (⟨encodePayload, source.loads⟩ : JsonCodec ReloadError).Inverts (.dict (payloads role))

/-- The loop returns when every role that it reaches reloads, and it returns their payloads. -/
theorem loadStates_complete {payloads : String → List (String × PyValue)} {states : List ProofState}
    {loaded : Dict String (Dict String PyValue)} {hashes : Dict String String}
    (hback : DependsBackward loaded.keys states) (hfresh : Fresh loaded.keys states)
    (htracks : Tracks c loaded.keys hashes) (hreached : ∀ role ∈ reached c states, Reloads source c payloads role) :
    ∃ loaded', loadStates source c states loaded hashes = .ok loaded' ∧
      (∀ role ∈ loaded.keys, loaded'.get? role = loaded.get? role) ∧
      ∀ role ∈ reached c states, ∃ payload, loaded'.get? role = some payload ∧
        AlikeDict (Dict.ofEntries (payloads role)) payload := by
  induction states generalizing loaded hashes with
  | nil => exact ⟨loaded, rfl, fun _ _ => rfl, fun _ h => nomatch h⟩
  | cons state states ih =>
    unfold loadStates
    unfold reached at hreached ⊢
    unfold DependsBackward at hback
    rcases hkey : roleArtifactKeys state with _ | role
    · exact ⟨loaded, rfl, fun _ _ => rfl, fun _ h => nomatch h⟩
    rw [hkey] at hback hreached
    dsimp only at hback hreached ⊢
    rcases hget : c.validatedArtifacts.get? role with _ | ref
    · rw [if_neg (by simp [Validated, hget])]
      exact ⟨loaded, rfl, fun _ _ => rfl, fun _ h => nomatch h⟩
    rw [if_pos (by simp [Validated, hget])] at hreached ⊢
    obtain ⟨hknown, hdone, hback⟩ := hback
    obtain ⟨hnew, hfresh⟩ := hfresh.cons hkey
    obtain ⟨ref', href, hschema, hpersisted, hmatch, w, hloads, halike⟩ := hreached role List.mem_cons_self
    obtain rfl := Option.some.inj (hget.symm.trans href)
    obtain ⟨payload, hmap, hpayload⟩ := halike.mapping
    have hdigest : sha256Hex (encodePayload (.dict (payloads role))) = ref.sha256 := by
      obtain ⟨p, dependencies, sourceRunId, version, validatedAt, hmade⟩ := hpersisted.made
      rw [hmade]
      rfl
    have hartifact : loadArtifact source role ref hashes = .ok payload :=
      loadArtifact_ok.mpr ⟨(dependenciesValid_iff htracks ref hknown hdone).mpr hmatch, hschema, _, w, hpersisted.intact,
        hdigest, hloads, hmap⟩
    have hkeys := keys_set_fresh payload hnew
    obtain ⟨loaded', hrun, hkept, hrest⟩ := ih (hkeys ▸ hback) (hkeys ▸ hfresh) (hkeys ▸ htracks.set href)
      fun r hr => hreached r (List.mem_cons_of_mem _ hr)
    refine ⟨loaded', ?_, fun r hr => ?_, fun r hr => ?_⟩
    · dsimp only
      rw [hartifact]
      exact hrun
    · rw [hkept r (by rw [hkeys]; exact List.mem_append_left _ hr), Dict.get?_set_ne]
      rintro rfl
      exact hnew hr
    · rcases List.mem_cons.mp hr with rfl | hr
      · exact ⟨payload, by rw [hkept r (by rw [hkeys]; simp), Dict.get?_set_self], hpayload⟩
      · exact hrest r hr

end Loop

/-! ### The whole role order -/

/-- The roles before the states that have no artifact. -/
def firstRoles : List String := ["definition_auditor", "counterexample_worker", "decomposer", "math_ir_translator"]

theorem reached_roleOrder (c : OrchestrationCheckpoint) :
    reached c roleOrder = firstRoles.takeWhile fun role => Validated c role := by
  simp [reached, roleOrder, roleArtifactKeys, firstRoles, List.takeWhile_cons]

/-- The walk ends before the second half of the roles, so it reaches every expected role exactly when proof search or a
role before it has no artifact. -/
theorem reached_eq_expected_iff (c : OrchestrationCheckpoint) :
    reached c roleOrder = expectedRoles c ↔ ∃ role ∈ firstRoles ++ ["proof_search"], ¬ Validated c role := by
  have hexpected : expectedRoles c =
      (firstRoles ++ ["proof_search", "adversarial_proponent", "judge"]).takeWhile fun role => Validated c role := rfl
  rw [reached_roleOrder, hexpected]
  by_cases hall : ∀ role ∈ firstRoles, Validated c role
  · have hall' : ∀ role ∈ firstRoles, decide (Validated c role) = true := fun role h => decide_eq_true (hall role h)
    rw [List.takeWhile_append_of_pos hall', List.takeWhile_eq_self_iff.mpr hall', List.self_eq_append_right, List.takeWhile_cons]
    constructor
    · intro h
      refine ⟨"proof_search", by simp, fun hvalid => ?_⟩
      rw [if_pos (decide_eq_true hvalid)] at h
      cases h
    · rintro ⟨role, hrole, hmissing⟩
      rcases List.mem_append.mp hrole with hrole | hrole
      · exact absurd (hall role hrole) hmissing
      · rw [List.mem_singleton.mp hrole] at hmissing
        exact if_neg (by simpa using hmissing)
  · have hshort : (firstRoles.takeWhile fun role => decide (Validated c role)).length ≠ firstRoles.length := by
      intro hlength
      have hself := (List.takeWhile_prefix _).eq_of_length hlength
      exact hall fun role hrole => of_decide_eq_true (List.takeWhile_eq_self_iff.mp hself role hrole)
    rw [List.takeWhile_append, if_neg hshort]
    push Not at hall
    obtain ⟨role, hrole, hmissing⟩ := hall
    exact ⟨fun _ => ⟨role, List.mem_append_left _ hrole, hmissing⟩, fun _ => rfl⟩

theorem fresh_roleOrder : Fresh [] roleOrder := by
  unfold Fresh
  decide

/-- Loading returns every expected payload, and raises on every mismatch, exactly when the expected artifacts were persisted
in the current version and proof search or a role before it has no artifact. -/
theorem load_complete_iff (source : ArtifactSource) (c : OrchestrationCheckpoint)
    (payloads : String → List (String × PyValue)) (h : Restorable c source payloads) :
    (LoadsAll c source payloads ∧ RaisesOnMismatch c source) ↔
      (∀ role ∈ expectedRoles c, ∃ ref, c.validatedArtifacts.get? role = some ref ∧ ref.schemaVersion = 1) ∧
      ∃ role ∈ ["definition_auditor", "counterexample_worker", "decomposer", "math_ir_translator", "proof_search"],
        ¬ Validated c role := by
  have hempty : ∀ role ∈ (Dict.empty : Dict String (Dict String PyValue)).keys,
      ∃ ref, c.validatedArtifacts.get? role = some ref ∧ Matches c source role ref := fun _ h => nomatch h
  have htracks : Tracks c (Dict.empty : Dict String (Dict String PyValue)).keys Dict.empty := fun _ => rfl
  have hok : ∀ loaded, loadValidatedArtifacts source c = .ok loaded → loaded.keys = reached c roleOrder ∧
      ∀ role ∈ loaded.keys, ∃ ref, c.validatedArtifacts.get? role = some ref ∧ Matches c source role ref :=
    fun loaded hloaded => loadStates_ok hloaded dependsBackward_roleOrder fresh_roleOrder htracks hempty
  constructor
  · rintro ⟨⟨loaded, hloaded, hkeys, -⟩, -⟩
    obtain ⟨hreached, hmatches⟩ := hok loaded hloaded
    refine ⟨fun role hrole => ?_, (reached_eq_expected_iff c).mp (hreached.symm.trans hkeys)⟩
    obtain ⟨ref, href, hmatch⟩ := hmatches role (hkeys ▸ hrole)
    exact ⟨ref, href, hmatch.schema⟩
  · rintro ⟨hschema, hmissing⟩
    have hreached := (reached_eq_expected_iff c).mpr hmissing
    refine ⟨?_, fun loaded hloaded => (hok loaded hloaded).2⟩
    have hreloads : ∀ role ∈ reached c roleOrder, Reloads source c payloads role := by
      intro role hrole
      rw [hreached] at hrole
      obtain ⟨ref, href, hpersisted, hmatch, hinverts⟩ := h role hrole
      obtain ⟨ref', href', hversion⟩ := hschema role hrole
      obtain rfl := Option.some.inj (href.symm.trans href')
      exact ⟨ref, href, hversion, hpersisted, hmatch, hinverts⟩
    have hback : DependsBackward (Dict.empty : Dict String (Dict String PyValue)).keys roleOrder :=
      dependsBackward_roleOrder
    obtain ⟨loaded, hloaded, -, hpayloads⟩ := loadStates_complete hback fresh_roleOrder htracks hreloads
    exact ⟨loaded, hloaded, (hok loaded hloaded).1.trans hreached, hreached ▸ hpayloads⟩

/-! ### Artifacts that are not loaded -/

/-- A reference to an empty artifact. -/
def emptyRef (role : String) (dependencies : List String) : ArtifactRef :=
  persistedRef ⟨[], "proof_orchestration.json"⟩ role (.dict []) dependencies "run" 1 .null

/-- Every file holds the text of an empty object. -/
def emptySource : ArtifactSource where
  readBytes _ := some (encodePayload (.dict []))
  loads encoded := if encoded = encodePayload (.dict []) then .ok (.dict []) else .error .jsonError

/-- The artifacts of the roles up to proof search. -/
def searched : OrchestrationCheckpoint where
  validatedArtifacts := Dict.ofEntries
    [("definition_auditor", emptyRef "definition_auditor" []),
      ("counterexample_worker", emptyRef "counterexample_worker" [sha256Hex (encodePayload (.dict []))]),
      ("decomposer", emptyRef "decomposer" [sha256Hex (encodePayload (.dict []))]),
      ("math_ir_translator", emptyRef "math_ir_translator" [sha256Hex (encodePayload (.dict []))]),
      ("proof_search", emptyRef "proof_search" [sha256Hex (encodePayload (.dict []))])]
  updatedAt := .null

/-- Only the audited definitions. -/
def audited : OrchestrationCheckpoint where
  validatedArtifacts := Dict.ofEntries [("definition_auditor", emptyRef "definition_auditor" [])]
  updatedAt := .null

theorem emptySource_inverts :
    (⟨encodePayload, emptySource.loads⟩ : JsonCodec ReloadError).Inverts (.dict []) := by
  have hloads : emptySource.loads (encodePayload (.dict [])) = .ok (.dict []) := by
    simp [emptySource]
  exact ⟨.dict [], hloads, .dict fun _ => .none⟩

theorem audited_restorable : Restorable audited emptySource fun _ => [] := by
  intro role hrole
  have hexpected : expectedRoles audited = ["definition_auditor"] := by decide +kernel
  rw [hexpected, List.mem_singleton] at hrole
  subst hrole
  exact ⟨_, rfl, ⟨⟨_, _, _, _, _, rfl⟩, rfl⟩, rfl, emptySource_inverts⟩

theorem load_complete_iff_audited :
    (LoadsAll audited emptySource (fun _ => []) ∧ RaisesOnMismatch audited emptySource) ↔
      (∀ role ∈ expectedRoles audited, ∃ ref, audited.validatedArtifacts.get? role = some ref ∧ ref.schemaVersion = 1) ∧
      ∃ role ∈ ["definition_auditor", "counterexample_worker", "decomposer", "math_ir_translator", "proof_search"],
        ¬ Validated audited role :=
  load_complete_iff emptySource audited (fun _ => []) audited_restorable

/-- The artifact of proof search is intact and validated, and it is not loaded. -/
theorem proof_search_not_loaded :
    Restorable searched emptySource (fun _ => []) ∧ "proof_search" ∈ expectedRoles searched ∧
      ¬ LoadsAll searched emptySource fun _ => [] := by
  have hexpected : expectedRoles searched = firstRoles ++ ["proof_search"] := by decide +kernel
  refine ⟨?_, by rw [hexpected]; decide, ?_⟩
  · intro role hrole
    rw [hexpected] at hrole
    simp only [firstRoles, List.cons_append, List.nil_append, List.mem_cons, List.not_mem_nil, or_false] at hrole
    rcases hrole with rfl | rfl | rfl | rfl | rfl
    all_goals exact ⟨_, rfl, ⟨⟨_, _, _, _, _, rfl⟩, rfl⟩, rfl, emptySource_inverts⟩
  · rintro ⟨loaded, hloaded, hkeys, -⟩
    have hback : DependsBackward (Dict.empty : Dict String (Dict String PyValue)).keys roleOrder :=
      dependsBackward_roleOrder
    have hreached := (loadStates_ok hloaded hback fresh_roleOrder (fun _ => rfl) fun _ h => nomatch h).1
    rw [hkeys, hexpected] at hreached
    have hlength := congrArg List.length hreached
    rw [show reached searched roleOrder = firstRoles by decide +kernel] at hlength
    cases hlength

end Orchestration

end KakeyaEngine
