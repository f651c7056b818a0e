import KakeyaEngine.Definitions.Calls

/-!
# The definition gate after a crash

The gate writes the resolution store before it saves the checkpoint.  When it is stopped in between and run again, the
query is settled in the store and is answered with a status of its own, which the routing does not know: it goes where no
viable interface would take it.  If the definition was committed and the gap not asked for by name, the gate turns to
another gap.  Either way the checkpoint that it saves is not the one of the run that was not stopped
(`gate_not_crash_safe`).
-/

namespace KakeyaEngine

namespace Definitions

open Fallible
open Regex (WordClass)
open Orchestration (CheckpointError ArtifactRef ProofState)
open Orchestration.ProofState

/-! ### What is compared -/

inductive StatusClass
  | committed | interfaceRequired | underspecified
deriving DecidableEq

/-- The class of a resolution status. -/
def statusClass (status : String) : Option StatusClass :=
  if status = "COMMITTED" then some .committed
  else if status = "INTERFACE_REQUIRED" then some .interfaceRequired
  else if status = "PARENT_STATEMENT_UNDERSPECIFIED" then some .underspecified
  else none

/-- Two checkpoints with the same result of the gate. -/
structure SameOutcome (c c' : GateCheckpoint) : Prop where
  state : c.state = c'.state
  gap : c.currentDefinitionGapId = c'.currentDefinitionGapId
  count : c.definitionsAdded = c'.definitionsAdded
  status : statusClass c.leanDefinitionStatus = statusClass c'.leanDefinitionStatus

/-- The checkpoint of the last save. -/
def lastSaved : List Commit → Option GateCheckpoint
  | [] => none
  | .store _ :: commits => lastSaved commits
  | .checkpoint c :: commits => (lastSaved commits).or (some c)

@[simp] theorem lastSaved_append (l l' : List Commit) : lastSaved (l ++ l') = (lastSaved l').or (lastSaved l) := by
  induction l with
  | nil => simp [lastSaved]
  | cons commit l ih =>
    cases commit with
    | store s => simpa [lastSaved] using ih
    | checkpoint c => simp [lastSaved, ih]

/-! ### The writes of a run -/

variable (rt : Runtime)

/-- The saves of a run of the gate that resolved a gap: two, or none if the statuses cannot be copied. -/
def Saves (gap : String) (r : ResolutionResult) (saves : List Commit) : Prop :=
  (saves = [] ∧ ∀ properties, copyStatuses r.propertyStatuses ≠ .ok properties) ∨
    ∃ mid last : GateCheckpoint, saves = [.checkpoint mid, .checkpoint last] ∧
      last.state = (routedState r.status).value ∧ last.currentDefinitionGapId = gap

/-- The writes of a run that works on a gap, from a checkpoint. -/
inductive Worked (inputs : GateInputs) (file : Option ResolutionStore) (store : ResolutionStore) (c : GateCheckpoint)
    (reference : ArtifactRef) (gap : Dict String PyValue) : List Commit → Prop
  | failed : Worked inputs file store c reference gap []
  | resolved {query : DefinitionQuery} {r : ResolutionResult} {written : Option ResolutionStore} {saves : List Commit}
      (hquery : gateQuery rt inputs c reference gap = .ok query)
      (hresolved : gateResolve rt inputs file store query = .ok (r, written)) (hsaves : Saves (gapId rt gap) r saves) :
      Worked inputs file store c reference gap (written.toList.map .store ++ saves)

/-- The writes of a run of the gate. -/
inductive Ran (inputs : GateInputs) (files : Files) : List Commit → Prop
  | nothing : Ran inputs files []
  | noGap {reference : ArtifactRef} {missing : List (Dict String PyValue)} {store : ResolutionStore} {c : GateCheckpoint}
      (hopened : openDefinitions inputs files.checkpoint = .ok (some (reference, missing)))
      (hloaded : loadResolutionStore files.store inputs.environmentHash = .ok store)
      (hgap : chooseGap rt missing files.checkpoint.currentDefinitionGapId store.commits.keys = none)
      (hsaved : c.currentDefinitionGapId = "") : Ran inputs files [.checkpoint c]
  | gap {reference : ArtifactRef} {missing : List (Dict String PyValue)} {store : ResolutionStore}
      {gap : Dict String PyValue} {commits : List Commit}
      (hopened : openDefinitions inputs files.checkpoint = .ok (some (reference, missing)))
      (hloaded : loadResolutionStore files.store inputs.environmentHash = .ok store)
      (hgap : chooseGap rt missing files.checkpoint.currentDefinitionGapId store.commits.keys = some gap)
      (hworked : Worked rt inputs files.store store files.checkpoint reference gap commits) : Ran inputs files commits

theorem ran_gate (inputs : GateInputs) (files : Files) : Ran rt inputs files (gateCommits rt inputs files) := by
  have hcalled := called_gate rt inputs files
  generalize gateCommits rt inputs files = commits at hcalled
  cases hcalled with
  | nothing hnone => exact .nothing
  | noGap hopened hloaded hgap hreading => exact .noGap hopened hloaded hgap (congrArg Reading.gap hreading)
  | cut hasks hresolved hfails =>
    have hworked : Worked rt inputs files.store _ files.checkpoint _ _ _ :=
      .resolved hasks.built hresolved (.inl ⟨rfl, hfails⟩)
    rw [List.append_nil] at hworked
    exact .gap hasks.opened hasks.loaded hasks.chosen hworked
  | resolved mid hasks hresolved hstate hreading =>
    exact .gap hasks.opened hasks.loaded hasks.chosen
      (.resolved hasks.built hresolved (.inr ⟨mid, _, rfl, hstate, congrArg Reading.gap hreading⟩))

/-! ### What a transaction leaves -/

/-- The statuses of a transaction that writes the store. -/
def freshStatuses : List String := ["COMMITTED", "INTERFACE_REQUIRED", "PARENT_STATEMENT_UNDERSPECIFIED"]

theorem settle_spec {query : DefinitionQuery} {statuses : List SourceProvenance} {judged : List Judged}
    {store : ResolutionStore} {outcome : Outcome} (h : settle rt query statuses judged store = .ok outcome) :
    outcome.status ∈ freshStatuses ∧ outcome.store.schemaVersion = store.schemaVersion ∧
      outcome.store.protocolVersion = store.protocolVersion ∧ store.commits.keys ⊆ outcome.store.commits.keys := by
  unfold settle at h
  split at h
  · cases h
    refine ⟨?_, rfl, rfl, List.Subset.refl _⟩
    dsimp only
    split
    · decide
    · decide
  · obtain ⟨source, -, h⟩ := bind_eq_ok.mp h
    cases h
    refine ⟨.head _, rfl, rfl, fun k hk => ?_⟩
    obtain ⟨v, hv⟩ := Dict.mem_keys_iff.mp hk
    rw [Dict.mem_keys_iff, Dict.get?_set]
    split
    · exact ⟨_, rfl⟩
    · exact ⟨v, hv⟩
  · cases h
    exact ⟨.tail _ (.tail _ (.head _)), rfl, rfl, List.Subset.refl _⟩

/-- A sealed store of the current versions is loaded as it is. -/
theorem load_sealed {s : ResolutionStore} (hschema : s.schemaVersion = storeSchemaVersion)
    (hprotocol : s.protocolVersion = protocolVersion) (baseEnvironmentHash : String) :
    loadResolutionStore (some s.sealed) baseEnvironmentHash = .ok s.sealed := by
  unfold loadResolutionStore
  dsimp only
  rw [if_neg fun h => h hschema, if_neg fun h => h hprotocol, if_neg fun h => h rfl, if_neg fun h => h rfl]

/-- A store that was loaded is of the current versions. -/
theorem versions_of_load {file : Option ResolutionStore} {baseEnvironmentHash : String} {store : ResolutionStore}
    (h : loadResolutionStore file baseEnvironmentHash = .ok store) :
    store.schemaVersion = storeSchemaVersion ∧ store.protocolVersion = protocolVersion := by
  unfold loadResolutionStore at h
  split at h
  · cases h
    exact ⟨rfl, rfl⟩
  · split at h
    · cases h
    · rename_i hschema
      split at h
      · cases h
      · rename_i hprotocol
        split at h
        · cases h
        · split at h
          · cases h
          · cases h
            exact ⟨not_not.mp hschema, not_not.mp hprotocol⟩

/-- The record of a query says that the query is settled. -/
theorem queryRecord_terminal (query : DefinitionQuery) (survived : Bool) (outcome : Outcome) (judged : List Judged)
    (branchHashes : List String) (propertyMap : Dict String PyValue) :
    (queryRecord rt query survived outcome judged branchHashes propertyMap).get? "terminal" = some (.bool true) := by
  have hnodup : List.Nodup ["query_hash", "status", "terminal", "candidate_hashes", "branch_hashes", "property_statuses",
      "exhaustion_hash", "interface_hash", "committed_candidate_hash", "completed_at"] := by decide
  unfold queryRecord
  exact Dict.get?_update_of_mem hnodup (by simp)

/-- The copy of one entry of the statuses. -/
private def copyStatus (e : String × PyValue) : Except CheckpointError (String × Dict String PyValue) :=
  match e.2 with
  | .dict es => .ok (e.1, Dict.ofEntries es)
  | .list [] => .ok (e.1, Dict.empty)
  | _ => .error .typeError

/-- The statuses of a fresh transaction can be copied. -/
theorem copyStatuses_judged (judged : List Judged) :
    ∃ properties, copyStatuses (.dict (Dict.ofEntries (judged.map fun j => (j.candidate.contentHash, j.statusesDict))).entries)
      = .ok properties := by
  unfold copyStatuses Orchestration.itemsOf
  dsimp only
  rw [Dict.ofEntries_entries]
  have hpasses := mapM_succeeds_iff (f := copyStatus)
    (l := (Dict.ofEntries (judged.map fun j => (j.candidate.contentHash, j.statusesDict))).entries)
  obtain ⟨entries, hentries⟩ := hpasses.mpr (by
    intro e he
    rcases Dict.mem_entries_update (d := Dict.empty) he with hempty | hjudged
    · cases hempty
    · obtain ⟨j, -, rfl⟩ := List.mem_map.mp hjudged
      exact ⟨_, rfl⟩)
  exact ⟨_, bind_eq_ok.mpr ⟨_, rfl, bind_eq_ok.mpr ⟨entries, hentries, rfl⟩⟩⟩

/-- What a transaction that writes the store leaves in it. -/
structure Settled (query : DefinitionQuery) (before : ResolutionStore) (r : ResolutionResult) (written : ResolutionStore) :
    Prop where
  status : r.status ∈ freshStatuses
  loads : ∀ baseEnvironmentHash, loadResolutionStore (some written) baseEnvironmentHash = .ok written
  commits : before.commits.keys ⊆ written.commits.keys
  copies : ∃ properties, copyStatuses r.propertyStatuses = .ok properties
  record : ∃ record, settledRecord written query = .ok (some record)

theorem settled_conclude {query : DefinitionQuery} {statuses : List SourceProvenance} {judged : List Judged}
    {store : ResolutionStore} {r : ResolutionResult} {written : ResolutionStore}
    (hversions : store.schemaVersion = storeSchemaVersion ∧ store.protocolVersion = protocolVersion)
    (h : conclude rt query statuses judged store = .ok (r, written)) : Settled query store r written := by
  unfold conclude at h
  dsimp only at h
  obtain ⟨outcome, houtcome, h⟩ := bind_eq_ok.mp h
  obtain ⟨hstatus, hschema, hprotocol, hcommits⟩ := settle_spec rt houtcome
  cases h
  refine ⟨hstatus, load_sealed (hschema.trans hversions.1) (hprotocol.trans hversions.2), hcommits,
    copyStatuses_judged judged, ?_⟩
  unfold settledRecord ResolutionStore.sealed
  dsimp only
  rw [Dict.get?_set_self]
  dsimp only
  have hterminal := queryRecord_terminal rt query (judged.any (Judged.survives query)) outcome judged
    ((judged.filter (Judged.survives query)).map fun j => digest (branchOf query j.candidate.contentHash).asdict)
    (Dict.ofEntries (judged.map fun j => (j.candidate.contentHash, j.statusesDict)))
  generalize queryRecord rt query (judged.any (Judged.survives query)) outcome judged
    ((judged.filter (Judged.survives query)).map fun j => digest (branchOf query j.candidate.contentHash).asdict)
    (Dict.ofEntries (judged.map fun j => (j.candidate.contentHash, j.statusesDict))) = record at hterminal ⊢
  have htruthy : (PyValue.dict record.entries).truthy = true := by
    have hmem := Dict.mem_entries_iff.mpr hterminal
    rcases hentries : record.entries with _ | ⟨e, es⟩
    · rw [hentries] at hmem
      cases hmem
    · rfl
  rw [if_pos htruthy]
  refine ⟨record, bind_eq_ok.mpr ⟨record, ?_, ?_⟩⟩
  · unfold mappingOf
    rw [Orchestration.mapping?_entries]
  · rw [hterminal]
    rfl

theorem settled_resolve {registry : DefinitionSourceRegistry} {query : DefinitionQuery} {file : Option ResolutionStore}
    {context evidence : Dict String PyValue} {rankings : List String} {store : ResolutionStore} {r : ResolutionResult}
    {written : ResolutionStore} (hloaded : loadResolutionStore file query.environmentHash = .ok store)
    (h : resolveOneConcept rt registry query file context evidence rankings = .ok (r, some written)) :
    Settled query store r written := by
  unfold resolveOneConcept at h
  obtain ⟨store', hstore', h⟩ := bind_eq_ok.mp h
  rw [hloaded] at hstore'
  obtain rfl := Except.ok.inj hstore'
  obtain ⟨previous, -, h⟩ := bind_eq_ok.mp h
  cases previous with
  | some record =>
    obtain ⟨result, -, hresult⟩ := map_eq_ok.mp h
    cases hresult
  | none =>
    obtain ⟨answer, -, h⟩ := bind_eq_ok.mp h
    obtain ⟨candidates, -, h⟩ := bind_eq_ok.mp h
    obtain ⟨ranked, -, h⟩ := bind_eq_ok.mp h
    obtain ⟨judged, -, h⟩ := bind_eq_ok.mp h
    obtain ⟨concluded, hconcluded, hresult⟩ := map_eq_ok.mp h
    cases hresult
    exact settled_conclude rt (versions_of_load hloaded) hconcluded

theorem routedState_replay (status : PyValue) : routedState (replayStatus status) = parentStatementUnderspecified := by
  unfold replayStatus
  split
  · decide
  · decide

/-- A query that is settled in the store is answered from there, and the answer is routed like an exhausted one. -/
theorem resolve_settled {registry : DefinitionSourceRegistry} {query : DefinitionQuery} {store : ResolutionStore}
    {context evidence : Dict String PyValue} {rankings : List String} {r : ResolutionResult}
    {written : Option ResolutionStore} {record : Dict String PyValue}
    (hloads : loadResolutionStore (some store) query.environmentHash = .ok store)
    (hrecord : settledRecord store query = .ok (some record))
    (h : resolveOneConcept rt registry query (some store) context evidence rankings = .ok (r, written)) :
    written = none ∧ routedState r.status = parentStatementUnderspecified := by
  unfold resolveOneConcept at h
  rw [hloads] at h
  obtain ⟨store', hstore', h⟩ := bind_eq_ok.mp h
  cases hstore'
  rw [hrecord] at h
  obtain ⟨previous, hprevious, h⟩ := bind_eq_ok.mp h
  cases hprevious
  obtain ⟨result, hresult, hr⟩ := map_eq_ok.mp h
  cases hr
  refine ⟨rfl, ?_⟩
  unfold replay at hresult
  split at hresult
  · cases hresult
  · obtain ⟨candidateHashes, -, hresult⟩ := bind_eq_ok.mp hresult
    obtain ⟨branchHashes, -, hresult⟩ := bind_eq_ok.mp hresult
    cases hresult
    exact routedState_replay _

/-! ### The choice of the gap, again -/

/-- When more is committed the same gap is chosen, or none, or one with another id. -/
theorem chooseGap_again {missing : List (Dict String PyValue)} {requested : String} {committed committed' : List String}
    {gap gap' : Dict String PyValue} (h : chooseGap rt missing requested committed = some gap)
    (h' : chooseGap rt missing requested committed' = some gap') (hmore : committed ⊆ committed') :
    gap' = gap ∨ gapId rt gap' ≠ gapId rt gap := by
  unfold chooseGap at h h'
  rcases hasked : (if requested ≠ "" then missing.find? fun item => gapId rt item = requested else none) with _ | asked
  · rw [hasked, Option.none_or] at h h'
    by_cases hid : gapId rt gap' = gapId rt gap
    · left
      obtain ⟨-, before, after, rfl, hbefore⟩ := List.find?_eq_some_iff_append.mp h
      have hgap' : gapId rt gap' ∉ committed' := by simpa using List.find?_some h'
      have hskipped : (before.find? fun item => gapId rt item ∉ committed') = none := by
        rw [List.find?_eq_none]
        intro item hitem
        have hcommitted : gapId rt item ∈ committed := by simpa using hbefore item hitem
        simpa using hmore hcommitted
      rw [List.find?_append, hskipped, Option.none_or, List.find?_cons_of_pos (by rw [← hid]; simpa using hgap')] at h'
      exact (Option.some.inj h').symm
    · exact .inr hid
  · rw [hasked, Option.some_or] at h h'
    exact .inl ((Option.some.inj h').symm.trans (Option.some.inj h))

/-- The chosen gap is a missing definition. -/
theorem isGap_of_chooseGap {inputs : GateInputs} {c : GateCheckpoint} {reference : ArtifactRef}
    {missing : List (Dict String PyValue)} {requested : String} {committed : List String} {gap : Dict String PyValue}
    (hopened : openDefinitions inputs c = .ok (some (reference, missing)))
    (h : chooseGap rt missing requested committed = some gap) : isGap gap = true := by
  have hmem : gap ∈ missing := by
    unfold chooseGap at h
    rcases Option.or_eq_some_iff.mp h with hasked | ⟨-, hfirst⟩
    · split at hasked
      · exact List.mem_of_find?_eq_some hasked
      · cases hasked
    · exact List.mem_of_find?_eq_some hfirst
  unfold openDefinitions at hopened
  split at hopened
  · cases hopened
  · split at hopened
    · split at hopened
      · cases hopened
      · split at hopened
        · cases hopened
        · obtain ⟨items, hitems, hsome⟩ := map_eq_ok.mp hopened
          split at hsome
          · cases hsome
          · obtain ⟨-, rfl⟩ := Prod.mk.inj (Option.some.inj hsome)
            unfold missingDefinitions at hitems
            obtain ⟨m, -, hitems⟩ := bind_eq_ok.mp hitems
            obtain ⟨listed, -, hitems⟩ := bind_eq_ok.mp hitems
            cases hitems
            exact (List.mem_filter.mp hmem).2
    · cases hopened

/-- A gap that a query can be built for has an id. -/
theorem gapId_ne_empty {inputs : GateInputs} {c : GateCheckpoint} {reference : ArtifactRef} {gap : Dict String PyValue}
    {query : DefinitionQuery} (hgap : isGap gap = true) (h : gateQuery rt inputs c reference gap = .ok query) :
    gapId rt gap ≠ "" := by
  intro hempty
  unfold isGap at hgap
  rcases hid : gap.get? "definition_id" with _ | v
  · rw [hid] at hgap
    cases hgap
  rw [hid, Option.getD_some] at hgap
  unfold gapId textField at hempty
  rw [hid, Option.getD_some] at hempty
  have hfirst : firstOf gap ["definition_id", "concept_id"] (.str "") = v := by
    unfold firstOf
    rw [List.filterMap_cons_some hid, List.find?_cons_of_pos hgap]
    rfl
  unfold gateQuery buildDefinitionQuery at h
  rw [hfirst, hempty] at h
  cases h

theorem environmentHash_of_gateQuery {inputs : GateInputs} {c : GateCheckpoint} {reference : ArtifactRef}
    {gap : Dict String PyValue} {query : DefinitionQuery} (h : gateQuery rt inputs c reference gap = .ok query) :
    query.environmentHash = inputs.environmentHash := by
  unfold gateQuery buildDefinitionQuery at h
  dsimp only at h
  split at h
  · cases h
  · obtain ⟨useSites, -, h⟩ := bind_eq_ok.mp h
    obtain ⟨requiredProperties, -, h⟩ := bind_eq_ok.mp h
    obtain ⟨hardProperties, -, h⟩ := bind_eq_ok.mp h
    cases h
    rfl

/-! ### The run that was stopped and the one that was not -/

/-- No fresh outcome leads to the state that the answer from the store leads to. -/
theorem routedState_fresh {status : String} (h : status ∈ freshStatuses) :
    (routedState status).value ≠ parentStatementUnderspecified.value := by
  simp only [freshStatuses, List.mem_cons, List.not_mem_nil, or_false] at h
  rcases h with rfl | rfl | rfl
  · decide
  · decide
  · decide

theorem lastSaved_saves {written : Option ResolutionStore} {saves : List Commit} {gap : String} {r : ResolutionResult}
    {c : GateCheckpoint} (hsaves : Saves gap r saves)
    (h : lastSaved (written.toList.map Commit.store ++ saves) = some c) :
    c.state = (routedState r.status).value ∧ c.currentDefinitionGapId = gap := by
  have hstores : lastSaved (written.toList.map Commit.store) = none := by
    cases written with
    | none => rfl
    | some s => rfl
  rw [lastSaved_append, hstores, Option.or_none] at h
  rcases hsaves with ⟨rfl, -⟩ | ⟨mid, last, rfl, hstate, hid⟩
  · cases h
  · cases h
    exact ⟨hstate, hid⟩

/-- The gate is stopped after it wrote the store and run again: the run that was not stopped saves a checkpoint, and no
checkpoint that the second run saves is in the same proof state with the same gap. -/
theorem rerun_differs {inputs : GateInputs} {files : Files} {written : ResolutionStore}
    (hwritten : Commit.store written ∈ gateCommits rt inputs files) (runCompiler : String → LeanRun) (now : PyValue) :
    ∃ c, lastSaved (gateCommits rt inputs files) = some c ∧
      ∀ c', lastSaved (gateCommits { rt with runCompiler := runCompiler, now := now } inputs { files with store := some written }) =
        some c' → c.state ≠ c'.state ∨ c.currentDefinitionGapId ≠ c'.currentDefinitionGapId := by
  have hran := ran_gate rt inputs files
  generalize gateCommits rt inputs files = commits at hwritten hran
  cases hran with
  | nothing => cases hwritten
  | noGap => simp at hwritten
  | @gap reference missing store gap _ hopened hloaded hgap hworked =>
  cases hworked with
  | failed => cases hwritten
  | @resolved query r w saves hquery hresolved hsaves =>
  -- the first run wrote this store, and saved a checkpoint after it
  unfold gateResolve at hresolved
  obtain ⟨history, -, hresolved⟩ := bind_eq_ok.mp hresolved
  have henvironment := environmentHash_of_gateQuery rt hquery
  have hw : w = some written := by
    rcases hsaves with ⟨rfl, -⟩ | ⟨mid, last, rfl, -⟩
    · simpa using hwritten
    · simpa using hwritten
  subst hw
  have hsettled := settled_resolve rt (by rw [henvironment]; exact hloaded) hresolved
  rcases hsaves with ⟨-, hfails⟩ | ⟨mid, c, rfl, hstate, hid⟩
  · obtain ⟨properties, hcopies⟩ := hsettled.copies
    exact absurd hcopies (hfails properties)
  refine ⟨c, rfl, fun c' hc' => ?_⟩
  have hrerun := ran_gate { rt with runCompiler := runCompiler, now := now } inputs { files with store := some written }
  generalize gateCommits { rt with runCompiler := runCompiler, now := now } inputs { files with store := some written } = again
    at hc' hrerun
  cases hrerun with
  | nothing => cases hc'
  | noGap _ _ _ hsaved =>
    cases hc'
    right
    rw [hid, hsaved]
    exact gapId_ne_empty rt (isGap_of_chooseGap rt hopened hgap) hquery
  | @gap reference' missing' store' gap' _ hopened' hloaded' hgap' hworked' =>
  cases hworked' with
  | failed => cases hc'
  | @resolved query' r' w' saves' hquery' hresolved' hsaves' =>
  obtain ⟨hstate', hid'⟩ := lastSaved_saves hsaves' hc'
  obtain ⟨rfl, rfl⟩ := Prod.mk.inj (Option.some.inj (Except.ok.inj (hopened.symm.trans hopened')))
  obtain rfl := Except.ok.inj ((hsettled.loads inputs.environmentHash).symm.trans hloaded')
  rcases chooseGap_again rt hgap hgap' hsettled.commits with rfl | hother
  · -- the same query again, which the store has settled
    left
    obtain rfl := Except.ok.inj (hquery.symm.trans hquery')
    unfold gateResolve at hresolved'
    obtain ⟨history', -, hresolved'⟩ := bind_eq_ok.mp hresolved'
    obtain ⟨record, hrecord⟩ := hsettled.record
    rw [hstate, hstate', (resolve_settled _ (hsettled.loads _) hrecord hresolved').2]
    exact routedState_fresh hsettled.status
  · right
    rw [hid, hid']
    exact hother.symm

/-- The gate is stopped after it wrote the store, and run again at another time: it saves a checkpoint with the outcome of
the run that was not stopped. -/
def CrashSafe (inputs : GateInputs) (files : Files) (runCompiler : String → LeanRun) (now : PyValue) : Prop :=
  ∀ written c, Commit.store written ∈ gateCommits rt inputs files → lastSaved (gateCommits rt inputs files) = some c →
    ∃ c', lastSaved (gateCommits { rt with runCompiler := runCompiler, now := now } inputs { files with store := some written }) =
      some c' ∧ SameOutcome c c'

theorem not_crashSafe {inputs : GateInputs} {files : Files} {written : ResolutionStore}
    (hwritten : Commit.store written ∈ gateCommits rt inputs files) (runCompiler : String → LeanRun) (now : PyValue) :
    ¬ CrashSafe rt inputs files runCompiler now := by
  obtain ⟨c, hc, hdiffers⟩ := rerun_differs rt hwritten runCompiler now
  intro hsafe
  obtain ⟨c', hc', hsame⟩ := hsafe written c hwritten hc
  rcases hdiffers c' hc' with hstate | hid
  · exact hstate hsame.state
  · exact hid hsame.gap

/-- Whenever the gate writes the store it goes on to save a checkpoint, and it is not safe against a crash in between. -/
theorem gate_not_crash_safe {inputs : GateInputs} {files : Files} {written : ResolutionStore}
    (hwritten : Commit.store written ∈ gateCommits rt inputs files) (runCompiler : String → LeanRun) (now : PyValue) :
    (∃ c, lastSaved (gateCommits rt inputs files) = some c) ∧ ¬ CrashSafe rt inputs files runCompiler now := by
  obtain ⟨c, hc, -⟩ := rerun_differs rt hwritten runCompiler now
  exact ⟨⟨c, hc⟩, not_crashSafe rt hwritten runCompiler now⟩

/-! ### Two runs on an empty store -/

/-- A process whose compiler accepts everything. -/
def exampleRuntime : Runtime :=
  ⟨Orchestration.asciiOnly, id, WordClass.asciiOnly, id, fun _ => ⟨false, 0, ""⟩, .float "1.5"⟩

/-- An audit with one missing definition, with the given codomain. -/
def exampleInputs (codomain : String) : GateInputs where
  readAudit := fun _ => some (.dict [("missing_definitions",
    .list [.dict [("definition_id", .str "DEF_GROWTH_ORDER"), ("codomain", .str codomain)]])])
  environmentHash := "env"
  projectRoot := "/project"
  oproofsRoot := none
  artifactPath := fun sha256 => "/run/" ++ sha256 ++ ".json"

/-- A checkpoint that waits for a definition. -/
def exampleFiles : Files where
  store := none
  checkpoint := {
    state := definitionResolution.value
    validatedArtifacts := Dict.ofEntries
      [("definition_auditor", ⟨"definition_auditor", "ab12", 1, [], "/run/ab12.json", "run-1", .float "0.5"⟩)]
    updatedAt := .float "0.5" }

/-- The store that is written first. -/
def firstStore : List Commit → Option ResolutionStore
  | .store s :: _ => some s
  | _ => none

theorem mem_of_firstStore {commits : List Commit} (h : (firstStore commits).isSome = true) :
    ∃ written, Commit.store written ∈ commits := by
  match commits with
  | [] => cases h
  | .store s :: _ => exact ⟨s, .head _⟩
  | .checkpoint c :: _ => cases h

theorem gate_not_crash_safe_interface :
    (∃ c, lastSaved (gateCommits exampleRuntime (exampleInputs "Nat") exampleFiles) = some c) ∧
      ¬ CrashSafe exampleRuntime (exampleInputs "Nat") exampleFiles exampleRuntime.runCompiler (.float "2.5") := by
  obtain ⟨written, hwritten⟩ := mem_of_firstStore
    (show (firstStore (gateCommits exampleRuntime (exampleInputs "Nat") exampleFiles)).isSome = true by decide +kernel)
  exact gate_not_crash_safe exampleRuntime hwritten _ _

/-- A gap that gets an interface, and one that gets none. -/
theorem gate_crash_unsafe :
    ¬ CrashSafe exampleRuntime (exampleInputs "Nat") exampleFiles exampleRuntime.runCompiler (.float "2.5") ∧
      ¬ CrashSafe exampleRuntime (exampleInputs "") exampleFiles exampleRuntime.runCompiler (.float "2.5") := by
  obtain ⟨written, hwritten⟩ := mem_of_firstStore
    (show (firstStore (gateCommits exampleRuntime (exampleInputs "Nat") exampleFiles)).isSome = true by decide +kernel)
  obtain ⟨written', hwritten'⟩ := mem_of_firstStore
    (show (firstStore (gateCommits exampleRuntime (exampleInputs "") exampleFiles)).isSome = true by decide +kernel)
  exact ⟨not_crashSafe exampleRuntime hwritten _ _, not_crashSafe exampleRuntime hwritten' _ _⟩

end Definitions

end KakeyaEngine
