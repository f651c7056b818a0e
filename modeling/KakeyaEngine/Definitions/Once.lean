import KakeyaEngine.Definitions.Replay
import KakeyaEngine.Lib.Machine

/-!
# Calls of the definition gate in a row

The calls of a run are made on one audit, and between them the proof state is brought back and nothing else changes.  The
gate takes up the gap of the call before it again, and asks for it with one more forbidden fingerprint, so that the store
does not know the query: a gap that is settled is retrieved again, and a definition that is committed is counted again
(`gate_settles_twice`).  The runs in which every call takes up a gap that is not committed, and finds the record of a gap
that is settled, settle every gap once (`fresh_run_settles_once`).
-/

namespace KakeyaEngine

namespace Definitions

open Fallible
open Orchestration (CheckpointError ArtifactRef ProofState strings)
open Orchestration.ProofState

/-! ### Outcomes in the store -/

/-- The definitions that the store has committed. -/
def Files.definitions (files : Files) : Dict String PyValue := (files.store.map (·.commits)).getD Dict.empty

/-- The records of the queries. -/
def Files.queries (files : Files) : Dict String PyValue := (files.store.map (·.queries)).getD Dict.empty

theorem definitions_of_store {files : Files} {s : ResolutionStore} (h : files.store = some s) :
    files.definitions = s.commits := by
  unfold Files.definitions
  rw [h]
  rfl

theorem queries_of_store {files : Files} {s : ResolutionStore} (h : files.store = some s) : files.queries = s.queries := by
  unfold Files.queries
  rw [h]
  rfl

/-- A loaded store is the one of the files. -/
theorem of_load {files : Files} {environmentHash : String} {store : ResolutionStore}
    (h : loadResolutionStore files.store environmentHash = .ok store) :
    store.commits = files.definitions ∧ store.queries = files.queries := by
  unfold loadResolutionStore at h
  split at h
  · rename_i hnone
    cases h
    unfold Files.definitions Files.queries
    rw [hnone]
    exact ⟨rfl, rfl⟩
  · rename_i s hsome
    have hs : s = store := by
      repeat' split at h
      all_goals first
        | exact Except.ok.inj h
        | cases h
    rw [definitions_of_store hsome, queries_of_store hsome, hs]
    exact ⟨rfl, rfl⟩

/-- The field that the gate itself extends. -/
def priorField : String := "prior_failure_hashes"

/-- A terminal record of the query, whatever its prior failures were. -/
structure RecordsOutcome (query : DefinitionQuery) (v : PyValue) (record : Dict String PyValue) : Prop where
  mapping : v.mapping? = some record
  terminal : ((record.get? "terminal").getD .null).truthy = true
  fields : ∀ field ∈ query.asdict, field.1 ≠ priorField → record.get? field.1 = some field.2

/-- The gap of the query has reached a terminal outcome with the same semantic inputs. -/
def HasOutcome (queries : Dict String PyValue) (query : DefinitionQuery) : Prop :=
  ∃ k v record, queries.get? k = some v ∧ RecordsOutcome query v record

/-- Two queries that differ at most in their prior failures. -/
def Alike (query query' : DefinitionQuery) : Prop :=
  { query with priorFailureHashes := [] } = { query' with priorFailureHashes := [] }

theorem HasOutcome.alike {queries : Dict String PyValue} {query query' : DefinitionQuery} (h : HasOutcome queries query)
    (halike : Alike query query') : HasOutcome queries query' := by
  obtain ⟨k, v, record, hk, hrecord⟩ := h
  refine ⟨k, v, record, hk, hrecord.mapping, hrecord.terminal, fun field hfield hprior => ?_⟩
  refine hrecord.fields field ?_ hprior
  obtain ⟨conceptId, useSites, parentHash, typedIrHash, auditorHash, critic, counterexample, domain, codomain, required, hard,
    dependencies, environmentHash, prior⟩ := query
  obtain ⟨_, _, _, _, _, _, _, _, _, _, _, _, _, prior'⟩ := query'
  cases halike
  simp only [DefinitionQuery.asdict, List.mem_cons, List.not_mem_nil, or_false] at hfield ⊢
  rcases hfield with h | h | h | h | h | h | h | h | h | h | h | h | h | h
  all_goals first
    | exact absurd (congrArg Prod.fst h) hprior
    | simp only [h, true_or, or_true]

/-- A query without a settled record of its own adds to the records of the store. -/
theorem HasOutcome.set {store : ResolutionStore} {query : DefinitionQuery} {query' : DefinitionQuery}
    (hmissed : settledRecord store query = .ok none) (v' : PyValue) (h : HasOutcome store.queries query') :
    HasOutcome (store.queries.set query.fingerprint v') query' := by
  obtain ⟨k, v, record, hk, hrecord⟩ := h
  refine ⟨k, v, record, ?_, hrecord⟩
  rw [Dict.get?_set_ne]
  · exact hk
  rintro rfl
  -- a terminal record at this place would have been found
  have htruthy : v.truthy = true := by
    obtain ⟨entries, rfl⟩ : ∃ entries, v = .dict entries := by
      cases v with
      | dict entries => exact ⟨entries, rfl⟩
      | _ => cases hrecord.mapping
    obtain rfl : Dict.ofEntries entries = record := Option.some.inj hrecord.mapping
    rcases entries with _ | ⟨e, es⟩
    · cases hrecord.terminal
    · rfl
  unfold settledRecord at hmissed
  rw [hk] at hmissed
  dsimp only at hmissed
  rw [if_pos htruthy] at hmissed
  obtain ⟨found, hfound, hnone⟩ := bind_eq_ok.mp hmissed
  have hsame : found = record := by
    unfold mappingOf at hfound
    rw [hrecord.mapping] at hfound
    exact (Except.ok.inj hfound).symm
  rw [hsame, if_pos hrecord.terminal] at hnone
  cases hnone

variable (rt : Runtime)

/-- The names of the fields of a query. -/
def queryFields : List String :=
  ["concept_id", "use_sites", "parent_hash", "typed_ir_hash", "auditor_hash", "critic_evidence_hashes",
    "counterexample_evidence_hashes", "domain", "codomain", "required_properties", "hard_properties", "theorem_dependencies",
    "environment_hash", "prior_failure_hashes"]

theorem queryFields_nodup : queryFields.Nodup := by decide

/-- The outcome is recorded in fields of its own. -/
theorem queryFields_disjoint : ∀ name ∈ queryFields, name ∉ ["query_hash", "status", "terminal", "candidate_hashes",
    "branch_hashes", "property_statuses", "exhaustion_hash", "interface_hash", "committed_candidate_hash",
    "completed_at"] := by decide

/-- The record of a query has the fields of the query. -/
theorem recordsOutcome_queryRecord (query : DefinitionQuery) (survived : Bool) (outcome : Outcome) (judged : List Judged)
    (branchHashes : List String) (propertyMap : Dict String PyValue) :
    RecordsOutcome query (.dict (queryRecord rt query survived outcome judged branchHashes propertyMap).entries)
      (queryRecord rt query survived outcome judged branchHashes propertyMap) := by
  refine ⟨Orchestration.mapping?_entries _, ?_, fun field hfield _ => ?_⟩
  · rw [queryRecord_terminal]
    rfl
  · have hname : field.1 ∈ query.asdict.map Prod.fst := List.mem_map_of_mem hfield
    have hnodup : (query.asdict.map Prod.fst).Nodup := queryFields_nodup
    unfold queryRecord
    rw [Dict.get?_update_of_not_mem]
    · exact Dict.get?_update_of_mem hnodup hfield
    · exact queryFields_disjoint _ hname

/-! ### What a call leaves -/

/-- What a transaction that asks the sources enters into the store. -/
structure Entered (query : DefinitionQuery) (before : ResolutionStore) (r : ResolutionResult) (written : ResolutionStore) :
    Prop where
  queryHash : r.queryHash = query.fingerprint
  missed : settledRecord before query = .ok none
  queries : ∃ v record, written.queries = before.queries.set query.fingerprint v ∧ RecordsOutcome query v record
  history : written.historicalAudit = byKey before.historicalAudit
  committed : r.status = "COMMITTED" → ∃ v, written.commits = before.commits.set query.conceptId v
  uncommitted : r.status ≠ "COMMITTED" → written.commits = before.commits

/-- A single survivor is committed, and nothing else changes the commits. -/
theorem commits_settle {query : DefinitionQuery} {statuses : List SourceProvenance} {judged : List Judged}
    {store : ResolutionStore} {outcome : Outcome} (h : settle rt query statuses judged store = .ok outcome) :
    outcome.store.queries = store.queries ∧ outcome.store.historicalAudit = store.historicalAudit ∧
      (outcome.status = "COMMITTED" → ∃ v, outcome.store.commits = store.commits.set query.conceptId v) ∧
      (outcome.status ≠ "COMMITTED" → outcome.store.commits = store.commits) := by
  unfold settle at h
  split at h
  · cases h
    refine ⟨rfl, rfl, fun hcommitted => ?_, fun _ => rfl⟩
    dsimp only at hcommitted
    split at hcommitted
    · exact absurd hcommitted (by decide)
    · exact absurd hcommitted (by decide)
  · obtain ⟨source, -, h⟩ := bind_eq_ok.mp h
    cases h
    exact ⟨rfl, rfl, fun _ => ⟨_, rfl⟩, fun hcommitted => absurd rfl hcommitted⟩
  · cases h
    have hother : "PARENT_STATEMENT_UNDERSPECIFIED" ≠ "COMMITTED" := by decide
    exact ⟨rfl, rfl, fun hcommitted => absurd hcommitted hother, fun _ => rfl⟩

theorem entered_conclude {query : DefinitionQuery} {statuses : List SourceProvenance} {judged : List Judged}
    {store : ResolutionStore} {r : ResolutionResult} {written : ResolutionStore}
    (hmissed : settledRecord store query = .ok none) (h : conclude rt query statuses judged store = .ok (r, written)) :
    Entered query store r written := by
  unfold conclude at h
  dsimp only at h
  obtain ⟨outcome, houtcome, h⟩ := bind_eq_ok.mp h
  obtain ⟨hqueries, hhistory, hcommitted, huncommitted⟩ := commits_settle rt houtcome
  cases h
  have hentered (v : PyValue) : outcome.store.queries.set query.fingerprint v = store.queries.set query.fingerprint v := by
    rw [hqueries]
    rfl
  exact ⟨by dsimp only, hmissed, ⟨_, _, hentered _, recordsOutcome_queryRecord rt query _ outcome judged _ _⟩,
    congrArg byKey hhistory, hcommitted, huncommitted⟩

/-- A call of `resolve_one_concept` answers from the store and leaves it, or asks the sources and writes it. -/
theorem entered_resolve {registry : DefinitionSourceRegistry} {query : DefinitionQuery} {file : Option ResolutionStore}
    {context evidence : Dict String PyValue} {rankings : List String} {store : ResolutionStore} {r : ResolutionResult}
    {written : Option ResolutionStore} (hloaded : loadResolutionStore file query.environmentHash = .ok store)
    (h : resolveOneConcept rt registry query file context evidence rankings = .ok (r, written)) :
    (written = none ∧ r.queryHash = query.fingerprint ∧ r.status ≠ "COMMITTED" ∧
        ∃ record, settledRecord store query = .ok (some record)) ∨
      ∃ w, written = some w ∧ Settled query store r w ∧ Entered query store r w := by
  have hresolved := h
  unfold resolveOneConcept at h
  rw [hloaded] at h
  obtain ⟨store', hstore', h⟩ := bind_eq_ok.mp h
  cases hstore'
  obtain ⟨previous, hprevious, h⟩ := bind_eq_ok.mp h
  cases previous with
  | some record =>
    left
    obtain ⟨result, hresult, h⟩ := map_eq_ok.mp h
    cases h
    unfold replay at hresult
    split at hresult
    · cases hresult
    · obtain ⟨candidateHashes, -, hresult⟩ := bind_eq_ok.mp hresult
      obtain ⟨branchHashes, -, hresult⟩ := bind_eq_ok.mp hresult
      cases hresult
      refine ⟨rfl, rfl, ?_, record, hprevious⟩
      dsimp only
      unfold replayStatus
      split
      · decide
      · decide
  | none =>
    right
    obtain ⟨answer, -, h⟩ := bind_eq_ok.mp h
    obtain ⟨candidates, -, h⟩ := bind_eq_ok.mp h
    obtain ⟨ranked, -, h⟩ := bind_eq_ok.mp h
    obtain ⟨judged, -, h⟩ := bind_eq_ok.mp h
    obtain ⟨concluded, hconcluded, h⟩ := map_eq_ok.mp h
    cases h
    exact ⟨_, rfl, settled_resolve rt hloaded hresolved, entered_conclude rt hprevious hconcluded⟩

/-! ### Runs -/

/-- What differs from call to call: the answers of the compiler, and the time. -/
structure Surroundings where
  runCompiler : String → LeanRun
  now : PyValue

def Runtime.under (w : Surroundings) : Runtime := { rt with runCompiler := w.runCompiler, now := w.now }

/-- What a call asks does not depend on its surroundings. -/
theorem asks_under {inputs : GateInputs} {files : Files} {a : Asked} (w : Surroundings) :
    Asks (rt.under w) inputs files a ↔ Asks rt inputs files a :=
  ⟨fun h => ⟨h.opened, h.loaded, h.chosen, h.built⟩, fun h => ⟨h.opened, h.loaded, h.chosen, h.built⟩⟩

/-- The files after a write. -/
def Files.put (files : Files) : Commit → Files
  | .store s => { files with store := some s }
  | .checkpoint c => { files with checkpoint := c }

/-- The proof state is brought back. -/
def Files.broughtBack (files : Files) : Files :=
  { files with checkpoint := { files.checkpoint with state := definitionResolution.value } }

/-- The files before the next call. -/
def Files.called (inputs : GateInputs) (files : Files) : Files :=
  ((gateCommits rt inputs files).foldl Files.put files).broughtBack

def Commit.isStore : Commit → Bool
  | .store _ => true
  | .checkpoint _ => false

/-- The concept that the query for a gap is about. -/
def conceptOf (item : Dict String PyValue) : String :=
  stripped ((firstOf item ["definition_id", "concept_id"] (.str "")).text rt.quote)

/-- What a call did with the gap that it took up. -/
structure Work where
  gap : String
  query : DefinitionQuery
  /-- the store did not have the query, so that the sources were asked -/
  retrieved : Bool
  /-- a terminal outcome was written -/
  settled : Bool
  /-- the definition was committed before, and another one was not -/
  outOfTurn : Bool

def Asked.work (a : Asked) (settled : Bool) : Work where
  gap := gapId rt a.gap
  query := a.query
  retrieved := match settledRecord a.store a.query with
    | .ok none => true
    | _ => false
  settled := settled
  outOfTurn := decide (a.query.conceptId ∈ a.store.commits.keys) &&
    a.missing.any fun item => decide (conceptOf rt item ∉ a.store.commits.keys)

/-- The work of a call. -/
def work (inputs : GateInputs) (files : Files) : Option Work :=
  match asked rt inputs files with
  | .ok (some a) => some (a.work rt ((gateCommits rt inputs files).any Commit.isStore))
  | _ => none

theorem of_work {inputs : GateInputs} {files : Files} {x : Work} (h : work rt inputs files = some x) :
    ∃ a, Asks rt inputs files a ∧ x = a.work rt ((gateCommits rt inputs files).any Commit.isStore) := by
  unfold work at h
  split at h
  · rename_i a hasked
    exact ⟨a, (asked_eq_some rt).mp hasked, (Option.some.inj h).symm⟩
  · cases h

theorem work_of_asks {inputs : GateInputs} {files : Files} {a : Asked} (h : Asks rt inputs files a) :
    work rt inputs files = some (a.work rt ((gateCommits rt inputs files).any Commit.isStore)) := by
  unfold work
  rw [(asked_eq_some rt).mpr h]

/-- A run of calls: the files, and the work that was done. -/
structure GateRun where
  files : Files
  log : List Work := []

def GateRun.call (inputs : GateInputs) (g : GateRun) (w : Surroundings) : GateRun where
  files := g.files.called (rt.under w) inputs
  log := g.log ++ (work (rt.under w) inputs g.files).toList

def GateRun.step (inputs : GateInputs) (g : GateRun) (w : Surroundings) : Unit × GateRun := ((), g.call rt inputs w)

/-- The run that makes calls in a row. -/
def GateRun.after (inputs : GateInputs) (start : Files) (calls : List Surroundings) : GateRun :=
  Machine.final (GateRun.step rt inputs) ⟨start, []⟩ calls

theorem files_after_two (inputs : GateInputs) (start : Files) (w w' : Surroundings) :
    (GateRun.after rt inputs start [w, w']).files = (start.called (rt.under w) inputs).called (rt.under w') inputs := by
  unfold GateRun.after
  simp only [Machine.final, GateRun.step, GateRun.call]

theorem log_after_two (inputs : GateInputs) (start : Files) (w w' : Surroundings) :
    (GateRun.after rt inputs start [w, w']).log =
      ([] ++ (work (rt.under w) inputs start).toList) ++
        (work (rt.under w') inputs (start.called (rt.under w) inputs)).toList := rfl

/-! ### The gap of a call -/

/-- The chosen gap is the first one with its id. -/
theorem find?_of_chooseGap {missing : List (Dict String PyValue)} {requested : String} {committed : List String}
    {gap : Dict String PyValue} (h : chooseGap rt missing requested committed = some gap) :
    (missing.find? fun item => gapId rt item = gapId rt gap) = some gap := by
  unfold chooseGap at h
  rcases Option.or_eq_some_iff.mp h with hasked | ⟨-, hfirst⟩
  · split at hasked
    · have hid : gapId rt gap = requested := by simpa using List.find?_some hasked
      rw [hid]
      exact hasked
    · cases hasked
  · have hopen : gapId rt gap ∉ committed := by simpa using List.find?_some hfirst
    obtain ⟨-, before, after, rfl, hbefore⟩ := List.find?_eq_some_iff_append.mp hfirst
    have hskipped : (before.find? fun item => gapId rt item = gapId rt gap) = none := by
      rw [List.find?_eq_none]
      intro item hitem hsame
      have hcommitted : gapId rt item ∈ committed := by simpa using hbefore item hitem
      rw [decide_eq_true_eq] at hsame
      exact hopen (hsame ▸ hcommitted)
    rw [List.find?_append, hskipped, Option.none_or, List.find?_cons_of_pos (by simp)]

/-- The audit does not depend on the proof state, as long as the gate has something to do in it. -/
theorem openDefinitions_congr {inputs : GateInputs} {c c' : GateCheckpoint} {state state' : ProofState}
    (hgate : state ∈ gateStates) (hstate : c.state = state.value) (hgate' : state' ∈ gateStates)
    (hstate' : c'.state = state'.value) (hauditor : c.reading.auditor = c'.reading.auditor) :
    openDefinitions inputs c = openDefinitions inputs c' := by
  have hauditor' : c.validatedArtifacts.get? "definition_auditor" = c'.validatedArtifacts.get? "definition_auditor" := hauditor
  unfold openDefinitions
  rw [hstate, hstate', ofValue?_value, ofValue?_value]
  dsimp only
  rw [if_pos hgate, if_pos hgate', hauditor']

/-- The forbidden fingerprints make no other difference to a query. -/
theorem build_forbidden {quote : String → String} {gap : Dict String PyValue} {parentHash typedIrHash auditorHash : String}
    {critic counterexample dependencies : List String} {environmentHash : String} {forbidden : List String}
    {query : DefinitionQuery} (h : buildDefinitionQuery quote gap parentHash typedIrHash auditorHash critic counterexample
      dependencies environmentHash forbidden = .ok query) (forbidden' : List String) :
    buildDefinitionQuery quote gap parentHash typedIrHash auditorHash critic counterexample dependencies environmentHash
      forbidden' = .ok { query with priorFailureHashes := stableTuple quote (forbidden'.map .str) } := by
  unfold buildDefinitionQuery at h ⊢
  dsimp only at h ⊢
  split at h
  · cases h
  rename_i hconcept
  rw [if_neg hconcept]
  obtain ⟨useSites, huseSites, h⟩ := bind_eq_ok.mp h
  obtain ⟨required, hrequired, h⟩ := bind_eq_ok.mp h
  obtain ⟨hard, hhard, h⟩ := bind_eq_ok.mp h
  cases h
  exact bind_eq_ok.mpr ⟨_, huseSites, bind_eq_ok.mpr ⟨_, hrequired, bind_eq_ok.mpr ⟨_, hhard, rfl⟩⟩⟩

/-- The query for the same gap, with the same semantic inputs and other forbidden fingerprints. -/
theorem gateQuery_again {inputs : GateInputs} {c c' : GateCheckpoint} {reference : ArtifactRef} {gap : Dict String PyValue}
    {query : DefinitionQuery} (h : gateQuery rt inputs c reference gap = .ok query)
    (hinputs : Reading.SameInputs c'.reading c.reading) :
    gateQuery rt inputs c' reference gap =
      .ok { query with priorFailureHashes := stableTuple rt.quote (c'.reading.forbidden.map .str) } := by
  rw [gateQuery_reading] at h ⊢
  rw [hinputs.parent, hinputs.typedIr, hinputs.cards, hinputs.critic, hinputs.proponent, hinputs.counterexample]
  exact build_forbidden h _

/-- Two calls with the same semantic inputs that take up the same gap ask for it alike. -/
theorem alike_of_asks {inputs : GateInputs} {files files' : Files} {a a' : Asked} (hasks : Asks rt inputs files a)
    (hasks' : Asks rt inputs files' a')
    (hinputs : Reading.SameInputs files'.checkpoint.reading files.checkpoint.reading)
    (hid : gapId rt a'.gap = gapId rt a.gap) : Alike a.query a'.query := by
  obtain ⟨state, hgate, hstate⟩ := gateState_of_opened hasks.opened
  obtain ⟨state', hgate', hstate'⟩ := gateState_of_opened hasks'.opened
  have hopened := hasks'.opened
  rw [openDefinitions_congr hgate' hstate' hgate hstate hinputs.auditor, hasks.opened] at hopened
  obtain ⟨hreference, hmissing⟩ := Prod.mk.inj (Option.some.inj (Except.ok.inj hopened))
  have hgap : a'.gap = a.gap := by
    have hfirst := find?_of_chooseGap rt hasks.chosen
    have hfirst' := find?_of_chooseGap rt hasks'.chosen
    rw [← hmissing, hid, hfirst] at hfirst'
    exact (Option.some.inj hfirst').symm
  have hbuilt := hasks'.built
  rw [hgap, ← hreference, gateQuery_again rt hasks.built hinputs] at hbuilt
  rw [← Except.ok.inj hbuilt]
  rfl

/-! ### The effect of a call -/

/-- What a call changes. -/
inductive Effect (inputs : GateInputs) (files : Files) : Files → Prop
  | kept {files' : Files} (hstore : files'.store = files.store)
      (hinputs : Reading.SameInputs files'.checkpoint.reading files.checkpoint.reading)
      (hadded : files'.checkpoint.definitionsAdded = files.checkpoint.definitionsAdded)
      (hsettled : (gateCommits rt inputs files).any Commit.isStore = false)
      (hnone : ∀ a r w, Asks rt inputs files a → ¬ Resolves rt inputs files a r (some w)) : Effect inputs files files'
  | settled {files' : Files} {a : Asked} {r : ResolutionResult} {written : ResolutionStore} (hasks : Asks rt inputs files a)
      (hresolves : Resolves rt inputs files a r (some written)) (hentered : Entered a.query a.store r written)
      (hloads : Settled a.query a.store r written) (hwrites : (gateCommits rt inputs files).any Commit.isStore = true)
      (hstore : files'.store = some written)
      (hreading : files'.checkpoint.reading = files.checkpoint.reading.noted (gapId rt a.gap) r) : Effect inputs files files'

theorem entered_gateResolve {inputs : GateInputs} {files : Files} {a : Asked} {r : ResolutionResult}
    {written : Option ResolutionStore} (hasks : Asks rt inputs files a)
    (hresolved : Resolves rt inputs files a r written) :
    (written = none ∧ r.status ≠ "COMMITTED") ∨
      ∃ w, written = some w ∧ Settled a.query a.store r w ∧ Entered a.query a.store r w := by
  obtain ⟨history, -, hresolved⟩ := bind_eq_ok.mp hresolved
  have hloaded : loadResolutionStore files.store a.query.environmentHash = .ok a.store := by
    rw [environmentHash_of_gateQuery rt hasks.built]
    exact hasks.loaded
  rcases entered_resolve rt hloaded hresolved with ⟨hnone, -, hstatus, -⟩ | hsome
  · exact .inl ⟨hnone, hstatus⟩
  · exact .inr hsome

theorem effect_called (inputs : GateInputs) (files : Files) : Effect rt inputs files (files.called rt inputs) := by
  have hcalled := called_gate rt inputs files
  unfold Files.called
  generalize hcommits : gateCommits rt inputs files = commits at hcalled ⊢
  -- a query is resolved in one way
  have hanswered {a : Asked} {r : ResolutionResult} (hasks : Asks rt inputs files a)
      (hresolved : Resolves rt inputs files a r none) :
      ∀ a r w, Asks rt inputs files a → ¬ Resolves rt inputs files a r (some w) := by
    intro a' r' w hasks' hresolved'
    obtain rfl := hasks'.unique rt hasks
    cases hresolved.symm.trans hresolved'
  cases hcalled with
  | nothing hnone => exact .kept rfl .rfl rfl (by rw [hcommits]; rfl) fun a r w => hnone a r (some w)
  | @noGap reference missing store c hopened hloaded hgap hreading =>
    refine .kept rfl ?_ (congrArg Reading.added hreading) (by rw [hcommits]; rfl) fun a r w hasks => ?_
    · show Reading.SameInputs c.reading files.checkpoint.reading
      rw [hreading]
      exact ⟨rfl, rfl, rfl, rfl, rfl, rfl, rfl⟩
    · obtain ⟨rfl, rfl⟩ := Prod.mk.inj (Option.some.inj (Except.ok.inj (hopened.symm.trans hasks.opened)))
      obtain rfl := Except.ok.inj (hloaded.symm.trans hasks.loaded)
      cases hgap.symm.trans hasks.chosen
  | cut hasks hresolved hfails =>
    rcases entered_gateResolve rt hasks hresolved with ⟨rfl, -⟩ | ⟨w, rfl, hsettled, -⟩
    · exact .kept rfl .rfl rfl (by rw [hcommits]; rfl) (hanswered hasks hresolved)
    · obtain ⟨properties, hcopies⟩ := hsettled.copies
      exact absurd hcopies (hfails properties)
  | @resolved a r _ mid last hasks hresolved hstate hreading =>
    rcases entered_gateResolve rt hasks hresolved with ⟨rfl, hstatus⟩ | ⟨w, rfl, hsettled, hentered⟩
    · have hadded : last.definitionsAdded = files.checkpoint.definitionsAdded + if r.status = "COMMITTED" then 1 else 0 :=
        congrArg Reading.added hreading
      rw [if_neg hstatus, add_zero] at hadded
      refine .kept rfl ?_ hadded (by rw [hcommits]; rfl) (hanswered hasks hresolved)
      show Reading.SameInputs last.reading files.checkpoint.reading
      rw [hreading]
      exact Reading.sameInputs_noted _ _ _
    · exact .settled hasks hresolved hentered hsettled (by rw [hcommits]; rfl) rfl hreading

namespace Effect

variable {rt} {inputs : GateInputs} {files files' : Files}

theorem sameInputs (h : Effect rt inputs files files') :
    Reading.SameInputs files'.checkpoint.reading files.checkpoint.reading := by
  cases h with
  | kept hstore hinputs hadded hsettled hnone => exact hinputs
  | settled hasks hresolves hentered hloads hwrites hstore hreading =>
    rw [hreading]
    exact Reading.sameInputs_noted _ _ _

/-- No outcome is lost. -/
theorem hasOutcome (h : Effect rt inputs files files') {query : DefinitionQuery} (hquery : HasOutcome files.queries query) :
    HasOutcome files'.queries query := by
  cases h with
  | kept hstore hinputs hadded hsettled hnone =>
    unfold Files.queries at hquery ⊢
    rw [hstore]
    exact hquery
  | settled hasks hresolves hentered hloads hwrites hstore hreading =>
    obtain ⟨v, record, hqueries, -⟩ := hentered.queries
    rw [← (of_load hasks.loaded).2] at hquery
    have hset := HasOutcome.set hentered.missed v hquery
    rw [← hqueries, ← queries_of_store hstore] at hset
    exact hset

/-- A call that writes the store enters the outcome of its query. -/
theorem enters (h : Effect rt inputs files files') {a : Asked} (hasks : Asks rt inputs files a)
    (hwrites : (gateCommits rt inputs files).any Commit.isStore = true) : HasOutcome files'.queries a.query := by
  cases h with
  | kept hstore hinputs hadded hsettled hnone =>
    rw [hsettled] at hwrites
    cases hwrites
  | settled hasks' hresolves hentered hloads hwritten hstore hreading =>
    obtain rfl := hasks'.unique rt hasks
    obtain ⟨v, record, hqueries, hrecord⟩ := hentered.queries
    rw [queries_of_store hstore, hqueries]
    exact ⟨_, v, record, Dict.get?_set_self _ _ _, hrecord⟩

/-- A call that takes up no committed definition counts what it commits. -/
theorem counts (h : Effect rt inputs files files')
    (hnew : ∀ a, Asks rt inputs files a → a.query.conceptId ∉ a.store.commits.keys) :
    files'.checkpoint.definitionsAdded - files.checkpoint.definitionsAdded =
      (files'.definitions.size : Int) - files.definitions.size := by
  cases h with
  | kept hstore hinputs hadded hsettled hnone =>
    unfold Files.definitions
    rw [hadded, hstore, sub_self, sub_self]
  | @settled a r written hasks hresolves hentered hloads hwrites hstore hreading =>
    have hadded : files'.checkpoint.definitionsAdded =
        files.checkpoint.definitionsAdded + if r.status = "COMMITTED" then 1 else 0 := congrArg Reading.added hreading
    have hbefore : files.definitions = a.store.commits := (of_load hasks.loaded).1.symm
    rw [hadded, hbefore, definitions_of_store hstore]
    by_cases hcommitted : r.status = "COMMITTED"
    · obtain ⟨v, hv⟩ := hentered.committed hcommitted
      rw [if_pos hcommitted, hv, Dict.size_set_new v (Dict.not_mem_keys_iff.mp (hnew a hasks))]
      omega
    · rw [if_neg hcommitted, hentered.uncommitted hcommitted]
      omega

end Effect

/-! ### Every gap once -/

/-- Every gap is settled once in the run. -/
structure SettlesOnce (start : Files) (g : GateRun) : Prop where
  /-- a gap that was settled in the run is not retrieved again -/
  once : g.log.Pairwise fun x y => x.settled = true → y.gap = x.gap → y.retrieved = false
  /-- nor is one that was settled before, with the same semantic inputs -/
  onceBefore : ∀ x ∈ g.log, HasOutcome start.queries x.query → x.retrieved = false
  /-- no committed definition is worked on while another one is not committed -/
  inTurn : ∀ x ∈ g.log, x.outOfTurn = false
  /-- the count has grown with the committed definitions -/
  counted : g.files.checkpoint.definitionsAdded - start.checkpoint.definitionsAdded =
    (g.files.definitions.size : Int) - start.definitions.size

/-- The next call takes up a gap that is not committed and, if its query has an outcome that was recorded under other prior
failures, it has one under these. -/
structure Fresh (inputs : GateInputs) (files : Files) : Prop where
  uncommitted : ∀ a, asked rt inputs files = .ok (some a) → a.query.conceptId ∉ a.store.commits.keys
  recorded : ∀ a, asked rt inputs files = .ok (some a) → HasOutcome a.store.queries a.query →
    ∃ record, settledRecord a.store a.query = .ok (some record)

/-- What a run keeps. -/
structure Accounted (inputs : GateInputs) (start : Files) (g : GateRun) : Prop where
  semantics : Reading.SameInputs g.files.checkpoint.reading start.checkpoint.reading
  kept : ∀ query, HasOutcome start.queries query → HasOutcome g.files.queries query
  recorded : ∀ x ∈ g.log, x.settled = true → HasOutcome g.files.queries x.query
  posed : ∀ x ∈ g.log, ∃ files a, Asks rt inputs files a ∧
    Reading.SameInputs files.checkpoint.reading start.checkpoint.reading ∧ x.gap = gapId rt a.gap ∧ x.query = a.query
  settlesOnce : SettlesOnce start g

section Steps

variable {rt} {inputs : GateInputs} {start : Files} {g : GateRun}

theorem accounted_start (inputs : GateInputs) (start : Files) : Accounted rt inputs start ⟨start, []⟩ where
  semantics := .rfl
  kept := fun _ h => h
  recorded := fun _ hx => by cases hx
  posed := fun _ hx => by cases hx
  settlesOnce := {
    once := .nil
    onceBefore := fun _ hx => by cases hx
    inTurn := fun _ hx => by cases hx
    counted := by rw [sub_self, sub_self] }

/-- The gap of a fresh call is not retrieved if its outcome is known. -/
theorem Fresh.not_retrieved {files : Files} (hfresh : Fresh rt inputs files) {a : Asked} (hasks : Asks rt inputs files a)
    (hknown : HasOutcome files.queries a.query) (settled : Bool) : (a.work rt settled).retrieved = false := by
  rw [← (of_load hasks.loaded).2] at hknown
  obtain ⟨record, hrecord⟩ := hfresh.recorded a ((asked_eq_some rt).mpr hasks) hknown
  unfold Asked.work
  rw [hrecord]

theorem Fresh.inTurn {files : Files} (hfresh : Fresh rt inputs files) {a : Asked} (hasks : Asks rt inputs files a)
    (settled : Bool) : (a.work rt settled).outOfTurn = false := by
  have huncommitted := hfresh.uncommitted a ((asked_eq_some rt).mpr hasks)
  unfold Asked.work
  simp only [decide_eq_false huncommitted, Bool.false_and]

theorem accounted_call (w : Surroundings) (h : Accounted rt inputs start g) (hfresh : Fresh rt inputs g.files) :
    Accounted rt inputs start (g.call rt inputs w) := by
  have heffect := effect_called (rt.under w) inputs g.files
  have hcounts := heffect.counts fun a hasks =>
    hfresh.uncommitted a ((asked_eq_some rt).mpr ((asks_under rt w).mp hasks))
  have hcounted : (g.files.called (rt.under w) inputs).checkpoint.definitionsAdded - start.checkpoint.definitionsAdded =
      ((g.files.called (rt.under w) inputs).definitions.size : Int) - start.definitions.size := by
    have hbefore := h.settlesOnce.counted
    omega
  unfold GateRun.call
  rcases hwork : work (rt.under w) inputs g.files with _ | x
  · rw [Option.toList_none, List.append_nil]
    exact {
      semantics := heffect.sameInputs.trans h.semantics
      kept := fun query hquery => heffect.hasOutcome (h.kept query hquery)
      recorded := fun x hx hsettled => heffect.hasOutcome (h.recorded x hx hsettled)
      posed := h.posed
      settlesOnce := ⟨h.settlesOnce.once, h.settlesOnce.onceBefore, h.settlesOnce.inTurn, hcounted⟩ }
  obtain ⟨a, hasks', rfl⟩ := of_work _ hwork
  have hasks : Asks rt inputs g.files a := (asks_under rt w).mp hasks'
  rw [Option.toList_some]
  exact {
    semantics := heffect.sameInputs.trans h.semantics
    kept := fun query hquery => heffect.hasOutcome (h.kept query hquery)
    recorded := by
      intro x hx hsettled
      rcases List.mem_append.mp hx with hx | hx
      · exact heffect.hasOutcome (h.recorded x hx hsettled)
      · obtain rfl := List.mem_singleton.mp hx
        exact heffect.enters hasks' hsettled
    posed := by
      intro x hx
      rcases List.mem_append.mp hx with hx | hx
      · exact h.posed x hx
      · obtain rfl := List.mem_singleton.mp hx
        exact ⟨g.files, a, hasks, h.semantics, rfl, rfl⟩
    settlesOnce := {
      once := by
        refine List.pairwise_append.mpr ⟨h.settlesOnce.once, List.pairwise_singleton _ _, fun x hx y hy hsettled hgap => ?_⟩
        obtain rfl := List.mem_singleton.mp hy
        obtain ⟨files, a', hasked, hinputs, hgap', hquery⟩ := h.posed x hx
        have halike : Alike a'.query a.query :=
          alike_of_asks rt hasked hasks (h.semantics.trans hinputs.symm) (hgap.trans hgap')
        have houtcome := h.recorded x hx hsettled
        rw [hquery] at houtcome
        exact hfresh.not_retrieved hasks (houtcome.alike halike) _
      onceBefore := by
        intro x hx hknown
        rcases List.mem_append.mp hx with hx | hx
        · exact h.settlesOnce.onceBefore x hx hknown
        · obtain rfl := List.mem_singleton.mp hx
          exact hfresh.not_retrieved hasks (h.kept _ hknown) _
      inTurn := by
        intro x hx
        rcases List.mem_append.mp hx with hx | hx
        · exact h.settlesOnce.inTurn x hx
        · obtain rfl := List.mem_singleton.mp hx
          exact hfresh.inTurn hasks _
      counted := hcounted } }

end Steps

/-- Every call of the run is a fresh one. -/
def FreshRun (inputs : GateInputs) (start : Files) (calls : List Surroundings) : Prop :=
  Machine.AllSteps (GateRun.step rt inputs) (fun g _ => Fresh rt inputs g.files) ⟨start, []⟩ calls

/-- A call that writes the store resolves what it asks. -/
theorem resolves_of_writes {inputs : GateInputs} {files : Files} {a : Asked} (hasks : Asks rt inputs files a)
    (hwrites : (gateCommits rt inputs files).any Commit.isStore = true) :
    ∃ r written, Resolves rt inputs files a r (some written) := by
  cases effect_called rt inputs files with
  | kept hstore hinputs hadded hsettled hnone =>
    rw [hsettled] at hwrites
    cases hwrites
  | @settled a' r written hasks' hresolves =>
    obtain rfl := hasks'.unique rt hasks
    exact ⟨r, written, hresolves⟩

/-- The query again, with other forbidden fingerprints and another store. -/
def Asked.again (a : Asked) (store : ResolutionStore) (forbidden : List String) : Asked :=
  { a with
    store := store
    query := { a.query with priorFailureHashes := stableTuple rt.quote (forbidden.map .str) } }

/-- After a call that settled a gap the gate takes up the same gap again, and forbids the fingerprint that it had. -/
theorem settled_again {inputs : GateInputs} {files : Files} {a : Asked} {r : ResolutionResult} {written : ResolutionStore}
    (hasks : Asks rt inputs files a) (hresolves : Resolves rt inputs files a r (some written)) :
    (files.called rt inputs).store = some written ∧
      (files.called rt inputs).checkpoint.reading = files.checkpoint.reading.noted (gapId rt a.gap) r ∧
      Entered a.query a.store r written ∧ (gateCommits rt inputs files).any Commit.isStore = true ∧
      Asks rt inputs (files.called rt inputs)
        (a.again rt written (forbid files.checkpoint.forbiddenSemanticFingerprints a.query.fingerprint)) := by
  cases effect_called rt inputs files with
  | kept hstore hinputs hadded hsettled hnone => exact absurd hresolves (hnone a r written hasks)
  | @settled a' r' written' hasks' hresolves' hentered hsettled hwrites hstore hreading =>
    obtain rfl := hasks'.unique rt hasks
    obtain ⟨rfl, hwritten⟩ := Prod.mk.inj (Except.ok.inj (hresolves'.symm.trans hresolves))
    obtain rfl := Option.some.inj hwritten
    refine ⟨hstore, hreading, hentered, hwrites, ?_⟩
    have hbroughtBack : (files.called rt inputs).checkpoint.state = definitionResolution.value := rfl
    have hinputs : Reading.SameInputs (files.called rt inputs).checkpoint.reading files.checkpoint.reading := by
      rw [hreading]
      exact Reading.sameInputs_noted _ _ _
    have hgap : (files.called rt inputs).checkpoint.currentDefinitionGapId = gapId rt a'.gap := congrArg Reading.gap hreading
    have hforbidden : (files.called rt inputs).checkpoint.reading.forbidden =
        forbid files.checkpoint.forbiddenSemanticFingerprints a'.query.fingerprint := by
      rw [hreading, ← hentered.queryHash]
      rfl
    obtain ⟨state, hgate, hstate⟩ := gateState_of_opened hasks.opened
    constructor
    · rw [openDefinitions_congr (List.mem_cons_self ..) hbroughtBack hgate hstate hinputs.auditor]
      exact hasks.opened
    · rw [hstore]
      exact hsettled.loads _
    · -- the gap is asked for by its name
      have hid := gapId_ne_empty rt (isGap_of_chooseGap rt hasks.opened hasks.chosen) hasks.built
      unfold chooseGap
      rw [hgap, if_pos hid]
      dsimp only [Asked.again]
      rw [find?_of_chooseGap rt hasks.chosen]
      rfl
    · rw [← hforbidden]
      exact gateQuery_again rt hasks.built hinputs

/-- A committed definition is counted. -/
theorem added_committed {files files' : Files} {gap : String} {r : ResolutionResult}
    (hreading : files'.checkpoint.reading = files.checkpoint.reading.noted gap r) (hcommitted : r.status = "COMMITTED") :
    files'.checkpoint.definitionsAdded = files.checkpoint.definitionsAdded + 1 := by
  have h : files'.checkpoint.definitionsAdded = files.checkpoint.definitionsAdded + if r.status = "COMMITTED" then 1 else 0 :=
    congrArg Reading.added hreading
  rw [if_pos hcommitted] at h
  exact h

/-- The store does not know the query again under another fingerprint. -/
theorem Entered.missed_again {query query' : DefinitionQuery} {before written : ResolutionStore} {r : ResolutionResult}
    (h : Entered query before r written) (hother : query'.fingerprint ≠ query.fingerprint)
    (hnew : before.queries.get? query'.fingerprint = none) : settledRecord written query' = .ok none := by
  obtain ⟨v, record, hqueries, -⟩ := h.queries
  unfold settledRecord
  rw [hqueries, Dict.get?_set_ne v hother, hnew]

/-- Of two calls in a row the second one asks the sources again for the gap that the first one settled, unless the store
has the record of the query with the fingerprint of the first one among its prior failures. -/
theorem second_call_retrieves {inputs : GateInputs} {start : Files} {a : Asked} {w : Surroundings} {r : ResolutionResult}
    {written : ResolutionStore} (hasks : Asks rt inputs start a)
    (hresolves : Resolves (rt.under w) inputs start a r (some written))
    (hother : (a.again rt written (forbid start.checkpoint.forbiddenSemanticFingerprints a.query.fingerprint)).query.fingerprint ≠
      a.query.fingerprint)
    (hnew : a.store.queries.get?
      (a.again rt written (forbid start.checkpoint.forbiddenSemanticFingerprints a.query.fingerprint)).query.fingerprint = none)
    (w' : Surroundings) : ¬ SettlesOnce start (GateRun.after rt inputs start [w, w']) := by
  have hfirst := (asks_under rt w).mpr hasks
  obtain ⟨-, -, hentered, hwrites, hagain⟩ := settled_again (rt.under w) hfirst hresolves
  have hsecond := (asks_under rt w').mpr ((asks_under rt w).mp hagain)
  have hlog := log_after_two rt inputs start w w'
  rw [work_of_asks (rt.under w) hfirst, work_of_asks (rt.under w') hsecond, hwrites] at hlog
  intro hsettles
  have honce := hsettles.once
  rw [hlog] at honce
  have hretrieved := List.rel_of_pairwise_cons honce (List.mem_singleton.mpr rfl) rfl rfl
  have hmissed := hentered.missed_again hother hnew
  unfold Asked.work at hretrieved
  dsimp only at hretrieved
  split at hretrieved
  · cases hretrieved
  · rename_i hfound
    exact hfound hmissed

/-- A candidate without others is the first one. -/
theorem normalizeCandidates_single {quote : String → String} {query : DefinitionQuery} {raw : List PyValue}
    {statuses : List SourceProvenance} {c : TypedDefinitionCandidate}
    (h : raw.mapM (normalizeCandidate quote query (Dict.ofEntries (statuses.map fun s => (s.sourceId, s)))) = .ok [some c]) :
    normalizeCandidates quote query raw statuses = .ok [{ c with shortId := "C1" }] := by
  refine bind_eq_ok.mpr ⟨_, h, ?_⟩
  have hget : (Dict.ofEntries [(c.contentHash, c)]).get? c.contentHash = some c :=
    Dict.get?_set_self Dict.empty c.contentHash c
  have hordered : [c.contentHash].filterMap (Dict.ofEntries [(c.contentHash, c)]).get? = [c] := by
    rw [List.filterMap_cons_some hget]
    rfl
  show Except.ok (([c.contentHash].filterMap (Dict.ofEntries [(c.contentHash, c)]).get?).mapIdx _) = _
  rw [hordered]
  rfl

/-- The only candidate that the sources have, judged. -/
def onlyCandidate (registry : DefinitionSourceRegistry) (query : DefinitionQuery) (context : Dict String PyValue) :
    Option Judged :=
  match retrieve registry query context with
  | .ok (raw, statuses) =>
    match raw.mapM (normalizeCandidate rt.quote query (Dict.ofEntries (statuses.map fun s => (s.sourceId, s)))) with
    | .ok [some c] => (judge rt query Dict.empty { c with shortId := "C1" }).toOption
    | _ => none
  | .error _ => none

/-- The candidate can be committed. -/
def committable (query : DefinitionQuery) (j : Judged) : Bool :=
  j.survives query && (leanSource j.candidate).toBool

theorem conclude_committed {query : DefinitionQuery} (statuses : List SourceProvenance) {j : Judged}
    (store : ResolutionStore) (hcommittable : committable query j = true) :
    ∃ r written, conclude rt query statuses [j] store = .ok (r, written) ∧ r.status = "COMMITTED" := by
  obtain ⟨hsurvives, hsource⟩ := Bool.and_eq_true_iff.mp hcommittable
  obtain ⟨source, hsource⟩ : ∃ source, leanSource j.candidate = .ok source := by
    rcases h : leanSource j.candidate with e | source
    · rw [h] at hsource
      cases hsource
    · exact ⟨source, rfl⟩
  obtain ⟨outcome, houtcome, hstatus⟩ : ∃ outcome,
      settle rt query statuses [j] (storeCandidates query [j] store) = .ok outcome ∧ outcome.status = "COMMITTED" := by
    unfold settle
    rw [List.filter_cons_of_pos hsurvives]
    exact ⟨_, bind_eq_ok.mpr ⟨source, hsource, rfl⟩, rfl⟩
  exact ⟨_, _, bind_eq_ok.mpr ⟨outcome, houtcome, rfl⟩, hstatus⟩

/-- A query that the store does not know is committed if its only candidate can be. -/
theorem resolves_committed {inputs : GateInputs} {files : Files} {a : Asked} {history : List PyValue} {j : Judged}
    (hasks : Asks rt inputs files a) (hmissed : settledRecord a.store a.query = .ok none)
    (hhistory : verifiedHistory a.store = .ok history)
    (honly : onlyCandidate rt (defaultSourceRegistry rt.quote rt.unicode inputs.projectRoot inputs.oproofsRoot) a.query
      (Dict.ofEntries [("validated_history", .list history)]) = some j) (hcommittable : committable a.query j = true) :
    ∃ r written, Resolves rt inputs files a r (some written) ∧ r.status = "COMMITTED" := by
  have hloaded : loadResolutionStore files.store a.query.environmentHash = .ok a.store := by
    rw [environmentHash_of_gateQuery rt hasks.built]
    exact hasks.loaded
  unfold onlyCandidate at honly
  split at honly
  · rename_i raw statuses hretrieved
    split at honly
    · rename_i c hnormalized
      have hjudged : judge rt a.query Dict.empty { c with shortId := "C1" } = .ok j := by
        rcases h : judge rt a.query Dict.empty { c with shortId := "C1" } with e | j'
        · rw [h] at honly
          cases honly
        · rw [h] at honly
          exact congrArg Except.ok (Option.some.inj honly)
      obtain ⟨r, written, hconcluded, hcommitted⟩ := conclude_committed rt statuses a.store hcommittable
      refine ⟨r, written, ?_, hcommitted⟩
      refine bind_eq_ok.mpr ⟨history, hhistory, bind_eq_ok.mpr ⟨a.store, hloaded, bind_eq_ok.mpr ⟨none, hmissed, ?_⟩⟩⟩
      refine bind_eq_ok.mpr ⟨(raw, statuses), hretrieved, bind_eq_ok.mpr ⟨_, normalizeCandidates_single hnormalized,
        bind_eq_ok.mpr ⟨[{ c with shortId := "C1" }], rfl, bind_eq_ok.mpr ⟨[j], ?_, ?_⟩⟩⟩⟩
      · exact mapM_cons_eq_ok.mpr ⟨j, [], hjudged, rfl, rfl⟩
      · exact map_eq_ok.mpr ⟨(r, written), hconcluded, rfl⟩
    · cases honly
  · cases honly

/-! ### Two calls -/

/-- A store with a definition that was verified before. -/
def verifiedStore : ResolutionStore :=
  ResolutionStore.sealed { emptyStore "env" with
    historicalAudit := Dict.ofEntries [("growth", .dict [("concept_id", .str "DEF_GROWTH_ORDER"),
      ("semantic_validation", .str "VERIFIED"), ("source_id", .str "validated_history"),
      ("declaration_name", .str "growthOrder"), ("typed_expression", .str "fun n => n")])] }

/-- An audit with two missing definitions, the first of which was verified before. -/
def openInputs : GateInputs :=
  { exampleInputs "" with
    readAudit := fun _ => some (.dict [("missing_definitions",
      .list [.dict [("definition_id", .str "DEF_GROWTH_ORDER")], .dict [("definition_id", .str "DEF_DENSITY")]])]) }

def openFiles : Files := { exampleFiles with store := some verifiedStore }

/-- What the first call asks. -/
def firstAsked : Asked where
  store := verifiedStore
  reference := ⟨"definition_auditor", "ab12", 1, [], "/run/ab12.json", "run-1", .float "0.5"⟩
  missing := [Dict.ofEntries [("definition_id", .str "DEF_GROWTH_ORDER")],
    Dict.ofEntries [("definition_id", .str "DEF_DENSITY")]]
  gap := Dict.ofEntries [("definition_id", .str "DEF_GROWTH_ORDER")]
  query := { conceptId := "DEF_GROWTH_ORDER", useSites := [], parentHash := "", typedIrHash := "", auditorHash := "ab12",
             criticEvidenceHashes := [], counterexampleEvidenceHashes := [], domain := "", codomain := "",
             requiredProperties := [], hardProperties := [], theoremDependencies := [], environmentHash := "env",
             priorFailureHashes := [] }

theorem asks_first : Asks exampleRuntime openInputs openFiles firstAsked := by
  constructor
  · rfl
  · exact load_sealed rfl rfl _
  · rfl
  · rfl

/-- The second query. -/
def secondQuery : DefinitionQuery :=
  { firstAsked.query with
    priorFailureHashes := stableTuple id ((forbid [] firstAsked.query.fingerprint).map .str) }

theorem secondQuery_fingerprint : secondQuery.fingerprint ≠ firstAsked.query.fingerprint := by decide +kernel

/-- The candidate of a query for the verified definition. -/
def openCandidate (query : DefinitionQuery) : Option Judged :=
  onlyCandidate exampleRuntime (defaultSourceRegistry id Orchestration.asciiOnly "/project" none) query
    (Dict.ofEntries [("validated_history", .list verifiedStore.historicalAudit.values)])

theorem openCandidate_committable :
    (∃ j, openCandidate firstAsked.query = some j ∧ committable firstAsked.query j = true) ∧
      ∃ j, openCandidate secondQuery = some j ∧ committable secondQuery j = true := by
  have hfirst : (openCandidate firstAsked.query).any (committable firstAsked.query) = true := by decide +kernel
  have hsecond : (openCandidate secondQuery).any (committable secondQuery) = true := by decide +kernel
  exact ⟨(Option.any_eq_true _ _).mp hfirst, (Option.any_eq_true _ _).mp hsecond⟩

/-- Two times at which the gate is called. -/
def firstCall : Surroundings := ⟨exampleRuntime.runCompiler, .float "1.5"⟩

def secondCall : Surroundings := ⟨exampleRuntime.runCompiler, .float "2.5"⟩

/-- On an empty store the first gap is exhausted twice. -/
theorem exhausts_twice :
    ¬ SettlesOnce exampleFiles (GateRun.after exampleRuntime openInputs exampleFiles [firstCall, secondCall]) := by
  have hasks : Asks exampleRuntime openInputs exampleFiles { firstAsked with store := emptyStore "env" } :=
    ⟨asks_first.opened, rfl, rfl, asks_first.built⟩
  have hwrites : (gateCommits (exampleRuntime.under firstCall) openInputs exampleFiles).any Commit.isStore = true := by
    decide +kernel
  obtain ⟨r, written, hresolves⟩ :=
    resolves_of_writes (exampleRuntime.under firstCall) ((asks_under exampleRuntime firstCall).mpr hasks) hwrites
  exact second_call_retrieves exampleRuntime hasks hresolves secondQuery_fingerprint rfl secondCall

/-- On a store with a verified definition the definition is committed twice and counted twice, while the other one is still
to be resolved. -/
theorem commits_twice :
    ¬ SettlesOnce openFiles (GateRun.after exampleRuntime openInputs openFiles [firstCall, secondCall]) ∧
      (∃ x ∈ (GateRun.after exampleRuntime openInputs openFiles [firstCall, secondCall]).log, x.outOfTurn = true) ∧
      (GateRun.after exampleRuntime openInputs openFiles [firstCall, secondCall]).files.checkpoint.definitionsAdded = 2 ∧
      (GateRun.after exampleRuntime openInputs openFiles [firstCall, secondCall]).files.definitions.size = 1 := by
  obtain ⟨⟨j, hj, hcommittable⟩, j', hj', hcommittable'⟩ := openCandidate_committable
  -- the first call commits the definition
  have hfirst := (asks_under exampleRuntime firstCall).mpr asks_first
  obtain ⟨r, written, hresolves, hcommitted⟩ :=
    resolves_committed (exampleRuntime.under firstCall) hfirst rfl (show verifiedHistory verifiedStore = .ok verifiedStore.historicalAudit.values from rfl) hj
      hcommittable
  obtain ⟨-, hreading, hentered, -, hagain⟩ := settled_again (exampleRuntime.under firstCall) hfirst hresolves
  obtain ⟨v, hcommits⟩ := hentered.committed hcommitted
  -- the second call takes it up again
  have hsecond := (asks_under exampleRuntime secondCall).mpr ((asks_under exampleRuntime firstCall).mp hagain)
  have hmissed : settledRecord written secondQuery = .ok none := hentered.missed_again secondQuery_fingerprint rfl
  have hhistory : verifiedHistory written = .ok verifiedStore.historicalAudit.values := by
    unfold verifiedHistory
    rw [hentered.history]
    rfl
  obtain ⟨r', written', hresolves', hcommitted'⟩ :=
    resolves_committed (exampleRuntime.under secondCall) hsecond hmissed hhistory hj' hcommittable'
  obtain ⟨hstore', hreading', hentered', -, -⟩ := settled_again (exampleRuntime.under secondCall) hsecond hresolves'
  obtain ⟨v', hcommits'⟩ := hentered'.committed hcommitted'
  have hcommits : written.commits = Dict.ofEntries [("DEF_GROWTH_ORDER", v)] := hcommits
  have hcommits' : written'.commits = written.commits.set "DEF_GROWTH_ORDER" v' := hcommits'
  have hadded := added_committed hreading hcommitted
  have hadded' := added_committed hreading' hcommitted'
  have hwork := work_of_asks (exampleRuntime.under secondCall) hsecond
  have hdefinitions := definitions_of_store hstore'
  have hsettles := second_call_retrieves exampleRuntime asks_first hresolves secondQuery_fingerprint rfl secondCall
  have hrun := files_after_two exampleRuntime openInputs openFiles firstCall secondCall
  have hlog := log_after_two exampleRuntime openInputs openFiles firstCall secondCall
  have hstart : openFiles.checkpoint.definitionsAdded = 0 := rfl
  refine ⟨hsettles, ?_, ?_, ?_⟩
  · rw [hlog, hwork]
    refine ⟨_, List.mem_append_right _ List.mem_cons_self, ?_⟩
    unfold Asked.work Asked.again
    dsimp only
    rw [hcommits]
    rfl
  · rw [hrun, hadded', hadded, hstart]
    rfl
  · have hold : written.commits.get? "DEF_GROWTH_ORDER" = some v := by
      rw [hcommits]
      rfl
    rw [hrun, hdefinitions, hcommits', Dict.size_set_old v' hold, hcommits]
    rfl

end Definitions

end KakeyaEngine
