import KakeyaEngine.Lib.Fallible
import KakeyaEngine.Lib.PyValue
import KakeyaEngine.LeanGate.Contract

/-!
# Benchmark runs

A run of the fleet benchmark grows by updates.  The status and the provenance of an update are checked first, but its stages
are checked while they are stored: where a stage behind the first one is refused, the stages in front of it stay in the run
(`update_keeps_iff`).
-/

namespace KakeyaEngine

namespace Network

open LeanGate (occursIn)

inductive Raised
  | valueError (message : String)
  | typeError
  | overflowError
  | attributeError
  | keyError (key : String)
  | osError
deriving DecidableEq

/-- Conversions and floating point arithmetic, on the texts of floating point numbers. -/
structure Arithmetic where
  toFloat : PyValue → Except Raised String
  toInt : PyValue → Except Raised Int
  less : String → String → Bool
  intByFloat : Int → String → Except Raised String
  floatByInt : String → Int → Except Raised String
  intByInt : Int → Int → Except Raised String
  times : String → String → String
  sum : List String → String
  median : List String → String

abbrev Stage := Dict String PyValue

/-! ### Stages -/

/-- `PHASES`. -/
def phases : List String :=
  ["remote_compute", "primary_hot_hit", "allens_cold_restore", "agent_generator", "agent_critic",
    "agent_strategy_tournament_selector", "agent_strategy_critic_selector", "agent_synthesis", "agent_premise_suspicion",
    "agent_premise_auditor", "agent_premise_proponent", "agent_definition_auditor", "agent_counterexample_worker",
    "agent_decomposer", "agent_math_ir_translator", "agent_formalizer", "agent_proof_action_selector", "agent_prover",
    "agent_adversarial_proponent", "agent_judge"]

/-- `HIT_SOURCES`. -/
def hitSources : List String := ["remote_worker", "primary_hot", "allens_offload", "unknown"]

/-- `_PRIVATE_KEYS`. -/
def privateKeys : List String :=
  ["prompt", "token_ids", "cache_key", "block_hash", "payload_sha256", "peer_address", "source_path"]

mutual

def assertPublicSafe : PyValue → Except Raised Unit
  | .dict entries => assertEntriesPublicSafe entries
  | .list items => assertItemsPublicSafe items
  | .str s =>
    if occursIn "/Users/".toList s.toList || occursIn "169.254.".toList s.toList then
      .error (.valueError "benchmark report contains a private path or address")
    else .ok ()
  | _ => .ok ()

def assertItemsPublicSafe : List PyValue → Except Raised Unit
  | [] => .ok ()
  | v :: vs => do
    assertPublicSafe v
    assertItemsPublicSafe vs

def assertEntriesPublicSafe : List (String × PyValue) → Except Raised Unit
  | [] => .ok ()
  | (key, v) :: es => do
    if key ∈ privateKeys then throw (.valueError ("private benchmark field '" ++ key ++ "' is forbidden"))
    assertPublicSafe v
    assertEntriesPublicSafe es

end

section

variable (arith : Arithmetic) (quote : String → String)

/-- `stage.get(key, default)`. -/
def getOr (stage : Stage) (key : String) (default : PyValue) : PyValue := (stage.get? key).getD default

/-- A name out of a list. -/
def nameIn (names : List String) (message : String) (v : PyValue) : Except Raised String :=
  match v with
  | .str s => if s ∈ names then .ok s else .error (.valueError (message ++ quote s))
  | v => .error (.valueError (message ++ v.repr quote))

/-- What is stored of a stage in addition to what was submitted. -/
structure StageNumbers where
  name : String
  hitSource : String
  prefixTokens : Int
  outputTokens : Int
  appendS : String
  ttftS : String
  decodeS : String
  e2eS : String
  prefillOrRestoreTokS : String
  decodeTokS : String
  generationLatencyMsPerToken : String
  e2eTokS : String

def StageNumbers.entries (n : StageNumbers) : List (String × PyValue) :=
  [("name", .str n.name), ("hit_source", .str n.hitSource), ("prefix_tokens", .int n.prefixTokens),
    ("output_tokens", .int n.outputTokens), ("append_s", .float n.appendS), ("ttft_s", .float n.ttftS),
    ("decode_s", .float n.decodeS), ("e2e_s", .float n.e2eS), ("prefill_or_restore_tok_s", .float n.prefillOrRestoreTokS),
    ("decode_tok_s", .float n.decodeTokS), ("generation_latency_ms_per_token", .float n.generationLatencyMsPerToken),
    ("e2e_tok_s", .float n.e2eTokS)]

/-- The smaller of two numbers, as `min` picks it. -/
def Arithmetic.min (a b : String) : String := if arith.less b a then b else a

/-- Tokens in a second, zero where no time has passed. -/
def Arithmetic.rate (tokens : Int) (seconds : String) : Except Raised String :=
  if arith.less "0.0" seconds then arith.intByFloat tokens seconds else .ok "0.0"

/-- Milliseconds for each token. -/
def Arithmetic.latency (seconds : String) (tokens : Int) : Except Raised String :=
  if 0 < tokens then do
    let each ← arith.floatByInt seconds tokens
    return arith.times each "1000.0"
  else .ok "0.0"

def stageNumbers (stage : Stage) : Except Raised StageNumbers := do
  let name ← nameIn quote phases "unknown benchmark phase " (getOr stage "name" .null)
  let hitSource ← nameIn quote hitSources "unknown hit_source " (getOr stage "hit_source" (.str "unknown"))
  let outputTokens ← arith.toInt (getOr stage "output_tokens" (.int 0))
  let prefixTokens ← arith.toInt (getOr stage "prefix_tokens" (.int 0))
  let appendS ← arith.toFloat (getOr stage "append_s" (.float "0.0"))
  let decodeS ← arith.toFloat (getOr stage "decode_s" (.float "0.0"))
  let e2eS ← arith.toFloat (getOr stage "e2e_s" (.float "0.0"))
  if min outputTokens prefixTokens < 0 || arith.less (arith.min (arith.min appendS decodeS) e2eS) "0.0" then
    throw (.valueError "benchmark token and duration values must be non-negative")
  let ttftS ← arith.toFloat (getOr stage "ttft_s" (.float "0.0"))
  let prefillOrRestoreTokS ← arith.rate prefixTokens appendS
  let decodeTokS ← arith.rate outputTokens decodeS
  let generationLatencyMsPerToken ← arith.latency decodeS outputTokens
  let e2eTokS ← arith.rate outputTokens e2eS
  return { name, hitSource, prefixTokens, outputTokens, appendS, ttftS, decodeS, e2eS, prefillOrRestoreTokS, decodeTokS,
           generationLatencyMsPerToken, e2eTokS }

/-- A stage as it is stored, with its numbers. -/
def normalized (stage : Stage) : Except Raised (Stage × StageNumbers) := do
  let numbers ← stageNumbers arith quote stage
  let stored := stage.update numbers.entries
  assertPublicSafe (.dict stored.entries)
  return (stored, numbers)

def normalizeStage (stage : Stage) : Except Raised Stage := (normalized arith quote stage).map Prod.fst

/-! ### The summary -/

/-- `int(stage.get("delta", {}).get(key, 0))`. -/
def deltaCount (key : String) (stage : Stage) : Except Raised Int :=
  match (getOr stage "delta" (.dict [])).mapping? with
  | none => .error .attributeError
  | some delta => arith.toInt (getOr delta key (.int 0))

/-- How often each text occurs. -/
def tally (counts : Dict String Int) (texts : List String) : Dict String Int :=
  texts.foldl (fun counts t => counts.set t ((counts.get? t).getD 0 + 1)) counts

def countsValue (counts : Dict String Int) : PyValue := .dict (counts.entries.map fun e => (e.1, .int e.2))

/-- `_median`. -/
def Arithmetic.medianOr (values : List String) : String := if values = [] then "0.0" else arith.median values

/-- The quotient of two counts, zero where the second one is. -/
def Arithmetic.share (a b : Int) : Except Raised String := if b ≠ 0 then arith.intByInt a b else .ok "0.0"

/-- Tokens in all the time, zero where there is none. -/
def Arithmetic.aggregate (tokens : Int) (seconds : List String) : Except Raised String :=
  if seconds ≠ [] ∧ (PyValue.float (arith.sum seconds)).truthy then arith.intByFloat tokens (arith.sum seconds) else .ok "0.0"

def summarizeStages (stages : List Stage) : Except Raised PyValue := do
  let all ← stages.mapM (normalized arith quote)
  let numbers := all.map Prod.snd
  let sources := tally (Dict.ofEntries (hitSources.map fun source => (source, 0))) (numbers.map (·.hitSource))
  let stopReasons := tally .empty (all.map fun s => (getOr s.1 "stop_reason" (.str "unknown")).text quote)
  let prefixTokens := (numbers.map (·.prefixTokens)).sum
  let hitTokens ← all.mapM fun s => deltaCount arith "tokens_reused" s.1
  let warmupPrefixTokens ← all.mapM fun s => arith.toInt (getOr s.1 "warmup_prefix_tokens" (.int 0))
  let warmupHitTokens ← all.mapM fun s => arith.toInt (getOr s.1 "warmup_tokens_reused" (.int 0))
  let decodeTokens := (numbers.map (·.outputTokens)).sum
  let hitRate ← arith.share hitTokens.sum prefixTokens
  let workloadRate ← arith.share (hitTokens.sum + warmupHitTokens.sum) (prefixTokens + warmupPrefixTokens.sum)
  let aggregateDecode ← arith.aggregate decodeTokens (numbers.map (·.decodeS))
  let aggregateE2e ← arith.aggregate decodeTokens (numbers.map (·.e2eS))
  let bytesReceived ← all.mapM fun s => deltaCount arith "bytes_received" s.1
  return .dict
    [("stages_total", .int all.length),
      ("stages_failed", .int (all.countP fun s => !(getOr s.1 "ok" (.bool false)).truthy)),
      ("incomplete_stages", .int (all.countP fun s => !(getOr s.1 "complete" (.bool true)).truthy)),
      ("stop_reason_counts", countsValue stopReasons),
      ("ttft_p50_s", .float (arith.medianOr (numbers.map (·.ttftS)))),
      ("prefill_tok_s_p50", .float (arith.medianOr (numbers.map (·.prefillOrRestoreTokS)))),
      ("decode_tok_s_p50", .float (arith.medianOr (numbers.map (·.decodeTokS)))),
      ("e2e_tok_s_p50", .float (arith.medianOr (numbers.map (·.e2eTokS)))),
      ("generation_latency_ms_p50", .float (arith.medianOr (numbers.map (·.generationLatencyMsPerToken)))),
      ("inference_kv_token_hit_rate", .float hitRate),
      ("workload_kv_token_hit_rate", .float workloadRate),
      ("aggregate_decode_tok_s", .float aggregateDecode),
      ("aggregate_e2e_tok_s", .float aggregateE2e),
      ("bytes_received", .int bytesReceived.sum),
      ("hit_source_counts", countsValue sources)]

end

/-! ### Runs and updates -/

structure BenchmarkRun where
  id : String
  schemaVersion : Int
  kind : String
  status : String
  startedAt : String
  finishedAt : Option String
  config : Dict String PyValue
  stages : List Stage
  summary : PyValue
  provenance : Option (Dict String PyValue)

/-- What is stored about benchmarks. -/
structure BenchmarkData where
  benchmarkRuns : List BenchmarkRun
  benchmarkLive : Option String

/-- The arguments of an update. -/
structure BenchmarkUpdate where
  stages : List Stage := []
  status : Option String := none
  finishedAt : Option String := none
  provenance : Option (Dict String PyValue) := none

/-- `_benchmark_locked`. -/
def BenchmarkData.benchmark (data : BenchmarkData) (runId : String) : Except Raised BenchmarkRun :=
  match data.benchmarkRuns.find? fun run => run.id == runId with
  | none => .error (.keyError runId)
  | some run => .ok run

/-- The runs with one of them, the first one with its id, in its new form. -/
def replaceRun (run : BenchmarkRun) : List BenchmarkRun → List BenchmarkRun
  | [] => []
  | other :: runs => if other.id = run.id then run :: runs else other :: replaceRun run runs

def BenchmarkData.put (data : BenchmarkData) (run : BenchmarkRun) : BenchmarkData :=
  { data with benchmarkRuns := replaceRun run data.benchmarkRuns }

/-- The live run that has ended is no longer live. -/
def BenchmarkData.settle (data : BenchmarkData) (run : BenchmarkRun) : BenchmarkData :=
  if run.status ≠ "running" ∧ data.benchmarkLive = some run.id then { data with benchmarkLive := none } else data

/-- The fields that an update assigns. -/
def BenchmarkRun.assign (run : BenchmarkRun) (u : BenchmarkUpdate) : BenchmarkRun :=
  { run with
    provenance := u.provenance.or run.provenance
    status := u.status.getD run.status
    finishedAt := u.finishedAt.or run.finishedAt }

/-- The statuses that an update may have. -/
def statusKnown (status : Option String) : Bool := status ∈ [none, some "running", some "completed", some "failed"]

def checkProvenance : Option (Dict String PyValue) → Except Raised Unit
  | none => .ok ()
  | some provenance => assertPublicSafe (.dict provenance.entries)

/-- `update_benchmark`, where `disk` is what writing the state file does. -/
def updateBenchmark (arith : Arithmetic) (quote : String → String) (disk : Except Raised Unit) (data : BenchmarkData)
    (runId : String) (u : BenchmarkUpdate) : BenchmarkData × Except Raised BenchmarkRun :=
  if !statusKnown u.status then (data, .error (.valueError "invalid benchmark status"))
  else
    match checkProvenance u.provenance with
    | .error e => (data, .error e)
    | .ok () =>
      match data.benchmark runId with
      | .error e => (data, .error e)
      | .ok run =>
        let run := { run with stages := run.stages ++ (Fallible.pour (normalizeStage arith quote) u.stages).1 }
        match (Fallible.pour (normalizeStage arith quote) u.stages).2 with
        | some e => (data.put run, .error e)
        | none =>
          match summarizeStages arith quote (run.assign u).stages with
          | .error e => (data.put (run.assign u), .error e)
          | .ok summary =>
            let run := { run.assign u with summary := summary }
            match disk with
            | .error e => ((data.put run).settle run, .error e)
            | .ok () => ((data.put run).settle run, .ok run)

/-! ### The run behind a failed update -/

theorem benchmark_eq_ok_iff {data : BenchmarkData} {runId : String} {run : BenchmarkRun} :
    data.benchmark runId = .ok run ↔ data.benchmarkRuns.find? (fun run => run.id == runId) = some run := by
  unfold BenchmarkData.benchmark
  cases data.benchmarkRuns.find? fun run => run.id == runId with
  | none => exact ⟨fun h => (nomatch h), fun h => (nomatch h)⟩
  | some other => exact ⟨fun h => congrArg some (Except.ok.inj h), fun h => congrArg _ (Option.some_inj.mp h)⟩

theorem id_of_benchmark {data : BenchmarkData} {runId : String} {run : BenchmarkRun} (h : data.benchmark runId = .ok run) :
    run.id = runId := by
  simpa using List.find?_some (benchmark_eq_ok_iff.mp h)

/-- The new form of a run is found under its id. -/
theorem benchmark_put {data : BenchmarkData} {runId : String} {run run' : BenchmarkRun} (h : data.benchmark runId = .ok run)
    (hid : run'.id = run.id) : (data.put run').benchmark runId = .ok run' := by
  obtain rfl := id_of_benchmark h
  have hfind := benchmark_eq_ok_iff.mp h
  refine benchmark_eq_ok_iff.mpr ?_
  unfold BenchmarkData.put
  dsimp only
  generalize data.benchmarkRuns = runs at hfind ⊢
  induction runs with
  | nil => cases hfind
  | cons other runs ih =>
    unfold replaceRun
    by_cases hother : other.id = run.id
    · rw [if_pos (by rw [hother, hid]), List.find?_cons_of_pos (by rw [hid]; exact beq_self_eq_true _)]
    · rw [if_neg (by rw [hid]; exact hother), List.find?_cons_of_neg (by simpa using hother)]
      exact ih (by rwa [List.find?_cons_of_neg (by simpa using hother)] at hfind)

theorem benchmark_settle (data : BenchmarkData) (run : BenchmarkRun) (runId : String) :
    (data.settle run).benchmark runId = data.benchmark runId := by
  unfold BenchmarkData.settle
  split
  · rfl
  · rfl

/-- A stored run is as before when its new form is. -/
theorem put_keeps_iff {data : BenchmarkData} {runId : String} {run run' : BenchmarkRun} (h : data.benchmark runId = .ok run)
    (hid : run'.id = run.id) : (data.put run').benchmark runId = data.benchmark runId ↔ run' = run := by
  rw [benchmark_put h hid, h]
  exact ⟨Except.ok.inj, congrArg _⟩

/-- The update says nothing new about a run. -/
def Redundant (run : BenchmarkRun) (u : BenchmarkUpdate) : Prop :=
  u.stages = [] ∧ (∀ p ∈ u.provenance, run.provenance = some p) ∧ (∀ s ∈ u.status, run.status = s) ∧
    ∀ t ∈ u.finishedAt, run.finishedAt = some t

theorem or_eq_right_iff {α : Type} {a b : Option α} : a.or b = b ↔ ∀ x ∈ a, b = some x := by
  cases a with
  | none => exact ⟨fun _ _ h => (nomatch h), fun _ => rfl⟩
  | some x =>
    constructor
    · rintro h y ⟨⟩
      exact h.symm
    · exact fun h => (h x rfl).symm

theorem getD_eq_right_iff {α : Type} {a : Option α} {b : α} : a.getD b = b ↔ ∀ x ∈ a, b = x := by
  cases a with
  | none => exact ⟨fun _ _ h => (nomatch h), fun _ => rfl⟩
  | some x =>
    constructor
    · rintro h y ⟨⟩
      exact h.symm
    · exact fun h => (h x rfl).symm

theorem assign_eq_iff {run : BenchmarkRun} {u : BenchmarkUpdate} {ns : List Stage} {summary : PyValue} :
    { BenchmarkRun.assign { run with stages := run.stages ++ ns } u with summary := summary } = run ↔
      ns = [] ∧ (∀ p ∈ u.provenance, run.provenance = some p) ∧ (∀ s ∈ u.status, run.status = s) ∧
        (∀ t ∈ u.finishedAt, run.finishedAt = some t) ∧ summary = run.summary := by
  unfold BenchmarkRun.assign
  rw [← or_eq_right_iff, ← getD_eq_right_iff, ← or_eq_right_iff]
  cases run
  simp only [BenchmarkRun.mk.injEq, List.append_right_eq_self, true_and]
  constructor
  · rintro ⟨hstatus, hfinished, hstages, hsummary, hprovenance⟩
    exact ⟨hstages, hprovenance, hstatus, hfinished, hsummary⟩
  · rintro ⟨hstages, hprovenance, hstatus, hfinished, hsummary⟩
    exact ⟨hstatus, hfinished, hstages, hsummary, hprovenance⟩

/-! ### The exact condition -/

/-- An update that raises leaves the run as it was. -/
def KeepsRun (arith : Arithmetic) (quote : String → String) (disk : Except Raised Unit) (data : BenchmarkData) (runId : String)
    (u : BenchmarkUpdate) : Prop :=
  ∀ e, (updateBenchmark arith quote disk data runId u).2 = .error e →
    (updateBenchmark arith quote disk data runId u).1.benchmark runId = data.benchmark runId

section

variable {arith : Arithmetic} {quote : String → String} {disk : Except Raised Unit} {data : BenchmarkData} {runId : String}
  {u : BenchmarkUpdate} {run : BenchmarkRun}

/-- An update that is refused before it has found its run changes nothing. -/
theorem keeps_of_refused (h : statusKnown u.status = false ∨ (∃ e, checkProvenance u.provenance = .error e) ∨
    ∃ e, data.benchmark runId = .error e) : KeepsRun arith quote disk data runId u := by
  have hdata : (updateBenchmark arith quote disk data runId u).1 = data := by
    unfold updateBenchmark
    cases hstatus : statusKnown u.status with
    | false => rfl
    | true =>
      rw [if_neg (by decide)]
      cases hprovenance : checkProvenance u.provenance with
      | error e => rfl
      | ok _ =>
        obtain ⟨e, hrun⟩ : ∃ e, data.benchmark runId = .error e := by
          rcases h with h | ⟨e, h⟩ | h
          · rw [h] at hstatus
            cases hstatus
          · rw [h] at hprovenance
            cases hprovenance
          · exact h
        dsimp only
        rw [hrun]
  intro e _
  rw [hdata]

/-- The update behind the checks that come first. -/
theorem update_found (hstatus : statusKnown u.status = true) (hprovenance : checkProvenance u.provenance = .ok ())
    (hrun : data.benchmark runId = .ok run) :
    updateBenchmark arith quote disk data runId u =
      let run' := { run with stages := run.stages ++ (Fallible.pour (normalizeStage arith quote) u.stages).1 }
      match (Fallible.pour (normalizeStage arith quote) u.stages).2 with
      | some e => (data.put run', .error e)
      | none =>
        match summarizeStages arith quote (run'.assign u).stages with
        | .error e => (data.put (run'.assign u), .error e)
        | .ok summary =>
          let run'' := { run'.assign u with summary := summary }
          match disk with
          | .error e => ((data.put run'').settle run'', .error e)
          | .ok () => ((data.put run'').settle run'', .ok run'') := by
  unfold updateBenchmark
  rw [hstatus, if_neg (by decide), hprovenance]
  dsimp only
  rw [hrun]

/-- Where a stage is refused, the run is kept exactly when it is the first one. -/
theorem keeps_of_stage_refused {e : Raised} (hstatus : statusKnown u.status = true)
    (hprovenance : checkProvenance u.provenance = .ok ()) (hrun : data.benchmark runId = .ok run)
    (hstage : (Fallible.pour (normalizeStage arith quote) u.stages).2 = some e) :
    KeepsRun arith quote disk data runId u ↔ ∃ stage ∈ u.stages.head?, normalizeStage arith quote stage = .error e := by
  have hput : (data.put { run with stages := run.stages ++ (Fallible.pour (normalizeStage arith quote) u.stages).1 }).benchmark
      runId = data.benchmark runId ↔ _ := put_keeps_iff hrun rfl
  have hstages : { run with stages := run.stages ++ (Fallible.pour (normalizeStage arith quote) u.stages).1 } = run ↔
      (Fallible.pour (normalizeStage arith quote) u.stages).1 = [] := by
    cases run
    simp only [BenchmarkRun.mk.injEq, List.append_right_eq_self, true_and, and_true]
  unfold KeepsRun
  rw [update_found hstatus hprovenance hrun, hstage, ← Fallible.pour_eq_nil_iff hstage, ← hstages, ← hput]
  exact ⟨fun h => h e rfl, fun h _ _ => h⟩

/-- Where every stage is stored, the run is kept exactly when nothing fails or the update says nothing new. -/
theorem keeps_of_stages_stored {ns : List Stage} (hstatus : statusKnown u.status = true)
    (hprovenance : checkProvenance u.provenance = .ok ()) (hrun : data.benchmark runId = .ok run)
    (hstages : u.stages.mapM (normalizeStage arith quote) = .ok ns) :
    KeepsRun arith quote disk data runId u ↔
      (∃ summary, summarizeStages arith quote (run.stages ++ ns) = .ok summary ∧ disk = .ok ()) ∨
        Redundant run u ∧ ∀ summary, summarizeStages arith quote run.stages = .ok summary → run.summary = summary := by
  have hnil : u.stages = [] ↔ ns = [] := by
    rw [← List.length_eq_zero_iff, ← List.length_eq_zero_iff, Fallible.length_of_mapM hstages]
  have hput : ∀ summary, (data.put { BenchmarkRun.assign { run with stages := run.stages ++ ns } u with
      summary := summary }).benchmark runId = data.benchmark runId ↔ Redundant run u ∧ summary = run.summary := by
    intro summary
    generalize hrun' : { BenchmarkRun.assign { run with stages := run.stages ++ ns } u with summary := summary } = run'
    rw [put_keeps_iff hrun (by rw [← hrun']; rfl), ← hrun', assign_eq_iff, Redundant, hnil]
    tauto
  have hsame : ∀ {r}, Redundant run u → summarizeStages arith quote (run.stages ++ ns) = r →
      summarizeStages arith quote run.stages = r := by
    intro r hredundant hr
    rwa [hnil.mp hredundant.1, List.append_nil] at hr
  unfold KeepsRun
  rw [update_found hstatus hprovenance hrun, Fallible.pour_of_mapM hstages]
  dsimp only [BenchmarkRun.assign]
  cases hsummary : summarizeStages arith quote (run.stages ++ ns) with
  | error e =>
    -- the stored summary stays beside what has been assigned
    have hkeeps := hput run.summary
    constructor
    · intro h
      refine .inr ⟨(hkeeps.mp (h e rfl)).1, fun summary hs => ?_⟩
      rw [hsame (hkeeps.mp (h e rfl)).1 hsummary] at hs
      cases hs
    · rintro (⟨_, hs, -⟩ | ⟨hredundant, -⟩)
      · cases hs
      · exact fun _ _ => hkeeps.mpr ⟨hredundant, rfl⟩
  | ok summary =>
    cases disk with
    | ok _ => exact ⟨fun _ => .inl ⟨summary, rfl, rfl⟩, fun _ e h => (nomatch h)⟩
    | error e =>
      have hkeeps := hput summary
      dsimp only
      constructor
      · intro h
        have hrun' := h e rfl
        rw [benchmark_settle] at hrun'
        obtain ⟨hredundant, hs⟩ := hkeeps.mp hrun'
        refine .inr ⟨hredundant, fun other hother => ?_⟩
        rw [hsame hredundant hsummary] at hother
        rw [← hs, Except.ok.inj hother]
      · rintro (⟨_, -, hdisk⟩ | ⟨hredundant, hs⟩)
        · cases hdisk
        · intro _ _
          rw [benchmark_settle]
          exact hkeeps.mpr ⟨hredundant, (hs summary (hsame hredundant hsummary)).symm⟩

end

/-- An update keeps the run when it raises exactly if it is refused before the run is found, the first stage is refused, or
every stage is stored and either nothing fails afterwards or the update says nothing new. -/
theorem update_keeps_iff (arith : Arithmetic) (quote : String → String) (disk : Except Raised Unit) (data : BenchmarkData)
    (runId : String) (u : BenchmarkUpdate) :
    KeepsRun arith quote disk data runId u ↔
      statusKnown u.status = false ∨ (∃ e, checkProvenance u.provenance = .error e) ∨
      (∃ e, data.benchmark runId = .error e) ∨
      (∃ stage ∈ u.stages.head?, ∃ e, normalizeStage arith quote stage = .error e) ∨
      ∃ run ns, data.benchmark runId = .ok run ∧ u.stages.mapM (normalizeStage arith quote) = .ok ns ∧
        ((∃ summary, summarizeStages arith quote (run.stages ++ ns) = .ok summary ∧ disk = .ok ()) ∨
          Redundant run u ∧ ∀ summary, summarizeStages arith quote run.stages = .ok summary → run.summary = summary) := by
  cases hstatus : statusKnown u.status with
  | false => exact ⟨fun _ => .inl rfl, fun _ => keeps_of_refused (.inl hstatus)⟩
  | true =>
    cases hprovenance : checkProvenance u.provenance with
    | error e => exact ⟨fun _ => .inr (.inl ⟨e, rfl⟩), fun _ => keeps_of_refused (.inr (.inl ⟨e, hprovenance⟩))⟩
    | ok _ =>
      cases hrun : data.benchmark runId with
      | error e => exact ⟨fun _ => .inr (.inr (.inl ⟨e, rfl⟩)), fun _ => keeps_of_refused (.inr (.inr ⟨e, hrun⟩))⟩
      | ok run =>
        cases hpour : (Fallible.pour (normalizeStage arith quote) u.stages).2 with
        | some e =>
          rw [keeps_of_stage_refused hstatus hprovenance hrun hpour]
          constructor
          · rintro ⟨stage, hfirst, he⟩
            exact .inr (.inr (.inr (.inl ⟨stage, hfirst, e, he⟩)))
          · rintro (h | ⟨_, h⟩ | ⟨_, h⟩ | ⟨stage, hfirst, e', he⟩ | ⟨_, ns, -, hstages, -⟩)
            · cases h
            · cases h
            · cases h
            · rw [Fallible.pour_of_head hfirst he] at hpour
              obtain rfl := Option.some_inj.mp hpour
              exact ⟨stage, hfirst, he⟩
            · rw [Fallible.pour_of_mapM hstages] at hpour
              cases hpour
        | none =>
          have hstages := Fallible.mapM_of_pour hpour
          rw [keeps_of_stages_stored hstatus hprovenance hrun hstages]
          constructor
          · exact fun h => .inr (.inr (.inr (.inr ⟨run, _, rfl, hstages, h⟩)))
          · rintro (h | ⟨_, h⟩ | ⟨_, h⟩ | ⟨stage, hfirst, e, he⟩ | ⟨run', ns, hrun', hns, h⟩)
            · cases h
            · cases h
            · cases h
            · rw [Fallible.pour_of_head hfirst he] at hpour
              cases hpour
            · obtain rfl := Except.ok.inj hrun'
              obtain rfl := Except.ok.inj (hns.symm.trans hstages)
              exact h

/-- Exact on whole numbers and on the order of decimal texts; no quotient is needed where no time has passed. -/
def wholeArithmetic : Arithmetic where
  toFloat
    | .float t => .ok t
    | .int n => .ok (toString n ++ ".0")
    | _ => .error .typeError
  toInt
    | .int n => .ok n
    | _ => .error .typeError
  less a b :=
    match (PyValue.float a).number?, (PyValue.float b).number? with
    | some x, some y => x < y
    | _, _ => false
  intByFloat _ _ := .error .overflowError
  floatByInt _ _ := .error .overflowError
  intByInt _ _ := .error .overflowError
  times a _ := a
  sum _ := "0.0"
  median values := values.headD "0.0"

def inQuotes (s : String) : String := "'" ++ s ++ "'"

/-- A run without stages. -/
def emptyRun : BenchmarkRun := ⟨"br_1", 1, "fleet", "running", "10.0", none, .empty, [], .dict [], none⟩

def stageNamed (name : String) : Stage := Dict.empty.set "name" (.str name)

/-- The stage in front of the refused one stays in the run. -/
theorem stage_left_behind : ¬ KeepsRun wholeArithmetic inQuotes (.ok ()) ⟨[emptyRun], some "br_1"⟩ "br_1"
    { stages := [stageNamed "agent_critic", stageNamed "bogus"] } := by
  have hrefused : (Fallible.pour (normalizeStage wholeArithmetic inQuotes) [stageNamed "agent_critic", stageNamed "bogus"]).2 =
      some (.valueError "unknown benchmark phase 'bogus'") := by
    decide +kernel
  intro h
  have hrun : BenchmarkData.benchmark ⟨[emptyRun], some "br_1"⟩ "br_1" = .ok emptyRun := rfl
  obtain ⟨stage, hfirst, he⟩ := (keeps_of_stage_refused rfl rfl hrun hrefused).mp h
  obtain rfl := Option.some_inj.mp hfirst
  have hstored : (normalizeStage wholeArithmetic inQuotes (stageNamed "agent_critic")).isOk = true := by decide +kernel
  rw [he] at hstored
  cases hstored

end Network

end KakeyaEngine
