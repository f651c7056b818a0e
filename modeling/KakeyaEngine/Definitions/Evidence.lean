import KakeyaEngine.Definitions.Declaration
import KakeyaEngine.Definitions.Once

/-!
# What a resolution decides by

A candidate is feasible when it compiles and every hard property of the query is one of its required properties and has
verified evidence with a reference.  A transaction that returns commits exactly when one normalized candidate is feasible,
whatever the ranking and the order of the raw candidates, and a query that was answered is not worked on again.
-/

namespace KakeyaEngine

namespace Definitions

open Fallible (bind_eq_ok map_eq_ok map_mapM)
open Orchestration (CheckpointError iterate)

variable (rt : Runtime)

/-! ### Feasible candidates -/

/-- The evidence has a record for the property that applies to the candidate, says `VERIFIED` and has a reference. -/
def VerifiedBy (evidence : Dict String PyValue) (candidateHash propertyId : String) : Prop :=
  ∃ record hashes, mappingOf ((evidence.get? propertyId).getD (.dict [])) = .ok record ∧
    iterate ((record.get? "candidate_hashes").getD (.list [])) = .ok hashes ∧
    (hashes = [] ∨ candidateHash ∈ hashes.map (PyValue.text rt.quote)) ∧
    rt.upper (textField rt.quote record "status" "UNKNOWN") = "VERIFIED" ∧
    textField rt.quote record "evidence_ref" "" ≠ ""

/-- The candidate compiles. -/
def Compiles (query : DefinitionQuery) (c : TypedDefinitionCandidate) : Prop :=
  ∃ compilation, compileCandidate rt.wordClass rt.runCompiler query.environmentHash c = .ok compilation ∧
    compilation.compiled = true

/-- A candidate that a transaction may commit. -/
def Feasible (query : DefinitionQuery) (evidence : Dict String PyValue) (c : TypedDefinitionCandidate) : Prop :=
  Compiles rt query c ∧ ∀ p ∈ query.hardProperties, p ∈ query.requiredProperties ∧ VerifiedBy rt evidence c.contentHash p

variable {rt}

/-- The status that comes out of the three steps is `VERIFIED` exactly when the record applies, says so and has a
reference. -/
theorem status_verified (applies : Prop) [Decidable applies] (upper ref : String) :
    (let status := if applies then upper else "UNKNOWN"
      let status := if status ∈ ["VERIFIED", "REFUTED", "UNKNOWN"] then status else "UNKNOWN"
      if status = "VERIFIED" ∧ ref = "" then "UNKNOWN" else status) = "VERIFIED" ↔
      applies ∧ upper = "VERIFIED" ∧ ref ≠ "" := by
  have hunknown : ("UNKNOWN" : String) ≠ "VERIFIED" := by decide
  dsimp only
  by_cases ha : applies
  · by_cases hu : upper = "VERIFIED"
    · by_cases hr : ref = "" <;> simp [ha, hu, hr]
    · by_cases hm : upper ∈ ["VERIFIED", "REFUTED", "UNKNOWN"]
      · simp only [if_pos ha, if_pos hm, hu, false_and, and_false, if_false]
      · simp only [if_pos ha, if_neg hm, hunknown, hu, false_and, and_false, if_false]
  · rw [if_neg ha, ite_self, ite_self]
    exact ⟨fun h => absurd h hunknown, fun h => absurd h.1 ha⟩

theorem verifyProperty_verified {candidateHash : String} {evidence : Dict String PyValue} {propertyId : String}
    {e : PropertyEvidence} (h : verifyProperty rt candidateHash evidence propertyId = .ok e) :
    e.propertyId = propertyId ∧ (e.status = "VERIFIED" ↔ VerifiedBy rt evidence candidateHash propertyId) := by
  obtain ⟨record, hrecord, h⟩ := bind_eq_ok.mp h
  obtain ⟨hashes, hhashes, h⟩ := bind_eq_ok.mp h
  cases h
  refine ⟨rfl, ?_⟩
  have hunique : VerifiedBy rt evidence candidateHash propertyId ↔
      (hashes = [] ∨ candidateHash ∈ hashes.map (PyValue.text rt.quote)) ∧
        rt.upper (textField rt.quote record "status" "UNKNOWN") = "VERIFIED" ∧
        textField rt.quote record "evidence_ref" "" ≠ "" := by
    constructor
    · rintro ⟨record', hashes', hrecord', hhashes', h⟩
      obtain rfl := Except.ok.inj (hrecord.symm.trans hrecord')
      obtain rfl := Except.ok.inj (hhashes.symm.trans hhashes')
      exact h
    · exact fun h => ⟨record, hashes, hrecord, hhashes, h⟩
  rw [hunique, ← List.map_eq_nil_iff (f := PyValue.text rt.quote)]
  exact status_verified _ _ _

/-- The status of a property that the query requires is the one of its evidence, and the others have none. -/
theorem statuses_verified {query : DefinitionQuery} {evidence : Dict String PyValue} {c : TypedDefinitionCandidate}
    (compilation : Compilation) {found : List PropertyEvidence}
    (h : verifyProperties rt query c.contentHash evidence = .ok found) (p : String) :
    (⟨c, compilation, found⟩ : Judged).statuses.get? p = some "VERIFIED" ↔
      p ∈ query.requiredProperties ∧ VerifiedBy rt evidence c.contentHash p := by
  have hids : found.map (·.propertyId) = query.requiredProperties := by
    have := map_mapM (p := id) (q := fun e : PropertyEvidence => e.propertyId)
      (fun a b hb => (verifyProperty_verified hb).1) h
    rwa [List.map_id] at this
  have hkeys : (found.map fun e => (e.propertyId, e.status)).map Prod.fst = query.requiredProperties := by
    rw [List.map_map]
    exact hids
  have hentry : ∀ v, (p, v) ∈ found.map (fun e => (e.propertyId, e.status)) →
      (v = "VERIFIED" ↔ VerifiedBy rt evidence c.contentHash p) := by
    intro v hv
    obtain ⟨e, he, heq⟩ := List.mem_map.mp hv
    obtain ⟨hid, rfl⟩ := Prod.mk.inj heq
    obtain ⟨q, -, hq⟩ := Fallible.exists_of_mem_mapM h e he
    obtain ⟨hidq, hiff⟩ := verifyProperty_verified hq
    rw [hiff, ← hid, hidq]
  by_cases hp : p ∈ query.requiredProperties
  · obtain ⟨v, hv, hmem⟩ := Dict.exists_get?_ofEntries (hkeys ▸ hp)
    rw [Judged.statuses, hv, Option.some.injEq, hentry v hmem]
    exact (and_iff_right hp).symm
  · have hnone : (⟨c, compilation, found⟩ : Judged).statuses.get? p = none :=
      Dict.get?_update_of_not_mem (hkeys ▸ hp)
    rw [hnone]
    exact ⟨nofun, fun h => absurd h.1 hp⟩

/-- A judged candidate survives exactly when it is feasible. -/
theorem survives_iff {query : DefinitionQuery} {evidence : Dict String PyValue} {c : TypedDefinitionCandidate} {j : Judged}
    (h : judge rt query evidence c = .ok j) : j.candidate = c ∧ (j.survives query = true ↔ Feasible rt query evidence c) := by
  obtain ⟨compilation, hcompilation, h⟩ := bind_eq_ok.mp h
  obtain ⟨found, hfound, h⟩ := bind_eq_ok.mp h
  cases h
  refine ⟨rfl, ?_⟩
  have hcompiles : compilation.compiled = true ↔ Compiles rt query c :=
    ⟨fun hc => ⟨compilation, hcompilation, hc⟩, fun ⟨compilation', h', hc⟩ => by
      rwa [← Except.ok.inj (hcompilation.symm.trans h')] at hc⟩
  have hunmet : (⟨c, compilation, found⟩ : Judged).unmet query = [] ↔
      ∀ p ∈ query.hardProperties, p ∈ query.requiredProperties ∧ VerifiedBy rt evidence c.contentHash p := by
    unfold Judged.unmet
    rw [List.filter_eq_nil_iff]
    refine forall₂_congr fun p _ => ?_
    rw [← statuses_verified compilation hfound p]
    simp
  rw [Judged.survives, Bool.and_eq_true, decide_eq_true_eq, hcompiles, hunmet]
  exact Iff.rfl

/-! ### The candidates -/

/-- The loop that normalizes. -/
def normalizeAll (rt : Runtime) (query : DefinitionQuery) (raw : List PyValue) (statuses : List SourceProvenance) :
    Except CheckpointError (List (Option TypedDefinitionCandidate)) :=
  raw.mapM (normalizeCandidate rt.quote query (Dict.ofEntries (statuses.map fun s => (s.sourceId, s))))

/-- The candidates by hash. -/
def byHash (normalized : List (Option TypedDefinitionCandidate)) : Dict String TypedDefinitionCandidate :=
  Dict.ofEntries ((normalized.filterMap id).map fun c => (c.contentHash, c))

/-- The candidates in the order of their hashes, with their short ids. -/
def ordered (normalized : List (Option TypedDefinitionCandidate)) : List TypedDefinitionCandidate :=
  (((byHash normalized).keys.insertionSort (· ≤ ·)).filterMap (byHash normalized).get?).mapIdx fun index c =>
    { c with shortId := "C" ++ toString (index + 1) }

theorem normalizeCandidates_eq_ok {query : DefinitionQuery} {raw : List PyValue} {statuses : List SourceProvenance}
    {candidates : List TypedDefinitionCandidate} :
    normalizeCandidates rt.quote query raw statuses = .ok candidates ↔
      ∃ normalized, normalizeAll rt query raw statuses = .ok normalized ∧ ordered normalized = candidates := by
  unfold normalizeCandidates
  rw [bind_eq_ok]
  exact exists_congr fun normalized => and_congr_right fun _ => ⟨Except.ok.inj, congrArg _⟩

theorem byHash_contentHash {normalized : List (Option TypedDefinitionCandidate)} {hash : String}
    {c : TypedDefinitionCandidate} (h : (byHash normalized).get? hash = some c) :
    some c ∈ normalized ∧ c.contentHash = hash := by
  rcases Dict.mem_entries_update (Dict.mem_entries_iff.mpr h) with hmem | hmem
  · cases hmem
  · obtain ⟨c', hc', heq⟩ := List.mem_map.mp hmem
    obtain ⟨hhash, rfl⟩ := Prod.mk.inj heq
    obtain ⟨o, ho, rfl⟩ := List.mem_filterMap.mp hc'
    exact ⟨ho, hhash⟩

/-- The hashes of the candidates are the sorted keys, so different candidates have different hashes. -/
theorem map_contentHash_ordered (normalized : List (Option TypedDefinitionCandidate)) :
    (ordered normalized).map (·.contentHash) = (byHash normalized).keys.insertionSort (· ≤ ·) := by
  have hshort : (ordered normalized).map (·.contentHash) =
      (((byHash normalized).keys.insertionSort (· ≤ ·)).filterMap (byHash normalized).get?).map (·.contentHash) := by
    refine List.ext_getElem? fun i => ?_
    simp only [ordered, List.getElem?_map, List.getElem?_mapIdx, Option.map_map]
    rfl
  rw [hshort, List.map_filterMap]
  refine (List.filterMap_congr fun k hk => ?_).trans List.filterMap_some
  obtain ⟨c, hc⟩ := Dict.mem_keys_iff.mp ((List.mem_insertionSort _).mp hk)
  rw [hc, Option.map_some, (byHash_contentHash hc).2]

theorem nodup_ordered (normalized : List (Option TypedDefinitionCandidate)) : (ordered normalized).Nodup := by
  refine List.Nodup.of_map (·.contentHash) ?_
  rw [map_contentHash_ordered]
  exact (List.perm_insertionSort _ _).nodup_iff.mpr (byHash normalized).nodup

/-- Where different normalized candidates have different hashes, the order in which they come does not matter. -/
theorem ordered_perm {normalized normalized' : List (Option TypedDefinitionCandidate)} (h : normalized.Perm normalized')
    (hinj : ∀ c d, some c ∈ normalized → some d ∈ normalized → c.contentHash = d.contentHash → c = d) :
    ordered normalized = ordered normalized' := by
  have hmem : ∀ c, some c ∈ normalized ↔ some c ∈ normalized' := fun c => h.mem_iff
  have hkeys : ∀ normalized : List (Option TypedDefinitionCandidate), ∀ k,
      k ∈ (byHash normalized).keys ↔ ∃ c, some c ∈ normalized ∧ c.contentHash = k := by
    intro l k
    rw [Dict.mem_keys_iff]
    constructor
    · rintro ⟨c, hc⟩
      exact ⟨c, byHash_contentHash hc⟩
    · rintro ⟨c, hc, rfl⟩
      have hin : c.contentHash ∈ ((l.filterMap id).map fun c => (c.contentHash, c)).map Prod.fst := by
        rw [List.map_map]
        exact List.mem_map_of_mem (List.mem_filterMap.mpr ⟨_, hc, rfl⟩)
      obtain ⟨v, hv, -⟩ := Dict.exists_get?_ofEntries hin
      exact ⟨v, hv⟩
  have hsame : ∀ k, k ∈ (byHash normalized).keys ↔ k ∈ (byHash normalized').keys := fun k => by
    rw [hkeys, hkeys]
    exact exists_congr fun c => and_congr_left' (hmem c)
  have hsorted : (byHash normalized).keys.insertionSort (· ≤ ·) = (byHash normalized').keys.insertionSort (· ≤ ·) := by
    have hperm : (byHash normalized).keys.Perm (byHash normalized').keys :=
      (List.perm_ext_iff_of_nodup (byHash normalized).nodup (byHash normalized').nodup).mpr hsame
    refine List.Perm.eq_of_pairwise' (List.pairwise_insertionSort (· ≤ ·) _) (List.pairwise_insertionSort (· ≤ ·) _) ?_
    exact ((List.perm_insertionSort _ _).trans hperm).trans (List.perm_insertionSort _ _).symm
  have hget : ∀ k ∈ (byHash normalized).keys, (byHash normalized).get? k = (byHash normalized').get? k := by
    intro k hk
    obtain ⟨c, hc⟩ := Dict.mem_keys_iff.mp hk
    obtain ⟨c', hc'⟩ := Dict.mem_keys_iff.mp ((hsame k).mp hk)
    obtain ⟨hin, hhash⟩ := byHash_contentHash hc
    obtain ⟨hin', hhash'⟩ := byHash_contentHash hc'
    rw [hc, hc', hinj c c' hin ((hmem c').mpr hin') (hhash.trans hhash'.symm)]
  unfold ordered
  rw [← hsorted]
  congr 1
  exact List.filterMap_congr fun k hk => hget k ((List.mem_insertionSort _).mp hk)

/-! ### The judgement -/

/-- What the loop finds out about a candidate, if it does not raise. -/
def verdict (rt : Runtime) (query : DefinitionQuery) (evidence : Dict String PyValue) (c : TypedDefinitionCandidate) :
    Judged :=
  match judge rt query evidence c with
  | .ok j => j
  | .error _ => ⟨c, ⟨false, "", ""⟩, []⟩

/-- A candidate that is judged survives. -/
def survivor (rt : Runtime) (query : DefinitionQuery) (evidence : Dict String PyValue) (c : TypedDefinitionCandidate) :
    Bool := (verdict rt query evidence c).survives query

theorem verdict_of_judge {query : DefinitionQuery} {evidence : Dict String PyValue} {c : TypedDefinitionCandidate} {j : Judged}
    (h : judge rt query evidence c = .ok j) : verdict rt query evidence c = j := by
  rw [verdict, h]

/-- The loop over the ranked candidates. -/
theorem mapM_judge {query : DefinitionQuery} {evidence : Dict String PyValue} {ranked : List TypedDefinitionCandidate}
    {judged : List Judged} (h : ranked.mapM (judge rt query evidence) = .ok judged) :
    judged = ranked.map (verdict rt query evidence) ∧
      ∀ c ∈ ranked, (verdict rt query evidence c).candidate = c ∧
        (survivor rt query evidence c = true ↔ Feasible rt query evidence c) := by
  refine ⟨?_, fun c hc => ?_⟩
  · have := map_mapM (q := id) (fun _ _ hj => (verdict_of_judge hj).symm) h
    rwa [List.map_id] at this
  · obtain ⟨j, hj⟩ := Fallible.mapM_succeeds_iff.mp ⟨judged, h⟩ c hc
    rw [survivor, verdict_of_judge hj]
    exact survives_iff hj

theorem filter_survives {query : DefinitionQuery} {evidence : Dict String PyValue} (ranked : List TypedDefinitionCandidate) :
    (ranked.map (verdict rt query evidence)).filter (Judged.survives query) =
      (ranked.filter (survivor rt query evidence)).map (verdict rt query evidence) := by
  rw [List.filter_map]
  rfl

/-- A transaction commits when there is one survivor, and otherwise commits nothing. -/
theorem settle_committed {query : DefinitionQuery} {statuses : List SourceProvenance} {judged : List Judged}
    {store : ResolutionStore} {outcome : Outcome} (h : settle rt query statuses judged store = .ok outcome) :
    (∃ j, judged.filter (Judged.survives query) = [j] ∧ outcome.status = "COMMITTED" ∧
        outcome.committedHash = j.candidate.contentHash) ∨
      (∀ j, judged.filter (Judged.survives query) ≠ [j]) ∧ outcome.committedHash = "" ∧
        outcome.status = if judged.filter (Judged.survives query) = [] ∧ (synthesizeInterface rt.wordClass query).viable = true
          then "INTERFACE_REQUIRED" else "PARENT_STATEMENT_UNDERSPECIFIED" := by
  unfold settle at h
  split at h
  · rename_i hnil
    cases h
    refine Or.inr ⟨fun j hj => ?_, rfl, ?_⟩
    · rw [hnil] at hj
      exact nomatch hj
    · simp only [hnil, true_and]
  · rename_i j hj
    obtain ⟨source, -, h⟩ := bind_eq_ok.mp h
    cases h
    exact Or.inl ⟨j, hj, rfl, rfl⟩
  · rename_i hnil hone
    cases h
    exact Or.inr ⟨hone, rfl, (if_neg fun h => hnil h.1).symm⟩

theorem filter_eq_singleton_iff {l : List TypedDefinitionCandidate} (hnodup : l.Nodup)
    {p : TypedDefinitionCandidate → Bool} {c : TypedDefinitionCandidate} :
    l.filter p = [c] ↔ c ∈ l ∧ p c = true ∧ ∀ d ∈ l, p d = true → d = c := by
  have hmem : ∀ d, d ∈ l.filter p ↔ d ∈ l ∧ p d = true := fun d => List.mem_filter
  constructor
  · intro h
    rw [h] at hmem
    obtain ⟨hc, hp⟩ := (hmem c).mp (List.mem_singleton_self c)
    exact ⟨hc, hp, fun d hd hpd => List.mem_singleton.mp ((hmem d).mpr ⟨hd, hpd⟩)⟩
  · rintro ⟨hc, hp, honly⟩
    refine List.perm_singleton.mp ((List.perm_ext_iff_of_nodup (hnodup.filter p) (List.nodup_singleton c)).mpr fun d => ?_)
    rw [hmem, List.mem_singleton]
    constructor
    · rintro ⟨hd, hpd⟩
      exact honly d hd hpd
    · rintro rfl
      exact ⟨hc, hp⟩

/-! ### The decision -/

/-- One candidate is feasible and no other is. -/
def OnlyFeasible (rt : Runtime) (query : DefinitionQuery) (evidence : Dict String PyValue)
    (candidates : List TypedDefinitionCandidate) (c : TypedDefinitionCandidate) : Prop :=
  c ∈ candidates ∧ Feasible rt query evidence c ∧ ∀ d ∈ candidates, Feasible rt query evidence d → d = c

/-- The status and the committed hash that the feasible candidates lead to. -/
structure Decides (rt : Runtime) (query : DefinitionQuery) (evidence : Dict String PyValue)
    (candidates : List TypedDefinitionCandidate) (status committedHash : String) : Prop where
  one : ∀ c, OnlyFeasible rt query evidence candidates c → status = "COMMITTED" ∧ committedHash = c.contentHash
  none : (∀ c ∈ candidates, ¬ Feasible rt query evidence c) → committedHash = "" ∧
    status = if (synthesizeInterface rt.wordClass query).viable then "INTERFACE_REQUIRED" else "PARENT_STATEMENT_UNDERSPECIFIED"
  several : (∃ c ∈ candidates, Feasible rt query evidence c) → (∀ c, ¬ OnlyFeasible rt query evidence candidates c) →
    committedHash = "" ∧ status = "PARENT_STATEMENT_UNDERSPECIFIED"

/-- The feasible candidates leave no choice. -/
theorem Decides.unique {query : DefinitionQuery} {evidence : Dict String PyValue}
    {candidates : List TypedDefinitionCandidate} {status status' hash hash' : String}
    (h : Decides rt query evidence candidates status hash) (h' : Decides rt query evidence candidates status' hash') :
    status = status' ∧ hash = hash' := by
  by_cases hone : ∃ c, OnlyFeasible rt query evidence candidates c
  · obtain ⟨c, hc⟩ := hone
    obtain ⟨hs, hh⟩ := h.one c hc
    obtain ⟨hs', hh'⟩ := h'.one c hc
    exact ⟨hs.trans hs'.symm, hh.trans hh'.symm⟩
  · have hno := not_exists.mp hone
    by_cases hany : ∃ c ∈ candidates, Feasible rt query evidence c
    · obtain ⟨hh, hs⟩ := h.several hany hno
      obtain ⟨hh', hs'⟩ := h'.several hany hno
      exact ⟨hs.trans hs'.symm, hh.trans hh'.symm⟩
    · have hnone : ∀ c ∈ candidates, ¬ Feasible rt query evidence c := fun c hc hf => hany ⟨c, hc, hf⟩
      obtain ⟨hh, hs⟩ := h.none hnone
      obtain ⟨hh', hs'⟩ := h'.none hnone
      exact ⟨hs.trans hs'.symm, hh.trans hh'.symm⟩

/-- It commits exactly when one candidate is feasible. -/
theorem Decides.committed_iff {query : DefinitionQuery} {evidence : Dict String PyValue}
    {candidates : List TypedDefinitionCandidate} {status hash : String}
    (h : Decides rt query evidence candidates status hash) :
    status = "COMMITTED" ↔ ∃ c, OnlyFeasible rt query evidence candidates c := by
  constructor
  · intro hs
    by_contra hone
    have hno := not_exists.mp hone
    by_cases hany : ∃ c ∈ candidates, Feasible rt query evidence c
    · have := (h.several hany hno).2
      rw [hs] at this
      exact absurd this (by decide)
    · have := (h.none fun c hc hf => hany ⟨c, hc, hf⟩).2
      rw [hs] at this
      split at this
      · exact absurd this (by decide)
      · exact absurd this (by decide)
  · rintro ⟨c, hc⟩
    exact (h.one c hc).1

/-- The end of a transaction on ranked candidates decides by the candidates. -/
theorem decides_conclude {query : DefinitionQuery} {evidence : Dict String PyValue} {statuses : List SourceProvenance}
    {candidates ranked : List TypedDefinitionCandidate} {judged : List Judged} {store : ResolutionStore}
    {result : ResolutionResult × ResolutionStore} (hnodup : candidates.Nodup) (hperm : ranked.Perm candidates)
    (hjudged : ranked.mapM (judge rt query evidence) = .ok judged)
    (h : conclude rt query statuses judged store = .ok result) :
    Decides rt query evidence candidates result.1.status result.1.committedCandidateHash := by
  obtain ⟨rfl, hverdict⟩ := mapM_judge hjudged
  have hfeasible : ∀ c ∈ candidates, survivor rt query evidence c = true ↔ Feasible rt query evidence c :=
    fun c hc => (hverdict c (hperm.mem_iff.mpr hc)).2
  have hsingle : ∀ c, ranked.filter (survivor rt query evidence) = [c] ↔ OnlyFeasible rt query evidence candidates c := by
    intro c
    rw [filter_eq_singleton_iff (hperm.nodup_iff.mpr hnodup), hperm.mem_iff, OnlyFeasible]
    refine and_congr_right fun hc => and_congr (hfeasible c hc) ?_
    exact forall_congr' fun d => ⟨fun h hd hf => h (hperm.mem_iff.mpr hd) ((hfeasible d hd).mpr hf),
      fun h hd hs => h (hperm.mem_iff.mp hd) ((hfeasible d (hperm.mem_iff.mp hd)).mp hs)⟩
  have hnone : ranked.filter (survivor rt query evidence) = [] ↔ ∀ c ∈ candidates, ¬ Feasible rt query evidence c := by
    rw [List.filter_eq_nil_iff]
    exact forall_congr' fun c => ⟨fun h hc hf => h (hperm.mem_iff.mpr hc) ((hfeasible c hc).mpr hf),
      fun h hc hs => h (hperm.mem_iff.mp hc) ((hfeasible c (hperm.mem_iff.mp hc)).mp hs)⟩
  unfold conclude at h
  dsimp only at h
  obtain ⟨outcome, houtcome, h⟩ := bind_eq_ok.mp h
  cases h
  dsimp only
  have hsettle := settle_committed houtcome
  simp only [filter_survives, List.map_eq_nil_iff] at hsettle
  rcases hsettle with ⟨j, hj, hstatus, hhash⟩ | ⟨hno, hhash, hstatus⟩
  · obtain ⟨c, hc, rfl⟩ := List.map_eq_singleton_iff.mp hj
    have honly := (hsingle c).mp hc
    have hcandidate := (hverdict c (hperm.mem_iff.mpr honly.1)).1
    refine ⟨fun d hd => ⟨hstatus, ?_⟩, fun h => absurd honly.2.1 (h c honly.1), fun _ h => absurd honly (h c)⟩
    rw [hhash, hcandidate, honly.2.2 d hd.1 hd.2.1]
  · refine ⟨fun c hc => ?_, fun h => ⟨hhash, ?_⟩, fun hany _ => ⟨hhash, ?_⟩⟩
    · exact absurd (by rw [(hsingle c).mpr hc]; rfl) (hno (verdict rt query evidence c))
    · rw [hstatus]
      simp only [hnone.mpr h, true_and]
    · rw [hstatus, if_neg fun h => ?_]
      obtain ⟨c, hc, hf⟩ := hany
      exact hnone.mp h.1 c hc hf

/-- A transaction on a query that is not settled decides by the candidates that the sources give. -/
theorem decides_resolve {registry : DefinitionSourceRegistry} {query : DefinitionQuery} {file : Option ResolutionStore}
    {context evidence : Dict String PyValue} {rankings : List String} {store : ResolutionStore} {r : ResolutionResult}
    {written : Option ResolutionStore} (hload : loadResolutionStore file query.environmentHash = .ok store)
    (hnew : settledRecord store query = .ok none)
    (h : resolveOneConcept rt registry query file context evidence rankings = .ok (r, written)) :
    ∃ raw statuses normalized w, retrieve registry query context = .ok (raw, statuses) ∧
      normalizeAll rt query raw statuses = .ok normalized ∧ written = some w ∧
      Decides rt query evidence (ordered normalized) r.status r.committedCandidateHash := by
  unfold resolveOneConcept at h
  obtain ⟨store', hstore', h⟩ := bind_eq_ok.mp h
  obtain rfl := Except.ok.inj (hload.symm.trans hstore')
  obtain ⟨previous, hprevious, h⟩ := bind_eq_ok.mp h
  obtain rfl := Except.ok.inj (hnew.symm.trans hprevious)
  obtain ⟨⟨raw, statuses⟩, hretrieved, h⟩ := bind_eq_ok.mp h
  obtain ⟨candidates, hcandidates, h⟩ := bind_eq_ok.mp h
  obtain ⟨ranked, hranked, h⟩ := bind_eq_ok.mp h
  obtain ⟨judged, hjudged, h⟩ := bind_eq_ok.mp h
  obtain ⟨result, hresult, heq⟩ := map_eq_ok.mp h
  obtain ⟨rfl, rfl⟩ := Prod.mk.inj heq
  obtain ⟨normalized, hnormalized, rfl⟩ := normalizeCandidates_eq_ok.mp hcandidates
  refine ⟨raw, statuses, normalized, result.2, hretrieved, hnormalized, rfl, ?_⟩
  have hperm : ranked.Perm (ordered normalized) := by
    unfold rankCandidates at hranked
    split at hranked
    · cases hranked
    · cases hranked
      exact List.perm_insertionSort _ _
  exact decides_conclude (nodup_ordered normalized) hperm hjudged hresult

/-- The loop over raw candidates in another order gives the same candidates in another order. -/
theorem normalizeAll_perm {query : DefinitionQuery} {raw raw' : List PyValue} {statuses : List SourceProvenance}
    {normalized normalized' : List (Option TypedDefinitionCandidate)} (hperm : raw.Perm raw')
    (h : normalizeAll rt query raw statuses = .ok normalized) (h' : normalizeAll rt query raw' statuses = .ok normalized') :
    normalized.Perm normalized' := by
  have hmap : ∀ (l : List PyValue) (out : List (Option TypedDefinitionCandidate)),
      normalizeAll rt query l statuses = .ok out →
      out = l.map fun x =>
        (normalizeCandidate rt.quote query (Dict.ofEntries (statuses.map fun s => (s.sourceId, s))) x).toOption.getD none := by
    intro l out hl
    have hone : ∀ a b, normalizeCandidate rt.quote query (Dict.ofEntries (statuses.map fun s => (s.sourceId, s))) a = .ok b →
        id b = (normalizeCandidate rt.quote query (Dict.ofEntries (statuses.map fun s => (s.sourceId, s))) a).toOption.getD
          none := by
      intro a b hb
      rw [hb]
      rfl
    have := map_mapM hone hl
    rwa [List.map_id] at this
  rw [hmap raw normalized h, hmap raw' normalized' h']
  exact hperm.map _

/-- The file after a call. -/
def storeFile (file : Option ResolutionStore) (result : Except CheckpointError (ResolutionResult × Option ResolutionStore)) :
    Option ResolutionStore :=
  match result with
  | .ok (_, some written) => some written
  | _ => file

/-- A query that the store has settled leaves the file as it is, whatever the call comes with. -/
theorem storeFile_settled (registry : DefinitionSourceRegistry) {query : DefinitionQuery} {store : ResolutionStore}
    (context evidence : Dict String PyValue) (rankings : List String) {record : Dict String PyValue}
    (hloads : loadResolutionStore (some store) query.environmentHash = .ok store)
    (hrecord : settledRecord store query = .ok (some record)) :
    storeFile (some store) (resolveOneConcept rt registry query (some store) context evidence rankings) = some store := by
  cases h : resolveOneConcept rt registry query (some store) context evidence rankings with
  | error e => rfl
  | ok result =>
    obtain ⟨r, written⟩ := result
    obtain ⟨rfl, -⟩ := resolve_settled rt hloads hrecord h
    rfl

/-- A query with a hard property and no required ones. -/
def hardQuery : DefinitionQuery := { openQuery with hardProperties := ["p"] }

/-- One source with one definition. -/
def oneRegistry : DefinitionSourceRegistry :=
  Dict.ofEntries [("s", fun _ _ => .ok ([.dict (rawDefinition []).entries], ⟨"s", "local", "OK", "", "", "", ""⟩))]

/-- Verified evidence for the property. -/
def verifiedEvidence : Dict String PyValue :=
  Dict.ofEntries [("p", .dict [("status", .str "VERIFIED"), ("evidence_ref", .str "proof")])]

theorem load_none : loadResolutionStore none hardQuery.environmentHash = .ok (emptyStore "") := rfl

theorem settledRecord_empty : settledRecord (emptyStore "") hardQuery = .ok none := rfl

theorem ordered_oneSource : ordered [some (normalizedDefinition [])] = [{ normalizedDefinition [] with shortId := "C1" }] := by
  have hraw : [PyValue.dict (rawDefinition []).entries].mapM (normalizeCandidate id hardQuery
      (Dict.ofEntries ([(⟨"s", "local", "OK", "", "", "", ""⟩ : SourceProvenance)].map fun s => (s.sourceId, s)))) =
      .ok [some (normalizedDefinition [])] := by
    decide +kernel
  have hnormalizes : normalizeCandidates exampleRuntime.quote _ _ _ = .ok _ := normalizeCandidates_single hraw
  obtain ⟨normalized, hnormalized, hordered⟩ := normalizeCandidates_eq_ok.mp hnormalizes
  obtain rfl := Except.ok.inj (hnormalized.symm.trans hraw)
  exact hordered

end Definitions

end KakeyaEngine
