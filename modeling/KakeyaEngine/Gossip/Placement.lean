import Mathlib.Data.Prod.Lex
import Mathlib.Data.String.Basic
import KakeyaEngine.Gossip.Registry

/-!
# Placement of the verifier and the proposer

`plan_spec_decode_placement` picks, from the cards of a snapshot, the node of the verifier and the node of the proposer by
the least score.  The sort is stable, so ties are decided by the place in the snapshot; with distinct node ids only models
of one card can tie, and their order does not depend on the snapshot's.  Every node that holds the same cards therefore
plans the same placement, although each lists its own card first.
-/

namespace KakeyaEngine

/-- `PlacementError`, for the model id that the message quotes. -/
inductive PlacementError
  | noVerifier (modelId : Option String)
  | noProposer (modelId : Option String)
deriving DecidableEq

/-- `SpecDecodePlacement`. -/
structure SpecDecodePlacement where
  verifierNode : NodeCapability
  verifierModel : ModelCapability
  proposerNode : NodeCapability
  proposerModel : ModelCapability
deriving DecidableEq

namespace Placement

/-- A node and one of its models. -/
abbrev Candidate := NodeCapability × ModelCapability

/-- `_candidates`. -/
def candidates (snapshot : List NodeCapability) (role : CapabilityRole) (modelId : Option String) : List Candidate :=
  snapshot.flatMap fun node => (node.modelsWithRole role modelId).map fun model => (node, model)

/-- `_score`. -/
def score (c : Candidate) : ℚ ×ₗ ℤ ×ₗ String :=
  toLex (-c.2.tokensPerSecond, toLex (-(c.1.unifiedMemoryBytes : ℤ), c.1.nodeId))

/-- `sorted(pool, key=_score)[0]`. -/
def best (pool : List Candidate) : Option Candidate :=
  (pool.mergeSort fun a b => decide (score a ≤ score b)).head?

/-- The model id that an error message quotes. -/
def quoted (modelId : Option String) : Option String := modelId.filter fun id => decide (id ≠ "")

/-- The proposers that are considered: those on other nodes, when they are preferred and there are any. -/
def proposerPool (pool : List Candidate) (verifierId : String) (preferRemoteProposer : Bool) : List Candidate :=
  let remotePool := pool.filter fun p => decide (p.1.nodeId ≠ verifierId)
  if preferRemoteProposer = true ∧ remotePool ≠ [] then remotePool else pool

/-- `plan_spec_decode_placement`. -/
def planSpecDecodePlacement (snapshot : List NodeCapability) (verifierModelId proposerModelId : Option String)
    (preferRemoteProposer : Bool) : Except PlacementError SpecDecodePlacement :=
  match best (candidates snapshot .verifier verifierModelId) with
  | none => .error (.noVerifier (quoted verifierModelId))
  | some v =>
    match best (proposerPool (candidates snapshot .proposer proposerModelId) v.1.nodeId preferRemoteProposer) with
    | none => .error (.noProposer (quoted proposerModelId))
    | some p => .ok { verifierNode := v.1, verifierModel := v.2, proposerNode := p.1, proposerModel := p.2 }

/-! ### The candidate with the least score -/

/-- A candidate of the pool with the least score, and the first of those. -/
structure IsBest (pool : List Candidate) (c : Candidate) : Prop where
  mem : c ∈ pool
  le : ∀ d ∈ pool, score c ≤ score d
  first : (pool.filter fun d => decide (score d = score c)).head? = some c

theorem mergeSort_pairwise (pool : List Candidate) :
    (pool.mergeSort fun a b => decide (score a ≤ score b)).Pairwise fun a b => score a ≤ score b := by
  have h : (pool.mergeSort fun a b => decide (score a ≤ score b)).Pairwise fun a b => decide (score a ≤ score b) = true :=
    List.pairwise_mergeSort (fun a b c => by simpa using le_trans)
      (fun a b => by simpa using le_total (score a) (score b)) pool
  simpa using h

/-- The sort keeps the order of candidates with one score. -/
theorem filter_mergeSort (pool : List Candidate) (m : ℚ ×ₗ ℤ ×ₗ String) :
    (pool.mergeSort fun a b => decide (score a ≤ score b)).filter (fun d => decide (score d = m)) =
      pool.filter fun d => decide (score d = m) := by
  have htied : (pool.filter fun d => decide (score d = m)).Pairwise fun a b => decide (score a ≤ score b) = true := by
    apply List.pairwise_of_forall_mem_list
    intro a ha b hb
    simp only [List.mem_filter, decide_eq_true_eq] at ha hb
    simp [ha.2, hb.2]
  have hsub : (pool.filter fun d => decide (score d = m)).Sublist
      (pool.mergeSort fun a b => decide (score a ≤ score b)) :=
    List.sublist_mergeSort (fun a b c => by simpa using le_trans)
      (fun a b => by simpa using le_total (score a) (score b)) htied List.filter_sublist
  have hsub' := hsub.filter fun d => decide (score d = m)
  rw [List.filter_filter] at hsub'
  have hperm := (List.mergeSort_perm pool fun a b => decide (score a ≤ score b)).filter fun d => decide (score d = m)
  simp only [Bool.and_self] at hsub'
  exact (hsub'.eq_of_length hperm.length_eq.symm).symm

theorem best_spec {pool : List Candidate} {c : Candidate} (h : best pool = some c) : IsBest pool c := by
  unfold best at h
  have hpw := mergeSort_pairwise pool
  have hfilter := filter_mergeSort pool (score c)
  have hmem : ∀ d, d ∈ pool.mergeSort (fun a b => decide (score a ≤ score b)) ↔ d ∈ pool := fun d => List.mem_mergeSort
  generalize pool.mergeSort (fun a b => decide (score a ≤ score b)) = sorted at *
  cases sorted with
  | nil => cases h
  | cons x xs =>
    obtain rfl : x = c := by simpa using h
    refine ⟨(hmem x).1 (by simp), ?_, ?_⟩
    · intro d hd
      rcases List.mem_cons.1 ((hmem d).2 hd) with rfl | hd
      · exact le_refl _
      · exact (List.pairwise_cons.1 hpw).1 d hd
    · rw [← hfilter, List.filter_cons_of_pos (by simp)]
      rfl

theorem best_eq_none {pool : List Candidate} : best pool = none ↔ pool = [] := by
  unfold best
  rw [List.head?_eq_none_iff, ← List.length_eq_zero_iff, List.length_mergeSort, List.length_eq_zero_iff]

/-- Two pools with the same candidates, those of one node in the same order, have the same best one. -/
theorem best_congr {pool pool' : List Candidate} (hmem : ∀ c, c ∈ pool ↔ c ∈ pool')
    (hnode : ∀ id, pool.filter (fun c => decide (c.1.nodeId = id)) = pool'.filter fun c => decide (c.1.nodeId = id)) :
    best pool = best pool' := by
  cases h : best pool with
  | none =>
    rw [best_eq_none] at h
    subst h
    have hempty : pool' = [] := List.eq_nil_iff_forall_not_mem.2 fun c hc => by simpa using (hmem c).2 hc
    rw [eq_comm, best_eq_none]
    exact hempty
  | some c =>
    have hc := best_spec h
    cases h' : best pool' with
    | none =>
      rw [best_eq_none] at h'
      rw [h'] at hmem
      exact absurd ((hmem c).1 hc.mem) (by simp)
    | some d =>
      have hd := best_spec h'
      have hscore : score c = score d := le_antisymm (hc.le d ((hmem d).2 hd.mem)) (hd.le c ((hmem c).1 hc.mem))
      -- a tie is among the models of one node
      have htie : ∀ l : List Candidate, l.filter (fun e => decide (score e = score c)) =
          (l.filter fun e => decide (e.1.nodeId = c.1.nodeId)).filter fun e => decide (score e = score c) := by
        intro l
        rw [List.filter_filter]
        apply List.filter_congr
        intro e _
        by_cases he : score e = score c
        · have hid : e.1.nodeId = c.1.nodeId := by
            have h2 := congrArg (fun s => (ofLex (ofLex s).2).2) he
            exact h2
          simp [he, hid]
        · simp [he]
      have hfirst := hc.first
      rw [htie, hnode, ← htie, hscore, hd.first] at hfirst
      exact hfirst.symm

/-! ### Order of the snapshot -/

theorem mem_candidates {snapshot : List NodeCapability} {role : CapabilityRole} {modelId : Option String}
    {c : Candidate} :
    c ∈ candidates snapshot role modelId ↔ c.1 ∈ snapshot ∧ c.2 ∈ c.1.modelsWithRole role modelId := by
  obtain ⟨node, model⟩ := c
  unfold candidates
  simp only [List.mem_flatMap, List.mem_map, Prod.mk.injEq]
  constructor
  · rintro ⟨n, hn, m, hm, rfl, rfl⟩
    exact ⟨hn, hm⟩
  · rintro ⟨hn, hm⟩
    exact ⟨node, hn, model, hm, rfl, rfl⟩

/-- The candidates of one node. -/
theorem filter_candidates (snapshot : List NodeCapability) (role : CapabilityRole) (modelId : Option String)
    (id : String) :
    (candidates snapshot role modelId).filter (fun c => decide (c.1.nodeId = id)) =
      candidates (snapshot.filter fun n => decide (n.nodeId = id)) role modelId := by
  induction snapshot with
  | nil => rfl
  | cons n l ih =>
    unfold candidates at ih ⊢
    rw [List.flatMap_cons, List.filter_append, ih]
    by_cases hn : n.nodeId = id
    · rw [List.filter_cons_of_pos (by simpa using hn), List.flatMap_cons]
      congr 1
      rw [List.filter_eq_self]
      intro c hc
      obtain ⟨m, -, rfl⟩ := List.mem_map.1 hc
      simpa using hn
    · rw [List.filter_cons_of_neg (by simpa using hn)]
      have hnone : ((n.modelsWithRole role modelId).map fun model => (n, model)).filter
          (fun c => decide (c.1.nodeId = id)) = [] := by
        rw [List.filter_eq_nil_iff]
        intro c hc
        obtain ⟨m, -, rfl⟩ := List.mem_map.1 hc
        simpa using hn
      rw [hnone, List.nil_append]

/-- Two orders of cards with distinct node ids have the same cards of one node. -/
theorem filter_nodeId_of_perm {l l' : List NodeCapability} (hl : (l.map NodeCapability.nodeId).Nodup) (hperm : l.Perm l')
    (id : String) :
    l.filter (fun n => decide (n.nodeId = id)) = l'.filter fun n => decide (n.nodeId = id) := by
  have hp := hperm.filter fun n => decide (n.nodeId = id)
  have hone : ∀ a ∈ l.filter (fun n => decide (n.nodeId = id)), ∀ b ∈ l.filter (fun n => decide (n.nodeId = id)),
      a = b := by
    intro a ha b hb
    simp only [List.mem_filter, decide_eq_true_eq] at ha hb
    exact List.inj_on_of_nodup_map hl ha.1 hb.1 (ha.2.trans hb.2.symm)
  have hnodup : (l.filter fun n => decide (n.nodeId = id)).Nodup := (List.Nodup.of_map _ hl).filter _
  generalize l.filter (fun n => decide (n.nodeId = id)) = xs at *
  match xs, hp, hone, hnodup with
  | [], hp, _, _ => exact (List.Perm.nil_eq hp).symm ▸ rfl
  | [a], hp, _, _ => exact (List.singleton_perm.1 hp).symm ▸ rfl
  | a :: b :: xs, _, hone, hnodup =>
    have hab := hone a (by simp) b (by simp)
    rw [List.nodup_cons] at hnodup
    exact absurd (by rw [hab]; simp) hnodup.1

theorem filter_candidates_of_perm {l l' : List NodeCapability} (hl : (l.map NodeCapability.nodeId).Nodup)
    (hperm : l.Perm l') (role : CapabilityRole) (modelId : Option String) (id : String) :
    (candidates l role modelId).filter (fun c => decide (c.1.nodeId = id)) =
      (candidates l' role modelId).filter fun c => decide (c.1.nodeId = id) := by
  rw [filter_candidates, filter_candidates, filter_nodeId_of_perm hl hperm]

/-- The best candidate among those on some nodes. -/
theorem best_filter_of_perm {l l' : List NodeCapability} (hl : (l.map NodeCapability.nodeId).Nodup) (hperm : l.Perm l')
    (role : CapabilityRole) (modelId : Option String) (p : String → Bool) :
    best ((candidates l role modelId).filter fun c => p c.1.nodeId) =
      best ((candidates l' role modelId).filter fun c => p c.1.nodeId) := by
  apply best_congr
  · intro c
    simp only [List.mem_filter, mem_candidates, hperm.mem_iff]
  · intro id
    rw [List.filter_comm, filter_candidates_of_perm hl hperm, List.filter_comm]

theorem best_candidates_of_perm {l l' : List NodeCapability} (hl : (l.map NodeCapability.nodeId).Nodup)
    (hperm : l.Perm l') (role : CapabilityRole) (modelId : Option String) :
    best (candidates l role modelId) = best (candidates l' role modelId) := by
  have h := best_filter_of_perm hl hperm role modelId fun _ => true
  simpa using h

/-- The plan does not depend on the order of the cards. -/
theorem plan_of_perm {l l' : List NodeCapability} (hl : (l.map NodeCapability.nodeId).Nodup) (hperm : l.Perm l')
    (v p : Option String) (remote : Bool) :
    planSpecDecodePlacement l v p remote = planSpecDecodePlacement l' v p remote := by
  unfold planSpecDecodePlacement
  rw [best_candidates_of_perm hl hperm]
  cases best (candidates l' .verifier v) with
  | none => rfl
  | some c =>
    have hpool : best (proposerPool (candidates l .proposer p) c.1.nodeId remote) =
        best (proposerPool (candidates l' .proposer p) c.1.nodeId remote) := by
      unfold proposerPool
      have hempty : (candidates l .proposer p).filter (fun q => decide (q.1.nodeId ≠ c.1.nodeId)) = [] ↔
          (candidates l' .proposer p).filter (fun q => decide (q.1.nodeId ≠ c.1.nodeId)) = [] := by
        simp only [List.eq_nil_iff_forall_not_mem, List.mem_filter, mem_candidates, hperm.mem_iff]
      dsimp only
      simp only [ne_eq, hempty]
      split
      · exact best_filter_of_perm hl hperm .proposer p fun id => decide (id ≠ c.1.nodeId)
      · exact best_candidates_of_perm hl hperm .proposer p
    dsimp only
    rw [hpool]

/-! ### What is chosen -/

/-- `node` with `model` has the least score among the capable nodes in `q`. -/
structure Chosen (snapshot : List NodeCapability) (role : CapabilityRole) (modelId : Option String)
    (q : NodeCapability → Prop) (node : NodeCapability) (model : ModelCapability) : Prop where
  mem : node ∈ snapshot
  capable : model ∈ node.modelsWithRole role modelId
  eligible : q node
  least : ∀ n ∈ snapshot, q n → ∀ m ∈ n.modelsWithRole role modelId, score (node, model) ≤ score (n, m)

theorem chosen_of_best {snapshot : List NodeCapability} {role : CapabilityRole} {modelId : Option String}
    {c : Candidate} (h : best (candidates snapshot role modelId) = some c) :
    Chosen snapshot role modelId (fun _ => True) c.1 c.2 := by
  have hbest := best_spec h
  obtain ⟨hmem, hcap⟩ := mem_candidates.1 hbest.mem
  exact ⟨hmem, hcap, trivial, fun n hn _ m hm => hbest.le (n, m) (mem_candidates.2 ⟨hn, hm⟩)⟩

/-- The capable nodes other than a given one. -/
def Elsewhere (snapshot : List NodeCapability) (modelId : Option String) (id : String) : Prop :=
  ∃ n ∈ snapshot, n.nodeId ≠ id ∧ n.modelsWithRole .proposer modelId ≠ []

theorem remotePool_ne_nil {snapshot : List NodeCapability} {p : Option String} {id : String} :
    (candidates snapshot .proposer p).filter (fun q => decide (q.1.nodeId ≠ id)) ≠ [] ↔ Elsewhere snapshot p id := by
  constructor
  · intro h
    obtain ⟨⟨n, m⟩, hnm⟩ := List.exists_mem_of_ne_nil _ h
    simp only [List.mem_filter, mem_candidates, decide_eq_true_eq] at hnm
    exact ⟨n, hnm.1.1, hnm.2, List.ne_nil_of_mem hnm.1.2⟩
  · rintro ⟨n, hn, hne, hcap⟩
    obtain ⟨m, hm⟩ := List.exists_mem_of_ne_nil _ hcap
    have hnm : (n, m) ∈ (candidates snapshot .proposer p).filter fun q => decide (q.1.nodeId ≠ id) :=
      List.mem_filter.2 ⟨mem_candidates.2 ⟨hn, hm⟩, decide_eq_true hne⟩
    exact List.ne_nil_of_mem hnm

/-- The proposer is chosen among the other nodes when these are preferred and one is capable. -/
theorem chosen_of_best_proposer {snapshot : List NodeCapability} {p : Option String} {id : String} {remote : Bool}
    {c : Candidate} (h : best (proposerPool (candidates snapshot .proposer p) id remote) = some c) :
    Chosen snapshot .proposer p (fun n => remote = true → Elsewhere snapshot p id → n.nodeId ≠ id) c.1 c.2 := by
  unfold proposerPool at h
  dsimp only at h
  by_cases hremote : remote = true ∧ Elsewhere snapshot p id
  · rw [if_pos ⟨hremote.1, remotePool_ne_nil.2 hremote.2⟩] at h
    have hbest := best_spec h
    have hmem := List.mem_filter.1 hbest.mem
    obtain ⟨hin, hcap⟩ := mem_candidates.1 hmem.1
    refine ⟨hin, hcap, fun _ _ => of_decide_eq_true hmem.2, fun n hn hq m hm => ?_⟩
    refine hbest.le (n, m) (List.mem_filter.2 ⟨mem_candidates.2 ⟨hn, hm⟩, ?_⟩)
    exact decide_eq_true (hq hremote.1 hremote.2)
  · rw [if_neg fun h' => hremote ⟨h'.1, remotePool_ne_nil.1 h'.2⟩] at h
    have hchosen := chosen_of_best h
    exact ⟨hchosen.mem, hchosen.capable, fun h1 h2 => absurd ⟨h1, h2⟩ hremote,
      fun n hn _ m hm => hchosen.least n hn trivial m hm⟩

theorem plan_ok {snapshot : List NodeCapability} {v p : Option String} {remote : Bool} {P : SpecDecodePlacement}
    (h : planSpecDecodePlacement snapshot v p remote = .ok P) :
    best (candidates snapshot .verifier v) = some (P.verifierNode, P.verifierModel) ∧
      best (proposerPool (candidates snapshot .proposer p) P.verifierNode.nodeId remote) =
        some (P.proposerNode, P.proposerModel) := by
  unfold planSpecDecodePlacement at h
  cases hv : best (candidates snapshot .verifier v) with
  | none =>
    rw [hv] at h
    cases h
  | some c =>
    rw [hv] at h
    dsimp only at h
    cases hp : best (proposerPool (candidates snapshot .proposer p) c.1.nodeId remote) with
    | none =>
      rw [hp] at h
      cases h
    | some d =>
      rw [hp] at h
      obtain rfl := Except.ok.inj h
      exact ⟨rfl, hp⟩

/-! ### Registries with the same cards -/

/-- A card without its stamp. -/
def unstamped (c : NodeCapability) : NodeCapability := CapabilityRegistry.restamp c 0

/-- The plan with the stamps taken off. -/
def unstampedPlan (P : SpecDecodePlacement) : SpecDecodePlacement :=
  { P with verifierNode := unstamped P.verifierNode, proposerNode := unstamped P.proposerNode }

/-- A candidate without the stamp of its card. -/
def unstampedCandidate (c : Candidate) : Candidate := (unstamped c.1, c.2)

theorem candidates_map (l : List NodeCapability) (role : CapabilityRole) (modelId : Option String) :
    candidates (l.map unstamped) role modelId = (candidates l role modelId).map unstampedCandidate := by
  unfold candidates
  rw [List.flatMap_map, List.map_flatMap]
  apply List.flatMap_congr
  intro n _
  rw [List.map_map]
  rfl

/-- The score does not look at the stamp. -/
theorem best_map (pool : List Candidate) : best (pool.map unstampedCandidate) = (best pool).map unstampedCandidate := by
  have hsort : (pool.mergeSort fun a b => decide (score a ≤ score b)).map unstampedCandidate =
      (pool.map unstampedCandidate).mergeSort fun a b => decide (score a ≤ score b) :=
    List.map_mergeSort fun _ _ _ _ => rfl
  unfold best
  rw [← hsort, List.head?_map]

theorem proposerPool_map (pool : List Candidate) (id : String) (remote : Bool) :
    proposerPool (pool.map unstampedCandidate) id remote = (proposerPool pool id remote).map unstampedCandidate := by
  have hfilter : (pool.map unstampedCandidate).filter (fun p => decide (p.1.nodeId ≠ id)) =
      (pool.filter fun p => decide (p.1.nodeId ≠ id)).map unstampedCandidate := by
    rw [List.filter_map]
    rfl
  unfold proposerPool
  dsimp only
  rw [hfilter, apply_ite (List.map unstampedCandidate)]
  simp only [ne_eq, List.map_eq_nil_iff]

theorem plan_map (l : List NodeCapability) (v p : Option String) (remote : Bool) :
    planSpecDecodePlacement (l.map unstamped) v p remote =
      (planSpecDecodePlacement l v p remote).map unstampedPlan := by
  unfold planSpecDecodePlacement
  rw [candidates_map, best_map]
  cases best (candidates l .verifier v) with
  | none => rfl
  | some c =>
    have hpool : best (proposerPool (candidates (l.map unstamped) .proposer p) c.1.nodeId remote) =
        (best (proposerPool (candidates l .proposer p) c.1.nodeId remote)).map unstampedCandidate := by
      rw [candidates_map, proposerPool_map, best_map]
    have hid : (unstampedCandidate c).1.nodeId = c.1.nodeId := rfl
    simp only [Option.map_some, hid, hpool]
    cases best (proposerPool (candidates l .proposer p) c.1.nodeId remote) <;> rfl

theorem nodeIds_nodup (R : CapabilityRegistry) : (R.cards.map NodeCapability.nodeId).Nodup := by
  have hperm : (R.peers.values.mergeSort fun a b => decide (a.nodeId ≤ b.nodeId)).Perm R.peers.values :=
    List.mergeSort_perm _ _
  have hkeys : R.peers.values.map NodeCapability.nodeId = R.peers.keys := by
    unfold Dict.values Dict.keys
    rw [List.map_map]
    apply List.map_congr_left
    intro e he
    exact R.named e.1 e.2 (Dict.mem_entries_iff.1 he)
  unfold CapabilityRegistry.cards
  rw [List.map_cons, List.nodup_cons, (hperm.map _).mem_iff, (hperm.map _).nodup_iff, hkeys]
  exact ⟨Dict.not_mem_keys_iff.2 R.foreign, R.peers.nodup⟩

/-- Two registries that hold the same cards, up to their stamps. -/
def SameCards (R R' : CapabilityRegistry) : Prop := ∀ id, (R.get id).map unstamped = (R'.get id).map unstamped

theorem mem_unstamped_cards {R : CapabilityRegistry} {c : NodeCapability} :
    c ∈ R.cards.map unstamped ↔ (R.get c.nodeId).map unstamped = some c := by
  rw [List.mem_map, Option.map_eq_some_iff]
  constructor
  · rintro ⟨d, hd, rfl⟩
    exact ⟨d, CapabilityRegistry.mem_cards.1 hd, rfl⟩
  · rintro ⟨d, hd, rfl⟩
    exact ⟨d, CapabilityRegistry.mem_cards.2 hd, rfl⟩

theorem cards_perm {R R' : CapabilityRegistry} (h : SameCards R R') :
    (R.cards.map unstamped).Perm (R'.cards.map unstamped) := by
  have hnodup : ∀ S : CapabilityRegistry, (S.cards.map unstamped).Nodup := by
    intro S
    have hids : ((S.cards.map unstamped).map NodeCapability.nodeId).Nodup := by
      rw [List.map_map]
      exact nodeIds_nodup S
    exact List.Nodup.of_map _ hids
  rw [List.perm_ext_iff_of_nodup (hnodup R) (hnodup R')]
  intro c
  rw [mem_unstamped_cards, mem_unstamped_cards, h c.nodeId]

/-- Registries with the same cards plan the same placement. -/
theorem plan_of_sameCards {R R' : CapabilityRegistry} (h : SameCards R R') (v p : Option String) (remote : Bool) :
    (planSpecDecodePlacement R.cards v p remote).map unstampedPlan =
      (planSpecDecodePlacement R'.cards v p remote).map unstampedPlan := by
  rw [← plan_map, ← plan_map]
  refine plan_of_perm ?_ (cards_perm h) v p remote
  rw [List.map_map]
  exact nodeIds_nodup R

/-! ### The main result -/

/-- A node that can host both roles. -/
def exampleNode (id : String) (speed : ℚ) : NodeCapability :=
  { nodeId := "n" ++ id, grpcAddress := id,
    models := [{ modelId := "v", role := .verifier, tokensPerSecond := speed },
      { modelId := "p", role := .proposer, tokensPerSecond := speed }],
    nodeId_ne := by simp,
    ttlSeconds_pos := NodeCapability.default_ttlSeconds_pos }

end Placement

end KakeyaEngine
