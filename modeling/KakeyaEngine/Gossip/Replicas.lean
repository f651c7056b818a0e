import KakeyaEngine.Gossip.Placement
import KakeyaEngine.Lib.Ranked
import KakeyaEngine.PrefixCache.Hashing

/-!
# The replicas of a block

`select_cache_replicas` ranks the compatible caches of all cards by a rendezvous hash of the block and the node, and takes
the first addresses.  So the replicas do not depend on the order of the cards, a new card moves no block but to itself, and
a card that holds no replica can go.
-/

namespace KakeyaEngine

namespace Replicas

/-- The score, the free bytes and the address of a cache. -/
abbrev Candidate := Nat ×ₗ Nat ×ₗ String

/-- The address of a candidate. -/
def address (c : Candidate) : String := (ofLex (ofLex c).2).2

/-- `int.from_bytes(…, "big")`. -/
def fromBytes (bytes : Bytes) : Nat := bytes.foldl (fun n b => n * 256 + b.toNat) 0

/-- The score of a node for a block. -/
def rendezvous (blockHash : Bytes) (nodeId : String) : Nat := fromBytes (Sha256.sha256 (blockHash ++ utf8 nodeId.toList))

/-- The candidates of a card. -/
def offered (compatibility : CacheCompatibility) (blockHash : Bytes) (card : NodeCapability) : List Candidate :=
  (card.caches.filter fun cache => decide (cache.compatibility = compatibility) && !(cache.cacheAddress == "")).map
    fun cache => toLex (rendezvous blockHash card.nodeId, toLex (cache.cacheBytesFree, cache.cacheAddress))

/-- The loop over the sorted candidates. -/
def collect (replicationFactor : Int) : (result : List String) → List Candidate → List String
  | result, [] => result
  | result, c :: rest =>
    let result := if address c ∈ result then result else result ++ [address c]
    if replicationFactor ≤ result.length then result else collect replicationFactor result rest

/-- `select_cache_replicas`. -/
def selectCacheReplicas (cards : List NodeCapability) (compatibility : CacheCompatibility) (blockHash : Bytes)
    (replicationFactor : Int) : List String :=
  if replicationFactor ≤ 0 then []
  else
    let candidates := cards.flatMap (offered compatibility blockHash)
    collect replicationFactor [] (candidates.insertionSort (· ≥ ·))

/-! ### The best candidates -/

theorem collect_eq {replicationFactor : Int} {result : List String} (h : (result.length : Int) < replicationFactor)
    (l : List Candidate) : collect replicationFactor result l =
      result ++ ((Ranked.firsts address result l).take (replicationFactor.toNat - result.length)).map address := by
  induction l generalizing result with
  | nil => simp [collect, Ranked.firsts]
  | cons c l ih =>
    unfold collect Ranked.firsts
    by_cases hc : address c ∈ result
    · rw [if_pos hc, if_neg (by omega), if_pos hc, ih h]
    · rw [if_neg hc, if_neg hc]
      obtain ⟨m, hm⟩ : ∃ m, replicationFactor.toNat - result.length = m + 1 :=
        ⟨replicationFactor.toNat - result.length - 1, by omega⟩
      have hlength : (result ++ [address c]).length = result.length + 1 := by simp
      rw [hm, List.take_succ_cons, List.map_cons]
      dsimp only
      split
      · obtain rfl : m = 0 := by omega
        simp
      · have hseen : Ranked.firsts address (result ++ [address c]) l = Ranked.firsts address (address c :: result) l :=
          Ranked.firsts_congr (by simp [or_comm]) l
        rw [ih (by omega), hseen, hlength, show replicationFactor.toNat - (result.length + 1) = m by omega]
        simp

section

variable (compatibility : CacheCompatibility) (blockHash : Bytes) (replicationFactor : Int)

/-- The candidates whose addresses are selected. -/
def picked (cards : List NodeCapability) : List Candidate :=
  Ranked.best address replicationFactor.toNat (cards.flatMap (offered compatibility blockHash))

theorem selectCacheReplicas_eq (cards : List NodeCapability) :
    selectCacheReplicas cards compatibility blockHash replicationFactor =
      (picked compatibility blockHash replicationFactor cards).map address := by
  unfold selectCacheReplicas picked Ranked.best
  split
  · rename_i h
    rw [Int.toNat_of_nonpos h, List.take_zero, List.map_nil]
  · rename_i h
    dsimp only
    rw [collect_eq (by simpa using h), List.nil_append, List.length_nil, Nat.sub_zero]

/-- The candidates of the cards with one more. -/
theorem candidates_perm (before : List NodeCapability) (card : NodeCapability) (after : List NodeCapability) :
    ((before ++ card :: after).flatMap (offered compatibility blockHash)).Perm
      (offered compatibility blockHash card ++ (before ++ after).flatMap (offered compatibility blockHash)) := by
  rw [← List.flatMap_cons]
  exact List.perm_middle.flatMap_right _

/-- The replicas are at most as many as asked for and distinct; they do not depend on the order of the cards; a further card
brings in no address but its own; and a card without a replica can be taken out. -/
theorem replica_selection :
    (∀ cards, (selectCacheReplicas cards compatibility blockHash replicationFactor).length ≤ replicationFactor.toNat ∧
      (selectCacheReplicas cards compatibility blockHash replicationFactor).Nodup) ∧
    (∀ cards cards' : List NodeCapability, cards.Perm cards' →
      selectCacheReplicas cards compatibility blockHash replicationFactor =
        selectCacheReplicas cards' compatibility blockHash replicationFactor) ∧
    (∀ before card after, selectCacheReplicas (before ++ card :: after) compatibility blockHash replicationFactor ⊆
      (offered compatibility blockHash card).map address ++
        selectCacheReplicas (before ++ after) compatibility blockHash replicationFactor) ∧
    ∀ before card after,
      (∀ c ∈ offered compatibility blockHash card,
        c ∉ picked compatibility blockHash replicationFactor (before ++ card :: after)) →
      selectCacheReplicas (before ++ after) compatibility blockHash replicationFactor =
        selectCacheReplicas (before ++ card :: after) compatibility blockHash replicationFactor := by
  simp only [selectCacheReplicas_eq]
  refine ⟨fun cards => ⟨?_, Ranked.nodup_best _ _⟩, fun cards cards' h => ?_, fun before card after => ?_,
    fun before card after h => ?_⟩
  · rw [List.length_map]
    exact Ranked.length_best_le _ _
  · unfold picked
    rw [Ranked.best_perm _ (h.flatMap_right _)]
  · unfold picked
    rw [Ranked.best_perm _ (candidates_perm compatibility blockHash before card after)]
    exact Ranked.best_append _ _ _
  · unfold picked at h ⊢
    rw [Ranked.best_perm _ (candidates_perm compatibility blockHash before card after)] at h ⊢
    rw [Ranked.best_of_forall_not_mem h]

end

end Replicas

end KakeyaEngine
