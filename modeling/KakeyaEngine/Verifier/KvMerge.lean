import KakeyaEngine.Lib.Scatter
import KakeyaEngine.Verifier.Model
import KakeyaEngine.Verifier.Restored
import Mathlib.Data.List.Dedup
import Mathlib.Data.List.Sort

/-!
# Merging local and captured K/V

The restored attention of a layer works on the K/V of every position: its own where the verifier keeps them, and those
captured from the proposer where the verifier has evicted them.  `compute_evicted_positions` lists the evicted positions
from the three sizes, the verifier trims its cache by slicing, and the two agree (`mem_computeEvictedPositions`).

The merge goes by positions throughout: the local tensors hold a row for every position, and the captured rows are copied
over those at the evicted positions.  It never asks in which slot of a trimmed cache a position is.
-/

namespace KakeyaEngine

/-- A K or V tensor: its entries along the dimension of the positions, each for all batches and heads. -/
structure KvTensor (β : Type) where
  shape : List Nat
  dtype : String
  device : String
  entries : List β
  length_entries : shape.length = 4 → entries.length = shape.getD 1 0

namespace KvMerge

variable {β : Type}

def refuseIf (c : Prop) [Decidable c] (message : String) : Except VerifierError Unit :=
  if c then .error (.valueError message) else .ok ()

@[simp] theorem refuseIf_not {c : Prop} [Decidable c] (h : ¬ c) (message : String) : refuseIf c message = .ok () :=
  if_neg h

/-- The text of a tuple of sizes. -/
def tuple : List Nat → String
  | [n] => "(" ++ toString n ++ ",)"
  | sizes => "(" ++ ", ".intercalate (sizes.map toString) ++ ")"

/-! ### The evicted positions -/

/-- `compute_evicted_positions`. -/
def computeEvictedPositions (seqLen sinkSize windowSize : Int) : Except VerifierError (List Nat) := do
  refuseIf (seqLen < 0 ∨ sinkSize < 0 ∨ windowSize < 0)
    ("seq_len=" ++ toString seqLen ++ ", sink_size=" ++ toString sinkSize ++ ", window_size=" ++ toString windowSize ++
      " must all be non-negative")
  pure (KakeyaEngine.computeEvictedPositions seqLen.toNat sinkSize.toNat windowSize.toNat)

/-- `_validate_positions`. -/
def validatePositions (positions : List Int) (seqLen : Nat) : Except VerifierError (List Nat) :=
  if positions = [] then pure []
  else do
    let sortedPositions := positions.dedup.insertionSort (· ≤ ·)
    refuseIf (sortedPositions ≠ positions)
      ("evicted_positions must be sorted ascending with no duplicates; got " ++ toString positions)
    refuseIf (sortedPositions.headD 0 < 0 ∨ (seqLen : Int) ≤ sortedPositions.getLastD 0)
      ("evicted_positions must lie in [0, " ++ toString seqLen ++ "); got [" ++ toString (sortedPositions.headD 0) ++
        ", " ++ toString (sortedPositions.getLastD 0) ++ "]")
    pure (sortedPositions.map Int.toNat)

/-! ### The merge -/

/-- `_validate_shapes`. -/
def validateShapes (kLocal vLocal kCaptured vCaptured : KvTensor β) (nEvicted : Nat) : Except VerifierError Unit := do
  let size := fun (t : KvTensor β) i => t.shape.getD i 0
  refuseIf (kLocal.shape ≠ vLocal.shape)
    ("K_local shape " ++ tuple kLocal.shape ++ " != V_local shape " ++ tuple vLocal.shape)
  refuseIf (kCaptured.shape ≠ vCaptured.shape)
    ("K_captured shape " ++ tuple kCaptured.shape ++ " != V_captured shape " ++ tuple vCaptured.shape)
  refuseIf (kLocal.shape.length ≠ 4)
    ("K_local must be 4-D [B, T, num_kv_heads, head_dim]; got shape " ++ tuple kLocal.shape)
  refuseIf (kCaptured.shape.length ≠ 4)
    ("K_captured must be 4-D [B, n_evicted, num_kv_heads, head_dim]; got shape " ++ tuple kCaptured.shape)
  refuseIf (size kLocal 0 ≠ size kCaptured 0)
    ("batch mismatch: K_local B=" ++ toString (size kLocal 0) ++ " K_captured B=" ++ toString (size kCaptured 0))
  refuseIf (size kLocal 2 ≠ size kCaptured 2)
    ("num_kv_heads mismatch: K_local H=" ++ toString (size kLocal 2) ++ " K_captured H=" ++
      toString (size kCaptured 2))
  refuseIf (size kLocal 3 ≠ size kCaptured 3)
    ("head_dim mismatch: K_local D=" ++ toString (size kLocal 3) ++ " K_captured D=" ++ toString (size kCaptured 3))
  refuseIf (size kCaptured 1 ≠ nEvicted)
    ("K_captured T-dim " ++ toString (size kCaptured 1) ++ " != len(evicted_positions) " ++ toString nEvicted)
  refuseIf (kLocal.dtype ≠ kCaptured.dtype)
    ("dtype mismatch: K_local " ++ kLocal.dtype ++ " K_captured " ++ kCaptured.dtype)
  refuseIf (kLocal.device ≠ kCaptured.device)
    ("device mismatch: K_local " ++ kLocal.device ++ " K_captured " ++ kCaptured.device)

/-- `clone` and `index_copy_` along the positions.  The copy raises `incompatible` for tensors of two dtypes, or that are
not where the index is. -/
def indexCopy (incompatible : VerifierError) (own : KvTensor β) (index : List Nat) (indexDevice : String)
    (source : KvTensor β) : Except VerifierError (KvTensor β) :=
  if own.dtype = source.dtype ∧ own.device = indexDevice ∧ source.device = indexDevice then
    .ok
      { own with
        entries := scatter own.entries index source.entries,
        length_entries := by simpa using own.length_entries }
  else .error incompatible

/-- `merge_kv_at_evicted_positions`. -/
def mergeKvAtEvictedPositions (incompatible : VerifierError) (kLocal vLocal kCaptured vCaptured : KvTensor β)
    (evictedPositions : List Int) : Except VerifierError (KvTensor β × KvTensor β) := do
  refuseIf (kLocal.shape.length ≠ 4)
    ("K_local must be 4-D [B, T, num_kv_heads, head_dim]; got shape " ++ tuple kLocal.shape)
  let sortedPositions ← validatePositions evictedPositions (kLocal.shape.getD 1 0)
  if sortedPositions = [] then pure (kLocal, vLocal)
  else do
    validateShapes kLocal vLocal kCaptured vCaptured sortedPositions.length
    let kMerged ← indexCopy incompatible kLocal sortedPositions kLocal.device kCaptured
    let vMerged ← indexCopy incompatible vLocal sortedPositions kLocal.device vCaptured
    pure (kMerged, vMerged)

/-! ### The positions that the trim drops -/

/-- What the verifier's cache holds of a sequence of entries once it is trimmed. -/
def trimmedCache (cfg : VerifierConfig) {κ : Type} (entries : List κ) : List κ :=
  let v : SinkWindowVerifier κ Unit :=
    SinkWindowVerifier.held entries (List.replicate entries.length 0) entries.length none
  ((SinkWindowVerifier.trimCacheInPlace cfg).run v).2.cache.getD []

theorem trimmedCache_eq (cfg : VerifierConfig) {κ : Type} (entries : List κ) :
    trimmedCache cfg entries = SinkWindow.trim cfg.sinkSize cfg.windowSize entries := by
  unfold trimmedCache
  dsimp only
  rw [SinkWindowVerifier.run_trim cfg _ _ List.length_replicate]
  rfl

theorem mem_evicted {seqLen sink window p : Nat} :
    p ∈ KakeyaEngine.computeEvictedPositions seqLen sink window ↔
      p < seqLen ∧ p ∉ SinkWindow.trim sink window (List.range seqLen) := by
  rw [SinkWindow.mem_trim_range]
  unfold KakeyaEngine.computeEvictedPositions
  split
  · simp only [List.not_mem_nil, false_iff]
    omega
  · rw [List.range_eq_range', List.drop_range', List.mem_range'_1]
    omega

theorem pairwise_evicted (seqLen sink window : Nat) :
    (KakeyaEngine.computeEvictedPositions seqLen sink window).Pairwise (· < ·) := by
  unfold KakeyaEngine.computeEvictedPositions
  split
  · exact List.Pairwise.nil
  · exact List.pairwise_lt_range.drop

theorem computeEvictedPositions_ok (seqLen sink window : Nat) :
    computeEvictedPositions seqLen sink window = .ok (KakeyaEngine.computeEvictedPositions seqLen sink window) := by
  unfold computeEvictedPositions refuseIf
  rw [if_neg (by omega)]
  rfl

/-- A list of positions in order, all inside the sequence, is accepted as it is. -/
theorem validatePositions_ok {positions : List Nat} {seqLen : Nat} (hsorted : positions.Pairwise (· < ·))
    (hlt : ∀ p ∈ positions, p < seqLen) :
    validatePositions (positions.map Int.ofNat) seqLen = .ok positions := by
  have hpairwise : (positions.map Int.ofNat).Pairwise (· < ·) :=
    hsorted.map Int.ofNat fun _ _ h => Int.ofNat_lt.mpr h
  have hnodup : (positions.map Int.ofNat).Nodup := hpairwise.imp fun h => Int.ne_of_lt h
  have hsort : (positions.map Int.ofNat).dedup.insertionSort (· ≤ ·) = positions.map Int.ofNat := by
    rw [List.dedup_eq_self.mpr hnodup]
    exact (hpairwise.imp fun h => Int.le_of_lt h).insertionSort_eq
  unfold validatePositions refuseIf
  cases positions with
  | nil => rfl
  | cons p ps =>
    have hlast : (List.map Int.ofNat (p :: ps)).getLastD 0 < seqLen := by
      have hmem : (List.map Int.ofNat (p :: ps)).getLastD 0 ∈ List.map Int.ofNat (p :: ps) := by
        rw [List.getLastD_eq_getLast?, List.getLast?_eq_getLast_of_ne_nil (by simp)]
        exact List.getLast_mem _
      obtain ⟨q, hq, heq⟩ := List.mem_map.mp hmem
      rw [← heq]
      exact Int.ofNat_lt.mpr (hlt q hq)
    rw [if_neg (by simp)]
    dsimp only
    rw [hsort, if_neg (not_not.mpr rfl), if_neg (by
      rintro (h | h)
      · exact absurd h (by simp)
      · exact absurd hlast (Int.not_lt.mpr h))]
    show Except.ok _ = _
    simp [Function.comp_def]

/-! ### What the merge yields -/

/-- The tensors of a layer go together: one shape up to the number of captured rows, one dtype for each pair, and one
device. -/
structure Fits (kLocal vLocal kCaptured vCaptured : KvTensor β) (seqLen nEvicted : Nat) : Prop where
  rank : kLocal.shape.length = 4
  seqLen_eq : kLocal.shape.getD 1 0 = seqLen
  local_shape : vLocal.shape = kLocal.shape
  captured_shape : kCaptured.shape = kLocal.shape.set 1 nEvicted
  captured_shape' : vCaptured.shape = kCaptured.shape
  dtype : kCaptured.dtype = kLocal.dtype
  dtype' : vCaptured.dtype = vLocal.dtype
  devices : ∀ t ∈ [vLocal, kCaptured, vCaptured], t.device = kLocal.device

/-- The merged tensor holds the captured row of every evicted position.  At the others it holds the local row, which is
the one that a cache trimmed from the local rows holds in the slot of the position. -/
structure Restores (cfg : VerifierConfig) (evicted : List Nat) (own captured merged : KvTensor β) : Prop where
  shape : merged.shape = own.shape
  length : merged.entries.length = own.entries.length
  reconstructed : ∀ i p : Nat, evicted[i]? = some p → merged.entries[p]? = captured.entries[i]?
  retained : ∀ p ∉ evicted, merged.entries[p]? = own.entries[p]?
  slot : ∀ p < own.entries.length, p ∉ evicted → merged.entries[p]? =
    (trimmedCache cfg own.entries)[(trimmedCache cfg (List.range own.entries.length)).idxOf p]?

variable {kLocal vLocal kCaptured vCaptured : KvTensor β} {seqLen nEvicted : Nat}

theorem Fits.validateShapes_ok (h : Fits kLocal vLocal kCaptured vCaptured seqLen nEvicted) :
    validateShapes kLocal vLocal kCaptured vCaptured nEvicted = .ok () := by
  obtain ⟨b, t, n, d, hshape⟩ : ∃ b t n d, kLocal.shape = [b, t, n, d] := by
    match hs : kLocal.shape, h.rank with
    | [b, t, n, d], _ => exact ⟨b, t, n, d, rfl⟩
  have hcaptured : kCaptured.shape = [b, nEvicted, n, d] := by
    rw [h.captured_shape, hshape]
    rfl
  have hdevice := h.devices kCaptured (by simp)
  unfold validateShapes
  simp only [h.local_shape, h.captured_shape', hshape, hcaptured, h.dtype, hdevice, List.length_cons, List.length_nil,
    List.getD_cons_zero, List.getD_cons_succ, ne_eq, not_true_eq_false, not_false_eq_true, refuseIf_not]
  rfl

theorem indexCopy_ok (incompatible : VerifierError) {own source : KvTensor β} (index : List Nat) {device : String}
    (hdtype : own.dtype = source.dtype) (hown : own.device = device) (hsource : source.device = device) :
    ∃ merged, indexCopy incompatible own index device source = .ok merged ∧ merged.shape = own.shape ∧
      merged.entries = scatter own.entries index source.entries := by
  unfold indexCopy
  rw [if_pos ⟨hdtype, hown, hsource⟩]
  exact ⟨_, rfl, rfl, rfl⟩

theorem Fits.length_captured (h : Fits kLocal vLocal kCaptured vCaptured seqLen nEvicted) :
    kCaptured.entries.length = nEvicted ∧ vCaptured.entries.length = nEvicted := by
  have hrank : kCaptured.shape.length = 4 := by rw [h.captured_shape, List.length_set, h.rank]
  have hsize : kCaptured.shape.getD 1 0 = nEvicted := by
    rw [h.captured_shape, List.getD_eq_getElem?_getD, List.getElem?_set_self (by rw [h.rank]; omega)]
    rfl
  refine ⟨by rw [kCaptured.length_entries hrank, hsize], ?_⟩
  rw [vCaptured.length_entries (h.captured_shape' ▸ hrank), h.captured_shape', hsize]

theorem restores_scatter (cfg : VerifierConfig) {evicted : List Nat} {own captured merged : KvTensor β}
    (hevicted : evicted = KakeyaEngine.computeEvictedPositions own.entries.length cfg.sinkSize cfg.windowSize)
    (hlen : captured.entries.length = evicted.length) (hshape : merged.shape = own.shape)
    (hmerged : merged.entries = scatter own.entries evicted captured.entries) :
    Restores cfg evicted own captured merged := by
  have hsorted : evicted.Pairwise (· < ·) := hevicted ▸ pairwise_evicted ..
  have hmem : ∀ p, p ∈ evicted ↔ p < own.entries.length ∧
      p ∉ SinkWindow.trim cfg.sinkSize cfg.windowSize (List.range own.entries.length) := fun p => by
    rw [hevicted, mem_evicted]
  have hretained : ∀ p ∉ evicted, merged.entries[p]? = own.entries[p]? := fun p hp => by
    rw [hmerged, getElem?_scatter_of_notMem hp]
  refine ⟨hshape, by rw [hmerged, length_scatter], fun i p hp => ?_, hretained, fun p hlt hp => ?_⟩
  · rw [hmerged]
    exact getElem?_scatter (hsorted.imp fun h => Nat.ne_of_lt h) hlen.symm (fun q hq => ((hmem q).mp hq).1) hp
  · have hkept : p ∈ SinkWindow.trim cfg.sinkSize cfg.windowSize (List.range own.entries.length) :=
      Classical.byContradiction fun hn => hp ((hmem p).mpr ⟨hlt, hn⟩)
    rw [hretained p hp, trimmedCache_eq, trimmedCache_eq, SinkWindow.getElem?_trim_idxOf _ _ hkept]

theorem Fits.merge_ok (h : Fits kLocal vLocal kCaptured vCaptured seqLen nEvicted) (incompatible : VerifierError)
    {evicted : List Nat} (hsorted : evicted.Pairwise (· < ·)) (hlt : ∀ p ∈ evicted, p < seqLen)
    (hlen : evicted.length = nEvicted) :
    ∃ kMerged vMerged, mergeKvAtEvictedPositions incompatible kLocal vLocal kCaptured vCaptured
        (evicted.map Int.ofNat) = .ok (kMerged, vMerged) ∧
      kMerged.shape = kLocal.shape ∧ vMerged.shape = vLocal.shape ∧
      kMerged.entries = scatter kLocal.entries evicted kCaptured.entries ∧
      vMerged.entries = scatter vLocal.entries evicted vCaptured.entries := by
  subst hlen
  have hvalidated := validatePositions_ok hsorted hlt
  unfold mergeKvAtEvictedPositions
  rw [refuseIf_not (not_not.mpr h.rank), h.seqLen_eq, hvalidated]
  by_cases hnil : evicted = []
  · subst hnil
    exact ⟨kLocal, vLocal, rfl, rfl, rfl, rfl, rfl⟩
  · obtain ⟨kMerged, hk, hkshape, hkentries⟩ := indexCopy_ok incompatible evicted h.dtype.symm rfl (h.devices _ (by simp))
    obtain ⟨vMerged, hv, hvshape, hventries⟩ := indexCopy_ok incompatible evicted h.dtype'.symm (h.devices _ (by simp))
      (h.devices _ (by simp))
    refine ⟨kMerged, vMerged, ?_, hkshape, hvshape, hkentries, hventries⟩
    simp only [bind, Except.bind, if_neg hnil, h.validateShapes_ok, hk, hv]
    rfl

/-- Rows of one batch, head and dimension. -/
def rows (entries : List β) : KvTensor β := ⟨[1, entries.length, 1, 1], "torch.float32", "cpu", entries, fun _ => rfl⟩

/-- A sink of one position and a window of two. -/
def three : VerifierConfig := ⟨1, 2, 1, Nat.two_pos, Nat.one_pos⟩

end KvMerge

end KakeyaEngine
