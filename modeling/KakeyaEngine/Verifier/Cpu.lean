import KakeyaEngine.Capability
import KakeyaEngine.Lib.Proc
import KakeyaEngine.Lib.SinkWindow

/-!
# The CPU verifier

`CpuVerifier` models `SinkWindowVerifier`: a K/V cache of one tensor pair for each layer, the token ids of its slots, and
the next global position.  A slot of the cache is modelled by the token it was computed from and the position it was
rotated at; the values in it are the model's business.  A forward pass appends one slot for each token to every layer,
and the cache is trimmed when the outcome of the block is known.
-/

namespace KakeyaEngine

/-- The settings of a verifier.  The constructors of both verifiers refuse other sizes; `layerCount` is a property of
the loaded model. -/
structure VerifierConfig where
  sinkSize : Nat
  windowSize : Nat
  layerCount : Nat
  window_pos : 0 < windowSize
  layers_pos : 0 < layerCount

theorem pos_three : 0 < 3 := by decide

/-- The number of slots that may stay in the cache. -/
def VerifierConfig.budget (cfg : VerifierConfig) : Nat := cfg.sinkSize + cfg.windowSize

/-- A slot of the K/V cache. -/
structure Slot where
  token : Token
  position : Nat
deriving DecidableEq

/-- The slots that a forward pass of `tokens` from a global position on appends to a layer. -/
def newSlots (start : Nat) (tokens : List Token) : List Slot :=
  tokens.zipIdx.map fun p => ⟨p.1, start + p.2⟩

/-- The exceptions of the verifiers. -/
inductive VerifierError
  | valueError (message : String)
  | runtimeError (message : String)
  | typeError (message : String)
  | assertionError (entries seqDim : Nat)
deriving DecidableEq

/-- The K/V tensors of a layer, before and after its first update. -/
abbrev LayerSlots := Option (List Slot)

/-- The sequence dimension of the first layer that is not empty. -/
def seqLength (layers : List LayerSlots) : Nat :=
  match layers.find? Option.isSome with
  | some (some slots) => slots.length
  | _ => 0

structure CpuVerifier where
  cache : Option (List LayerSlots) := none
  cacheLogicalSize : Nat := 0
  nextGlobalPosition : Nat := 0
  cachedTokenSequence : List Token := []
deriving DecidableEq

abbrev CpuProc (α : Type) : Type := Proc CpuVerifier VerifierError α

namespace CpuVerifier

variable (cfg : VerifierConfig)

/-- `_cache_seq_length`. -/
def cacheSeqLength (v : CpuVerifier) : Nat :=
  match v.cache with
  | none => 0
  | some layers => seqLength layers

/-- `_assert_cache_invariant_1`. -/
def assertCacheInvariant1 : CpuProc Unit := do
  let v ← Proc.get
  if v.cachedTokenSequence.length ≠ v.cacheSeqLength then
    Proc.raise (.assertionError v.cachedTokenSequence.length v.cacheSeqLength)
  else pure ()

/-- `reset`. -/
def reset : CpuProc Unit := do
  Proc.modify fun _ => { cache := some (List.replicate cfg.layerCount none) }
  assertCacheInvariant1

/-- The forward pass of the model: every layer gets the new slots. -/
def forward (start : Nat) (tokens : List Token) (layers : List LayerSlots) : List LayerSlots :=
  layers.map fun keys => some (keys.getD [] ++ newSlots start tokens)

/-- The sink and the last `keepWindow` entries. -/
def sinkAndTail {α : Type} (sink keepWindow : Nat) (l : List α) : List α :=
  l.take sink ++ l.drop (l.length - keepWindow)

/-- The loop of `_trim_cache_in_place` over the layers: the layers after it, and the sequence dimension of the first
layer that does not have the logical size, at which it stops. -/
def trimLayers (logicalSize : Nat) : List LayerSlots → List LayerSlots × Option Nat
  | [] => ([], none)
  | none :: rest => (none :: (trimLayers logicalSize rest).1, (trimLayers logicalSize rest).2)
  | some keys :: rest =>
    if keys.length ≠ logicalSize then (some keys :: rest, some keys.length)
    else
      (some (sinkAndTail cfg.sinkSize (cfg.budget - cfg.sinkSize) keys) :: (trimLayers logicalSize rest).1,
        (trimLayers logicalSize rest).2)

/-- `_trim_cache_in_place`. -/
def trimCacheInPlace : CpuProc Unit := do
  let v ← Proc.get
  match v.cache with
  | none => Proc.raise (.runtimeError "No cache to trim.")
  | some layers =>
    if v.cacheLogicalSize ≤ cfg.budget then pure ()
    else do
      let trimmed := trimLayers cfg v.cacheLogicalSize layers
      Proc.modify fun v => { v with cache := some trimmed.1 }
      match trimmed.2 with
      | some seqDim =>
        Proc.raise (.runtimeError ("Cache shape " ++ toString seqDim ++ " inconsistent with logical size " ++
          toString v.cacheLogicalSize ++ "; layout invariant violated."))
      | none =>
        Proc.modify fun v =>
          { v with
            cachedTokenSequence := sinkAndTail cfg.sinkSize (cfg.budget - cfg.sinkSize) v.cachedTokenSequence,
            cacheLogicalSize := cfg.budget }

/-- `prefill`. -/
def prefill (promptIds : List Token) : CpuProc Unit := do
  if promptIds = [] then Proc.raise (.valueError "prompt_ids must be non-empty")
  else do
    reset cfg
    Proc.modify fun v =>
      { v with
        cache := v.cache.map (forward 0 promptIds), cacheLogicalSize := promptIds.length,
        nextGlobalPosition := promptIds.length, cachedTokenSequence := promptIds }
    trimCacheInPlace cfg
    assertCacheInvariant1

/-- `forward_block`. -/
def forwardBlock (tokens : List Token) : CpuProc Unit := do
  let v ← Proc.get
  match v.cache with
  | none => Proc.raise (.runtimeError "Verifier not prefilled.")
  | some layers =>
    if tokens = [] then Proc.raise (.valueError "tokens must be non-empty")
    else do
      Proc.modify fun v =>
        { v with
          cache := some (forward v.nextGlobalPosition tokens layers),
          cacheLogicalSize := v.cacheLogicalSize + tokens.length,
          cachedTokenSequence := v.cachedTokenSequence ++ tokens }
      assertCacheInvariant1

/-- `_truncate_tail_in_place` for a positive number of tokens. -/
def truncateTailInPlace (drop : Nat) : CpuProc Unit := do
  let v ← Proc.get
  match v.cache with
  | none => Proc.raise (.runtimeError "No cache to truncate.")
  | some layers =>
    if v.cacheLogicalSize < drop then
      Proc.raise (.runtimeError ("Cannot drop " ++ toString drop ++ " tokens from cache of size " ++
        toString v.cacheLogicalSize))
    else
      Proc.modify fun v =>
        { v with cache := some (layers.map (Option.map (List.take (v.cacheLogicalSize - drop)))) }

/-- `commit_or_truncate`. -/
def commitOrTruncate (forwarded accepted : Nat) : CpuProc Unit := do
  if forwarded < accepted then Proc.raise (.valueError "accepted must satisfy 0 <= accepted <= forwarded")
  else do
    let drop := forwarded - accepted
    if 0 < drop then do
      truncateTailInPlace drop
      Proc.modify fun v =>
        { v with cachedTokenSequence := v.cachedTokenSequence.take (v.cachedTokenSequence.length - drop) }
    else pure ()
    Proc.modify fun v =>
      { v with
        cacheLogicalSize := v.cacheLogicalSize - drop, nextGlobalPosition := v.nextGlobalPosition + accepted }
    trimCacheInPlace cfg
    assertCacheInvariant1

/-- `append_token`. -/
def appendToken (tokenId : Token) : CpuProc Unit := do
  forwardBlock [tokenId]
  commitOrTruncate cfg 1 1

end CpuVerifier

end KakeyaEngine
