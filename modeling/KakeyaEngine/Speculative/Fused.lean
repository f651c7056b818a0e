import KakeyaEngine.Speculative.Decoder

/-!
# The fused speculative loops

The restored verifier keeps a cache whose prompt part is restored, and three loops over it decode in blocks with a
drafter on the same host: `fusedSpecdecodeGenerate` truncates the cache after a rejection and forwards the correction,
`fusedSpecdecodeGenerateMlxTrim` truncates it and carries the correction into the next block, and
`fusedSpecdecodeGenerateMlx` rolls the whole block back and carries the accepted tokens too.  `DistributedFusedDecoder`
has its drafter on another host.

The cache is trimmed and rolled back exactly.  What a drafter returns is arbitrary: it depends on the number of blocks
so far, the bonus token, the context length and the size it is asked for, and so its own context is left out, as are the
auxiliary hidden states that feed it, the errors of the callback (which are swallowed) and the times.
-/

namespace KakeyaEngine

/-- What `restored_prefill_cache` gives: a cache with restored entries, and the logits of the first new token. -/
structure Prefilled (κ Λ : Type) where
  cache : List κ
  logits : Λ

/-- `MLXRestoredIncrementalVerifier`. -/
structure RestoredVerifier (κ Λ : Type) where
  cache : Option (List κ) := none
  pastLen : Nat := 0
  nextTokenLogits : Option Λ := none
  blockSnapshot : Option (List κ) := none
deriving DecidableEq

namespace RestoredVerifier

variable {κ Λ : Type} (m : KvModel κ Λ)

/-- `prefill`. -/
def prefill (restoredPrefillCache : List Token → Prefilled κ Λ) (promptIds : List Token) :
    Proc (RestoredVerifier κ Λ) VerifierError Unit :=
  if promptIds = [] then Proc.raise (.valueError "prompt_ids must be non-empty")
  else
    Proc.modify fun _ =>
      { cache := some (restoredPrefillCache promptIds).cache, pastLen := promptIds.length,
        nextTokenLogits := some (restoredPrefillCache promptIds).logits }

/-- `forward_block`. -/
def forwardBlock (tokens : List Token) : Proc (RestoredVerifier κ Λ) VerifierError (List Λ) := do
  let v ← Proc.get
  match v.cache with
  | none => Proc.raise (.runtimeError "verifier not prefilled")
  | some entries =>
    if tokens = [] then Proc.raise (.valueError "tokens must be non-empty")
    else do
      Proc.modify fun v => { v with cache := some (m.forward entries.length entries tokens).1 }
      pure (m.forward entries.length entries tokens).2

/-- `forward_block_lazy`, which keeps the cache for a rollback. -/
def forwardBlockLazy (tokens : List Token) : Proc (RestoredVerifier κ Λ) VerifierError (List Λ) := do
  let v ← Proc.get
  match v.cache with
  | none => Proc.raise (.runtimeError "verifier not prefilled")
  | some entries => do
    Proc.modify fun v =>
      { v with cache := some (m.forward entries.length entries tokens).1, blockSnapshot := some entries }
    pure (m.forward entries.length entries tokens).2

/-- `rollback_block`. -/
def rollbackBlock : Proc (RestoredVerifier κ Λ) VerifierError Unit := do
  let v ← Proc.get
  match v.blockSnapshot with
  | none => Proc.raise (.runtimeError "no block snapshot to roll back to")
  | some entries => Proc.modify fun v => { v with cache := v.cache.map fun _ => entries }

/-- `trim_prompt_cache`: drops the last entries. -/
def trimPromptCache (n : Nat) (v : RestoredVerifier κ Λ) : RestoredVerifier κ Λ :=
  { v with cache := v.cache.map fun entries => entries.take (entries.length - n) }

/-- `commit_or_truncate`. -/
def commitOrTruncate (forwarded accepted : Nat) : Proc (RestoredVerifier κ Λ) VerifierError Unit :=
  if forwarded < accepted then Proc.raise (.valueError "accepted must satisfy 0 <= accepted <= forwarded")
  else
    Proc.modify fun v =>
      { trimPromptCache (forwarded - accepted) v with pastLen := v.pastLen + accepted }

/-- `append_token`. -/
def appendToken (t : Token) : Proc (RestoredVerifier κ Λ) VerifierError Unit := do
  let logits ← forwardBlock m [t]
  commitOrTruncate 1 1
  Proc.modify fun v => { v with nextTokenLogits := logits.getLast? }

/-- The logits of which an argmax is taken: that of none is a `TypeError`. -/
def logitsOf {σ : Type} : Option Λ → Proc σ VerifierError Λ
  | none => Proc.raise (.typeError "argmax(): incompatible function arguments.")
  | some row => pure row

end RestoredVerifier

/-- What the three loops are called with. -/
structure FusedOptions where
  genTokens : Int
  blockSize : Int
  eosIds : List Token := []
  stopOnRunaway : Bool := true
  allowGreedyFallback : Bool := true

namespace FusedOptions

/-- Whether a token is one of the EOS ids. -/
def eos (o : FusedOptions) (t : Token) : Bool := o.eosIds.contains t

/-- The size of the next block. -/
def blockLen (o : FusedOptions) (generated : List Token) : Int := min o.blockSize (o.genTokens - generated.length)

end FusedOptions

namespace Fused

variable {κ Λ : Type}

/-! ### Runaway loops -/

/-- The inner loop of `_trailing_runaway_drop`: how often `unit` stands at the end of the reversed tokens. -/
def trailingReps (unit : List Token) : Nat → List Token → Nat
  | 0, _ => 0
  | n + 1, rev =>
    if unit.length ≤ rev.length ∧ rev.take unit.length = unit then trailingReps unit n (rev.drop unit.length) + 1 else 0

/-- `_trailing_runaway_drop`, over the periods that are left. -/
def trailingRunawayDropFrom (minReps keepReps : Nat) (ids : List Token) : List Nat → Nat
  | [] => 0
  | p :: ps =>
    let reps := trailingReps (ids.reverse.take p) ids.length ids.reverse
    if ids.length < p * minReps then trailingRunawayDropFrom minReps keepReps ids ps
    else if minReps ≤ reps then (reps - keepReps) * p
    else trailingRunawayDropFrom minReps keepReps ids ps

/-- `_trailing_runaway_drop` with its defaults: a unit of at most 8 tokens, 12 times or more, of which 3 are kept. -/
def trailingRunawayDrop (ids : List Token) : Nat := trailingRunawayDropFrom 12 3 ids [1, 2, 3, 4, 5, 6, 7, 8]

/-! ### The loops -/

/-- The variables of a loop.  `tail` and `tailLogits` are those of the loop that rolls back; `emitted` are the lists that
the callback was given. -/
structure Progress (Λ : Type) where
  generated : List Token := []
  accepts : List Nat := []
  stop : Bool := false
  fallbackToGreedy : Bool := false
  tail : List Token := []
  tailLogits : Option Λ := none
  emitted : List (List Token) := []

/-- The end of an iteration: the tokens are committed and emitted, and a loop stops after an EOS or in a runaway loop. -/
def commit (o : FusedOptions) (tokens : List Token) (accepted : Nat) (st : Progress Λ) : Progress Λ :=
  let generated := st.generated ++ tokens
  let st := { st with accepts := st.accepts ++ [accepted], emitted := st.emitted ++ [generated] }
  if tokens.any o.eos then { st with generated := generated, stop := true }
  else
    let drop := if o.stopOnRunaway then trailingRunawayDrop generated else 0
    if 0 < drop then { st with generated := generated.take (generated.length - drop), stop := true }
    else { st with generated := generated }

/-- `cumprod` of an array of zeros and ones. -/
def cumprod : Nat → List Nat → List Nat
  | _, [] => []
  | acc, x :: xs => acc * x :: cumprod (acc * x) xs

/-- The in-graph acceptance: the sum of the `cumprod` of the matches of the rows' choices with the tokens. -/
def leadingMatches (argmax : Λ → Token) (predRows : List Λ) (checkIds : List Token) : Nat :=
  (cumprod 1 (List.zipWith (fun row t => if argmax row = t then 1 else 0) predRows checkIds)).sum

/-- `draft_block_ids`, an array of as many tokens as it is asked for. -/
abbrev DraftBlockIds := Nat → Token → Nat → (n : Nat) → Vector Token n

/-- `draft_block_cached`, and `draft_block` of a remote drafter: any list. -/
abbrev DraftBlock := Nat → Token → Nat → Nat → List Token

/-- While the budget is not reached and no iteration stopped, at most `n` iterations. -/
def loop {τ : Type} (o : FusedOptions) (round : Progress Λ → Proc τ VerifierError (Progress Λ)) :
    Nat → Progress Λ → Proc τ VerifierError (Progress Λ)
  | 0, st => pure st
  | n + 1, st =>
    if (st.generated.length : Int) < o.genTokens ∧ st.stop = false then do
      let st ← round st
      loop o round n st
    else pure st

/-- Runs a loop and cuts what it generated to the budget.  An iteration commits a token or more, so `gen_tokens` of
them are enough. -/
def tokensOf {τ : Type} (o : FusedOptions) (round : Progress Λ → Proc τ VerifierError (Progress Λ)) (st : Progress Λ) :
    Proc τ VerifierError (List Token) := do
  let st ← loop o round o.genTokens.toNat st
  pure (st.generated.take o.genTokens.toNat)

variable (m : KvModel κ Λ) (argmax : Λ → Token) (o : FusedOptions)

/-! ### Truncating, with a carried correction -/

/-- Accepts within the forwarded block, and keeps the accepted entries only. -/
def trimSettle (base : Nat) (len : Int) (prev : Λ) (checkIds : List Token) (blockLogits : List Λ) (st : Progress Λ) :
    Proc (RestoredVerifier κ Λ) VerifierError (Progress Λ) := do
  let accepted := leadingMatches argmax (prev :: blockLogits.take (len - 1).toNat) checkIds
  let nextRow := (prev :: blockLogits)[accepted]?
  Proc.modify fun v =>
    { RestoredVerifier.trimPromptCache (len - accepted).toNat { v with nextTokenLogits := nextRow } with
      pastLen := base + accepted }
  pure (commit o (checkIds.take accepted) accepted st)

/-- An iteration of `fused_specdecode_generate_mlx_trim`. -/
def trimRound (draftBlockIds : DraftBlockIds) (st : Progress Λ) :
    Proc (RestoredVerifier κ Λ) VerifierError (Progress Λ) := do
  let len := o.blockLen st.generated
  let v ← Proc.get
  let prev ← RestoredVerifier.logitsOf v.nextTokenLogits
  let drafts := draftBlockIds st.accepts.length (argmax prev) v.pastLen (len - 1).toNat
  let checkIds := argmax prev :: drafts.toList
  let blockLogits ← RestoredVerifier.forwardBlockLazy m checkIds
  trimSettle argmax o v.pastLen len prev checkIds blockLogits st

/-- `fused_specdecode_generate_mlx_trim`. -/
def fusedSpecdecodeGenerateMlxTrim (draftBlockIds : DraftBlockIds) :
    Proc (RestoredVerifier κ Λ) VerifierError (List Token) :=
  tokensOf o (trimRound m argmax o draftBlockIds) {}

/-! ### Rolling back, with a carried tail -/

/-- After a block that is not accepted as a whole the cache is rolled back and the commit is carried. -/
def carrySettle (base : Nat) (len : Int) (prev : Λ) (checkIds : List Token) (blockLogits : List Λ) (st : Progress Λ) :
    Proc (RestoredVerifier κ Λ) VerifierError (Progress Λ) := do
  let k := st.tail.length
  -- the slice from `k` to `k + L - 1`, which is empty for a size of 0 or less
  let accepted := leadingMatches argmax (prev :: (blockLogits.drop k).take (len - 1).toNat) checkIds
  let nextRow := (prev :: blockLogits.drop k)[accepted]?
  Proc.modify fun v => { v with nextTokenLogits := nextRow }
  if (accepted : Int) = len then do
    Proc.modify fun v => { v with pastLen := base + k + len.toNat }
    pure (commit o (checkIds.take accepted) accepted { st with tail := [], tailLogits := nextRow })
  else do
    RestoredVerifier.rollbackBlock
    pure (commit o (checkIds.take accepted) accepted
      { st with tail := st.tail ++ checkIds.take accepted, tailLogits := nextRow })

/-- An iteration of `fused_specdecode_generate_mlx`. -/
def carryRound (draftBlockIds : DraftBlockIds) (st : Progress Λ) :
    Proc (RestoredVerifier κ Λ) VerifierError (Progress Λ) := do
  let len := o.blockLen st.generated
  let v ← Proc.get
  let prev ← RestoredVerifier.logitsOf st.tailLogits
  let drafts := draftBlockIds st.accepts.length (argmax prev) (v.pastLen + st.tail.length) (len - 1).toNat
  let checkIds := argmax prev :: drafts.toList
  let blockLogits ← RestoredVerifier.forwardBlockLazy m (st.tail ++ checkIds)
  carrySettle argmax o v.pastLen len prev checkIds blockLogits st

/-- `fused_specdecode_generate_mlx`. -/
def fusedSpecdecodeGenerateMlx (draftBlockIds : DraftBlockIds) :
    Proc (RestoredVerifier κ Λ) VerifierError (List Token) := do
  let v ← Proc.get
  tokensOf o (carryRound m argmax o draftBlockIds) { tailLogits := v.nextTokenLogits }

/-! ### Truncating, with a forwarded correction -/

/-- `_sliding_ring_would_wrap`, for the capacities of the sliding rings and the common offset of the caches. -/
def slidingRingWouldWrap (rings : List Nat) (offset : Nat) (nNew : Int) : Bool :=
  rings.any fun size => decide ((size : Int) ≤ (offset : Int) + nNew)

/-- The block size once a ring that would wrap is taken into account. -/
def eagerLen (rings : List Nat) (offset : Nat) (generated : List Token) : Int :=
  if slidingRingWouldWrap rings offset (o.blockLen generated) then 1 else o.blockLen generated

/-- Whether the drafts are accepted too rarely: on average less than 1.5 tokens for a block, over two or more. -/
def poorAcceptance (accepts : List Nat) : Bool := 2 ≤ accepts.length && 2 * accepts.sum < 3 * accepts.length

/-- The end of an iteration of `fused_specdecode_generate`, which may leave for the greedy loop. -/
def commitEager (tokens : List Token) (accepted : Nat) (st : Progress Λ) : Progress Λ :=
  let st := commit o tokens accepted st
  if st.stop = false ∧ (o.allowGreedyFallback && poorAcceptance st.accepts) = true then
    { st with stop := true, fallbackToGreedy := true }
  else st

/-- Keeps the accepted part of a forwarded candidate, and forwards the correction if some of it was rejected: the tokens
that are committed. -/
def keepOrCorrect (candidate : List Token) (blockLogits : List Λ) (accepted : Nat) (running : Λ) :
    Proc (RestoredVerifier κ Λ) VerifierError (List Token) := do
  RestoredVerifier.commitOrTruncate candidate.length accepted
  if accepted = candidate.length then do
    Proc.modify fun v => { v with nextTokenLogits := blockLogits.getLast? }
    pure candidate
  else do
    RestoredVerifier.appendToken m (argmax running)
    pure (candidate.take accepted ++ [argmax running])

/-- An iteration of `fused_specdecode_generate`. -/
def eagerRound (rings : List Nat) (draftBlockCached : DraftBlock) (st : Progress Λ) :
    Proc (RestoredVerifier κ Λ) VerifierError (Progress Λ) := do
  let v ← Proc.get
  let len := eagerLen o rings (v.cache.getD []).length st.generated
  let prev ← RestoredVerifier.logitsOf v.nextTokenLogits
  let drafts := draftBlockCached st.accepts.length (argmax prev) v.pastLen (max (len - 1) 1).toNat
  let candidate := argmax prev :: drafts.take (len - 1).toNat
  let blockLogits ← RestoredVerifier.forwardBlock m candidate
  let r := SpeculativeDecoder.acceptLoop argmax prev candidate blockLogits
  let tokens ← keepOrCorrect m argmax candidate blockLogits r.1 r.2
  pure (commitEager o tokens r.1 st)

/-- An iteration of the greedy loop of `fused_specdecode_generate`. -/
def greedyRound (st : Progress Λ) : Proc (RestoredVerifier κ Λ) VerifierError (Progress Λ) := do
  let v ← Proc.get
  let prev ← RestoredVerifier.logitsOf v.nextTokenLogits
  RestoredVerifier.appendToken m (argmax prev)
  pure { commit o [argmax prev] 1 st with accepts := st.accepts }

/-- What follows the blocks of `fused_specdecode_generate`. -/
def fallback (st : Progress Λ) : Proc (RestoredVerifier κ Λ) VerifierError (List Token) :=
  if st.fallbackToGreedy then tokensOf o (greedyRound m argmax o) { st with stop := false, fallbackToGreedy := false }
  else pure (st.generated.take o.genTokens.toNat)

/-- `fused_specdecode_generate`. -/
def fusedSpecdecodeGenerate (rings : List Nat) (draftBlockCached : DraftBlock) :
    Proc (RestoredVerifier κ Λ) VerifierError (List Token) := do
  let st ← loop o (eagerRound m argmax o rings draftBlockCached) o.genTokens.toNat {}
  fallback m argmax o st

end Fused

/-! ### The distributed decoder -/

/-- `MLXRestoringVerifierAdapter`: a restored verifier, and the block that it verified last. -/
structure RestoringVerifierAdapter (κ Λ : Type) where
  adapter : RestoredVerifier κ Λ := {}
  candidate : List Token := []
  blockLogits : List Λ := []
  running : Option Λ := none
deriving DecidableEq

namespace RestoringVerifierAdapter

variable {κ Λ α : Type} (m : KvModel κ Λ) (argmax : Λ → Token)

/-- Runs a method of the restored verifier. -/
def onAdapter (x : Proc (RestoredVerifier κ Λ) VerifierError α) :
    Proc (RestoringVerifierAdapter κ Λ) VerifierError α :=
  Proc.focus adapter (fun a v => { v with adapter := a }) id x

/-- `next_greedy`. -/
def nextGreedy : Proc (RestoringVerifierAdapter κ Λ) VerifierError Token := do
  let v ← Proc.get
  let prev ← RestoredVerifier.logitsOf v.adapter.nextTokenLogits
  pure (argmax prev)

/-- `verify_block`. -/
def verifyBlock (candidate : List Token) : Proc (RestoringVerifierAdapter κ Λ) VerifierError Nat := do
  let v ← Proc.get
  let blockLogits ← onAdapter (RestoredVerifier.forwardBlock m candidate)
  let prev ← RestoredVerifier.logitsOf v.adapter.nextTokenLogits
  let r := SpeculativeDecoder.acceptLoop argmax prev candidate blockLogits
  Proc.modify fun v => { v with candidate := candidate, blockLogits := blockLogits, running := some r.2 }
  pure r.1

/-- `commit`: the tokens that are committed. -/
def commit (accepted : Nat) : Proc (RestoringVerifierAdapter κ Λ) VerifierError (List Token) := do
  let v ← Proc.get
  let running ← RestoredVerifier.logitsOf v.running
  onAdapter (Fused.keepOrCorrect m argmax v.candidate v.blockLogits accepted running)

end RestoringVerifierAdapter

/-- `DistributedFusedDecoder`, with the drafts of its remote; the constructor refuses a block size of 0. -/
structure DistributedFusedDecoder where
  draftBlock : Fused.DraftBlock
  blockSize : Nat
  eosIds : List Token := []
  blockSize_pos : 0 < blockSize

/-- `DistributedFusedResult`. -/
structure DistributedFusedResult where
  outputTokenIds : List Token := []
  blocks : Nat := 0
  totalProposed : Nat := 0
  totalAccepted : Nat := 0
  stoppedOnEos : Bool := false
deriving DecidableEq

namespace DistributedFusedDecoder

variable {κ Λ : Type} (m : KvModel κ Λ) (argmax : Λ → Token) (dec : DistributedFusedDecoder)

/-- Whether a token is one of the EOS ids. -/
def eos (t : Token) : Bool := dec.eosIds.contains t

/-- The loop over the committed tokens of a block, which ends at the budget or after an EOS. -/
def output (maxNewTokens : Nat) : List Token → DistributedFusedResult → DistributedFusedResult
  | [], r => r
  | t :: ts, r =>
    if maxNewTokens ≤ r.outputTokenIds.length then r
    else if dec.eos t then { r with outputTokenIds := r.outputTokenIds ++ [t], stoppedOnEos := true }
    else output maxNewTokens ts { r with outputTokenIds := r.outputTokenIds ++ [t] }

/-- An iteration of the loop. -/
def round (maxNewTokens : Nat) (r : DistributedFusedResult) :
    Proc (RestoringVerifierAdapter κ Λ) VerifierError DistributedFusedResult := do
  let len := min dec.blockSize (maxNewTokens - r.outputTokenIds.length)
  let bonus ← RestoringVerifierAdapter.nextGreedy argmax
  let v ← Proc.get
  let drafts := dec.draftBlock r.blocks bonus v.adapter.pastLen (max (len - 1) 1)
  let candidate := bonus :: drafts.take (len - 1)
  let accepted ← RestoringVerifierAdapter.verifyBlock m argmax candidate
  let tokens ← RestoringVerifierAdapter.commit m argmax accepted
  pure (dec.output maxNewTokens tokens
    { r with
      blocks := r.blocks + 1, totalProposed := r.totalProposed + (candidate.length - 1),
      totalAccepted := r.totalAccepted + (accepted - 1) })

/-- The first `n` iterations of the loop. -/
def loop (maxNewTokens : Nat) :
    Nat → DistributedFusedResult → Proc (RestoringVerifierAdapter κ Λ) VerifierError DistributedFusedResult
  | 0, r => pure r
  | n + 1, r =>
    if r.outputTokenIds.length < maxNewTokens ∧ r.stoppedOnEos = false then do
      let r ← dec.round m argmax maxNewTokens r
      loop maxNewTokens n r
    else pure r

/-- `generate`. -/
def generate (restoredPrefillCache : List Token → Prefilled κ Λ) (promptIds : List Token) (maxNewTokens : Int) :
    Proc (RestoringVerifierAdapter κ Λ) VerifierError DistributedFusedResult :=
  if promptIds = [] then Proc.raise (.valueError "prompt_ids must be non-empty")
  else if maxNewTokens < 1 then Proc.raise (.valueError "max_new_tokens must be >= 1")
  else do
    RestoringVerifierAdapter.onAdapter (RestoredVerifier.prefill restoredPrefillCache promptIds)
    dec.loop m argmax maxNewTokens.toNat maxNewTokens.toNat {}

end DistributedFusedDecoder

end KakeyaEngine
