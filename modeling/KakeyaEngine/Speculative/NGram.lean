import KakeyaEngine.Lib.Descending

/-!
# Drafts from earlier occurrences

The n-gram proposer looks for the longest end of the committed tokens that occurs earlier among them, takes the latest such
occurrence, and drafts what followed it.  A draft that is too short is filled up with the fallback token
(`proposeBlock_drafted`).
-/

namespace KakeyaEngine

namespace NGram

/-! ### The proposer -/

structure BlockProposal where
  tokens : List Int
  diffusionSteps : Nat
  forwardPasses : Nat
  peakActivationBytes : Nat
deriving DecidableEq

structure ProposerStats where
  totalBlocks : Nat := 0
  totalDiffusionSteps : Nat := 0
  totalForwardPasses : Nat := 0
  peakActivationBytes : Nat := 0
  weightBytes : Nat := 0
deriving DecidableEq

/-- The configuration, as the constructor accepts it. -/
structure NGramProposer where
  maxNgramSize : Nat
  minNgramSize : Nat
  fallbackTokenId : Int
  min_pos : 0 < minNgramSize
  min_le_max : minNgramSize ≤ maxNgramSize
  fallback_nonneg : 0 ≤ fallbackTokenId

/-- `NGramProposer.__init__`. -/
def init (maxNgramSize minNgramSize fallbackTokenId : Int) : Except String NGramProposer :=
  if hpos : minNgramSize ≤ 0 then .error "min_ngram_size must be > 0"
  else if hle : maxNgramSize < minNgramSize then .error "max_ngram_size must be >= min_ngram_size"
  else if hfallback : fallbackTokenId < 0 then .error "fallback_token_id must be >= 0"
  else .ok ⟨maxNgramSize.toNat, minNgramSize.toNat, fallbackTokenId, by omega, by omega, by omega⟩

/-- The constructor accepts the sizes from 1 on that are in order. -/
theorem init_isOk_iff (maxNgramSize minNgramSize fallbackTokenId : Int) :
    (∃ p, init maxNgramSize minNgramSize fallbackTokenId = .ok p) ↔
      1 ≤ minNgramSize ∧ minNgramSize ≤ maxNgramSize ∧ 0 ≤ fallbackTokenId := by
  unfold init
  split
  · refine ⟨fun ⟨_, h⟩ => (by cases h), fun h => ?_⟩
    omega
  split
  · refine ⟨fun ⟨_, h⟩ => (by cases h), fun h => ?_⟩
    omega
  split
  · refine ⟨fun ⟨_, h⟩ => (by cases h), fun h => ?_⟩
    omega
  · refine ⟨fun _ => ?_, fun _ => ⟨_, rfl⟩⟩
    omega

variable (p : NGramProposer)

/-- What follows the place `i`, if the `size` tokens there are the last ones. -/
def continuationAt (committed : List Int) (blockSize size i : Nat) : Option (List Int) :=
  let suffix := committed.drop (committed.length - size)
  if committed.extract i (i + size) = suffix then
    let continuation := committed.extract (i + size) (i + size + blockSize)
    if continuation = [] then none else some continuation
  else none

/-- `_lookup_continuation`: the sizes and the places are tried from the greatest down. -/
def lookupContinuation (committed : List Int) (blockSize : Nat) : Option (List Int) :=
  let n := committed.length
  (descending p.minNgramSize (min p.maxNgramSize (n - 1) + 1)).findSome? fun size =>
    (descending 0 (n - size)).findSome? fun i => continuationAt committed blockSize size i

/-- The tokens, with the fallback token up to the size of the block. -/
def fill (blockSize : Nat) (tokens : List Int) : List Int :=
  if tokens.length < blockSize then tokens ++ List.replicate (blockSize - tokens.length) p.fallbackTokenId else tokens

def proposeBlock (stats : ProposerStats) (committedTokenIds : List Int) (blockSize numSteps : Int) :
    Except String (BlockProposal × ProposerStats) :=
  if blockSize ≤ 0 then .error "block_size must be positive"
  else if numSteps ≤ 0 then .error "num_steps must be positive"
  else if committedTokenIds = [] then .error "committed_token_ids must be non-empty"
  else
    let continuation := (lookupContinuation p committedTokenIds blockSize.toNat).getD []
    .ok (⟨fill p blockSize.toNat (continuation.take blockSize.toNat), 0, 1, 0⟩,
      { stats with totalBlocks := stats.totalBlocks + 1, totalForwardPasses := stats.totalForwardPasses + 1 })

/-! ### What is drafted -/

/-- The last `size` tokens occur at `i` too, which is before they do at the end. -/
def Recurs (committed : List Int) (size i : Nat) : Prop :=
  i + size < committed.length ∧ (committed.drop i).take size = committed.drop (committed.length - size)

/-- The draft for a block: what followed the latest earlier occurrence of the longest end that has one, filled up with the
fallback token, or only fallback tokens. -/
def Drafted (committed : List Int) (blockSize : Nat) (tokens : List Int) : Prop :=
  (∃ size i, p.minNgramSize ≤ size ∧ size ≤ p.maxNgramSize ∧ Recurs committed size i ∧
      (∀ longer, size < longer → longer ≤ p.maxNgramSize → ∀ j, ¬ Recurs committed longer j) ∧
      (∀ later, i < later → ¬ Recurs committed size later) ∧
      let continuation := (committed.drop (i + size)).take blockSize
      tokens = continuation ++ List.replicate (blockSize - continuation.length) p.fallbackTokenId) ∨
    (∀ size, p.minNgramSize ≤ size → size ≤ p.maxNgramSize → ∀ i, ¬ Recurs committed size i) ∧
      tokens = List.replicate blockSize p.fallbackTokenId

theorem continuationAt_eq_some {committed : List Int} {blockSize size i : Nat} (hblock : 0 < blockSize)
    (hi : i < committed.length - size) {tokens : List Int} :
    continuationAt committed blockSize size i = some tokens ↔
      Recurs committed size i ∧ tokens = (committed.drop (i + size)).take blockSize := by
  unfold continuationAt Recurs
  dsimp only
  rw [List.extract_eq_take_drop, List.extract_eq_take_drop, Nat.add_sub_cancel_left, Nat.add_sub_cancel_left]
  have hsome : (committed.drop (i + size)).take blockSize ≠ [] := by
    intro hnil
    have hlength := congrArg List.length hnil
    rw [List.length_take, List.length_drop, List.length_nil] at hlength
    omega
  rw [if_neg hsome]
  split
  · rename_i hsame
    constructor
    · intro h
      exact ⟨⟨by omega, hsame⟩, (Option.some.inj h).symm⟩
    · rintro ⟨-, rfl⟩
      rfl
  · rename_i hother
    constructor
    · intro h
      cases h
    · rintro ⟨⟨-, hsame⟩, -⟩
      exact absurd hsame hother

theorem continuationAt_eq_none {committed : List Int} {blockSize size i : Nat} (hblock : 0 < blockSize)
    (hi : i < committed.length - size) : continuationAt committed blockSize size i = none ↔ ¬ Recurs committed size i := by
  constructor
  · intro hnone hrecurs
    have hsome := (continuationAt_eq_some hblock hi).mpr ⟨hrecurs, rfl⟩
    rw [hnone] at hsome
    cases hsome
  · intro hnot
    cases h : continuationAt committed blockSize size i with
    | none => rfl
    | some tokens => exact absurd ((continuationAt_eq_some hblock hi).mp h).1 hnot

/-- The search among the places finds nothing if the end does not occur earlier. -/
theorem places_eq_none {committed : List Int} {blockSize size : Nat} (hblock : 0 < blockSize) :
    ((descending 0 (committed.length - size)).findSome? fun i => continuationAt committed blockSize size i) = none ↔
      ∀ i, ¬ Recurs committed size i := by
  rw [findSome?_descending_eq_none]
  constructor
  · intro h i hrecurs
    have hi : i < committed.length - size := by
      have hbound := hrecurs.1
      omega
    exact (continuationAt_eq_none hblock hi).mp (h i (Nat.zero_le i) hi) hrecurs
  · intro h i _ hi
    exact (continuationAt_eq_none hblock hi).mpr (h i)

/-- It finds what follows the latest earlier occurrence. -/
theorem places_eq_some {committed tokens : List Int} {blockSize size : Nat} (hblock : 0 < blockSize) :
    ((descending 0 (committed.length - size)).findSome? fun i => continuationAt committed blockSize size i) = some tokens ↔
      ∃ i, Recurs committed size i ∧ (∀ later, i < later → ¬ Recurs committed size later) ∧
        tokens = (committed.drop (i + size)).take blockSize := by
  rw [findSome?_descending_eq_some]
  constructor
  · rintro ⟨i, -, hi, hfound, hlast⟩
    obtain ⟨hrecurs, htokens⟩ := (continuationAt_eq_some hblock hi).mp hfound
    refine ⟨i, hrecurs, fun later hlater hagain => ?_, htokens⟩
    have hbound : later < committed.length - size := by
      have hbound := hagain.1
      omega
    exact (continuationAt_eq_none hblock hbound).mp (hlast later hlater hbound) hagain
  · rintro ⟨i, hrecurs, hlast, htokens⟩
    have hi : i < committed.length - size := by
      have hbound := hrecurs.1
      omega
    exact ⟨i, Nat.zero_le i, hi, (continuationAt_eq_some hblock hi).mpr ⟨hrecurs, htokens⟩,
      fun j hj hj' => (continuationAt_eq_none hblock hj').mpr (hlast j hj)⟩

theorem lookupContinuation_eq_none {committed : List Int} {blockSize : Nat} (hblock : 0 < blockSize) :
    lookupContinuation p committed blockSize = none ↔
      ∀ size, p.minNgramSize ≤ size → size ≤ p.maxNgramSize → ∀ i, ¬ Recurs committed size i := by
  unfold lookupContinuation
  dsimp only
  rw [findSome?_descending_eq_none]
  constructor
  · intro h size hmin hmax i hrecurs
    have hbound := hrecurs.1
    exact (places_eq_none hblock).mp (h size hmin (by omega)) i hrecurs
  · intro h size hmin hmax
    exact (places_eq_none hblock).mpr (h size hmin (by omega))

theorem lookupContinuation_eq_some {committed tokens : List Int} {blockSize : Nat} (hblock : 0 < blockSize) :
    lookupContinuation p committed blockSize = some tokens ↔
      ∃ size i, p.minNgramSize ≤ size ∧ size ≤ p.maxNgramSize ∧ Recurs committed size i ∧
        (∀ longer, size < longer → longer ≤ p.maxNgramSize → ∀ j, ¬ Recurs committed longer j) ∧
        (∀ later, i < later → ¬ Recurs committed size later) ∧ tokens = (committed.drop (i + size)).take blockSize := by
  unfold lookupContinuation
  dsimp only
  rw [findSome?_descending_eq_some]
  constructor
  · rintro ⟨size, hmin, hmax, hfound, hlongest⟩
    obtain ⟨i, hrecurs, hlast, htokens⟩ := (places_eq_some hblock).mp hfound
    refine ⟨size, i, hmin, by omega, hrecurs, fun longer hlonger hle j hagain => ?_, hlast, htokens⟩
    have hbound := hagain.1
    exact (places_eq_none hblock).mp (hlongest longer hlonger (by omega)) j hagain
  · rintro ⟨size, i, hmin, hmax, hrecurs, hlongest, hlast, htokens⟩
    have hbound := hrecurs.1
    refine ⟨size, hmin, by omega, (places_eq_some hblock).mpr ⟨i, hrecurs, hlast, htokens⟩, fun longer hlonger hlt => ?_⟩
    exact (places_eq_none hblock).mpr (hlongest longer hlonger (by omega))

theorem fill_eq (blockSize : Nat) (tokens : List Int) :
    fill p blockSize tokens = tokens ++ List.replicate (blockSize - tokens.length) p.fallbackTokenId := by
  unfold fill
  split
  · rfl
  · rename_i hlong
    rw [Nat.sub_eq_zero_of_le (by omega), List.replicate_zero, List.append_nil]

theorem length_fill {blockSize : Nat} {tokens : List Int} (h : tokens.length ≤ blockSize) :
    (fill p blockSize tokens).length = blockSize := by
  rw [fill_eq, List.length_append, List.length_replicate]
  omega

/-- A block of exactly the size that was asked for is proposed: what followed the latest earlier occurrence of the longest
end that has one, filled up with the fallback token. -/
theorem proposeBlock_drafted (stats : ProposerStats) {committed : List Int} {blockSize numSteps : Int}
    (hblock : 0 < blockSize) (hsteps : 0 < numSteps) (hcommitted : committed ≠ []) :
    ∃ proposal stats', proposeBlock p stats committed blockSize numSteps = .ok (proposal, stats') ∧
      proposal.tokens.length = blockSize ∧ Drafted p committed blockSize.toNat proposal.tokens := by
  have hpos : 0 < blockSize.toNat := by omega
  unfold proposeBlock
  rw [if_neg (by omega), if_neg (by omega), if_neg hcommitted]
  refine ⟨_, _, rfl, ?_, ?_⟩
  · dsimp only
    rw [length_fill p (List.length_take_le _ _)]
    omega
  · dsimp only
    rw [fill_eq]
    cases hlookup : lookupContinuation p committed blockSize.toNat with
    | none =>
      right
      refine ⟨(lookupContinuation_eq_none p hpos).mp hlookup, ?_⟩
      rw [Option.getD_none, List.take_nil, List.nil_append, List.length_nil, Nat.sub_zero]
    | some continuation =>
      left
      obtain ⟨size, i, hmin, hmax, hrecurs, hlongest, hlast, htokens⟩ := (lookupContinuation_eq_some p hpos).mp hlookup
      refine ⟨size, i, hmin, hmax, hrecurs, hlongest, hlast, ?_⟩
      rw [Option.getD_some, htokens, List.take_take, Nat.min_self]

/-- Sizes 1 to 4, and the fallback token 0. -/
def defaultProposer : NGramProposer := ⟨4, 1, 0, Nat.one_pos, by decide, by decide⟩

theorem proposeBlock_drafted_overlapping :
    ∃ proposal stats', proposeBlock defaultProposer {} [7, 7, 7] 4 1 = .ok (proposal, stats') ∧
      proposal.tokens.length = (4 : Int) ∧ Drafted defaultProposer [7, 7, 7] 4 proposal.tokens :=
  proposeBlock_drafted defaultProposer {} (by decide) (by decide) (by decide)

example : (proposeBlock defaultProposer {} [1, 2, 3, 1, 2] 4 1).toOption.map (·.1.tokens) = some [3, 1, 2, 0] := by decide

end NGram

end KakeyaEngine
