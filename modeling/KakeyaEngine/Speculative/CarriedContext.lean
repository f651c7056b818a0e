import KakeyaEngine.Lib.PySlice
import KakeyaEngine.Speculative.FusedEquivalence

/-!
# The context of the drafter in the loop that rolls back

`fused_specdecode_generate_mlx` keeps three books: the cache of the target, the tail of tokens that were committed but
rolled back, and the context of the drafter, which is extended by the auxiliary hidden states of every forward pass.  At
the head of each iteration the cache and the tail make up what was generated, and the context holds the features of every
committed position, once and in order (`carried_books`).

A feature of a position is what one auxiliary layer gives there; without such a layer nothing is captured.
-/

namespace KakeyaEngine

open Prefilled (holds)

/-- A verifier that captures hidden states, and the context of the drafter: the positions and features that it was given,
for each auxiliary layer. -/
structure CapturingVerifier (κ Λ φ : Type) (layers : Nat) where
  verifier : RestoredVerifier κ Λ
  lastAux : Option (List (Fin layers → φ)) := none
  context : Fin layers → List (Nat × φ) := fun _ => []
  ctxLen : Nat := 0

namespace CapturingVerifier

variable {κ Λ φ : Type} {layers : Nat}

/-- The features of a forward pass. -/
def features (m : KvModel κ Λ) (aux : Token → Nat → List κ → Fin layers → φ) :
    Nat → List κ → List Token → List (Fin layers → φ)
  | _, _, [] => []
  | pos, cache, t :: ts => aux t pos cache :: features m aux (pos + 1) (cache ++ [m.entry t pos cache]) ts

variable (m : KvModel κ Λ) (aux : Token → Nat → List κ → Fin layers → φ) (argmax : Λ → Token) (o : FusedOptions)

/-- A method of the verifier. -/
def onVerifier {α : Type} (x : Proc (RestoredVerifier κ Λ) VerifierError α) :
    Proc (CapturingVerifier κ Λ φ layers) VerifierError α :=
  Proc.focus verifier (fun v s => { s with verifier := v }) id x

/-- `forward_block_lazy`, which captures the hidden states if there is an auxiliary layer. -/
def forwardBlockLazy (tokens : List Token) : Proc (CapturingVerifier κ Λ φ layers) VerifierError (List Λ) := do
  let s ← Proc.get
  let logits ← onVerifier (RestoredVerifier.forwardBlockLazy m tokens)
  let entries := s.verifier.cache.getD []
  Proc.modify fun s =>
    { s with lastAux := if layers = 0 then none else some (features m aux entries.length entries tokens) }
  pure logits

/-- `make_context_kv`. -/
def makeContextKv (aux : Fin layers → List φ) (positions : List Nat) : Fin layers → List (Nat × φ) :=
  fun i => positions.zip (aux i)

/-- Extends the context by the hidden states of the positions that were committed since. -/
def extendContext (base : Nat) (tail : List Token) (s : CapturingVerifier κ Λ φ layers) : CapturingVerifier κ Λ φ layers :=
  let sNew := s.verifier.pastLen + tail.length
  let lo : Int := s.ctxLen - base
  let hi : Int := sNew - base
  match s.lastAux with
  | none => s
  | some rows =>
    if lo < hi then
      let newAux := fun i => (pySlice rows lo hi).map (· i)
      let added := makeContextKv newAux (List.range' s.ctxLen (sNew - s.ctxLen))
      { s with context := fun i => s.context i ++ added i, ctxLen := sNew }
    else s

/-- An iteration of `fused_specdecode_generate_mlx`, with the context. -/
def carryRound (draftBlockIds : Fused.DraftBlockIds) (st : Fused.Progress Λ) :
    Proc (CapturingVerifier κ Λ φ layers) VerifierError (Fused.Progress Λ) := do
  let len := o.blockLen st.generated
  let s ← Proc.get
  let prev ← RestoredVerifier.logitsOf st.tailLogits
  let drafts := draftBlockIds st.accepts.length (argmax prev) (s.verifier.pastLen + st.tail.length) (len - 1).toNat
  let checkIds := argmax prev :: drafts.toList
  let blockLogits ← forwardBlockLazy m aux (st.tail ++ checkIds)
  let st' ← onVerifier (Fused.carrySettle argmax o s.verifier.pastLen len prev checkIds blockLogits st)
  Proc.modify (extendContext s.verifier.pastLen st'.tail)
  pure st'

/-- The context of the prompt. -/
def startContext (auxPrompt : Fin layers → List φ) (s : CapturingVerifier κ Λ φ layers) : CapturingVerifier κ Λ φ layers :=
  { s with
    context := makeContextKv auxPrompt (List.range s.verifier.pastLen)
    ctxLen := s.verifier.pastLen }

/-- `fused_specdecode_generate_mlx` up to the head of the iteration after the first `n`. -/
def fusedSpecdecodeGenerateMlx (draftBlockIds : Fused.DraftBlockIds) (auxPrompt : Fin layers → List φ) (n : Nat) :
    Proc (CapturingVerifier κ Λ φ layers) VerifierError (Fused.Progress Λ) := do
  Proc.modify (startContext auxPrompt)
  let s ← Proc.get
  Fused.loop o (carryRound m aux argmax o draftBlockIds) n { tailLogits := s.verifier.nextTokenLogits }

variable {m aux argmax o}

theorem length_features (pos : Nat) (cache : List κ) (ts : List Token) : (features m aux pos cache ts).length = ts.length := by
  induction ts generalizing pos cache with
  | nil => rfl
  | cons t ts ih =>
    unfold features
    rw [List.length_cons, ih, List.length_cons]

/-- The features of tokens in two passes are those of one. -/
theorem features_append (pos : Nat) (cache : List κ) (xs ys : List Token) :
    features m aux pos cache (xs ++ ys) =
      features m aux pos cache xs ++ features m aux (pos + xs.length) (m.forward pos cache xs).1 ys := by
  induction xs generalizing pos cache with
  | nil => rfl
  | cons x xs ih =>
    simp only [List.cons_append, features, KvModel.forward, List.length_cons, ih]
    rw [Nat.add_right_comm, Nat.add_assoc]

/-- What was generated, in cache and tail, and what the drafter has been given, for a prompt of `p` tokens. -/
structure Balanced (m : KvModel κ Λ) (aux : Token → Nat → List κ → Fin layers → φ) (P : Prefilled κ Λ) (p : Nat)
    (auxPrompt : Fin layers → List φ) (st : Fused.Progress Λ) (s : CapturingVerifier κ Λ φ layers) : Prop where
  logits : st.tailLogits = some (P.row m st.generated)
  verifier : ∃ base row snapshot, st.generated = base ++ st.tail ∧
    s.verifier = ⟨some (P.entries m base), p + base.length, row, snapshot⟩
  ctxLen : layers ≠ 0 → s.ctxLen = p + st.generated.length
  context : ∀ i, s.context i = (List.range (p + st.generated.length)).zip
    (auxPrompt i ++ (features m aux P.cache.length P.cache st.generated).map (· i))

variable {P : Prefilled κ Λ} {p : Nat} {auxPrompt : Fin layers → List φ} {draftBlockIds : Fused.DraftBlockIds}

theorem commit_of_running {tokens : List Token} {k : Nat} {st : Fused.Progress Λ}
    (h : (Fused.commit o tokens k st).stop = false) :
    (Fused.commit o tokens k st).generated = st.generated ++ tokens := by
  unfold Fused.commit at h ⊢
  dsimp only at h ⊢
  generalize (if o.stopOnRunaway then Fused.trailingRunawayDrop (st.generated ++ tokens) else 0) = drop at h ⊢
  by_cases hany : tokens.any o.eos = true
  · rw [if_pos hany] at h
    cases h
  · rw [if_neg hany] at h ⊢
    by_cases hdrop : 0 < drop
    · rw [if_pos hdrop] at h
      cases h
    · rw [if_neg hdrop]

theorem commit_keeps (tokens : List Token) (k : Nat) (st : Fused.Progress Λ) :
    (Fused.commit o tokens k st).tail = st.tail ∧ (Fused.commit o tokens k st).tailLogits = st.tailLogits := by
  unfold Fused.commit
  dsimp only
  generalize (if o.stopOnRunaway then Fused.trailingRunawayDrop (st.generated ++ tokens) else 0) = drop
  by_cases hany : tokens.any o.eos = true
  · rw [if_pos hany]
    exact ⟨rfl, rfl⟩
  · rw [if_neg hany]
    by_cases hdrop : 0 < drop
    · rw [if_pos hdrop]
      exact ⟨rfl, rfl⟩
    · rw [if_neg hdrop]
      exact ⟨rfl, rfl⟩

theorem extendContext_verifier (base : Nat) (tail : List Token) (s : CapturingVerifier κ Λ φ layers) :
    (extendContext base tail s).verifier = s.verifier := by
  unfold extendContext
  dsimp only
  cases s.lastAux with
  | none => rfl
  | some rows =>
    dsimp only
    split <;> rfl

/-- The rows of a forward pass over the tail and a block that belong to the accepted tokens. -/
theorem slice_features (base tail taken rest : List Token) :
    pySlice (features m aux (P.entries m base).length (P.entries m base) (tail ++ (taken ++ rest))) tail.length
        (tail.length + taken.length : Nat) =
      features m aux (P.cache.length + (base ++ tail).length) (P.entries m (base ++ tail)) taken := by
  have hslice := pySlice_append (features m aux (P.entries m base).length (P.entries m base) tail)
    (features m aux (P.cache.length + (base ++ tail).length) (P.entries m (base ++ tail)) taken)
    (features m aux (P.cache.length + (base ++ tail).length + taken.length)
      (m.forward (P.cache.length + (base ++ tail).length) (P.entries m (base ++ tail)) taken).1 rest)
  rw [length_features, length_features, Prefilled.length_entries] at hslice
  rw [features_append, features_append, Prefilled.forward_entries, Prefilled.length_entries, Nat.add_assoc P.cache.length,
    ← List.length_append]
  exact hslice

theorem range_add (a b : Nat) : List.range (a + b) = List.range a ++ List.range' a b := by
  rw [List.range_eq_range', List.range_eq_range', ← List.range'_append_1, Nat.zero_add]

variable (m aux P) in
/-- Extending a context that covers what was generated by the rows of a forward pass over the tail and a block. -/
theorem extendContext_covers (base tail : List Token) (v : RestoredVerifier κ Λ) (tail' : List Token)
    {check taken : List Token} (htaken : ∃ rest, check = taken ++ rest) (hpos : 0 < taken.length)
    {s : CapturingVerifier κ Λ φ layers}
    (hprompt : ∀ i, (auxPrompt i).length = p)
    (hcovered : v.pastLen + tail'.length = p + (base ++ tail ++ taken).length)
    (hctxLen : layers ≠ 0 → s.ctxLen = p + (base ++ tail).length)
    (hcontext : ∀ i, s.context i = (List.range (p + (base ++ tail).length)).zip
      (auxPrompt i ++ (features m aux P.cache.length P.cache (base ++ tail)).map (· i))) :
    let s' := extendContext (p + base.length) tail'
      { s with
        verifier := v
        lastAux := if layers = 0 then none
          else some (features m aux (P.entries m base).length (P.entries m base) (tail ++ check)) }
    (layers ≠ 0 → s'.ctxLen = p + (base ++ tail ++ taken).length) ∧
      ∀ i, s'.context i = (List.range (p + (base ++ tail ++ taken).length)).zip
        (auxPrompt i ++ (features m aux P.cache.length P.cache (base ++ tail ++ taken)).map (· i)) := by
  intro s'
  by_cases hlayers : layers = 0
  · exact ⟨fun h => absurd hlayers h, fun i => absurd i.isLt (by omega)⟩
  obtain ⟨rest, rfl⟩ := htaken
  have hs' : s' = extendContext (p + base.length) tail'
      { s with
        verifier := v
        lastAux := some (features m aux (P.entries m base).length (P.entries m base) (tail ++ (taken ++ rest))) } := by
    show extendContext _ _ { s with verifier := v, lastAux := if layers = 0 then none else _ } = _
    rw [if_neg hlayers]
  have hlen := hctxLen hlayers
  simp only [List.length_append] at hlen hcovered
  have hlo : (s.ctxLen : Int) - (p + base.length : Nat) = (tail.length : Nat) := by omega
  have hhi : ((v.pastLen + tail'.length : Nat) : Int) - (p + base.length : Nat) = (tail.length + taken.length : Nat) := by omega
  rw [hs']
  unfold extendContext
  dsimp only
  rw [hlo, hhi, if_pos (by omega)]
  refine ⟨fun _ => ?_, fun i => ?_⟩
  · dsimp only
    simp only [List.length_append]
    omega
  · dsimp only
    rw [hcontext i, hlen, slice_features, makeContextKv]
    rw [show v.pastLen + tail'.length - (p + (base.length + tail.length)) = taken.length by omega]
    have hprefix : (List.range (p + (base ++ tail).length)).length =
        (auxPrompt i ++ (features m aux P.cache.length P.cache (base ++ tail)).map (· i)).length := by
      simp only [List.length_range, List.length_append, List.length_map, length_features, hprompt]
    rw [← List.length_append, ← List.zip_append hprefix, List.append_assoc, ← List.map_append]
    congr 1
    · rw [← range_add, Nat.add_assoc, ← List.length_append]
    · rw [features_append _ _ (base ++ tail) taken]
      rfl

theorem run_onVerifier {α : Type} {x : Proc (RestoredVerifier κ Λ) VerifierError α} {v v' : RestoredVerifier κ Λ} {y : α}
    (h : x.run v = (.ok y, v')) (lastAux : Option (List (Fin layers → φ))) (context : Fin layers → List (Nat × φ))
    (ctxLen : Nat) : (onVerifier x).run ⟨v, lastAux, context, ctxLen⟩ = (.ok y, ⟨v', lastAux, context, ctxLen⟩) := by
  unfold onVerifier
  rw [Proc.run_focus, h]

variable (m aux P) in
theorem run_forwardBlockLazy (d g : List Token) (n : Nat) (row : Option Λ) (snapshot : Option (List κ))
    {s : CapturingVerifier κ Λ φ layers} (hs : s.verifier = ⟨some (P.entries m g), n, row, snapshot⟩) :
    (forwardBlockLazy m aux d).run s =
      (.ok (P.rows m g d),
        { s with
          verifier := ⟨some (P.entries m (g ++ d)), n, row, some (P.entries m g)⟩
          lastAux := if layers = 0 then none
            else some (features m aux (P.entries m g).length (P.entries m g) d) }) := by
  obtain ⟨v, lastAux, context, ctxLen⟩ := s
  dsimp only at hs
  subst hs
  unfold forwardBlockLazy
  rw [Proc.run_get_bind, Proc.run_bind_ok (run_onVerifier (RestoredVerifier.run_forwardBlockLazy d g n row snapshot) _ _ _)]
  rfl

variable (aux argmax draftBlockIds) in
/-- What an iteration does: the matched part `taken` of what is checked is committed, in the cache or in the tail, and the
context is extended. -/
theorem run_carryRound {st : Fused.Progress Λ} {s : CapturingVerifier κ Λ φ layers} {base : List Token} {row : Option Λ}
    {snapshot : Option (List κ)} (hlogits : st.tailLogits = some (P.row m st.generated)) (hgen : st.generated = base ++ st.tail)
    (hverifier : s.verifier = ⟨some (P.entries m base), p + base.length, row, snapshot⟩)
    (hr : 0 < Fused.remaining o st.generated) :
    ∃ taken rest base' tail' row' snapshot', 0 < taken.length ∧ st.generated ++ taken = base' ++ tail' ∧
      (carryRound m aux argmax o draftBlockIds st).run s =
        (.ok (Fused.commit o taken taken.length
            { st with tail := tail', tailLogits := some (P.row m (st.generated ++ taken)) }),
          extendContext (p + base.length) tail'
            { s with
              verifier := ⟨some (P.entries m base'), p + base'.length, row', snapshot'⟩
              lastAux := if layers = 0 then none
                else some (features m aux (P.entries m base).length (P.entries m base) (st.tail ++ (taken ++ rest))) }) := by
  obtain ⟨hlen, hpos, hle, -⟩ := Fused.checkIds_spec m argmax P o p draftBlockIds st.accepts.length st.generated
  obtain ⟨base', tail', row', snapshot', hgen', hsettle⟩ := Fused.run_carrySettle (o := o) (p := p) hgen hlen rfl hpos row
  have hpast : p + base.length + st.tail.length = p + st.generated.length := by
    rw [hgen, List.length_append, Nat.add_assoc]
  have hround : (carryRound m aux argmax o draftBlockIds st).run s =
      (do
        let blockLogits ← forwardBlockLazy m aux (st.tail ++
          Fused.checkIds (P.greedyNext m argmax) o p draftBlockIds st.accepts.length st.generated
            (Fused.remaining o st.generated))
        let st' ← onVerifier (Fused.carrySettle argmax o (p + base.length) (min o.blockSize (Fused.remaining o st.generated))
          (P.row m st.generated)
          (Fused.checkIds (P.greedyNext m argmax) o p draftBlockIds st.accepts.length st.generated
            (Fused.remaining o st.generated)) blockLogits st)
        Proc.modify (extendContext (p + base.length) st'.tail)
        pure st' : Proc _ _ _).run s := by
    unfold carryRound
    dsimp only
    rw [Proc.run_get_bind, hlogits, Fused.blockLen_eq hr, hverifier]
    dsimp only
    rw [hpast]
    rfl
  generalize Fused.checkIds (P.greedyNext m argmax) o p draftBlockIds st.accepts.length st.generated
    (Fused.remaining o st.generated) = check at hround hpos hle hgen' hsettle
  generalize Greedy.matched (P.greedyNext m argmax) st.generated check = k at hpos hle hgen' hsettle
  have htaken : (check.take k).length = k := by rw [List.length_take, Nat.min_eq_left hle]
  refine ⟨check.take k, check.drop k, base', tail', row', snapshot', by rw [htaken]; exact hpos, hgen', ?_⟩
  obtain ⟨htail, -⟩ := commit_keeps (o := o) (check.take k) k
    { st with tail := tail', tailLogits := some (P.row m (st.generated ++ check.take k)) }
  rw [hround, Proc.run_bind_ok (run_forwardBlockLazy m aux P _ base _ row snapshot hverifier)]
  rw [Proc.run_bind_ok (run_onVerifier hsettle _ _ _), Proc.run_modify_bind, Proc.run_pure, htail, htaken,
    List.take_append_drop]

variable (argmax o draftBlockIds) in
/-- An iteration keeps the books, unless the loop stops with it. -/
theorem carryRound_balanced (hprompt : ∀ i, (auxPrompt i).length = p) {st : Fused.Progress Λ}
    {s : CapturingVerifier κ Λ φ layers} (hI : Balanced m aux P p auxPrompt st s)
    (hr : 0 < Fused.remaining o st.generated) :
    ∃ st' s', (carryRound m aux argmax o draftBlockIds st).run s = (.ok st', s') ∧
      (st'.stop = false → Balanced m aux P p auxPrompt st' s') := by
  obtain ⟨hlogits, ⟨base, row, snapshot, hgen, hverifier⟩, hctxLen, hcontext⟩ := hI
  obtain ⟨taken, rest, base', tail', row', snapshot', hpos, hgen', hround⟩ :=
    run_carryRound aux argmax draftBlockIds hlogits hgen hverifier hr
  refine ⟨_, _, hround, fun hgo => ?_⟩
  have hcommit := commit_of_running hgo
  obtain ⟨htail, hrow⟩ := commit_keeps (o := o) taken taken.length
    { st with tail := tail', tailLogits := some (P.row m (st.generated ++ taken)) }
  dsimp only at hcommit htail hrow
  have hlen : p + base'.length + tail'.length = p + (base ++ st.tail ++ taken).length := by
    rw [← hgen, hgen', List.length_append, Nat.add_assoc]
  have hcovers := extendContext_covers m aux P base st.tail ⟨some (P.entries m base'), p + base'.length, row', snapshot'⟩
    tail' ⟨rest, rfl⟩ hpos hprompt hlen
    (by rw [← hgen]; exact hctxLen) (by rw [← hgen]; exact hcontext)
  rw [← hgen] at hcovers
  refine ⟨by rw [hrow, hcommit], ⟨base', row', snapshot', by rw [hcommit, htail, hgen'], ?_⟩, ?_, ?_⟩
  · rw [extendContext_verifier]
  · rw [hcommit]
    exact hcovers.1
  · rw [hcommit]
    exact hcovers.2

variable (argmax o draftBlockIds) in
/-- The books are kept by every number of iterations, until the loop stops. -/
theorem loop_balanced (hprompt : ∀ i, (auxPrompt i).length = p) (n : Nat) {st : Fused.Progress Λ}
    {s : CapturingVerifier κ Λ φ layers} (hI : st.stop = false → Balanced m aux P p auxPrompt st s) :
    ∃ st' s', (Fused.loop o (carryRound m aux argmax o draftBlockIds) n st).run s = (.ok st', s') ∧
      (st'.stop = false → Balanced m aux P p auxPrompt st' s') := by
  induction n generalizing st s with
  | zero => exact ⟨st, s, rfl, hI⟩
  | succ n ih =>
    unfold Fused.loop
    by_cases hgo : (st.generated.length : Int) < o.genTokens ∧ st.stop = false
    · obtain ⟨hroom, hstop⟩ := hgo
      obtain ⟨st₁, s₁, hround, hI₁⟩ := carryRound_balanced argmax o draftBlockIds
        hprompt (hI hstop) (by unfold Fused.remaining; omega)
      rw [if_pos ⟨hroom, hstop⟩, Proc.run_bind_ok hround]
      exact ih hI₁
    · rw [if_neg hgo]
      exact ⟨st, s, rfl, hI⟩

/-- The books at the head of the iteration after any number of them: what is in the cache and the tail make up the prompt
and what was generated, and the drafter has been given the features of every position of it, once and in order. -/
theorem carried_books (m : KvModel κ Λ) (aux : Token → Nat → List κ → Fin layers → φ) (argmax : Λ → Token)
    (o : FusedOptions) (restored : List Token → Prefilled κ Λ) (promptIds : List Token) (hne : promptIds ≠ [])
    (draftBlockIds : Fused.DraftBlockIds) (auxPrompt : Fin layers → Vector φ promptIds.length) (n : Nat)
    (s₀ : CapturingVerifier κ Λ φ layers) :
    let P := restored promptIds
    ∃ st s,
      (do onVerifier (RestoredVerifier.prefill restored promptIds)
          fusedSpecdecodeGenerateMlx m aux argmax o draftBlockIds (fun i => (auxPrompt i).toList) n : Proc _ _ _).run s₀ =
        (.ok st, s) ∧
      (st.stop = false →
        s.verifier.pastLen + st.tail.length = promptIds.length + st.generated.length ∧
        (∃ cached, st.generated = cached ++ st.tail ∧ s.verifier.cache = some (P.entries m cached)) ∧
        ∀ i, s.context i = (List.range (promptIds.length + st.generated.length)).zip
          ((auxPrompt i).toList ++ (features m aux P.cache.length P.cache st.generated).map (· i))) := by
  intro P
  obtain ⟨v₀, lastAux, context, ctxLen⟩ := s₀
  have hprefill := run_onVerifier (RestoredVerifier.run_prefill m restored hne v₀) lastAux context ctxLen
  have hstart : Balanced m aux P promptIds.length (fun i => (auxPrompt i).toList)
      { tailLogits := some (P.row m []) }
      (startContext (fun i => (auxPrompt i).toList) ⟨holds m P promptIds.length [] none, lastAux, context, ctxLen⟩) := by
    refine ⟨rfl, ⟨[], _, _, rfl, rfl⟩, fun _ => rfl, fun i => ?_⟩
    simp [startContext, makeContextKv, holds, features]
  obtain ⟨st, s, hrun, hbalanced⟩ := loop_balanced argmax o draftBlockIds
    (fun i => Vector.length_toList) n (fun _ => hstart)
  refine ⟨st, s, ?_, fun hgo => ?_⟩
  · rw [Proc.run_bind_ok hprefill]
    exact hrun
  · obtain ⟨-, ⟨base, row, snapshot, hgen, hv⟩, -, hcontext⟩ := hbalanced hgo
    refine ⟨?_, ⟨base, hgen, by rw [hv]⟩, hcontext⟩
    rw [hv, hgen, List.length_append, Nat.add_assoc]

/-- Drafts that count up from the bonus token in the first block, and are wrong in the ones after it. -/
def slippingDraftIds : Fused.DraftBlockIds := fun blocks bonus _ _ => Vector.ofFn fun i => bonus + 1 + (i.val : Int) + blocks

/-- A block that is accepted as a whole and one that is rolled back: the last token is in the tail, and its feature, which
is twice the token, in the context. -/
theorem rolled_back_books :
    ∃ st s,
      (do onVerifier (RestoredVerifier.prefill Fused.countingTarget [0])
          fusedSpecdecodeGenerateMlx (KvModel.ofTokens fun c => c.getLastD 0 + 1) (fun t _ _ (_ : Fin 1) => 2 * t) id
            (Fused.countingOptions 9) slippingDraftIds (fun _ => [0]) 2 : Proc _ _ _).run ⟨{}, none, fun _ => [], 0⟩ =
        (.ok st, s) ∧
      st.stop = false ∧ st.tail = [4] ∧ s.context 0 = [(0, 0), (1, 2), (2, 4), (3, 6), (4, 8)] := by
  obtain ⟨st, s, hrun, hbooks⟩ := carried_books (KvModel.ofTokens fun c => c.getLastD 0 + 1)
    (fun t _ _ (_ : Fin 1) => 2 * t) id (Fused.countingOptions 9) Fused.countingTarget [0] (by decide) slippingDraftIds
    (fun _ => #v[0]) 2 ⟨{}, none, fun _ => [], 0⟩
  have hst : st = _ := (Except.ok.inj (congrArg Prod.fst hrun)).symm
  have hstop : st.stop = false := by rw [hst]; decide +kernel
  have hgen : st.generated = [1, 2, 3, 4] := by rw [hst]; decide +kernel
  refine ⟨st, s, hrun, hstop, by rw [hst]; decide +kernel, ?_⟩
  rw [(hbooks hstop).2.2 0, hgen]
  decide +kernel

end CapturingVerifier

end KakeyaEngine
