import KakeyaEngine.Capability
import KakeyaEngine.Lib.Fallible
import Mathlib.Data.List.Dedup
import Mathlib.Data.List.Nodup
import Mathlib.Data.List.Perm.Subperm
import Mathlib.Data.List.Induction

/-!
# Batched decoding of a cohort

`run_cohort` decodes the sessions of a cohort in one batch, a row for each.  Rows that have reached an EOS token leave the
batch, so the place of a session in it changes.  With a model that treats every row by itself, each session still gets the
tokens of its own greedy decode (`cohort_equals_solo`).
-/

namespace KakeyaEngine

namespace Cohort

/-! ### The scheduler -/

/-- A layer of a batched cache: the keys and the values of every row. -/
structure Layer (κ : Type) where
  keys : List κ
  values : List κ

/-- The exceptions of `_stack_caches`. -/
inductive CohortError
  | notPrefilled
  | lengths (lengths : List Int)
deriving DecidableEq

-- the keys or values of a row, its logits, and the number of layers
variable {κ Λ : Type} {n : Nat}

/-- A prefilled verifier of one session: its cache and the length of it, and the logits that come next. -/
structure Adapter (κ Λ : Type) (n : Nat) where
  past : Option (Fin n → κ × κ)
  pastLen : Int
  nextTokenLogits : Λ

/-- The caches of several rows, layer by layer. -/
def stack (rows : List (Fin n → κ × κ)) : Fin n → Layer κ :=
  fun layer => ⟨rows.map fun c => (c layer).1, rows.map fun c => (c layer).2⟩

/-- `_stack_caches`. -/
def stackCaches (adapters : List (Adapter κ Λ n)) : Except CohortError (Fin n → Layer κ) :=
  match adapters.mapM Adapter.past with
  | none => .error .notPrefilled
  | some pasts =>
    let lengths := (adapters.map Adapter.pastLen).dedup
    if lengths.length ≠ 1 then .error (.lengths lengths) else .ok (stack pasts)

/-- `index_select` along the rows. -/
def indexSelect {α : Type} (rows : List α) (idx : List Nat) : List α := idx.filterMap fun r => rows[r]?

-- the batched forward pass: tokens and positions of the rows, the cache position, and the cache
variable (model : List Token → List Int → Int → (Fin n → Layer κ) → List Λ × (Fin n → Layer κ)) (argmax : Λ → Token)
  (eosIds : List Token)

/-- The token of row `r` goes to its session; the row is kept unless the token is an EOS token. -/
def takeRow (rowToSess : List Nat) (nxt : List Token) (acc : List (List Token) × List Nat) (r : Nat) :
    List (List Token) × List Nat :=
  match rowToSess[r]?, nxt[r]? with
  | some sidx, some tok =>
    (acc.1.modify sidx (· ++ [tok]), if tok ∈ eosIds then acc.2 else acc.2 ++ [r])
  | _, _ => acc

/-- The loop of `run_cohort`, with the number of steps that `max_tokens` leaves. -/
def decodeLoop (T : Int) : (left step : Nat) → (logits : List Λ) → (cache : Fin n → Layer κ) → (rowToSess active : List Nat) →
    (gen : List (List Token)) → List (List Token)
  | 0, _, _, _, _, _, gen => gen
  | left + 1, step, logits, cache, rowToSess, active, gen =>
    if active = [] then gen
    else
      let nxt := logits.map argmax
      let taken := (List.range nxt.length).foldl (takeRow eosIds rowToSess nxt) (gen, [])
      let keepRows := taken.2
      if left = 0 ∨ keepRows = [] then taken.1
      else
        let pos := T + ((step + 1 : Nat) : Int) - 1
        let out := model nxt (List.replicate nxt.length pos) pos cache
        if keepRows.length ≠ nxt.length then
          -- the finished rows leave the batch
          decodeLoop T left (step + 1) (indexSelect out.1 keepRows)
            (fun layer => ⟨indexSelect (out.2 layer).keys keepRows, indexSelect (out.2 layer).values keepRows⟩)
            (indexSelect rowToSess keepRows) keepRows taken.1
        else decodeLoop T left (step + 1) out.1 out.2 rowToSess keepRows taken.1

/-- What `run_cohort` returns, less the timing; an empty cohort has no counts. -/
structure CohortResult where
  tokens : List (List Token)
  sessions : Option Nat := none
  totalTokens : Option Nat := none
deriving DecidableEq

/-- `run_cohort`. -/
def runCohort (adapters : List (Adapter κ Λ n)) (maxTokens : Int) : Except CohortError CohortResult :=
  match adapters with
  | [] => .ok { tokens := [] }
  | first :: _ => do
    let cache ← stackCaches adapters
    let gen := decodeLoop model argmax eosIds first.pastLen maxTokens.toNat 0 (adapters.map Adapter.nextTokenLogits) cache
      (List.range adapters.length) (List.range adapters.length) (adapters.map fun _ => [])
    .ok { tokens := gen, sessions := some adapters.length, totalTokens := some (gen.map List.length).sum }

/-! ### Solo decoding -/

/-- The forward pass of one row. -/
abbrev RowModel (κ Λ : Type) (n : Nat) := Token → Int → Int → (Fin n → κ × κ) → Λ × (Fin n → κ × κ)

/-- The greedy decode of one session: up to and including the first EOS token, or up to a number of tokens. -/
def greedyDecode (rowModel : RowModel κ Λ n) : Nat → Int → Λ → (Fin n → κ × κ) → List Token
  | 0, _, _, _ => []
  | left + 1, pos, logits, cache =>
    let tok := argmax logits
    if tok ∈ eosIds then [tok]
    else tok :: greedyDecode rowModel left (pos + 1) (rowModel tok pos pos cache).1 (rowModel tok pos pos cache).2

/-- The greedy decode of an adapter. -/
def solo (rowModel : RowModel κ Λ n) (maxTokens : Int) (a : Adapter κ Λ n) : List Token :=
  match a.past with
  | none => []
  | some cache => greedyDecode argmax eosIds rowModel maxTokens.toNat a.pastLen a.nextTokenLogits cache

/-- The batched model acts on each row independently. -/
def RowWise (rowModel : RowModel κ Λ n) : Prop :=
  ∀ (rows : List (Token × Int × (Fin n → κ × κ))) (cachePosition : Int),
    model (rows.map fun r => r.1) (rows.map fun r => r.2.1) cachePosition (stack (rows.map fun r => r.2.2)) =
      (rows.map fun r => (rowModel r.1 r.2.1 cachePosition r.2.2).1,
        stack (rows.map fun r => (rowModel r.1 r.2.1 cachePosition r.2.2).2))

/-! ### Rows -/

/-- A row of the batch: its session, its next logits and its cache. -/
structure Row (κ Λ : Type) (n : Nat) where
  session : Nat
  logits : Λ
  cache : Fin n → κ × κ

/-- The row of a session. -/
def rowOf (rows : List (Row κ Λ n)) (s : Nat) : Option (Row κ Λ n) := rows.find? fun r => r.session == s

/-- The places of the rows that are kept. -/
def kept (p : Row κ Λ n → Bool) (rows : List (Row κ Λ n)) : List Nat := (rows.zipIdx.filter fun r => p r.1).map (·.2)

theorem filter_zipIdx (p : Row κ Λ n → Bool) (rows : List (Row κ Λ n)) :
    rows.filter p = (rows.zipIdx.filter fun r => p r.1).map (·.1) := by
  conv => lhs; rw [← List.zipIdx_map_fst 0 rows]
  rw [List.filter_map]
  rfl

theorem indexSelect_kept {α : Type} (p : Row κ Λ n → Bool) (g : Row κ Λ n → α) (rows : List (Row κ Λ n)) :
    indexSelect (rows.map g) (kept p rows) = (rows.filter p).map g := by
  have hplace : ∀ l : List (Row κ Λ n × Nat), (∀ r ∈ l, (rows.map g)[r.2]? = some (g r.1)) →
      indexSelect (rows.map g) (l.map (·.2)) = l.map fun r => g r.1 := by
    intro l hl
    induction l with
    | nil => rfl
    | cons r l ih =>
      rw [List.forall_mem_cons] at hl
      unfold indexSelect at ih ⊢
      rw [List.map_cons, List.map_cons, List.filterMap_cons_some hl.1, ih hl.2]
  have hget : ∀ r ∈ rows.zipIdx.filter (fun r => p r.1), (rows.map g)[r.2]? = some (g r.1) := by
    intro r hr
    rw [List.getElem?_map, List.mem_zipIdx_iff_getElem?.mp (List.mem_filter.mp hr).1]
    rfl
  unfold kept
  rw [hplace _ hget]
  rw [filter_zipIdx, List.map_map]
  rfl

theorem length_kept (p : Row κ Λ n → Bool) (rows : List (Row κ Λ n)) : (kept p rows).length = (rows.filter p).length := by
  unfold kept
  rw [filter_zipIdx, List.length_map, List.length_map]

/-- The rows that are kept, each changed for itself. -/
theorem rowOf_kept (p : Row κ Λ n → Bool) (f : Row κ Λ n → Row κ Λ n) (hf : ∀ r, (f r).session = r.session)
    {rows : List (Row κ Λ n)} (hnodup : (rows.map Row.session).Nodup) (s : Nat) :
    rowOf ((rows.filter p).map f) s = (rowOf rows s).bind fun r => if p r then some (f r) else none := by
  induction rows with
  | nil => rfl
  | cons r rows ih =>
    rw [List.map_cons, List.nodup_cons] at hnodup
    have hrest := ih hnodup.2
    unfold rowOf at hrest ⊢
    by_cases hs : r.session = s
    · -- no other row is of this session
      have hnone : (rows.find? fun r => r.session == s) = none := by
        rw [List.find?_eq_none]
        intro r' hr' heq
        exact hnodup.1 (by rw [hs, ← eq_of_beq heq]; exact List.mem_map_of_mem hr')
      rw [hnone] at hrest
      rw [List.find?_cons_of_pos (by simpa using hs)]
      by_cases hp : p r
      · rw [List.filter_cons_of_pos hp, List.map_cons, List.find?_cons_of_pos (by rw [hf]; simpa using hs)]
        simp [hp]
      · rw [List.filter_cons_of_neg hp, hrest]
        simp [hp]
    · rw [List.find?_cons_of_neg (by simpa using hs), ← hrest]
      by_cases hp : p r
      · rw [List.filter_cons_of_pos hp, List.map_cons, List.find?_cons_of_neg (by rw [hf]; simpa using hs)]
      · rw [List.filter_cons_of_neg hp]

/-- The tokens of a session after those of its row were added. -/
def extended (rows : List (Row κ Λ n)) (more : Row κ Λ n → List Token) (gen : List (List Token)) : List (List Token) :=
  gen.mapIdx fun s g => g ++ ((rowOf rows s).map more).getD []

theorem extended_nil (more : Row κ Λ n → List Token) (gen : List (List Token)) :
    extended ([] : List (Row κ Λ n)) more gen = gen := by
  refine List.ext_getElem? fun s => ?_
  unfold extended
  rw [List.getElem?_mapIdx]
  simp [rowOf]

theorem extended_none (rows : List (Row κ Λ n)) (gen : List (List Token)) : extended rows (fun _ => []) gen = gen := by
  refine List.ext_getElem? fun s => ?_
  unfold extended
  rw [List.getElem?_mapIdx]
  cases rowOf rows s <;> simp

theorem extended_concat {rows : List (Row κ Λ n)} {r : Row κ Λ n} (hnew : rowOf rows r.session = none)
    (more : Row κ Λ n → List Token) (gen : List (List Token)) :
    extended (rows ++ [r]) more gen = (extended rows more gen).modify r.session (· ++ more r) := by
  refine List.ext_getElem? fun s => ?_
  unfold extended
  rw [List.getElem?_modify, List.getElem?_mapIdx, List.getElem?_mapIdx]
  unfold rowOf at hnew ⊢
  rw [List.find?_append]
  by_cases hs : r.session = s
  · subst hs
    rw [hnew]
    cases gen[r.session]? <;> simp
  · rw [List.find?_cons_of_neg (by simpa using hs), List.find?_nil, Option.or_none]
    cases gen[s]? <;> simp [hs]

theorem kept_concat (p : Row κ Λ n → Bool) (rows : List (Row κ Λ n)) (r : Row κ Λ n) :
    kept p (rows ++ [r]) = kept p rows ++ if p r then [rows.length] else [] := by
  unfold kept
  rw [List.zipIdx_append, List.filter_append, List.map_append]
  by_cases hp : p r
  · simp [hp]
  · simp [hp]

/-- The sampling loop adds a token to the session of every row, and keeps the places of the rows without an EOS token. -/
theorem takeRows_eq (eosIds : List Token) (argmax : Λ → Token) {rows : List (Row κ Λ n)}
    (hnodup : (rows.map Row.session).Nodup) (gen : List (List Token)) :
    (List.range rows.length).foldl (takeRow eosIds (rows.map Row.session) (rows.map fun r => argmax r.logits)) (gen, []) =
      (extended rows (fun r => [argmax r.logits]) gen, kept (fun r => decide (argmax r.logits ∉ eosIds)) rows) := by
  -- the rows before a place, with whatever follows
  have hprefix : ∀ P : List (Row κ Λ n), ∀ X Y, (P.map Row.session).Nodup →
      (List.range P.length).foldl (takeRow eosIds (P.map Row.session ++ X) (P.map (fun r => argmax r.logits) ++ Y)) (gen, []) =
        (extended P (fun r => [argmax r.logits]) gen, kept (fun r => decide (argmax r.logits ∉ eosIds)) P) := by
    intro P
    induction P using List.reverseRec with
    | nil =>
      intro X Y _
      rw [extended_nil]
      rfl
    | append_singleton P r ih =>
      intro X Y hP
      rw [List.map_append, List.nodup_append] at hP
      have hnew : rowOf P r.session = none := by
        rw [rowOf, List.find?_eq_none]
        intro r' hr' heq
        exact hP.2.2 _ (List.mem_map_of_mem hr') _ (List.mem_singleton_self _) (eq_of_beq heq)
      have hhead := ih (r.session :: X) (argmax r.logits :: Y) hP.1
      rw [List.length_append, List.length_singleton, List.range_succ, List.foldl_append, List.map_append, List.map_append,
        List.append_assoc, List.append_assoc, List.map_singleton, List.map_singleton, List.singleton_append,
        List.singleton_append, hhead]
      simp only [List.foldl_cons, List.foldl_nil, takeRow]
      have hsession : (P.map Row.session ++ r.session :: X)[P.length]? = some r.session := by simp
      have htoken : (P.map (fun r => argmax r.logits) ++ argmax r.logits :: Y)[P.length]? = some (argmax r.logits) := by simp
      rw [hsession, htoken]
      dsimp only
      rw [extended_concat hnew, kept_concat]
      by_cases htok : argmax r.logits ∈ eosIds
      · rw [if_pos htok, if_neg (by simpa using htok), List.append_nil]
      · rw [if_neg htok, if_pos (by simpa using htok)]
  have hall := hprefix rows [] [] hnodup
  rw [List.append_nil, List.append_nil] at hall
  exact hall

/-! ### The loop -/

section

variable {model : List Token → List Int → Int → (Fin n → Layer κ) → List Λ × (Fin n → Layer κ)} {argmax : Λ → Token}
  {eosIds : List Token} {rowModel : RowModel κ Λ n}

/-- A row after a forward pass with its token. -/
def advanced (rowModel : RowModel κ Λ n) (argmax : Λ → Token) (pos : Int) (r : Row κ Λ n) : Row κ Λ n :=
  { r with
    logits := (rowModel (argmax r.logits) pos pos r.cache).1
    cache := (rowModel (argmax r.logits) pos pos r.cache).2 }

/-- The forward pass of the batch advances every row. -/
theorem model_rows (h : RowWise model rowModel) (rows : List (Row κ Λ n)) (pos : Int) :
    model (rows.map fun r => argmax r.logits) (List.replicate rows.length pos) pos (stack (rows.map Row.cache)) =
      (rows.map fun r => (advanced rowModel argmax pos r).logits,
        stack (rows.map fun r => (advanced rowModel argmax pos r).cache)) := by
  have hrows := h (rows.map fun r => (argmax r.logits, pos, r.cache)) pos
  simp only [List.map_map, Function.comp_def, List.map_const'] at hrows
  exact hrows

theorem indexSelect_stack (p : Row κ Λ n → Bool) (g : Row κ Λ n → Fin n → κ × κ) (rows : List (Row κ Λ n)) :
    (fun layer => ⟨indexSelect (stack (rows.map g) layer).keys (kept p rows),
      indexSelect (stack (rows.map g) layer).values (kept p rows)⟩ : Fin n → Layer κ) = stack ((rows.filter p).map g) := by
  funext layer
  unfold stack
  simp only [List.map_map]
  rw [indexSelect_kept, indexSelect_kept]

/-- What a row still gets is its token, and what its row gets when it is kept. -/
theorem extended_step {rows : List (Row κ Λ n)} (hnodup : (rows.map Row.session).Nodup) (left : Nat) (pos : Int)
    (gen : List (List Token)) :
    extended ((rows.filter fun r => decide (argmax r.logits ∉ eosIds)).map (advanced rowModel argmax pos))
        (fun r => greedyDecode argmax eosIds rowModel left (pos + 1) r.logits r.cache)
        (extended rows (fun r => [argmax r.logits]) gen) =
      extended rows (fun r => greedyDecode argmax eosIds rowModel (left + 1) pos r.logits r.cache) gen := by
  refine List.ext_getElem? fun s => ?_
  unfold extended
  have hadvanced : ∀ r, (advanced rowModel argmax pos r).session = r.session := fun _ => rfl
  rw [List.getElem?_mapIdx, List.getElem?_mapIdx, List.getElem?_mapIdx, Option.map_map, rowOf_kept _ _ hadvanced hnodup]
  rcases hrow : rowOf rows s with _ | r
  · simp [Function.comp_def]
  · refine congrFun (congrArg Option.map (funext fun g => ?_)) _
    by_cases htok : argmax r.logits ∈ eosIds
    · simp [greedyDecode, htok]
    · simp [greedyDecode, htok, advanced]

/-- A run of the loop gives every session in the batch the greedy decode of its row. -/
theorem decodeLoop_spec (h : RowWise model rowModel) (T : Int) (left step : Nat) (rows : List (Row κ Λ n))
    (hnodup : (rows.map Row.session).Nodup) (active : List Nat) (hactive : active = [] ↔ rows = []) (gen : List (List Token)) :
    decodeLoop model argmax eosIds T left step (rows.map Row.logits) (stack (rows.map Row.cache)) (rows.map Row.session)
        active gen =
      extended rows (fun r => greedyDecode argmax eosIds rowModel left (T + step) r.logits r.cache) gen := by
  induction left generalizing step rows active gen with
  | zero =>
    unfold decodeLoop greedyDecode
    rw [extended_none]
  | succ left ih =>
    unfold decodeLoop
    by_cases hempty : active = []
    · rw [if_pos hempty, hactive.mp hempty, extended_nil]
    · rw [if_neg hempty]
      have htokens : (rows.map Row.logits).map argmax = rows.map fun r => argmax r.logits := List.map_map
      have hlength : (rows.map fun r => argmax r.logits).length = rows.length := List.length_map _
      have hpos : T + ((step + 1 : Nat) : Int) - 1 = T + step := by omega
      dsimp only
      rw [htokens, hlength, takeRows_eq eosIds argmax hnodup gen, hpos, model_rows h]
      dsimp only
      rw [← extended_step hnodup left (T + step) gen]
      split
      · rename_i hend
        rcases hend with rfl | hkept
        · unfold greedyDecode
          rw [extended_none]
        · have hfilter := length_kept (fun r => decide (argmax r.logits ∉ eosIds)) rows
          rw [hkept, List.length_nil] at hfilter
          rw [List.eq_nil_of_length_eq_zero hfilter.symm, List.map_nil, extended_nil]
      · rename_i hgo
        have hkept : kept (fun r => decide (argmax r.logits ∉ eosIds)) rows ≠ [] := fun hnil => hgo (.inr hnil)
        have hlen := length_kept (fun r => decide (argmax r.logits ∉ eosIds)) rows
        have hactive' : kept (fun r => decide (argmax r.logits ∉ eosIds)) rows = [] ↔
            (rows.filter fun r => decide (argmax r.logits ∉ eosIds)).map (advanced rowModel argmax (T + step)) = [] := by
          rw [← List.length_eq_zero_iff, ← List.length_eq_zero_iff, List.length_map, hlen]
        have hsessions : ((rows.filter fun r => decide (argmax r.logits ∉ eosIds)).map
            (advanced rowModel argmax (T + step))).map Row.session =
              (rows.filter fun r => decide (argmax r.logits ∉ eosIds)).map Row.session := List.map_map
        have hnodup' : (((rows.filter fun r => decide (argmax r.logits ∉ eosIds)).map
            (advanced rowModel argmax (T + step))).map Row.session).Nodup := by
          rw [hsessions]
          exact hnodup.sublist (List.filter_sublist.map _)
        have hrest := ih (step + 1) _ hnodup' _ hactive' (extended rows (fun r => [argmax r.logits]) gen)
        rw [hsessions, List.map_map, List.map_map, show T + ((step + 1 : Nat) : Int) = T + step + 1 by omega] at hrest
        split
        · rw [indexSelect_kept, indexSelect_kept, indexSelect_stack]
          exact hrest
        · rename_i hall
          have hsame : rows.filter (fun r => decide (argmax r.logits ∉ eosIds)) = rows :=
            List.filter_eq_self.mpr (List.length_filter_eq_length_iff.mp (hlen.symm.trans (not_not.mp hall)))
          rw [hsame] at hrest ⊢
          exact hrest

end

/-! ### The cohort -/

/-- The rows of a cohort before the first step. -/
def rowsOf (adapters : List (Adapter κ Λ n)) (pasts : List (Fin n → κ × κ)) : List (Row κ Λ n) :=
  (adapters.zip pasts).zipIdx.map fun a => ⟨a.2, a.1.1.nextTokenLogits, a.1.2⟩

theorem rowOf_eq_some {rows : List (Row κ Λ n)} (hnodup : (rows.map Row.session).Nodup) {s : Nat} {r : Row κ Λ n} :
    rowOf rows s = some r ↔ r ∈ rows ∧ r.session = s := by
  constructor
  · intro h
    exact ⟨List.mem_of_find?_eq_some h, by simpa using List.find?_some h⟩
  · rintro ⟨hr, rfl⟩
    rcases hfind : rowOf rows r.session with _ | r'
    · rw [rowOf, List.find?_eq_none] at hfind
      exact absurd (beq_self_eq_true r.session) (hfind r hr)
    · have hsession : r'.session = r.session := by simpa using List.find?_some hfind
      rw [List.inj_on_of_nodup_map hnodup (List.mem_of_find?_eq_some hfind) hr hsession]

/-- The lengths of a cohort are one. -/
theorem dedup_length {lengths : List Int} {T : Int} (hmem : T ∈ lengths) :
    lengths.dedup.length = 1 ↔ ∀ t ∈ lengths, t = T := by
  constructor
  · intro h t ht
    obtain ⟨u, hu⟩ := List.length_eq_one_iff.mp h
    have ht' := List.mem_dedup.mpr ht
    have hT' := List.mem_dedup.mpr hmem
    rw [hu, List.mem_singleton] at ht' hT'
    rw [ht', hT']
  · intro h
    have hsub : lengths.dedup ⊆ [T] := fun t ht => List.mem_singleton.mpr (h t (List.mem_dedup.mp ht))
    have hle := (List.subperm_of_subset (List.nodup_dedup lengths) hsub).length_le
    have hpos := List.length_pos_of_mem (List.mem_dedup.mpr hmem)
    rw [List.length_singleton] at hle
    omega

/-- The batch of a cohort that is stacked. -/
theorem decodeLoop_cohort {model : List Token → List Int → Int → (Fin n → Layer κ) → List Λ × (Fin n → Layer κ)}
    {rowModel : RowModel κ Λ n} (h : RowWise model rowModel) (argmax : Λ → Token) (eosIds : List Token)
    {adapters : List (Adapter κ Λ n)} {pasts : List (Fin n → κ × κ)}
    (hpasts : adapters.map Adapter.past = pasts.map some) {T : Int} (hT : ∀ a ∈ adapters, a.pastLen = T) (maxTokens : Int) :
    decodeLoop model argmax eosIds T maxTokens.toNat 0 (adapters.map Adapter.nextTokenLogits) (stack pasts)
        (List.range adapters.length) (List.range adapters.length) (adapters.map fun _ => []) =
      adapters.map (solo argmax eosIds rowModel maxTokens) := by
  have hlength : adapters.length = pasts.length := by simpa using congrArg List.length hpasts
  have hfst : ((adapters.zip pasts).zipIdx.map (·.1)).map (·.1) = adapters := by
    rw [List.zipIdx_map_fst, List.map_fst_zip (by omega)]
  have hsnd : ((adapters.zip pasts).zipIdx.map (·.1)).map (·.2) = pasts := by
    rw [List.zipIdx_map_fst, List.map_snd_zip (by omega)]
  have hlogits : (rowsOf adapters pasts).map Row.logits = adapters.map Adapter.nextTokenLogits := by
    unfold rowsOf
    conv => rhs; rw [← hfst]
    rw [List.map_map, List.map_map, List.map_map]
    rfl
  have hcaches : (rowsOf adapters pasts).map Row.cache = pasts := by
    unfold rowsOf
    conv => rhs; rw [← hsnd]
    rw [List.map_map, List.map_map]
    rfl
  have hsessions : (rowsOf adapters pasts).map Row.session = List.range adapters.length := by
    unfold rowsOf
    rw [List.map_map, show Row.session ∘ (fun a : (Adapter κ Λ n × (Fin n → κ × κ)) × Nat =>
      (⟨a.2, a.1.1.nextTokenLogits, a.1.2⟩ : Row κ Λ n)) = Prod.snd from rfl, List.zipIdx_map_snd, List.length_zip,
      hlength, Nat.min_self, List.range_eq_range']
  have hnodup : ((rowsOf adapters pasts).map Row.session).Nodup := by
    rw [hsessions]
    exact List.nodup_range
  have hactive : List.range adapters.length = [] ↔ rowsOf adapters pasts = [] := by
    rw [← hsessions, List.map_eq_nil_iff]
  have hloop := @decodeLoop_spec _ _ _ _ argmax eosIds _ h T maxTokens.toNat 0 (rowsOf adapters pasts) hnodup _ hactive
    (adapters.map fun _ => [])
  rw [hlogits, hcaches, hsessions] at hloop
  rw [hloop]
  refine List.ext_getElem? fun s => ?_
  unfold extended
  rw [List.getElem?_mapIdx, List.getElem?_map, List.getElem?_map]
  rcases hs : adapters[s]? with _ | a
  · rfl
  · have hpast : (adapters.map Adapter.past)[s]? = some a.past := by rw [List.getElem?_map, hs]; rfl
    rw [hpasts, List.getElem?_map, Option.map_eq_some_iff] at hpast
    obtain ⟨c, hc, hac⟩ := hpast
    have hzip : (adapters.zip pasts)[s]? = some (a, c) := List.getElem?_zip_eq_some.mpr ⟨hs, hc⟩
    have hrow : rowOf (rowsOf adapters pasts) s = some ⟨s, a.nextTokenLogits, c⟩ := by
      refine (rowOf_eq_some hnodup).mpr ⟨?_, rfl⟩
      exact List.mem_map.mpr ⟨((a, c), s), List.mem_zipIdx_iff_getElem?.mpr hzip, rfl⟩
    rw [hrow]
    have hsolo : solo argmax eosIds rowModel maxTokens a =
        greedyDecode argmax eosIds rowModel maxTokens.toNat a.pastLen a.nextTokenLogits c := by
      unfold solo
      rw [← hac]
    rw [Option.map_some, Option.map_some, Option.map_some, Option.map_some, hsolo, hT a (List.mem_of_getElem? hs)]
    simp

/-- What is stacked is the caches of prefilled adapters of one length. -/
theorem stackCaches_eq_ok {first : Adapter κ Λ n} {rest : List (Adapter κ Λ n)} {cache : Fin n → Layer κ} :
    stackCaches (first :: rest) = .ok cache ↔ ∃ pasts, (first :: rest).mapM Adapter.past = some pasts ∧
      (∀ a ∈ first :: rest, a.pastLen = first.pastLen) ∧ cache = stack pasts := by
  have hdedup : ((first :: rest).map Adapter.pastLen).dedup.length = 1 ↔ ∀ a ∈ first :: rest, a.pastLen = first.pastLen := by
    rw [dedup_length (List.mem_map_of_mem List.mem_cons_self), List.forall_mem_map]
  unfold stackCaches
  rcases hpasts : (first :: rest).mapM Adapter.past with _ | pasts
  · simp
  · dsimp only
    rw [← hdedup]
    by_cases hone : ((first :: rest).map Adapter.pastLen).dedup.length = 1
    · rw [if_neg (not_not.mpr hone)]
      constructor
      · intro h
        exact ⟨pasts, rfl, hone, (Except.ok.inj h).symm⟩
      · rintro ⟨pasts', heq, -, rfl⟩
        rw [Option.some.inj heq]
    · rw [if_pos hone]
      constructor
      · intro h
        cases h
      · rintro ⟨-, -, h, -⟩
        exact absurd h hone

/-- `run_cohort` gives every session the tokens of its own greedy decode, and it runs on every cohort of prefilled adapters
of one length. -/
theorem cohort_equals_solo {model : List Token → List Int → Int → (Fin n → Layer κ) → List Λ × (Fin n → Layer κ)}
    {rowModel : RowModel κ Λ n} (h : RowWise model rowModel) (argmax : Λ → Token) (eosIds : List Token)
    (adapters : List (Adapter κ Λ n)) (maxTokens : Int) :
    (∀ r, runCohort model argmax eosIds adapters maxTokens = .ok r →
      r.tokens = adapters.map (solo argmax eosIds rowModel maxTokens)) ∧
    ((∀ a ∈ adapters, a.past ≠ none) → (∀ a ∈ adapters, ∀ b ∈ adapters, a.pastLen = b.pastLen) →
      ∃ r, runCohort model argmax eosIds adapters maxTokens = .ok r) := by
  cases adapters with
  | nil =>
    constructor
    · intro r hr
      obtain rfl := Except.ok.inj hr
      rfl
    · intro _ _
      exact ⟨_, rfl⟩
  | cons first rest =>
    constructor
    · intro r hr
      obtain ⟨cache, hcache, hr⟩ := Fallible.bind_eq_ok.mp hr
      obtain ⟨pasts, hpasts, hT, rfl⟩ := stackCaches_eq_ok.mp hcache
      obtain rfl := Except.ok.inj hr
      exact decodeLoop_cohort h argmax eosIds (Fallible.map_of_mapM hpasts) hT maxTokens
    · intro hprefilled hlengths
      have hmapM : ∃ pasts, (first :: rest).mapM Adapter.past = some pasts := by
        generalize first :: rest = adapters at hprefilled
        induction adapters with
        | nil => exact ⟨[], rfl⟩
        | cons a adapters ih =>
          rw [List.forall_mem_cons] at hprefilled
          obtain ⟨c, hc⟩ := Option.ne_none_iff_exists'.mp hprefilled.1
          obtain ⟨pasts, hpasts⟩ := ih hprefilled.2
          exact ⟨c :: pasts, by rw [List.mapM_cons, hc, hpasts]; rfl⟩
      obtain ⟨pasts, hpasts⟩ := hmapM
      have hcache := stackCaches_eq_ok.mpr ⟨pasts, hpasts, fun a ha => hlengths a ha first List.mem_cons_self, rfl⟩
      exact ⟨_, Fallible.bind_eq_ok.mpr ⟨_, hcache, rfl⟩⟩

/-- A model whose cache is the sum of the tokens so far, and whose next token is that sum and the token. -/
def sumRow : RowModel Int Int 1 := fun tok _ _ cache =>
  ((cache 0).1 + tok, fun _ => ((cache 0).1 + tok, (cache 0).2))

/-- The batch of `sumRow`. -/
def sumBatch (toks poss : List Int) (cachePosition : Int) (cache : Fin 1 → Layer Int) : List Int × (Fin 1 → Layer Int) :=
  let out := (toks.zip (poss.zip ((cache 0).keys.zip (cache 0).values))).map fun r =>
    sumRow r.1 r.2.1 cachePosition fun _ => r.2.2
  (out.map (·.1), stack (out.map (·.2)))

theorem sumBatch_rowWise : RowWise sumBatch sumRow := by
  intro rows cachePosition
  have hzip : (rows.map fun r => r.1).zip ((rows.map fun r => r.2.1).zip
      ((rows.map fun r => (r.2.2 0).1).zip (rows.map fun r => (r.2.2 0).2))) =
        rows.map fun r => (r.1, r.2.1, r.2.2 0) := by
    induction rows with
    | nil => rfl
    | cons r rows ih => exact congrArg _ ih
  simp only [sumBatch, stack, List.map_map, Function.comp_def]
  rw [hzip]
  simp only [List.map_map, Function.comp_def]
  rfl

theorem cohort_three_rows :
    ∃ r, runCohort sumBatch id [5] [⟨some fun _ => (1, 0), 3, 2⟩, ⟨some fun _ => (4, 0), 3, 1⟩, ⟨some fun _ => (0, 0), 3, 1⟩] 3 =
        .ok r ∧
      r.tokens = [[2, 3, 6], [1, 5], [1, 1, 2]] := by
  have hcohort := cohort_equals_solo sumBatch_rowWise id [5]
    [⟨some fun _ => (1, 0), 3, 2⟩, ⟨some fun _ => (4, 0), 3, 1⟩, ⟨some fun _ => (0, 0), 3, 1⟩] 3
  obtain ⟨r, hr⟩ := hcohort.2 (by simp) (by simp)
  exact ⟨r, hr, (hcohort.1 r hr).trans (by decide)⟩

end Cohort

end KakeyaEngine
