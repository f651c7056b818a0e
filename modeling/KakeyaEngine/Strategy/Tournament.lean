import KakeyaEngine.Lib.SortOn
import Mathlib.Data.Int.Order.Basic
import Mathlib.Data.Prod.Lex
import Mathlib.Data.Set.Finite.List
import Mathlib.Data.String.Basic
import Mathlib.Order.Preorder.Finite
import Mathlib.Data.Int.ConditionallyCompleteOrder
import Mathlib.Order.ConditionallyCompleteLattice.Basic

/-!
# The strategy tournament

Of the plans that are feasible, those that no other feasible plan dominates form the frontier.  The tournament selects
the first plan of the frontier in the order of the critic, and one that the critic does not name comes after those that
it names, in the order of a score.  Dominance is the strict order of the product of the five criteria, so a finite list
with a feasible plan has a frontier.
-/

namespace KakeyaEngine

namespace Strategy

/-! ### Decisions -/

/-- The keys of `score_explanation`. -/
structure ScoreExplanation where
  informationGain : Int
  theoremSupport : Int
  strictReduction : Int
  complexity : Int
  risk : Int
deriving DecidableEq

/-- `FeasibilityDecision`. -/
structure FeasibilityDecision where
  planId : String
  feasible : Bool
  reasonCodes : List String
  deterministicScore : Int × Int × Int × Int × Int
  scoreExplanation : ScoreExplanation
deriving DecidableEq

/-- The criteria of which more is better. -/
def maximize : List (ScoreExplanation → Int) :=
  [ScoreExplanation.informationGain, ScoreExplanation.theoremSupport, ScoreExplanation.strictReduction]

/-- The criteria of which less is better. -/
def minimize : List (ScoreExplanation → Int) := [ScoreExplanation.complexity, ScoreExplanation.risk]

/-- `_dominates`. -/
def dominates (left right : FeasibilityDecision) : Bool :=
  let a := left.scoreExplanation
  let b := right.scoreExplanation
  let noWorse := maximize.all (fun key => decide (key a ≥ key b)) && minimize.all fun key => decide (key a ≤ key b)
  let better := maximize.any (fun key => decide (key a > key b)) || minimize.any fun key => decide (key a < key b)
  noWorse && better

/-- The key by which the plans are sorted that the critic does not name. -/
def rankKey (d : FeasibilityDecision) : Int ×ₗ Int ×ₗ Int ×ₗ Int ×ₗ Int ×ₗ String :=
  let (gain, support, reduction, complexity, risk) := d.deterministicScore
  toLex (gain, toLex (support, toLex (reduction, toLex (complexity, toLex (risk, d.planId)))))

/-! ### The tournament -/

/-- `StrategyEvent`. -/
inductive StrategyEvent
  | initialBranch
  | confirmedBranchFailure
  | premiseInvalidation
  | targetChange
  | mathematicalStagnation

/-- The value of an event. -/
def StrategyEvent.value : StrategyEvent → String
  | .initialBranch => "INITIAL_BRANCH"
  | .confirmedBranchFailure => "CONFIRMED_BRANCH_FAILURE"
  | .premiseInvalidation => "PREMISE_INVALIDATION"
  | .targetChange => "TARGET_CHANGE"
  | .mathematicalStagnation => "MATHEMATICAL_STAGNATION"

/-- `CriticReason`. -/
inductive CriticReason
  | maximizesInformationGain
  | strongestTheoremSupport
  | lowestComplexity
  | lowestRisk
  | strictestReduction

/-- The value of a reason. -/
def CriticReason.value : CriticReason → String
  | .maximizesInformationGain => "MAXIMIZES_INFORMATION_GAIN"
  | .strongestTheoremSupport => "STRONGEST_THEOREM_SUPPORT"
  | .lowestComplexity => "LOWEST_COMPLEXITY"
  | .lowestRisk => "LOWEST_RISK"
  | .strictestReduction => "STRICTEST_REDUCTION"

/-- The values of `PlanClass`. -/
def planClasses : List String :=
  ["DIRECT_PROOF", "DISPROOF_OR_COUNTEREXAMPLE", "REDUCTION_TO_KNOWN_RESULT", "REFRAME_DEFINITIONS_OR_REPRESENTATION"]

/-- What the hash of a tournament is taken of, beside `TOURNAMENT_VERSION`. -/
structure Canonical (Plan : Type) where
  eventId : String
  eventType : String
  plans : List Plan
  decisions : List FeasibilityDecision
  pareto : List String
  criticRanking : List String
  criticReasons : List String
  selected : String

/-- `TournamentResult`. -/
structure TournamentResult (Plan : Type) where
  eventId : String
  eventType : String
  plans : List Plan
  decisions : List FeasibilityDecision
  paretoPlanIds : List String
  criticRankedPlanIds : List String
  criticReasonCodes : List String
  selectedPlanId : String
  contentHash : String

/-- The feasible decisions. -/
def feasibleOf (decisions : List FeasibilityDecision) : List FeasibilityDecision := decisions.filter (·.feasible)

/-- The plans that no other feasible plan dominates. -/
def frontierOf (feasible : List FeasibilityDecision) : List String :=
  ((feasible.filter fun item => !(feasible.any fun other => decide (other ≠ item) && dominates other item)).map
    (·.planId)).mergeSort fun a b => decide (a ≤ b)

/-- The feasible plans in the order of the critic, and behind them the others by their score. -/
def rankedOf (feasible : List FeasibilityDecision) (requested : List String) : List String :=
  let feasibleIds := feasible.map (·.planId)
  let ranked := requested.filter fun item => decide (item ∈ feasibleIds)
  ranked ++ ((feasible.mergeSort fun a b => decide (rankKey a ≤ rankKey b)).filter fun item =>
    decide (item.planId ∉ ranked)).map (·.planId)

/-- The first ranked plan of the frontier. -/
def selectedOf (ranked frontier : List String) : String := (ranked.find? fun item => decide (item ∈ frontier)).getD ""

section

variable {Plan : Type} (planClass : Plan → String) (digest : Canonical Plan → String)

/-- `run_tournament`.  A plan is read for its class only, and `digest` is `_digest`. -/
def runTournament (eventId : String) (eventType : StrategyEvent) (plans : List Plan)
    (decisions : List FeasibilityDecision) (criticRankedPlanIds : List String)
    (criticReasonCodes : List CriticReason) : Except String (TournamentResult Plan) :=
  let classes := plans.map planClass
  if planClasses ⊆ classes ∧ classes ⊆ planClasses then
    let feasible := feasibleOf decisions
    let frontier := frontierOf feasible
    let ranked := rankedOf feasible criticRankedPlanIds
    let selected := selectedOf ranked frontier
    let reasons := criticReasonCodes.map (·.value)
    .ok ⟨eventId, eventType.value, plans, decisions, frontier, ranked, reasons, selected,
      digest ⟨eventId, eventType.value, plans, decisions, frontier, ranked, reasons, selected⟩⟩
  else .error "TOURNAMENT_REQUIRES_FOUR_INDEPENDENT_PLAN_CLASSES"

end

/-! ### Dominance -/

/-- The criteria of a decision, each so that more is better. -/
def criteria (d : FeasibilityDecision) : Int × Int × Int × Int × Int :=
  let e := d.scoreExplanation
  (e.informationGain, e.theoremSupport, e.strictReduction, -e.complexity, -e.risk)

/-- Dominance is the strict order of the criteria. -/
theorem dominates_iff (left right : FeasibilityDecision) : dominates left right = true ↔ criteria right < criteria left := by
  simp only [dominates, maximize, minimize, criteria, List.all_cons, List.all_nil, List.any_cons, List.any_nil,
    Bool.and_eq_true, Bool.or_eq_true, decide_eq_true_eq, Bool.and_true, Bool.or_false, lt_iff_le_not_ge, Prod.le_def]
  omega

/-- A feasible plan that no feasible plan dominates. -/
structure Undominated (decisions : List FeasibilityDecision) (d : FeasibilityDecision) : Prop where
  mem : d ∈ decisions
  feasible : d.feasible = true
  undominated : ∀ other ∈ decisions, other.feasible = true → dominates other d = false

theorem mem_feasibleOf {decisions : List FeasibilityDecision} {d : FeasibilityDecision} :
    d ∈ feasibleOf decisions ↔ d ∈ decisions ∧ d.feasible = true := List.mem_filter

/-- A finite list with a feasible plan has a frontier. -/
theorem exists_undominated {decisions : List FeasibilityDecision} (h : ∃ d ∈ decisions, d.feasible = true) :
    ∃ d, Undominated decisions d := by
  obtain ⟨d, hd, hf⟩ := h
  obtain ⟨m, hm, hmax⟩ := Set.Finite.exists_maximalFor criteria {d | d ∈ feasibleOf decisions}
    (List.finite_toSet _) ⟨d, mem_feasibleOf.mpr ⟨hd, hf⟩⟩
  obtain ⟨hmem, hfeas⟩ := mem_feasibleOf.mp hm
  refine ⟨m, hmem, hfeas, fun other ho hof => ?_⟩
  rw [Bool.eq_false_iff, Ne, dominates_iff]
  exact fun hlt => hlt.not_ge (hmax (mem_feasibleOf.mpr ⟨ho, hof⟩) hlt.le)

theorem mem_frontierOf {decisions : List FeasibilityDecision} {p : String} :
    p ∈ frontierOf (feasibleOf decisions) ↔ ∃ d, Undominated decisions d ∧ d.planId = p := by
  have hself : ∀ d, dominates d d = false := fun d => by
    rw [Bool.eq_false_iff, Ne, dominates_iff]
    exact lt_irrefl _
  simp only [frontierOf, List.mem_mergeSort, List.mem_map, List.mem_filter, mem_feasibleOf, Bool.not_eq_true',
    List.any_eq_false, Bool.and_eq_true, decide_eq_true_eq, not_and, Bool.not_eq_true]
  constructor
  · rintro ⟨d, ⟨⟨hd, hf⟩, hno⟩, rfl⟩
    refine ⟨d, ⟨hd, hf, fun other ho hof => ?_⟩, rfl⟩
    by_cases heq : other = d
    · rw [heq]
      exact hself d
    · exact hno other ⟨ho, hof⟩ heq
  · rintro ⟨d, ⟨hd, hf, hno⟩, rfl⟩
    exact ⟨d, ⟨⟨hd, hf⟩, fun other ho _ => hno other ho.1 ho.2⟩, rfl⟩

/-! ### The selection -/

/-- The plan that a tournament is to select: the first of the frontier in the order of the critic, or else the one with
the least score and id. -/
def Selects (decisions : List FeasibilityDecision) (requested : List String) (d : FeasibilityDecision) : Prop :=
  Undominated decisions d ∧
    ((∃ before after, requested = before ++ d.planId :: after ∧
        ∀ p ∈ before, ∀ e, Undominated decisions e → e.planId ≠ p) ∨
      (∀ p ∈ requested, ∀ e, Undominated decisions e → e.planId ≠ p) ∧
        ∀ e, Undominated decisions e → rankKey d ≤ rankKey e)

/-- The frontier is feasible, so a ranking that is searched for it may as well name plans that are not. -/
theorem find?_requested (decisions : List FeasibilityDecision) (requested : List String) :
    (requested.filter fun item => decide (item ∈ (feasibleOf decisions).map (·.planId))).find?
        (fun item => decide (item ∈ frontierOf (feasibleOf decisions))) =
      requested.find? fun item => decide (item ∈ frontierOf (feasibleOf decisions)) := by
  have hfeas : ∀ p, p ∈ frontierOf (feasibleOf decisions) → p ∈ (feasibleOf decisions).map (·.planId) := by
    intro p hp
    obtain ⟨d, hd, rfl⟩ := mem_frontierOf.mp hp
    exact List.mem_map_of_mem (mem_feasibleOf.mpr ⟨hd.mem, hd.feasible⟩)
  rw [List.find?_filter]
  congr 1
  funext p
  by_cases hp : p ∈ frontierOf (feasibleOf decisions)
  · simp [hp, hfeas p hp]
  · simp [hp]

/-- With a feasible plan, the tournament selects one of the frontier. -/
theorem selects_selectedOf {decisions : List FeasibilityDecision} (hids : (decisions.map (·.planId)).Nodup)
    (hfeas : ∃ d ∈ decisions, d.feasible = true) (requested : List String) :
    ∃ d, Selects decisions requested d ∧
      selectedOf (rankedOf (feasibleOf decisions) requested) (frontierOf (feasibleOf decisions)) = d.planId := by
  have hF : ∀ p, p ∈ frontierOf (feasibleOf decisions) ↔ ∃ d, Undominated decisions d ∧ d.planId = p :=
    fun _ => mem_frontierOf
  have hreq := find?_requested decisions requested
  simp only [selectedOf, rankedOf, List.find?_append, hreq]
  cases hfind : requested.find? fun item => decide (item ∈ frontierOf (feasibleOf decisions)) with
  | some p =>
    obtain ⟨hp, before, after, heq, hno⟩ := List.find?_eq_some_iff_append.mp hfind
    obtain ⟨d, hd, rfl⟩ := (hF p).mp (of_decide_eq_true hp)
    refine ⟨d, ⟨hd, Or.inl ⟨before, after, heq, fun q hq e he heq => ?_⟩⟩, rfl⟩
    have := hno q hq
    simp [(hF q).mpr ⟨e, he, heq⟩] at this
  | none =>
    have hnone : ∀ q ∈ requested, ∀ e, Undominated decisions e → e.planId ≠ q := by
      intro q hq e he heq
      have := List.find?_eq_none.mp hfind q hq
      simp [(hF q).mpr ⟨e, he, heq⟩] at this
    have hcand : ∀ e, Undominated decisions e →
        e ∈ feasibleOf decisions ∧ (decide (decide (e.planId ∉ requested.filter fun item =>
          decide (item ∈ (feasibleOf decisions).map (·.planId))) = true ∧
            decide (e.planId ∈ frontierOf (feasibleOf decisions)) = true)) = true := by
      intro e he
      refine ⟨mem_feasibleOf.mpr ⟨he.mem, he.feasible⟩, ?_⟩
      simp only [decide_eq_true_eq]
      exact ⟨fun hmem => hnone _ (List.mem_of_mem_filter hmem) e he rfl, (hF _).mpr ⟨e, he, rfl⟩⟩
    simp only [Option.none_or, List.find?_map, List.find?_filter, Function.comp_apply]
    cases hrest : ((feasibleOf decisions).mergeSort fun a b => decide (rankKey a ≤ rankKey b)).find? _ with
    | none =>
      obtain ⟨e, he⟩ := exists_undominated hfeas
      have := SortOn.find?_sortOn_eq_none hrest e (hcand e he).1
      rw [(hcand e he).2] at this
      exact nomatch this
    | some d =>
      obtain ⟨hmem, hp, hleast⟩ := SortOn.find?_sortOn hrest
      simp only [decide_eq_true_eq] at hp
      obtain ⟨e, he, heq⟩ := (hF _).mp hp.2
      obtain rfl : e = d := List.inj_on_of_nodup_map hids he.mem (mem_feasibleOf.mp hmem).1 heq
      exact ⟨e, ⟨he, Or.inr ⟨hnone, fun e' he' => hleast e' (hcand e' he').1 (hcand e' he').2⟩⟩, rfl⟩

/-- Without a feasible plan, the tournament selects none. -/
theorem selectedOf_of_infeasible {decisions : List FeasibilityDecision} (h : ∀ d ∈ decisions, d.feasible = false)
    (requested : List String) :
    selectedOf (rankedOf (feasibleOf decisions) requested) (frontierOf (feasibleOf decisions)) = "" := by
  have hnil : feasibleOf decisions = [] := by
    refine List.filter_eq_nil_iff.mpr fun d hd => ?_
    rw [h d hd]
    exact Bool.false_ne_true
  simp [hnil, selectedOf, rankedOf]

theorem frontierOf_perm {feasible feasible' : List FeasibilityDecision} (h : feasible.Perm feasible') :
    frontierOf feasible = frontierOf feasible' := by
  have hany : ∀ q : FeasibilityDecision → Bool, feasible.any q = feasible'.any q := by
    intro q
    rw [Bool.eq_iff_iff, List.any_eq_true, List.any_eq_true]
    simp only [h.mem_iff]
  unfold frontierOf
  simp only [hany]
  exact SortOn.sortOn_perm ((h.filter _).map _) fun a _ b _ (hab : a = b) => hab

theorem rankedOf_perm {feasible feasible' : List FeasibilityDecision} (h : feasible.Perm feasible')
    (hids : (feasible.map (·.planId)).Nodup) (requested : List String) :
    rankedOf feasible requested = rankedOf feasible' requested := by
  have hmem : ∀ p, p ∈ feasible.map (·.planId) ↔ p ∈ feasible'.map (·.planId) := fun p => (h.map _).mem_iff
  have hkey : ∀ a b : FeasibilityDecision, rankKey a = rankKey b → a.planId = b.planId := by
    intro a b hab
    simp only [rankKey, EmbeddingLike.apply_eq_iff_eq, Prod.mk.injEq] at hab
    exact hab.2.2.2.2.2
  have hsort := SortOn.sortOn_perm h fun a ha b hb hab => List.inj_on_of_nodup_map hids ha hb (hkey a b hab)
  unfold rankedOf
  simp only [hmem, hsort]

section

variable {Plan : Type} {planClass : Plan → String} {digest : Canonical Plan → String}

theorem selectedPlanId_of_ok {eventId : String} {eventType : StrategyEvent} {plans : List Plan}
    {decisions : List FeasibilityDecision} {requested : List String} {reasons : List CriticReason}
    {r : TournamentResult Plan}
    (h : runTournament planClass digest eventId eventType plans decisions requested reasons = .ok r) :
    r.selectedPlanId =
      selectedOf (rankedOf (feasibleOf decisions) requested) (frontierOf (feasibleOf decisions)) := by
  unfold runTournament at h
  dsimp only at h
  split at h
  · cases h
    rfl
  · cases h

variable (planClass digest) in
theorem exists_runTournament (eventId : String) (eventType : StrategyEvent) {plans : List Plan}
    (hplans : plans.map planClass = planClasses) (decisions : List FeasibilityDecision) (requested : List String)
    (reasons : List CriticReason) :
    ∃ r, runTournament planClass digest eventId eventType plans decisions requested reasons = .ok r := by
  unfold runTournament
  dsimp only
  rw [hplans, if_pos ⟨List.Subset.refl _, List.Subset.refl _⟩]
  exact ⟨_, rfl⟩

end

/-- The decision about a plan with the given id. -/
def feasibleDecision (planId : String) : FeasibilityDecision :=
  ⟨planId, true, ["FEASIBLE"], (-3, -1, -1, 4, 2), ⟨3, 1, 1, 4, 2⟩⟩

end Strategy

end KakeyaEngine
