import KakeyaEngine.Lib.Dfs
import KakeyaEngine.Lib.Fallible
import KakeyaEngine.Orchestration.Document

/-!
# Proof plans

A plan is a list of nodes with dependencies among them.  `validateProofPlan` accepts a plan whose dependencies are closed and
without a cycle, in any order of the nodes.  `firstExecutableNode` goes through the list once and counts every node that it
passes as completed.
-/

namespace KakeyaEngine

namespace Planning

open Orchestration (CheckpointError)

/-- `GraphNode`, without its provenance, which no function here reads. -/
structure GraphNode where
  nodeId : String
  kind : String
  verificationStatus : String
  attributes : Dict String PyValue

/-- `EvidenceGapGraph`, without its edges. -/
structure EvidenceGapGraph where
  nodes : List GraphNode
  contentHash : String

/-- `by_id`. -/
def EvidenceGapGraph.byId (graph : EvidenceGapGraph) : Dict String GraphNode :=
  Dict.ofEntries (graph.nodes.map fun node => (node.nodeId, node))

/-- `ProofPlanNode`. -/
structure ProofPlanNode where
  planNodeId : String
  graphNodeId : String
  dependencyNodeIds : List String
deriving DecidableEq

/-- `ProofPlan`, as far as it is read. -/
structure ProofPlan where
  nodes : List ProofPlanNode
  caseExhaustivenessClaims : List String
  graphHash : String

/-- `plan_nodes`. -/
def ProofPlan.planNodes (plan : ProofPlan) : Dict String ProofPlanNode :=
  Dict.ofEntries (plan.nodes.map fun node => (node.planNodeId, node))

/-- The dependencies of a node of the plan. -/
def ProofPlan.dependencies (plan : ProofPlan) (nodeId : String) : List String :=
  ((plan.planNodes.get? nodeId).map (·.dependencyNodeIds)).getD []

/-! ### Validation -/

/-- A check that raises `ValueError`. -/
def require (condition : Bool) (message : String) : Except CheckpointError Unit :=
  if condition then .ok () else .error (.valueError message)

/-- A loop that checks every item. -/
def checkEach {α : Type} (check : α → Except CheckpointError Unit) : List α → Except CheckpointError Unit
  | [] => .ok ()
  | a :: as => do
    check a
    checkEach check as

/-- The checks of the first loop. -/
def checkClosure (graphNodes : Dict String GraphNode) (planNodes : Dict String ProofPlanNode) (node : ProofPlanNode) :
    Except CheckpointError Unit := do
  require (graphNodes.contains node.graphNodeId) "UNREGISTERED_PROOF_PLAN_GRAPH_NODE"
  require (node.dependencyNodeIds.all fun item => planNodes.contains item) "PROOF_PLAN_DEPENDENCY_CLOSURE"

/-- The loop over `visit`. -/
def checkAcyclic (plan : ProofPlan) : Except CheckpointError Unit :=
  match Dfs.visitAll (Dfs.visit plan.dependencies (plan.planNodes.keys.length + 1) []) [] plan.planNodes.keys with
  | .ok _ => .ok ()
  | .error .cycle => .error (.valueError "CYCLIC_PROOF_PLAN")
  | .error .outOfFuel => .error (.valueError "")

/-- A property of the graph node of a plan node, which the first loop has found. -/
def ofGraphNode (graphNodes : Dict String GraphNode) (p : GraphNode → Bool) (node : ProofPlanNode) : Bool :=
  (graphNodes.get? node.graphNodeId).any p

/-- The check of a case exhaustiveness claim. -/
def checkClaim (graphNodes : Dict String GraphNode) (claim : String) : Except CheckpointError Unit :=
  require ((graphNodes.get? claim).any fun node => ((node.attributes.get? "exhaustive").getD (.bool false)).truthy)
    "CASE_EXHAUSTIVENESS_NOT_VERIFIED"

section

variable (u : Auth.Unicode) (quote : String → String)

/-- The checks of the last loop. -/
def checkMetric (graphNodes : Dict String GraphNode) (node : ProofPlanNode) : Except CheckpointError Unit := do
  let attrs := ((graphNodes.get? node.graphNodeId).map (·.attributes)).getD Dict.empty
  let child ← Orchestration.toInt u ((attrs.get? "metric_child").getD (.int 0))
  let parent ← Orchestration.toInt u ((attrs.get? "metric_parent").getD (.int 0))
  require (decide (child < parent)) "PROOF_PLAN_NOT_STRICTLY_SIMPLER"
  let cards ← Orchestration.iterate ((attrs.get? "theorem_card_ids").getD (.list []))
  checkEach (fun card => require ((graphNodes.get? ("theorem:" ++ card.text quote)).any fun node =>
    decide (node.verificationStatus = "VERIFIED")) "THEOREM_CARD_NOT_VERIFIED") cards

/-- `validate_proof_plan`. -/
def validateProofPlan (graph : EvidenceGapGraph) (plan : ProofPlan) : Except CheckpointError Unit := do
  require (decide (plan.graphHash = graph.contentHash)) "STALE_PROOF_PLAN_GRAPH_HASH"
  require (decide (plan.planNodes.size = plan.nodes.length)) "DUPLICATE_PROOF_PLAN_NODE"
  checkEach (checkClosure graph.byId plan.planNodes) plan.nodes
  checkAcyclic plan
  require (plan.nodes.all (ofGraphNode graph.byId fun node => decide (node.kind = "MOVE")))
    "PROOF_PLAN_NODE_NOT_EXECUTABLE_MOVE"
  require (plan.nodes.all (ofGraphNode graph.byId fun node => decide (node.verificationStatus = "VERIFIED")))
    "UNVERIFIED_PROOF_PLAN_NODE"
  checkEach (checkClaim graph.byId) plan.caseExhaustivenessClaims
  checkEach (checkMetric u quote graph.byId) plan.nodes

end

/-- The loop of `first_executable_node`. -/
def firstExecutable : (completed : List String) → List ProofPlanNode → Except CheckpointError ProofPlanNode
  | _, [] => .error (.valueError "NO_EXECUTABLE_PROOF_PLAN_NODE")
  | completed, node :: nodes =>
    if node.dependencyNodeIds ⊆ completed then .ok node else firstExecutable (node.planNodeId :: completed) nodes

/-- `first_executable_node`. -/
def firstExecutableNode (plan : ProofPlan) : Except CheckpointError ProofPlanNode := firstExecutable [] plan.nodes

/-! ### What an accepted plan satisfies -/

theorem require_eq_ok {condition : Bool} {message : String} : require condition message = .ok () ↔ condition = true := by
  unfold require
  split <;> simp_all

theorem checkEach_eq_ok {α : Type} {check : α → Except CheckpointError Unit} {l : List α} :
    checkEach check l = .ok () ↔ ∀ a ∈ l, check a = .ok () := by
  induction l with
  | nil => simp [checkEach]
  | cons a l ih =>
    rw [List.forall_mem_cons, ← ih]
    refine Fallible.bind_eq_ok.trans ?_
    exact ⟨fun ⟨_, h, h'⟩ => ⟨h, h'⟩, fun ⟨h, h'⟩ => ⟨(), h, h'⟩⟩

theorem mem_of_planNodes {plan : ProofPlan} {nodeId : String} {node : ProofPlanNode}
    (h : plan.planNodes.get? nodeId = some node) : node ∈ plan.nodes := by
  have hmem := Dict.mem_entries_update (Dict.mem_entries_iff.mpr h)
  rcases hmem with hmem | hmem
  · cases hmem
  · obtain ⟨m, hm, heq⟩ := List.mem_map.mp hmem
    obtain ⟨-, rfl⟩ := Prod.mk.inj heq
    exact hm

/-- The dependencies of a plan that passes the first loop are closed. -/
theorem dependencies_closed {graphNodes : Dict String GraphNode} {plan : ProofPlan}
    (h : checkEach (checkClosure graphNodes plan.planNodes) plan.nodes = .ok ()) :
    ∀ n ∈ plan.planNodes.keys, plan.dependencies n ⊆ plan.planNodes.keys := by
  intro n hn d hd
  obtain ⟨node, hnode⟩ := Dict.mem_keys_iff.mp hn
  have hcheck := checkEach_eq_ok.mp h node (mem_of_planNodes hnode)
  obtain ⟨_, -, hall⟩ := Fallible.bind_eq_ok.mp hcheck
  have hd' : d ∈ node.dependencyNodeIds := by
    simpa [ProofPlan.dependencies, hnode] using hd
  have hcontains := List.all_eq_true.mp (require_eq_ok.mp hall) d hd'
  exact Dict.mem_keys_iff.mpr (Option.isSome_iff_exists.mp hcontains)

/-- The search for a cycle has fuel enough. -/
theorem checkAcyclic_enough {plan : ProofPlan}
    (hclosed : ∀ n ∈ plan.planNodes.keys, plan.dependencies n ⊆ plan.planNodes.keys) :
    Dfs.visitAll (Dfs.visit plan.dependencies (plan.planNodes.keys.length + 1) []) [] plan.planNodes.keys ≠
      .error .outOfFuel := by
  refine Dfs.visitAll_ne_outOfFuel (fun visited n hn => ?_) []
  exact Dfs.visit_ne_outOfFuel hclosed List.nodup_nil (List.nil_subset _) hn (by simp)

section

variable {u : Auth.Unicode} {quote : String → String} {graph : EvidenceGapGraph} {plan : ProofPlan}

/-- An accepted plan that has a node has one without dependencies. -/
theorem exists_independent (h : validateProofPlan u quote graph plan = .ok ()) (hne : plan.nodes ≠ []) :
    ∃ node ∈ plan.nodes, node.dependencyNodeIds = [] := by
  simp only [validateProofPlan, Fallible.bind_eq_ok] at h
  obtain ⟨_, -, _, -, _, hloop, _, hacyclic, -⟩ := h
  have hclosed := dependencies_closed hloop
  have hkeys : plan.planNodes.keys ≠ [] := Dict.keys_ofEntries_ne_nil (by simpa using hne)
  unfold checkAcyclic at hacyclic
  split at hacyclic
  · rename_i visited hall
    obtain ⟨hext, hsub⟩ := Dfs.visitAll_ok Dfs.visit_ok hall
    obtain ⟨n, hn, hdeps⟩ := (hext.ordered Dfs.Ordered.nil).exists_source hsub hclosed hkeys
    obtain ⟨node, hnode⟩ := Dict.mem_keys_iff.mp hn
    refine ⟨node, mem_of_planNodes hnode, ?_⟩
    simpa [ProofPlan.dependencies, hnode] using hdeps
  · cases hacyclic
  · cases hacyclic

/-! ### The first executable node -/

/-- The loop skips what depends on a node that it has not passed. -/
def Skipped (completed : List String) (nodes : List ProofPlanNode) : Prop :=
  ∀ before node after, nodes = before ++ node :: after →
    ¬ node.dependencyNodeIds ⊆ before.map (·.planNodeId) ++ completed

theorem Skipped.cons {completed : List String} {node : ProofPlanNode} {nodes : List ProofPlanNode}
    (hnode : ¬ node.dependencyNodeIds ⊆ completed) (h : Skipped (node.planNodeId :: completed) nodes) :
    Skipped completed (node :: nodes) := by
  intro before m after heq
  cases before with
  | nil =>
    obtain ⟨rfl, -⟩ := List.cons.inj heq
    exact hnode
  | cons b before =>
    obtain ⟨rfl, hrest⟩ := List.cons.inj heq
    intro hsub
    refine h before m after hrest fun d hd => ?_
    have := hsub hd
    simp only [List.map_cons, List.cons_append, List.mem_cons, List.mem_append] at this ⊢
    rcases this with h | h | h
    · exact Or.inr (Or.inl h)
    · exact Or.inl h
    · exact Or.inr (Or.inr h)

/-- The loop returns the first node whose dependencies are all listed before it. -/
theorem firstExecutable_ok {completed : List String} {nodes : List ProofPlanNode} {node : ProofPlanNode}
    (h : firstExecutable completed nodes = .ok node) :
    ∃ before after, nodes = before ++ node :: after ∧
      node.dependencyNodeIds ⊆ before.map (·.planNodeId) ++ completed ∧ Skipped completed before := by
  induction nodes generalizing completed with
  | nil => cases h
  | cons m nodes ih =>
    unfold firstExecutable at h
    split at h
    · rename_i hsub
      cases h
      refine ⟨[], nodes, rfl, hsub, fun before m after heq => ?_⟩
      simp at heq
    · rename_i hsub
      obtain ⟨before, after, rfl, hdeps, hskip⟩ := ih h
      refine ⟨m :: before, after, rfl, fun d hd => ?_, hskip.cons hsub⟩
      have := hdeps hd
      simp only [List.map_cons, List.cons_append, List.mem_cons, List.mem_append] at this ⊢
      rcases this with h | h | h
      · exact Or.inr (Or.inl h)
      · exact Or.inl h
      · exact Or.inr (Or.inr h)

theorem firstExecutable_error {completed : List String} {nodes : List ProofPlanNode} {e : CheckpointError}
    (h : firstExecutable completed nodes = .error e) : Skipped completed nodes := by
  induction nodes generalizing completed with
  | nil =>
    intro before m after heq
    simp at heq
  | cons m nodes ih =>
    unfold firstExecutable at h
    split at h
    · cases h
    · rename_i hsub
      exact (ih h).cons hsub

theorem Skipped.dependent {completed : List String} {nodes : List ProofPlanNode} (h : Skipped completed nodes)
    {node : ProofPlanNode} (hn : node ∈ nodes) : node.dependencyNodeIds ≠ [] := by
  intro hnil
  obtain ⟨before, after, heq⟩ := List.append_of_mem hn
  exact h before node after heq (by rw [hnil]; exact List.nil_subset _)

/-- The plan has a node, and a node with dependencies that are all listed before it comes after some node without
dependencies. -/
def ListedReady (plan : ProofPlan) : Prop :=
  plan.nodes ≠ [] ∧ ∀ before node after, plan.nodes = before ++ node :: after → node.dependencyNodeIds ≠ [] →
    node.dependencyNodeIds ⊆ before.map (·.planNodeId) → ∃ m ∈ before, m.dependencyNodeIds = []

/-- For every accepted plan: `first_executable_node` raises only for the plan without nodes, and returns a node of the plan
without dependencies exactly when the plan is listed so that it is ready. -/
theorem firstExecutableNode_iff (h : validateProofPlan u quote graph plan = .ok ()) :
    ((∃ node, firstExecutableNode plan = .ok node) ↔ plan.nodes ≠ []) ∧
      ((∃ node, firstExecutableNode plan = .ok node ∧ node ∈ plan.nodes ∧ node.dependencyNodeIds = []) ↔
        ListedReady plan) := by
  have hreturns : plan.nodes ≠ [] → ∃ node, firstExecutableNode plan = .ok node := by
    intro hne
    obtain ⟨m, hm, hnil⟩ := exists_independent h hne
    cases hrun : firstExecutableNode plan with
    | ok node => exact ⟨node, rfl⟩
    | error e => exact absurd hnil ((firstExecutable_error hrun).dependent hm)
  refine ⟨⟨?_, hreturns⟩, ?_, ?_⟩
  · rintro ⟨node, hrun⟩ hnil
    obtain ⟨before, after, heq, -⟩ := firstExecutable_ok hrun
    rw [hnil] at heq
    simp at heq
  · rintro ⟨node, hrun, hmem, hnil⟩
    obtain ⟨before, after, heq, -, hskip⟩ := firstExecutable_ok hrun
    refine ⟨List.ne_nil_of_mem hmem, fun before' node' after' heq' hdeps hsub => ?_⟩
    rw [heq] at heq'
    rcases List.append_eq_append_iff.mp heq' with ⟨mid, hb, hc⟩ | ⟨mid, hb, hc⟩
    · cases mid with
      | nil =>
        obtain ⟨rfl, -⟩ := List.cons.inj hc
        exact absurd hnil hdeps
      | cons x mid =>
        obtain ⟨rfl, -⟩ := List.cons.inj hc
        exact ⟨node, by rw [hb]; simp, hnil⟩
    · cases mid with
      | nil =>
        obtain ⟨rfl, -⟩ := List.cons.inj hc
        exact absurd hnil hdeps
      | cons x mid =>
        obtain ⟨rfl, -⟩ := List.cons.inj hc
        exact absurd (by simpa using hsub) (hskip before' node' mid hb)
  · rintro ⟨hne, hready⟩
    obtain ⟨node, hrun⟩ := hreturns hne
    obtain ⟨before, after, heq, hdeps, hskip⟩ := firstExecutable_ok hrun
    refine ⟨node, hrun, by rw [heq]; simp, ?_⟩
    cases hnil : node.dependencyNodeIds with
    | nil => rfl
    | cons d ds =>
      obtain ⟨m, hm, hmnil⟩ := hready before node after heq (by rw [hnil]; exact List.cons_ne_nil _ _)
        (by simpa using hdeps)
      exact absurd hmnil (hskip.dependent hm)

/-- A graph with one verified move. -/
def oneMove : EvidenceGapGraph :=
  ⟨[⟨"move", "MOVE", "VERIFIED", Dict.ofEntries [("metric_parent", .int 2), ("metric_child", .int 1)]⟩], "hash"⟩

/-- The node `a` depends on `c`, which is listed last, and `b` depends on `a`. -/
def listedBackwards : ProofPlan :=
  ⟨[⟨"a", "move", ["c"]⟩, ⟨"b", "move", ["a"]⟩, ⟨"c", "move", []⟩], [], "hash"⟩

theorem firstExecutableNode_iff_listedBackwards :
    ((∃ node, firstExecutableNode listedBackwards = .ok node) ↔ listedBackwards.nodes ≠ []) ∧
      ((∃ node, firstExecutableNode listedBackwards = .ok node ∧ node ∈ listedBackwards.nodes ∧
        node.dependencyNodeIds = []) ↔ ListedReady listedBackwards) :=
  have haccepted : validateProofPlan ⟨fun text => text, fun _ => none⟩ (fun text => text) oneMove listedBackwards = .ok () :=
    rfl
  firstExecutableNode_iff haccepted

/-- The loop passes `a` and then takes it for completed, so it returns `b`. -/
theorem dependent_node_returned :
    ¬ ∀ (u : Auth.Unicode) (quote : String → String) (graph : EvidenceGapGraph) (plan : ProofPlan),
      validateProofPlan u quote graph plan = .ok () →
      ∃ node, firstExecutableNode plan = .ok node ∧ node ∈ plan.nodes ∧ node.dependencyNodeIds = [] := by
  intro hall
  obtain ⟨node, hrun, -, hnil⟩ := hall ⟨fun text => text, fun _ => none⟩ (fun text => text) oneMove listedBackwards rfl
  cases hrun
  exact nomatch hnil

end

end Planning

end KakeyaEngine
