import KakeyaEngine.Gossip.Cards
import KakeyaEngine.Lib.Dict
import KakeyaEngine.Lib.Proc

/-!
# The gossip registry

`CapabilityRegistry` is a node's view of the fleet: its own card, and the cards it has heard of.  `merge` takes cards from
an iterable, which may raise at any item; `snapshot` stamps the node's own card anew, drops what has expired and lists the
rest.  `ExchangeCapabilities` and `exchange_once` are the two sides of a push-pull exchange.  Clock readings and the
replies of peers are inputs.
-/

namespace KakeyaEngine

/-- `CapabilityRegistry`.  A card is stored under its own node id, and never under the id of this node. -/
structure CapabilityRegistry where
  selfCard : NodeCapability
  peers : Dict String NodeCapability := Dict.empty
  named : ∀ id c, peers.get? id = some c → c.nodeId = id := by intro id c h; cases h
  foreign : peers.get? selfCard.nodeId = none := by rfl

/-- A procedure on the registry. -/
abbrev GossipProc (α : Type) : Type := Proc CapabilityRegistry CardError α

namespace CapabilityRegistry

/-! ### Merging -/

/-- Stores the card of another node. -/
def store (R : CapabilityRegistry) (c : NodeCapability) (hc : c.nodeId ≠ R.selfCard.nodeId) : CapabilityRegistry :=
  { R with
    peers := R.peers.set c.nodeId c
    named := by
      intro id d hd
      rw [Dict.get?_set] at hd
      split at hd
      · rename_i hid
        rw [hid, ← Option.some.inj hd]
      · exact R.named id d hd
    foreign := by
      rw [Dict.get?_set_ne c (Ne.symm hc)]
      exact R.foreign }

/-- Whether a card is stored: it is another node's, has not expired, and is fresher than the one that is held. -/
def Accepts (R : CapabilityRegistry) (now : ℚ) (c : NodeCapability) : Prop :=
  c.nodeId ≠ R.selfCard.nodeId ∧ c.isExpired now = false ∧
    ∀ held, R.peers.get? c.nodeId = some held → held.announcedAtUnix < c.announcedAtUnix

instance (R : CapabilityRegistry) (now : ℚ) (c : NodeCapability) : Decidable (R.Accepts now c) :=
  match h : R.peers.get? c.nodeId with
  | none => decidable_of_iff (c.nodeId ≠ R.selfCard.nodeId ∧ c.isExpired now = false) (by simp [Accepts, h])
  | some held =>
    decidable_of_iff (c.nodeId ≠ R.selfCard.nodeId ∧ c.isExpired now = false ∧
      held.announcedAtUnix < c.announcedAtUnix) (by simp [Accepts, h])

/-- An iteration of the loop of `merge`. -/
def mergeCard (now : ℚ) (c : NodeCapability) (R : CapabilityRegistry) : CapabilityRegistry :=
  if h : R.Accepts now c then R.store c h.1 else R

/-- The loop of `merge`, with the number of changed entries. -/
def mergeLoop (now : ℚ) : Nat → List (Except CardError NodeCapability) → GossipProc Nat
  | changed, [] => pure changed
  | changed, x :: xs => do
    let c ← Proc.ofExcept x
    let R ← Proc.get
    Proc.modify (mergeCard now c)
    mergeLoop now (if R.Accepts now c then changed + 1 else changed) xs

/-- `merge`. -/
def merge (cards : List (Except CardError NodeCapability)) (now : ℚ) : GossipProc Nat := mergeLoop now 0 cards

/-! ### Snapshots -/

/-- The card with a new stamp. -/
def restamp (c : NodeCapability) (now : ℚ) : NodeCapability := { c with announcedAtUnix := now }

/-- `evict_expired`, without the list of what it drops. -/
def evictExpired (now : ℚ) (R : CapabilityRegistry) : CapabilityRegistry :=
  { R with
    peers := R.peers.filter fun c => !c.isExpired now
    named := by
      intro id c hc
      rw [Dict.get?_filter, Option.filter_eq_some_iff] at hc
      exact R.named id c hc.1
    foreign := by
      rw [Dict.get?_filter, R.foreign]
      rfl }

/-- `snapshot` as a change of the registry. -/
def refresh (now : ℚ) (R : CapabilityRegistry) : CapabilityRegistry :=
  { R.evictExpired now with selfCard := restamp R.selfCard now }

/-- The cards of a registry, its own first and the others by node id. -/
def cards (R : CapabilityRegistry) : List NodeCapability :=
  R.selfCard :: R.peers.values.mergeSort fun a b => decide (a.nodeId ≤ b.nodeId)

/-- `snapshot`. -/
def snapshot (now : ℚ) : GossipProc (List NodeCapability) := do
  Proc.modify (refresh now)
  let R ← Proc.get
  pure R.cards

/-- `get`. -/
def get (R : CapabilityRegistry) (id : String) : Option NodeCapability :=
  if id = R.selfCard.nodeId then some R.selfCard else R.peers.get? id

/-! ### Exchanges -/

/-- `CapabilityServiceServicer.ExchangeCapabilities`: the request is converted as a whole, merged, and answered by a
snapshot. -/
def exchangeCapabilities (request : List Proto.NodeCapability) (mergedAt snapshotAt : ℚ) :
    GossipProc (List Proto.NodeCapability) := do
  let pushed ← Proc.ofExcept (request.mapM NodeCapability.fromProto)
  let _changed ← merge (pushed.map .ok) mergedAt
  let known ← snapshot snapshotAt
  pure (known.map NodeCapability.toProto)

/-- What a call of a peer comes to: a response, or an error of the transport. -/
inductive PeerReply
  | response (knownNodes : List Proto.NodeCapability)
  | rpcError (code details : String)

/-- A peer of a round: its address, the times at which it is called and its reply is merged, and the reply. -/
structure Contact where
  peer : String
  snapshotAt : ℚ
  mergedAt : ℚ
  reply : PeerReply

/-- The state of a round: the registry, the requests sent so far, and what goes into the report. -/
structure GossipRound where
  registry : CapabilityRegistry
  sent : List (String × List Proto.NodeCapability) := []
  merged : Nat := 0
  errors : Dict String String := Dict.empty

/-- `ExchangeReport`. -/
structure ExchangeReport where
  mergedCards : Nat
  errors : Dict String String

/-- A call on the registry of a round. -/
def onRegistry {α : Type} (x : GossipProc α) : Proc GossipRound CardError α :=
  Proc.focus GossipRound.registry (fun R g => { g with registry := R }) id x

/-- What `exchange_once` does with the reply of a peer: it is merged, or its error noted. -/
def takeReply (peer : String) (mergedAt : ℚ) : PeerReply → Proc GossipRound CardError Unit
  | .rpcError code details => Proc.modify fun g => { g with errors := g.errors.set peer (code ++ ": " ++ details) }
  | .response knownNodes => do
    let n ← onRegistry (merge (knownNodes.map NodeCapability.fromProto) mergedAt)
    Proc.modify fun g => { g with merged := g.merged + n }

/-- One peer of `exchange_once`: it is sent the snapshot. -/
def exchangeWith (k : Contact) : Proc GossipRound CardError Unit := do
  let known ← onRegistry (snapshot k.snapshotAt)
  Proc.modify fun g => { g with sent := g.sent ++ [(k.peer, known.map NodeCapability.toProto)] }
  takeReply k.peer k.mergedAt k.reply

/-- The loop of `exchange_once`. -/
def exchangeLoop : List Contact → Proc GossipRound CardError Unit
  | [] => pure ()
  | k :: ks => do
    exchangeWith k
    exchangeLoop ks

/-- `exchange_once`. -/
def exchangeOnce (ks : List Contact) : Proc GossipRound CardError ExchangeReport := do
  exchangeLoop ks
  let g ← Proc.get
  pure { mergedCards := g.merged, errors := g.errors }

/-! ### What the operations do -/

theorem get?_mergeCard (R : CapabilityRegistry) (now : ℚ) (c : NodeCapability) (id : String) :
    (R.mergeCard now c).peers.get? id = if c.nodeId = id ∧ R.Accepts now c then some c else R.peers.get? id := by
  unfold mergeCard
  split
  · rename_i h
    show (R.peers.set c.nodeId c).get? id = _
    rw [Dict.get?_set]
    by_cases hid : id = c.nodeId
    · rw [if_pos hid, if_pos ⟨hid.symm, h⟩]
    · rw [if_neg hid, if_neg fun h' => hid h'.1.symm]
  · rename_i h
    rw [if_neg fun h' => h h'.2]

@[simp] theorem mergeCard_selfCard (R : CapabilityRegistry) (now : ℚ) (c : NodeCapability) :
    (R.mergeCard now c).selfCard = R.selfCard := by
  unfold mergeCard
  split <;> rfl

/-- The registry after the cards of a list. -/
def mergeAll (now : ℚ) (R : CapabilityRegistry) (l : List NodeCapability) : CapabilityRegistry :=
  l.foldl (fun R c => R.mergeCard now c) R

@[simp] theorem mergeAll_selfCard (R : CapabilityRegistry) (now : ℚ) (l : List NodeCapability) :
    (R.mergeAll now l).selfCard = R.selfCard := by
  induction l generalizing R with
  | nil => rfl
  | cons c l ih =>
    show (mergeAll now (R.mergeCard now c) l).selfCard = _
    rw [ih, mergeCard_selfCard]

theorem run_mergeLoop_ok (R : CapabilityRegistry) (now : ℚ) (l : List NodeCapability) (n : Nat) :
    ∃ m, (mergeLoop now n (l.map .ok)).run R = (.ok m, R.mergeAll now l) := by
  induction l generalizing R n with
  | nil => exact ⟨n, rfl⟩
  | cons c l ih => exact ih (R.mergeCard now c) _

theorem run_merge_ok (R : CapabilityRegistry) (now : ℚ) (l : List NodeCapability) :
    ∃ m, (merge (l.map .ok) now).run R = (.ok m, R.mergeAll now l) :=
  run_mergeLoop_ok R now l 0

/-- A card, if it has not expired. -/
def unexpired (now : ℚ) (o : Option NodeCapability) : Option NodeCapability := o.filter fun c => !c.isExpired now

@[simp] theorem unexpired_none (now : ℚ) : unexpired now none = none := rfl

@[simp] theorem unexpired_some (now : ℚ) (c : NodeCapability) :
    unexpired now (some c) = if c.isExpired now then none else some c := by
  unfold unexpired
  rw [Option.filter_some]
  cases c.isExpired now <;> rfl

theorem get?_refresh (R : CapabilityRegistry) (now : ℚ) (id : String) :
    (R.refresh now).peers.get? id = unexpired now (R.peers.get? id) :=
  Dict.get?_filter R.peers _ id

theorem mem_cards {R : CapabilityRegistry} {c : NodeCapability} : c ∈ R.cards ↔ R.get c.nodeId = some c := by
  unfold cards get
  rw [List.mem_cons, List.mem_mergeSort, Dict.mem_values_iff]
  constructor
  · rintro (rfl | ⟨id, hid⟩)
    · rw [if_pos rfl]
    · have hname := R.named id c hid
      rw [if_neg, hname, hid]
      intro hself
      rw [hname] at hself
      rw [hself, R.foreign] at hid
      cases hid
  · intro h
    split at h
    · exact Or.inl (Option.some.inj h).symm
    · exact Or.inr ⟨c.nodeId, h⟩

/-- The request that a round sends to a peer. -/
def requestOf (R : CapabilityRegistry) (k : Contact) : String × List Proto.NodeCapability :=
  (k.peer, (R.refresh k.snapshotAt).cards.map NodeCapability.toProto)

/-- The round after the request to a peer. -/
def request (g : GossipRound) (k : Contact) : GossipRound :=
  { g with registry := g.registry.refresh k.snapshotAt, sent := g.sent ++ [g.registry.requestOf k] }

theorem run_exchangeWith (g : GossipRound) (k : Contact) :
    (exchangeWith k).run g = (takeReply k.peer k.mergedAt k.reply).run (request g k) := rfl

/-- A response of valid cards is merged as a whole. -/
theorem run_takeReply_response (g : GossipRound) (peer : String) (now : ℚ) {msgs : List Proto.NodeCapability}
    {l : List NodeCapability} (hmsgs : msgs.map NodeCapability.fromProto = l.map .ok) :
    ∃ n, (takeReply peer now (.response msgs)).run g =
      (.ok (), { g with registry := g.registry.mergeAll now l, merged := g.merged + n }) := by
  obtain ⟨n, hn⟩ := run_merge_ok g.registry now l
  refine ⟨n, ?_⟩
  simp only [takeReply, onRegistry, hmsgs]
  rw [Proc.run_bind_ok (Proc.run_focus_ok hn)]
  rfl

end CapabilityRegistry

end KakeyaEngine
