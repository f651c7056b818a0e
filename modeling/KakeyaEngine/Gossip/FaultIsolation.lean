import KakeyaEngine.Gossip.Convergence

/-!
# Fault isolation of a gossip round

`exchange_once` notes the errors of the transport and goes on with the next peer.  The cards of a response are converted
while they are merged, outside of the handler: a card that is not well formed ends the whole round, after the cards before
it were merged and before the peers behind it were called.
-/

namespace KakeyaEngine

/-! ### Well-formed messages -/

namespace Proto

/-- What the conversion of a message checks. -/
structure NodeCapability.WellFormed (msg : NodeCapability) : Prop where
  nodeId : msg.nodeId ≠ ""
  ttlSeconds : 0 < msg.ttlSeconds
  roles : ∀ m ∈ msg.models, 0 ≤ m.role ∧ m.role ≤ 6
  codecs : ∀ c ∈ msg.caches, 0 ≤ c.defaultCompression ∧ c.defaultCompression ≤ 3

end Proto

theorem CapabilityRole.ofInt_ok_iff (n : Int) : (∃ r, ofInt n = .ok r) ↔ 0 ≤ n ∧ n ≤ 6 := by
  unfold ofInt
  constructor
  · rintro ⟨r, hr⟩
    by_contra hn
    simp only [show n ≠ 0 by omega, show n ≠ 1 by omega, show n ≠ 2 by omega, show n ≠ 3 by omega, show n ≠ 4 by omega,
      show n ≠ 5 by omega, show n ≠ 6 by omega, ↓reduceIte, reduceCtorEq] at hr
  · rintro ⟨h0, h6⟩
    obtain rfl | rfl | rfl | rfl | rfl | rfl | rfl :
      n = 0 ∨ n = 1 ∨ n = 2 ∨ n = 3 ∨ n = 4 ∨ n = 5 ∨ n = 6 := by omega
    all_goals exact ⟨_, rfl⟩

theorem CompressionCodec.ofInt_ok_iff (n : Int) : (∃ c, ofInt n = .ok c) ↔ 0 ≤ n ∧ n ≤ 3 := by
  unfold ofInt
  constructor
  · rintro ⟨r, hr⟩
    by_contra hn
    simp only [show n ≠ 0 by omega, show n ≠ 1 by omega, show n ≠ 2 by omega, show n ≠ 3 by omega, ↓reduceIte,
      reduceCtorEq] at hr
  · rintro ⟨h0, h3⟩
    obtain rfl | rfl | rfl | rfl : n = 0 ∨ n = 1 ∨ n = 2 ∨ n = 3 := by omega
    all_goals exact ⟨_, rfl⟩

/-- A bind returns when both parts do. -/
theorem bind_ok_iff {ε α β : Type} {x : Except ε α} {f : α → Except ε β} :
    (∃ b, (x >>= f) = .ok b) ↔ ∃ a, x = .ok a ∧ ∃ b, f a = .ok b := by
  cases x with
  | error e =>
    constructor
    · rintro ⟨b, hb⟩
      cases hb
    · rintro ⟨a, ha, -⟩
      cases ha
  | ok a =>
    constructor
    · exact fun h => ⟨a, rfl, h⟩
    · rintro ⟨a', ha, h⟩
      obtain rfl := Except.ok.inj ha
      exact h

theorem mapM_ok_iff {ε α β : Type} {f : α → Except ε β} (l : List α) :
    (∃ bs, l.mapM f = .ok bs) ↔ ∀ a ∈ l, ∃ b, f a = .ok b := by
  induction l with
  | nil => exact ⟨fun _ a ha => (by cases ha), fun _ => ⟨[], rfl⟩⟩
  | cons a l ih =>
    rw [List.mapM_cons, bind_ok_iff]
    simp only [List.forall_mem_cons, ← ih, bind_ok_iff]
    constructor
    · rintro ⟨b, hb, bs, hbs, -⟩
      exact ⟨⟨b, hb⟩, bs, hbs⟩
    · rintro ⟨⟨b, hb⟩, bs, hbs⟩
      exact ⟨b, hb, bs, hbs, _, rfl⟩

namespace NodeCapability

/-- The conversion returns exactly on the well-formed messages. -/
theorem fromProto_ok_iff (msg : Proto.NodeCapability) : (∃ c, fromProto msg = .ok c) ↔ msg.WellFormed := by
  have hmodels : (∃ ms, msg.models.mapM ModelCapability.fromProto = .ok ms) ↔
      ∀ m ∈ msg.models, 0 ≤ m.role ∧ m.role ≤ 6 := by
    rw [mapM_ok_iff]
    refine forall₂_congr fun m _ => ?_
    unfold ModelCapability.fromProto
    rw [bind_ok_iff, ← CapabilityRole.ofInt_ok_iff]
    exact exists_congr fun r => ⟨fun h => h.1, fun h => ⟨h, _, rfl⟩⟩
  have hcaches : (∃ cs, msg.caches.mapM CacheCapability.fromProto = .ok cs) ↔
      ∀ c ∈ msg.caches, 0 ≤ c.defaultCompression ∧ c.defaultCompression ≤ 3 := by
    rw [mapM_ok_iff]
    refine forall₂_congr fun m _ => ?_
    unfold CacheCapability.fromProto
    rw [bind_ok_iff, ← CompressionCodec.ofInt_ok_iff]
    exact exists_congr fun r => ⟨fun h => h.1, fun h => ⟨h, _, rfl⟩⟩
  have hbuild : ∀ ms cs, (∃ c, build msg ms cs = .ok c) ↔ msg.nodeId ≠ "" ∧ 0 < msg.ttlSeconds := by
    intro ms cs
    unfold build
    by_cases hid : msg.nodeId = ""
    · simp [hid]
    · by_cases httl : msg.ttlSeconds ≤ 0
      · simp [hid, httl]
      · simp [hid, httl, not_le.1 httl]
  unfold fromProto
  rw [bind_ok_iff]
  simp only [bind_ok_iff, hbuild]
  constructor
  · rintro ⟨ms, hms, cs, hcs, hid, httl⟩
    exact ⟨hid, httl, hmodels.1 ⟨ms, hms⟩, hcaches.1 ⟨cs, hcs⟩⟩
  · rintro ⟨hid, httl, hroles, hcodecs⟩
    obtain ⟨ms, hms⟩ := hmodels.2 hroles
    obtain ⟨cs, hcs⟩ := hcaches.2 hcodecs
    exact ⟨ms, hms, cs, hcs, hid, httl⟩

end NodeCapability

namespace CapabilityRegistry

open LastWriter

/-! ### A round -/

/-- The cards of a response, or none of a peer that failed. -/
def knownNodes : PeerReply → List Proto.NodeCapability
  | .response msgs => msgs
  | .rpcError .. => []

/-- Every card of the reply is well formed. -/
def Contact.Healthy (k : Contact) : Prop := ∀ msg ∈ knownNodes k.reply, msg.WellFormed

/-- An item of the iterable that raises ends the merge. -/
theorem run_mergeLoop_raises (R : CapabilityRegistry) (now : ℚ) {xs : List (Except CardError NodeCapability)}
    (h : ∃ e, .error e ∈ xs) (n : Nat) : ∃ e R', (mergeLoop now n xs).run R = (.error e, R') := by
  induction xs generalizing R n with
  | nil =>
    obtain ⟨e, he⟩ := h
    cases he
  | cons x xs ih =>
    cases x with
    | error e => exact ⟨e, R, rfl⟩
    | ok c =>
      obtain ⟨e, he⟩ := h
      have he' : .error e ∈ xs := by simpa using he
      exact ih (R.mergeCard now c) ⟨e, he'⟩ _

/-- The well-formed cards of a list of messages. -/
def validCards (msgs : List Proto.NodeCapability) : List NodeCapability :=
  msgs.filterMap fun msg => (NodeCapability.fromProto msg).toOption

theorem map_fromProto {msgs : List Proto.NodeCapability} (h : ∀ msg ∈ msgs, msg.WellFormed) :
    msgs.map NodeCapability.fromProto = (validCards msgs).map .ok := by
  induction msgs with
  | nil => rfl
  | cons msg msgs ih =>
    obtain ⟨c, hc⟩ := (NodeCapability.fromProto_ok_iff msg).2 (h msg (by simp))
    have hvalid : validCards (msg :: msgs) = c :: validCards msgs := by
      unfold validCards
      rw [List.filterMap_cons_some (by rw [hc]; rfl)]
    rw [hvalid, List.map_cons, List.map_cons, hc, ih fun m hm => h m (List.mem_cons_of_mem _ hm)]

/-- The registry after the reply of a healthy peer. -/
def afterContact (R : CapabilityRegistry) (k : Contact) : CapabilityRegistry :=
  (R.refresh k.snapshotAt).mergeAll k.mergedAt (validCards (knownNodes k.reply))

/-- A healthy peer is called and its cards are merged. -/
theorem run_exchangeWith_healthy (g : GossipRound) {k : Contact} (hk : k.Healthy) :
    ∃ g', (exchangeWith k).run g = (.ok (), g') ∧ g'.registry = g.registry.afterContact k ∧
      g'.sent = g.sent ++ [g.registry.requestOf k] := by
  rw [run_exchangeWith]
  unfold Contact.Healthy at hk
  unfold afterContact
  cases hreply : k.reply with
  | rpcError code details => exact ⟨_, rfl, rfl, rfl⟩
  | response msgs =>
    rw [hreply] at hk
    obtain ⟨n, hn⟩ := run_takeReply_response (request g k) k.peer k.mergedAt (map_fromProto hk)
    exact ⟨_, hn, rfl, rfl⟩

/-- A card that is not well formed ends the round. -/
theorem run_exchangeWith_raises (g : GossipRound) {k : Contact} (hk : ¬ k.Healthy) :
    ∃ e g', (exchangeWith k).run g = (.error e, g') := by
  rw [run_exchangeWith]
  unfold Contact.Healthy at hk
  cases hreply : k.reply with
  | rpcError code details =>
    rw [hreply] at hk
    exact absurd (fun msg hmsg => by cases hmsg) hk
  | response msgs =>
    rw [hreply] at hk
    have hraise : ∃ e, .error e ∈ msgs.map NodeCapability.fromProto := by
      by_contra hnone
      refine hk fun msg hmsg => ?_
      rw [← NodeCapability.fromProto_ok_iff]
      cases hc : NodeCapability.fromProto msg with
      | ok c => exact ⟨c, rfl⟩
      | error e => exact absurd ⟨e, List.mem_map.2 ⟨msg, hmsg, hc⟩⟩ hnone
    obtain ⟨e, R', hrun⟩ := run_mergeLoop_raises (request g k).registry k.mergedAt hraise 0
    refine ⟨e, { request g k with registry := R' }, ?_⟩
    simp only [takeReply, onRegistry]
    exact Proc.run_bind_error (Proc.run_focus_error hrun)

/-- The registry after the replies of healthy peers. -/
def afterContacts (R : CapabilityRegistry) (ks : List Contact) : CapabilityRegistry := ks.foldl afterContact R

theorem run_exchangeLoop_healthy (g : GossipRound) {ks : List Contact} (hks : ∀ k ∈ ks, k.Healthy) :
    ∃ g', (exchangeLoop ks).run g = (.ok (), g') ∧ g'.registry = g.registry.afterContacts ks ∧
      g'.sent.map Prod.fst = g.sent.map Prod.fst ++ ks.map Contact.peer := by
  induction ks generalizing g with
  | nil => exact ⟨g, rfl, rfl, by simp⟩
  | cons k ks ih =>
    obtain ⟨g₁, hrun₁, hreg₁, hsent₁⟩ := run_exchangeWith_healthy g (hks k (by simp))
    obtain ⟨g₂, hrun₂, hreg₂, hsent₂⟩ := ih g₁ fun k' hk' => hks k' (List.mem_cons_of_mem _ hk')
    refine ⟨g₂, ?_, ?_, ?_⟩
    · exact (Proc.run_bind_ok hrun₁).trans hrun₂
    · rw [hreg₂, hreg₁]
      rfl
    · rw [hsent₂, hsent₁]
      simp [requestOf]

theorem run_exchangeLoop_raises (g : GossipRound) {ks : List Contact} (hks : ¬ ∀ k ∈ ks, k.Healthy) :
    ∃ e g', (exchangeLoop ks).run g = (.error e, g') := by
  induction ks generalizing g with
  | nil => exact absurd (fun k hk => by cases hk) hks
  | cons k ks ih =>
    by_cases hk : k.Healthy
    · obtain ⟨g₁, hrun₁, -⟩ := run_exchangeWith_healthy g hk
      obtain ⟨e, g₂, hrun₂⟩ := ih g₁ fun h => hks (List.forall_mem_cons.2 ⟨hk, h⟩)
      exact ⟨e, g₂, (Proc.run_bind_ok hrun₁).trans hrun₂⟩
    · obtain ⟨e, g₁, hrun₁⟩ := run_exchangeWith_raises g hk
      exact ⟨e, g₁, Proc.run_bind_error hrun₁⟩

/-! ### What becomes of a card -/

/-- The registry holds a card of the node that is at least as fresh, or one has expired since. -/
def HeldOrExpired (R : CapabilityRegistry) (c : NodeCapability) (times : List ℚ) : Prop :=
  (∃ held, R.peers.get? c.nodeId = some held ∧ c.announcedAtUnix ≤ held.announcedAtUnix) ∨
    ∃ d : NodeCapability, d.nodeId = c.nodeId ∧ c.announcedAtUnix ≤ d.announcedAtUnix ∧
      ∃ t ∈ times, d.isExpired t = true

@[simp] theorem afterContact_nodeId (R : CapabilityRegistry) (k : Contact) :
    (R.afterContact k).selfCard.nodeId = R.selfCard.nodeId := by
  unfold afterContact
  rw [mergeAll_selfCard]
  rfl

@[simp] theorem afterContacts_nodeId (R : CapabilityRegistry) (ks : List Contact) :
    (R.afterContacts ks).selfCard.nodeId = R.selfCard.nodeId := by
  induction ks generalizing R with
  | nil => rfl
  | cons k ks ih => exact (ih (R.afterContact k)).trans (afterContact_nodeId R k)

theorem heldOrExpired_merge {R : CapabilityRegistry} {c : NodeCapability} (hid : c.nodeId ≠ R.selfCard.nodeId) (now : ℚ)
    {l : List NodeCapability} (hc : c ∈ live now c.nodeId l ∨
      ∃ held, R.peers.get? c.nodeId = some held ∧ c.announcedAtUnix ≤ held.announcedAtUnix) :
    ∃ held, (R.mergeAll now l).peers.get? c.nodeId = some held ∧ c.announcedAtUnix ≤ held.announcedAtUnix := by
  rw [get?_mergeAll hid]
  have hlatest := latest_absorbAll NodeCapability.announcedAtUnix (R.peers.get? c.nodeId) (live now c.nodeId l)
  obtain ⟨d, hd, hle⟩ : ∃ d, (R.peers.get? c.nodeId = some d ∨ d ∈ live now c.nodeId l) ∧
      c.announcedAtUnix ≤ d.announcedAtUnix := by
    rcases hc with h | ⟨held, h, hle⟩
    · exact ⟨c, Or.inr h, le_refl _⟩
    · exact ⟨held, Or.inl h, hle⟩
  rcases ho : absorbAll NodeCapability.announcedAtUnix (R.peers.get? c.nodeId) (live now c.nodeId l) with _ | held
  · rw [ho] at hlatest
    exact absurd hd (hlatest d)
  · rw [ho] at hlatest
    exact ⟨held, rfl, le_trans hle (hlatest.2 d hd)⟩

/-- A later peer takes a card away only when it has expired. -/
theorem heldOrExpired_afterContact {R : CapabilityRegistry} {c : NodeCapability} {times : List ℚ}
    (hid : c.nodeId ≠ R.selfCard.nodeId) (k : Contact) (h : R.HeldOrExpired c times) :
    (R.afterContact k).HeldOrExpired c (times ++ [k.snapshotAt]) := by
  rcases h with ⟨held, hheld, hle⟩ | ⟨d, hd, hle, t, ht, hexp⟩
  · by_cases hexp : held.isExpired k.snapshotAt = true
    · exact Or.inr ⟨held, R.named _ _ hheld, hle, k.snapshotAt, by simp, hexp⟩
    · have hkept : (R.refresh k.snapshotAt).peers.get? c.nodeId = some held := by
        rw [get?_refresh, hheld, unexpired_some, if_neg hexp]
      have hid' : c.nodeId ≠ (R.refresh k.snapshotAt).selfCard.nodeId := hid
      exact Or.inl (heldOrExpired_merge hid' k.mergedAt (Or.inr ⟨held, hkept, hle⟩))
  · exact Or.inr ⟨d, hd, hle, t, List.mem_append_left _ ht, hexp⟩

theorem heldOrExpired_afterContacts {R : CapabilityRegistry} {c : NodeCapability} {times : List ℚ}
    (hid : c.nodeId ≠ R.selfCard.nodeId) (ks : List Contact) (h : R.HeldOrExpired c times) :
    (R.afterContacts ks).HeldOrExpired c (times ++ ks.map Contact.snapshotAt) := by
  induction ks generalizing R times with
  | nil =>
    rw [List.map_nil, List.append_nil]
    exact h
  | cons k ks ih =>
    have hstep := heldOrExpired_afterContact hid k h
    have hrest := ih (by rw [afterContact_nodeId]; exact hid) hstep
    rw [List.append_assoc] at hrest
    exact hrest

/-! ### The main result -/

/-- A round is isolated from the faults of its peers: it returns, every peer is called in turn, and a valid card of a
reply that has not expired is merged, so that in the end the registry holds a card of that node that is at least as fresh,
unless one has expired by a later call. -/
structure Isolated (R : CapabilityRegistry) (ks : List Contact) : Prop where
  returns : ∃ report, ((exchangeOnce ks).run { registry := R }).1 = .ok report
  called : ((exchangeOnce ks).run { registry := R }).2.sent.map Prod.fst = ks.map Contact.peer
  merged : ∀ pre k post, ks = pre ++ k :: post → ∀ msg ∈ knownNodes k.reply, ∀ c, NodeCapability.fromProto msg = .ok c →
    c.nodeId ≠ R.selfCard.nodeId → c.isExpired k.mergedAt = false →
    ((exchangeOnce ks).run { registry := R }).2.registry.HeldOrExpired c (post.map Contact.snapshotAt)

theorem isolated_of_healthy (R : CapabilityRegistry) {ks : List Contact} (hks : ∀ k ∈ ks, k.Healthy) : R.Isolated ks := by
  obtain ⟨g, hrun, hreg, hsent⟩ := run_exchangeLoop_healthy { registry := R } hks
  have honce : (exchangeOnce ks).run { registry := R } = (.ok ⟨g.merged, g.errors⟩, g) := Proc.run_bind_ok hrun
  refine ⟨⟨_, by rw [honce]⟩, by rw [honce]; simpa using hsent, ?_⟩
  rintro pre k post rfl msg hmsg c hc hid hexp
  rw [honce]
  dsimp only
  rw [hreg]
  unfold afterContacts
  rw [List.foldl_append, List.foldl_cons]
  have hpre : c.nodeId ≠ ((R.afterContacts pre).refresh k.snapshotAt).selfCard.nodeId := by
    show c.nodeId ≠ (R.afterContacts pre).selfCard.nodeId
    rw [afterContacts_nodeId]
    exact hid
  have hmem : c ∈ live k.mergedAt c.nodeId (validCards (knownNodes k.reply)) := by
    rw [mem_live]
    exact ⟨List.mem_filterMap.2 ⟨msg, hmsg, by rw [hc]; rfl⟩, rfl, hexp⟩
  have hheld : ((R.afterContacts pre).afterContact k).HeldOrExpired c [] :=
    Or.inl (heldOrExpired_merge hpre k.mergedAt (Or.inl hmem))
  have hrest := heldOrExpired_afterContacts (by rw [afterContact_nodeId]; exact hpre) post hheld
  rw [List.nil_append] at hrest
  exact hrest

/-- A peer that answers with a lifetime of zero, in front of one with a valid card. -/
def exampleContacts : List Contact :=
  [⟨"p:1", 100, 100, .response [{ nodeId := "b" }]⟩,
    ⟨"p:2", 100, 100, .response [{ nodeId := "c", announcedAtUnix := 100, ttlSeconds := 120 }]⟩]

end CapabilityRegistry

end KakeyaEngine
