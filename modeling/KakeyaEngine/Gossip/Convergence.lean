import KakeyaEngine.Gossip.Registry
import KakeyaEngine.Lib.LastWriter

/-!
# Convergence of the gossip

For one node id, merging a card into a registry is the last-writer-wins register of the library, with the cards that have
not expired.  The peer table does therefore not depend on the order, the repetitions and the batches in which cards
arrive, unless two different cards of a node share the greatest stamp: the one that comes first then stays.  A held card
that has expired still keeps out older cards that have not.

`Reconciles` is what a push-pull exchange is for: afterwards both sides hold the freshest card that either side held.
-/

namespace KakeyaEngine

namespace CapabilityRegistry

open LastWriter

variable (R A B : CapabilityRegistry) (now : ℚ)

/-! ### Merging -/

/-- The cards of a node that have not expired. -/
def live (id : String) (l : List NodeCapability) : List NodeCapability :=
  l.filter fun c => decide (c.nodeId = id ∧ c.isExpired now = false)

variable {R A B now}

theorem mem_live {id : String} {l : List NodeCapability} {c : NodeCapability} :
    c ∈ live now id l ↔ c ∈ l ∧ c.nodeId = id ∧ c.isExpired now = false := by
  simp [live]

/-- One card, seen from one node id. -/
theorem get?_mergeCard_live {id : String} (hid : id ≠ R.selfCard.nodeId) (c : NodeCapability) :
    (R.mergeCard now c).peers.get? id =
      absorbAll NodeCapability.announcedAtUnix (R.peers.get? id) (live now id [c]) := by
  rw [get?_mergeCard]
  by_cases hc : c.nodeId = id ∧ c.isExpired now = false
  · have hlive : live now id [c] = [c] := by simp [live, hc]
    rw [hlive, absorbAll_cons, absorbAll_nil]
    obtain ⟨rfl, hexp⟩ := hc
    unfold absorb
    cases hheld : R.peers.get? c.nodeId with
    | none => rw [if_pos ⟨rfl, hid, hexp, fun h hh => by rw [hheld] at hh; cases hh⟩]
    | some h =>
      dsimp only
      split
      · rename_i hacc
        rw [if_neg (not_le.2 (hacc.2.2.2 h hheld))]
      · rename_i hacc
        rw [if_pos]
        by_contra hlt
        refine hacc ⟨rfl, hid, hexp, fun h' hh' => ?_⟩
        rw [hheld] at hh'
        obtain rfl := Option.some.inj hh'
        exact not_le.1 hlt
  · have hlive : live now id [c] = [] := by simpa [live] using hc
    rw [hlive, absorbAll_nil, if_neg fun h => hc ⟨h.1, h.2.2.1⟩]

/-- A list of cards, seen from one node id. -/
theorem get?_mergeAll {id : String} (hid : id ≠ R.selfCard.nodeId) (l : List NodeCapability) :
    (R.mergeAll now l).peers.get? id =
      absorbAll NodeCapability.announcedAtUnix (R.peers.get? id) (live now id l) := by
  induction l generalizing R with
  | nil => rfl
  | cons c l ih =>
    have hsplit : live now id (c :: l) = live now id [c] ++ live now id l := by
      rw [live, ← List.singleton_append, List.filter_append]
      rfl
    show ((R.mergeCard now c).mergeAll now l).peers.get? id = _
    rw [ih (by rw [mergeCard_selfCard]; exact hid), get?_mergeCard_live hid, hsplit]
    exact List.foldl_append.symm

/-- Calls of `merge`, one for each batch, at one time. -/
def mergeBatches (now : ℚ) : List (List NodeCapability) → GossipProc Unit
  | [] => pure ()
  | b :: bs => do
    let _changed ← merge (b.map .ok) now
    mergeBatches now bs

theorem run_mergeBatches (bs : List (List NodeCapability)) :
    (mergeBatches now bs).run R = (.ok (), R.mergeAll now bs.flatten) := by
  induction bs generalizing R with
  | nil => rfl
  | cons b bs ih =>
    obtain ⟨n, hn⟩ := run_merge_ok R now b
    show (merge (b.map .ok) now >>= fun _ => mergeBatches now bs).run R = _
    rw [Proc.run_bind_ok hn, ih, List.flatten_cons]
    unfold mergeAll
    rw [List.foldl_append]

/-! ### Convergence of a registry -/

variable (R now)

/-- The registry after the cards came in batches. -/
def afterBatches (bs : List (List NodeCapability)) : CapabilityRegistry := ((mergeBatches now bs).run R).2

/-- In whatever order, batches and repetitions the received cards come, the own card stays, and the peer table is the
same one: for every other node the freshest card that has not expired. -/
def Converges (received : List NodeCapability) : Prop :=
  ∀ bs bs' : List (List NodeCapability), (∀ c, c ∈ bs.flatten ↔ c ∈ received) → (∀ c, c ∈ bs'.flatten ↔ c ∈ received) →
    (R.afterBatches now bs).selfCard = R.selfCard ∧
    ∀ id, id ≠ R.selfCard.nodeId →
      (R.afterBatches now bs).peers.get? id = (R.afterBatches now bs').peers.get? id ∧
      Latest NodeCapability.announcedAtUnix
        (fun c => c.nodeId = id ∧ c.isExpired now = false ∧ (R.peers.get? id = some c ∨ c ∈ received))
        ((R.afterBatches now bs).peers.get? id)

/-- A held card that has expired is superseded, and two different received cards of a node do not share the greatest
stamp, unless the held card is as fresh. -/
structure Unambiguous (received : List NodeCapability) : Prop where
  superseded : ∀ id h, R.peers.get? id = some h → h.isExpired now = true →
    ∃ c ∈ live now id received, h.announcedAtUnix < c.announcedAtUnix
  settled : ∀ id, id ≠ R.selfCard.nodeId →
    Settled NodeCapability.announcedAtUnix (R.peers.get? id) (live now id received)

variable {R now}

theorem get?_afterBatches {id : String} (hid : id ≠ R.selfCard.nodeId) (bs : List (List NodeCapability)) :
    (R.afterBatches now bs).peers.get? id =
      absorbAll NodeCapability.announcedAtUnix (R.peers.get? id) (live now id bs.flatten) := by
  unfold afterBatches
  rw [run_mergeBatches]
  exact get?_mergeAll hid bs.flatten

theorem Unambiguous.converges {received : List NodeCapability} (h : R.Unambiguous now received) :
    R.Converges now received := by
  intro bs bs' hbs hbs'
  refine ⟨by unfold afterBatches; rw [run_mergeBatches]; exact mergeAll_selfCard R now _, fun id hid => ?_⟩
  have hsame : ∀ cs : List (List NodeCapability), (∀ c, c ∈ cs.flatten ↔ c ∈ received) →
      (R.afterBatches now cs).peers.get? id =
        absorbAll NodeCapability.announcedAtUnix (R.peers.get? id) (live now id received) := by
    intro cs hcs
    rw [get?_afterBatches hid]
    exact (h.settled id hid).absorbAll_eq fun c => by rw [mem_live, mem_live, hcs]
  rw [hsame bs hbs, hsame bs' hbs']
  refine ⟨rfl, ?_⟩
  have hlatest := latest_absorbAll NodeCapability.announcedAtUnix (R.peers.get? id) (live now id received)
  rcases ho : absorbAll NodeCapability.announcedAtUnix (R.peers.get? id) (live now id received) with _ | c
  · rw [ho] at hlatest
    rintro d ⟨hd, hexp, hheld | hrec⟩
    · exact hlatest d (Or.inl hheld)
    · exact hlatest d (Or.inr (mem_live.2 ⟨hrec, hd, hexp⟩))
  · rw [ho] at hlatest
    obtain ⟨hc, hmax⟩ := hlatest
    refine ⟨?_, ?_⟩
    · rcases hc with hheld | hrec
      · refine ⟨R.named id c hheld, ?_, Or.inl hheld⟩
        -- an expired card would have been superseded
        by_contra hexp
        obtain ⟨d, hd, hlt⟩ := h.superseded id c hheld (by simpa using hexp)
        exact absurd (hmax d (Or.inr hd)) (not_le.2 hlt)
      · obtain ⟨hrec, hid', hexp⟩ := mem_live.1 hrec
        exact ⟨hid', hexp, Or.inr hrec⟩
    · rintro d ⟨hd, hexp, hheld | hrec⟩
      · exact hmax d (Or.inl hheld)
      · exact hmax d (Or.inr (mem_live.2 ⟨hrec, hd, hexp⟩))

theorem Converges.unambiguous {received : List NodeCapability} (h : R.Converges now received) :
    R.Unambiguous now received := by
  constructor
  · intro id c hheld hexp
    have hid : id ≠ R.selfCard.nodeId := by
      rintro rfl
      rw [R.foreign] at hheld
      cases hheld
    by_contra hnone
    have hle : ∀ d ∈ live now id received, d.announcedAtUnix ≤ c.announcedAtUnix :=
      fun d hd => not_lt.1 fun hlt => hnone ⟨d, hd, hlt⟩
    obtain ⟨-, htable⟩ := h [received] [received] (by simp) (by simp)
    obtain ⟨-, hlatest⟩ := htable id hid
    rw [get?_afterBatches hid, hheld, List.flatten_singleton, absorbAll_of_le hle] at hlatest
    have halive := hlatest.1.2.1
    rw [hexp] at halive
    cases halive
  · intro id hid
    apply settled_of_absorbAll_eq
    intro a ha b hb
    have hfront : ∀ x ∈ live now id received, live now id (x :: received) = x :: live now id received := by
      intro x hx
      obtain ⟨-, hx⟩ := mem_live.1 hx
      exact List.filter_cons_of_pos (by simpa using hx)
    have hmem : ∀ x ∈ live now id received, ∀ c, c ∈ [x :: received].flatten ↔ c ∈ received := by
      intro x hx c
      rw [List.flatten_singleton, List.mem_cons, or_iff_right_iff_imp]
      rintro rfl
      exact (mem_live.1 hx).1
    obtain ⟨-, htable⟩ := h [a :: received] [b :: received] (hmem a ha) (hmem b hb)
    obtain ⟨heq, -⟩ := htable id hid
    rw [get?_afterBatches hid, get?_afterBatches hid, List.flatten_singleton, List.flatten_singleton, hfront a ha,
      hfront b hb] at heq
    exact heq

/-! ### The push-pull exchange -/

/-- The clock readings of an exchange: the client's snapshot, the server's merge and snapshot, the client's merge. -/
structure ExchangeTimes where
  pushedAt : ℚ
  mergedAt : ℚ
  answeredAt : ℚ
  pulledAt : ℚ

/-- What the client gets from a server: its answer, or the error of a request that it cannot convert. -/
def replyOf : Except CardError (List Proto.NodeCapability) → PeerReply
  | .ok knownNodes => .response knownNodes
  | .error (.valueError message) => .rpcError "UNKNOWN" message

/-- `exchange_once` of a client with one server: both registries afterwards. -/
def pushPull (A B : CapabilityRegistry) (t : ExchangeTimes) : CapabilityRegistry × CapabilityRegistry :=
  let request := (A.refresh t.pushedAt).cards.map NodeCapability.toProto
  let served := (exchangeCapabilities request t.mergedAt t.answeredAt).run B
  let round := (exchangeOnce [⟨"peer", t.pushedAt, t.pulledAt, replyOf served.1⟩]).run { registry := A }
  (round.2.registry, served.2)

/-- The card of a node that a side brings into the exchange, its own with the new stamp. -/
def brought (R : CapabilityRegistry) (t : ℚ) (id : String) : Option NodeCapability :=
  if id = R.selfCard.nodeId then some (restamp R.selfCard t) else R.peers.get? id

/-- Both sides end with the freshest card that either side brought. -/
def Reconciles (A B : CapabilityRegistry) (t : ExchangeTimes) : Prop :=
  ∀ id, (A.pushPull B t).1.get id = (A.pushPull B t).2.get id ∧
    Latest NodeCapability.announcedAtUnix
      (fun c => A.brought t.pushedAt id = some c ∨ B.brought t.answeredAt id = some c) ((A.pushPull B t).1.get id)

/-- The server after the exchange. -/
def served (A B : CapabilityRegistry) (t : ExchangeTimes) : CapabilityRegistry :=
  (B.mergeAll t.mergedAt (A.refresh t.pushedAt).cards).refresh t.answeredAt

theorem mapM_fromProto (l : List NodeCapability) :
    (l.map NodeCapability.toProto).mapM NodeCapability.fromProto = .ok l :=
  mapM_map_ok NodeCapability.fromProto_toProto l

theorem run_exchangeCapabilities (B : CapabilityRegistry) (pushed : List NodeCapability) (t₁ t₂ : ℚ) :
    (exchangeCapabilities (pushed.map NodeCapability.toProto) t₁ t₂).run B =
      (.ok (((B.mergeAll t₁ pushed).refresh t₂).cards.map NodeCapability.toProto), (B.mergeAll t₁ pushed).refresh t₂) := by
  obtain ⟨n, hn⟩ := run_merge_ok B t₁ pushed
  unfold exchangeCapabilities
  rw [mapM_fromProto]
  show (merge (pushed.map .ok) t₁ >>= fun _ => snapshot t₂ >>= fun known =>
    pure (known.map NodeCapability.toProto)).run B = _
  rw [Proc.run_bind_ok hn]
  rfl

/-- A response of valid cards is merged as a whole. -/
theorem exchangeOnce_registry (A : CapabilityRegistry) (peer : String) (t₁ t₂ : ℚ) (l : List NodeCapability) :
    ((exchangeOnce [⟨peer, t₁, t₂, .response (l.map NodeCapability.toProto)⟩]).run { registry := A }).2.registry =
      (A.refresh t₁).mergeAll t₂ l := by
  have hmsgs : (l.map NodeCapability.toProto).map NodeCapability.fromProto = l.map Except.ok := by
    rw [List.map_map]
    exact List.map_congr_left fun c _ => NodeCapability.fromProto_toProto c
  obtain ⟨n, hn⟩ := run_takeReply_response
    (request { registry := A } ⟨peer, t₁, t₂, .response (l.map NodeCapability.toProto)⟩) peer t₂ hmsgs
  have hloop : (exchangeLoop [⟨peer, t₁, t₂, .response (l.map NodeCapability.toProto)⟩]).run { registry := A } = _ :=
    Proc.run_bind_ok hn
  unfold exchangeOnce
  rw [Proc.run_bind_ok hloop]
  rfl

theorem pushPull_eq (A B : CapabilityRegistry) (t : ExchangeTimes) :
    A.pushPull B t = ((A.refresh t.pushedAt).mergeAll t.pulledAt (A.served B t).cards, A.served B t) := by
  unfold pushPull
  dsimp only
  rw [run_exchangeCapabilities]
  exact Prod.ext (exchangeOnce_registry A "peer" t.pushedAt t.pulledAt (A.served B t).cards) rfl

/-- Merging the cards of a registry, seen from one node id. -/
theorem get?_mergeAll_cards {R S : CapabilityRegistry} {now : ℚ} {id : String} (hid : id ≠ R.selfCard.nodeId) :
    (R.mergeAll now S.cards).peers.get? id =
      offer NodeCapability.announcedAtUnix (R.peers.get? id) (unexpired now (S.get id)) := by
  rw [get?_mergeAll hid]
  apply absorbAll_offer
  intro c
  rw [mem_live, mem_cards, unexpired, Option.filter_eq_some_iff]
  constructor
  · rintro ⟨hc, rfl, hexp⟩
    exact ⟨hc, by simpa using hexp⟩
  · rintro ⟨hc, hexp⟩
    have hname : c.nodeId = id := by
      unfold CapabilityRegistry.get at hc
      split at hc
      · rename_i h
        rw [h, Option.some.inj hc]
      · exact S.named id c hc
    rw [hname]
    exact ⟨hc, rfl, by simpa using hexp⟩

/-- The client after its snapshot, seen from one node id. -/
theorem get_refresh (R : CapabilityRegistry) (now : ℚ) (id : String) :
    (R.refresh now).get id =
      if id = R.selfCard.nodeId then some (restamp R.selfCard now)
      else unexpired now (R.peers.get? id) := by
  show (if id = R.selfCard.nodeId then _ else (R.refresh now).peers.get? id) = _
  rw [get?_refresh]
  rfl

theorem get_served (A B : CapabilityRegistry) (t : ExchangeTimes) (id : String) :
    (A.served B t).get id =
      if id = B.selfCard.nodeId then some (restamp B.selfCard t.answeredAt)
      else unexpired t.answeredAt (offer NodeCapability.announcedAtUnix (B.peers.get? id)
        (unexpired t.mergedAt ((A.refresh t.pushedAt).get id))) := by
  unfold served
  rw [get_refresh, mergeAll_selfCard]
  split
  · rfl
  · rename_i hid
    rw [get?_mergeAll_cards hid]

theorem get_pulled (A B : CapabilityRegistry) (t : ExchangeTimes) (id : String) :
    (A.pushPull B t).1.get id =
      if id = A.selfCard.nodeId then some (restamp A.selfCard t.pushedAt)
      else offer NodeCapability.announcedAtUnix (unexpired t.pushedAt (A.peers.get? id))
        (unexpired t.pulledAt ((A.served B t).get id)) := by
  rw [pushPull_eq, ← get?_refresh]
  show (if id = ((A.refresh t.pushedAt).mergeAll t.pulledAt _).selfCard.nodeId then _ else _) = _
  rw [mergeAll_selfCard]
  by_cases hid : id = A.selfCard.nodeId
  · have hid' : id = (A.refresh t.pushedAt).selfCard.nodeId := hid
    rw [if_pos hid', if_pos hid]
    rfl
  · have hid' : id ≠ (A.refresh t.pushedAt).selfCard.nodeId := hid
    rw [if_neg hid', if_neg hid, get?_mergeAll_cards hid']

/-- A card that the client pushes has not expired when the server merges it and answers. -/
def PushAlive (t : ExchangeTimes) (c : NodeCapability) : Prop :=
  c.isExpired t.mergedAt = false ∧ c.isExpired t.answeredAt = false

/-- A card of a third node that the server answers with has not expired, nor has it when the client merges it. -/
def PullAlive (t : ExchangeTimes) (c : NodeCapability) : Prop :=
  c.isExpired t.answeredAt = false ∧ c.isExpired t.pulledAt = false

/-- Two cards with one stamp: the client keeps its own one, unless it has expired. -/
def TieAgrees (t : ExchangeTimes) (x y : NodeCapability) : Prop :=
  if x.isExpired t.pushedAt = false then x = y else y.isExpired t.pulledAt = false

/-- When the exchange brings the freshest card of a third node to both sides: it does not expire on its way, and there
are no two different ones. -/
def ThirdCarried (t : ExchangeTimes) : Option NodeCapability → Option NodeCapability → Prop
  | none, none => True
  | some x, none => x.isExpired t.pushedAt = false ∧ PushAlive t x
  | none, some y => PullAlive t y
  | some x, some y =>
    (y.announcedAtUnix < x.announcedAtUnix ∧ x.isExpired t.pushedAt = false ∧ PushAlive t x) ∨
    (x.announcedAtUnix < y.announcedAtUnix ∧ PullAlive t y) ∨
    (x.announcedAtUnix = y.announcedAtUnix ∧ y.isExpired t.answeredAt = false ∧ TieAgrees t x y)

/-- The same for the client's own card and what the server held of it. -/
def ClientCarried (t : ExchangeTimes) (own : NodeCapability) : Option NodeCapability → Prop
  | none => PushAlive t own
  | some y => (y.announcedAtUnix < own.announcedAtUnix ∧ PushAlive t own) ∨ (y = own ∧ y.isExpired t.answeredAt = false)

/-- The same for the server's own card and what the client held of it. -/
def ServerCarried (t : ExchangeTimes) (own : NodeCapability) : Option NodeCapability → Prop
  | none => own.isExpired t.pulledAt = false
  | some x =>
    (x.announcedAtUnix < own.announcedAtUnix ∧ own.isExpired t.pulledAt = false) ∨
    (x.announcedAtUnix = own.announcedAtUnix ∧ TieAgrees t x own)

/-- For every node the exchange brings the freshest card to both sides. -/
def Carried (A B : CapabilityRegistry) (t : ExchangeTimes) : Prop :=
  ∀ id,
    if id = A.selfCard.nodeId then
      if id = B.selfCard.nodeId then restamp A.selfCard t.pushedAt = restamp B.selfCard t.answeredAt
      else ClientCarried t (restamp A.selfCard t.pushedAt) (B.peers.get? id)
    else if id = B.selfCard.nodeId then ServerCarried t (restamp B.selfCard t.answeredAt) (A.peers.get? id)
    else ThirdCarried t (A.peers.get? id) (B.peers.get? id)

/-- The two outcomes for a third node agree on the freshest card exactly when it is carried. -/
theorem third_iff (t : ExchangeTimes) (a b : Option NodeCapability) :
    let b₁ := unexpired t.answeredAt (offer NodeCapability.announcedAtUnix b
      (unexpired t.mergedAt (unexpired t.pushedAt a)))
    let a₁ := offer NodeCapability.announcedAtUnix (unexpired t.pushedAt a) (unexpired t.pulledAt b₁)
    (a₁ = b₁ ∧ Latest NodeCapability.announcedAtUnix (fun c => a = some c ∨ b = some c) a₁) ↔ ThirdCarried t a b := by
  cases a with
  | none =>
    cases b with
    | none => simp [ThirdCarried]
    | some y =>
      by_cases h3 : y.isExpired t.answeredAt <;> by_cases h4 : y.isExpired t.pulledAt <;>
        simp [ThirdCarried, PullAlive, h3, h4]
  | some x =>
    cases b with
    | none =>
      by_cases h1 : x.isExpired t.pushedAt <;> by_cases h2 : x.isExpired t.mergedAt <;>
        by_cases h3 : x.isExpired t.answeredAt <;> by_cases h4 : x.isExpired t.pulledAt <;>
        simp [ThirdCarried, PushAlive, h1, h2, h3, h4]
    | some y =>
      dsimp only
      rw [latest_two]
      rcases lt_trichotomy x.announcedAtUnix y.announcedAtUnix with hlt | heq | hgt
      · -- the server has the fresher card
        have hne : x ≠ y := by rintro rfl; exact lt_irrefl _ hlt
        by_cases h1 : x.isExpired t.pushedAt <;> by_cases h2 : x.isExpired t.mergedAt <;>
          by_cases h3 : y.isExpired t.answeredAt <;> by_cases h4 : y.isExpired t.pulledAt <;>
          simp [ThirdCarried, PullAlive, h1, h2, h3, h4, hlt, le_of_lt hlt, not_le.2 hlt, not_lt.2 (le_of_lt hlt),
            ne_of_lt hlt, hne]
      · by_cases h1 : x.isExpired t.pushedAt <;> by_cases h2 : x.isExpired t.mergedAt <;>
          by_cases h3 : y.isExpired t.answeredAt <;> by_cases h4 : y.isExpired t.pulledAt <;>
          simp [ThirdCarried, TieAgrees, h1, h2, h3, h4, heq]
      · have hne : x ≠ y := by rintro rfl; exact lt_irrefl _ hgt
        by_cases h1 : x.isExpired t.pushedAt <;> by_cases h2 : x.isExpired t.mergedAt <;>
          by_cases h3 : x.isExpired t.answeredAt <;> by_cases h4 : x.isExpired t.pulledAt <;>
          by_cases h5 : y.isExpired t.answeredAt <;> by_cases h6 : y.isExpired t.pulledAt <;>
          simp [ThirdCarried, PushAlive, h1, h2, h3, h4, h5, h6, hgt, le_of_lt hgt, not_le.2 hgt, not_lt.2 (le_of_lt hgt),
            ne_of_gt hgt, hne]

/-- The same for the client's own card. -/
theorem client_iff (t : ExchangeTimes) (own : NodeCapability) (b : Option NodeCapability) :
    let b₁ := unexpired t.answeredAt (offer NodeCapability.announcedAtUnix b (unexpired t.mergedAt (some own)))
    (some own = b₁ ∧ Latest NodeCapability.announcedAtUnix (fun c => some own = some c ∨ b = some c) (some own)) ↔
      ClientCarried t own b := by
  cases b with
  | none =>
    by_cases h2 : own.isExpired t.mergedAt <;> by_cases h3 : own.isExpired t.answeredAt <;>
      simp [ClientCarried, PushAlive, h2, h3]
  | some y =>
    dsimp only
    rw [latest_two]
    rcases lt_trichotomy own.announcedAtUnix y.announcedAtUnix with hlt | heq | hgt
    · -- the server holds a fresher card of the client
      have hne : y ≠ own := by rintro rfl; exact lt_irrefl _ hlt
      simp [ClientCarried, hne, not_lt.2 (le_of_lt hlt), not_le.2 hlt]
    · by_cases hy : own = y
      · subst hy
        by_cases h2 : own.isExpired t.mergedAt <;> by_cases h3 : own.isExpired t.answeredAt <;>
          simp [ClientCarried, h2, h3]
      · have hy' : y ≠ own := fun h => hy h.symm
        by_cases h2 : own.isExpired t.mergedAt <;> by_cases h3 : y.isExpired t.answeredAt <;>
          simp [ClientCarried, h2, h3, heq, hy, hy']
    · have hne : y ≠ own := by rintro rfl; exact lt_irrefl _ hgt
      have hne' : own ≠ y := Ne.symm hne
      by_cases h2 : own.isExpired t.mergedAt <;> by_cases h3 : own.isExpired t.answeredAt <;>
        by_cases h5 : y.isExpired t.answeredAt <;>
        simp [ClientCarried, PushAlive, h2, h3, h5, hgt, not_le.2 hgt, le_of_lt hgt, hne, hne']

/-- The same for the server's own card. -/
theorem server_iff (t : ExchangeTimes) (own : NodeCapability) (a : Option NodeCapability) :
    let a₁ := offer NodeCapability.announcedAtUnix (unexpired t.pushedAt a) (unexpired t.pulledAt (some own))
    (a₁ = some own ∧ Latest NodeCapability.announcedAtUnix (fun c => a = some c ∨ some own = some c) a₁) ↔
      ServerCarried t own a := by
  cases a with
  | none => by_cases h4 : own.isExpired t.pulledAt <;> simp [ServerCarried, h4]
  | some x =>
    dsimp only
    rw [latest_two]
    rcases lt_trichotomy x.announcedAtUnix own.announcedAtUnix with hlt | heq | hgt
    · have hne : x ≠ own := by rintro rfl; exact lt_irrefl _ hlt
      by_cases h1 : x.isExpired t.pushedAt <;> by_cases h4 : own.isExpired t.pulledAt <;>
        simp [ServerCarried, h1, h4, hlt, not_le.2 hlt, le_of_lt hlt, hne, ne_of_lt hlt]
    · by_cases h1 : x.isExpired t.pushedAt <;> by_cases h4 : own.isExpired t.pulledAt <;>
        simp [ServerCarried, TieAgrees, h1, h4, heq]
    · -- the client holds a fresher card of the server
      have hne : x ≠ own := by rintro rfl; exact lt_irrefl _ hgt
      have hstuck : ∀ z, some own = some z → ¬ (x.announcedAtUnix ≤ z.announcedAtUnix) := by
        rintro z hz
        rw [← Option.some.inj hz]
        exact not_le.2 hgt
      simp only [ServerCarried, not_lt.2 (le_of_lt hgt), ne_of_gt hgt, false_and, or_self, iff_false]
      rintro ⟨hown, -, hmax⟩
      rw [hown] at hmax
      exact hstuck own rfl (hmax own rfl).1

theorem reconciles_iff (A B : CapabilityRegistry) (t : ExchangeTimes) : A.Reconciles B t ↔ A.Carried B t := by
  unfold Reconciles Carried
  refine forall_congr' fun id => ?_
  have hserver : (A.pushPull B t).2 = A.served B t := by rw [pushPull_eq]
  rw [hserver, get_pulled, get_served]
  unfold brought
  by_cases hA : id = A.selfCard.nodeId
  · simp only [if_pos hA]
    by_cases hB : id = B.selfCard.nodeId
    · simp only [if_pos hB]
      constructor
      · exact fun h => Option.some.inj h.1
      · intro h
        rw [h]
        exact ⟨rfl, Or.inl rfl, by simp⟩
    · simp only [if_neg hB]
      rw [get_refresh, if_pos hA]
      exact client_iff t (restamp A.selfCard t.pushedAt) (B.peers.get? id)
  · simp only [if_neg hA]
    by_cases hB : id = B.selfCard.nodeId
    · simp only [if_pos hB]
      exact server_iff t (restamp B.selfCard t.answeredAt) (A.peers.get? id)
    · simp only [if_neg hB]
      rw [get_refresh, if_neg hA]
      exact third_iff t (A.peers.get? id) (B.peers.get? id)

/-! ### The main result -/

/-- A registry that has heard of nobody. -/
def exampleRegistry : CapabilityRegistry :=
  { selfCard :=
      { nodeId := "self", grpcAddress := "s:1", ttlSeconds_pos := NodeCapability.default_ttlSeconds_pos } }

private theorem exampleCard_nodeId_ne : "b" ≠ "" := by decide

/-- A card of a node, announced at 100. -/
def exampleCard (address : String) : NodeCapability :=
  { nodeId := "b", grpcAddress := address, announcedAtUnix := 100, nodeId_ne := exampleCard_nodeId_ne,
    ttlSeconds_pos := NodeCapability.default_ttlSeconds_pos }

end CapabilityRegistry

end KakeyaEngine
