import KakeyaEngine.Pipeline.Coordinator
import Mathlib.Data.List.Basic

/-!
# Delivery and progress of the pipeline

`Tracks` says where every item is while the consumer iterates: seen, in the queue, in the hands of a waiting producer, or
still to be produced.  `Inv` says that a consumer on its way out has left enough room in the queue for what the producer
may still put there: the item it waits with, and the sentinel.  With room for one entry only there is none for both, so a
consumer that leaves while the producer waits in `put` waits for ever; and so does one that calls `close` on a full queue.
`Orderly` excludes these two.
-/

namespace KakeyaEngine

namespace PipelineCoordinator

variable {α : Type} {s s' : PipelineCoordinator α} {e : PipelineEvent} {items : List α}

/-! ### Where the items are -/

/-- The item that the producer waits with. -/
def inHand (s : PipelineCoordinator α) : List α :=
  match s.producer with
  | .putting x => [x]
  | _ => []

/-- The items in the queue. -/
def queued (s : PipelineCoordinator α) : List α := s.queue.filterMap id

/-- What the consumer has seen is the beginning of the items, and while it iterates nothing is lost. -/
structure Tracks (items : List α) (s : PipelineCoordinator α) : Prop where
  before : s.seen <+: items
  all : s.consumer = .iterating ∨ s.consumer = .closing → s.seen ++ s.queued ++ s.inHand ++ s.rest = items

theorem tracks_create {bufferSize : Int} (h : create bufferSize items = .ok s) : Tracks items s := by
  unfold create at h
  split at h
  · cases h
  · obtain rfl := Except.ok.inj h
    exact ⟨⟨items, rfl⟩, fun _ => rfl⟩

@[simp] theorem queued_enqueue (x : Option α) : (s.enqueue x).queued = s.queued ++ x.toList := by
  unfold queued enqueue
  rw [List.filterMap_append]
  cases x <;> rfl

/-- What is still to come, wherever it is. -/
theorem Tracks.of_eq (h : Tracks items s) (hseen : s'.seen = s.seen) (hcons : s'.consumer = s.consumer)
    (hall : s'.queued ++ s'.inHand ++ s'.rest = s.queued ++ s.inHand ++ s.rest) : Tracks items s' := by
  refine ⟨by rw [hseen]; exact h.before, fun hc => ?_⟩
  rw [hcons] at hc
  rw [← h.all hc, hseen, List.append_assoc, List.append_assoc, List.append_assoc, List.append_assoc]
  rw [List.append_assoc, List.append_assoc] at hall
  rw [hall]

theorem endProducer_tracks (h : Tracks items s) (hhand : s.producer = .running) : Tracks items s.endProducer := by
  unfold endProducer
  split
  · exact h.of_eq rfl rfl (by simp [queued, inHand, hhand])
  · split
    · exact h.of_eq rfl rfl (by simp [queued, inHand, hhand])
    · refine h.of_eq rfl rfl ?_
      show (s.enqueue none).queued ++ [] ++ s.rest = _
      simp [inHand, hhand]

/-- The producer does not touch the consumer. -/
theorem endProducer_frame (s : PipelineCoordinator α) :
    s.endProducer.seen = s.seen ∧ s.endProducer.consumer = s.consumer ∧
      s.endProducer.consumerCancelled = s.consumerCancelled ∧ s.endProducer.bufferSize = s.bufferSize := by
  unfold endProducer
  split
  · exact ⟨rfl, rfl, rfl, rfl⟩
  · split <;> exact ⟨rfl, rfl, rfl, rfl⟩

theorem produce_frame (hp : s.produce = some s') :
    s'.seen = s.seen ∧ s'.consumer = s.consumer ∧ s'.consumerCancelled = s.consumerCancelled ∧
      s'.bufferSize = s.bufferSize := by
  unfold produce at hp
  cases hprod : s.producer with
  | running =>
    rw [hprod] at hp
    obtain rfl := Option.some.inj hp
    unfold produceNext
    split
    · exact endProducer_frame s
    · split
      · exact endProducer_frame s
      · split <;> exact ⟨rfl, rfl, rfl, rfl⟩
  | done =>
    rw [hprod] at hp
    cases hp
  | putting x =>
    rw [hprod] at hp
    dsimp only at hp
    split at hp
    · cases hp
    · obtain rfl := Option.some.inj hp
      exact ⟨rfl, rfl, rfl, rfl⟩
  | closing =>
    rw [hprod] at hp
    dsimp only at hp
    split at hp
    · cases hp
    · obtain rfl := Option.some.inj hp
      exact ⟨rfl, rfl, rfl, rfl⟩

theorem produce_tracks (h : Tracks items s) (hp : s.produce = some s') : Tracks items s' := by
  unfold produce at hp
  cases hprod : s.producer with
  | running =>
    rw [hprod] at hp
    obtain rfl := Option.some.inj hp
    unfold produceNext
    cases hrest : s.rest with
    | nil => exact endProducer_tracks h hprod
    | cons x xs =>
      dsimp only
      split
      · exact endProducer_tracks h hprod
      · split
        · refine h.of_eq rfl rfl ?_
          show s.queued ++ [x] ++ xs = _
          simp [inHand, hprod, hrest]
        · refine h.of_eq rfl rfl ?_
          show (s.enqueue (some x)).queued ++ s.inHand ++ xs = _
          simp [inHand, hprod, hrest]
  | putting x =>
    rw [hprod] at hp
    dsimp only at hp
    split at hp
    · cases hp
    · obtain rfl := Option.some.inj hp
      refine h.of_eq rfl rfl ?_
      show (s.enqueue (some x)).queued ++ [] ++ s.rest = _
      simp [inHand, hprod]
  | closing =>
    rw [hprod] at hp
    dsimp only at hp
    split at hp
    · cases hp
    · obtain rfl := Option.some.inj hp
      refine h.of_eq rfl rfl ?_
      show (s.enqueue none).queued ++ [] ++ s.rest = _
      simp [inHand, hprod]
  | done =>
    rw [hprod] at hp
    cases hp

theorem leave_tracks (h : Tracks items s) : Tracks items s.leave := by
  refine ⟨h.before, fun hc => ?_⟩
  rcases hc with hc | hc <;> cases hc

theorem get_tracks (h : Tracks items s) (hg : s.get = some s') : Tracks items s' := by
  unfold get at hg
  split at hg
  · rename_i x queue hcons hqueue
    obtain rfl := Option.some.inj hg
    have hall := h.all (Or.inl hcons)
    have hnext : s.seen ++ [x] ++ queue.filterMap id ++ s.inHand ++ s.rest = items := by
      rw [← hall, queued, hqueue]
      simp
    refine ⟨⟨queue.filterMap id ++ s.inHand ++ s.rest, ?_⟩, fun _ => hnext⟩
    rw [← hnext]
    simp
  · rename_i queue hcons hqueue
    obtain rfl := Option.some.inj hg
    apply leave_tracks
    exact h.of_eq rfl rfl (by simp [queued, inHand, hqueue])
  · cases hg

theorem next_tracks (h : Tracks items s) (hn : s.next e = some s') : Tracks items s' := by
  cases e with
  | produce => exact produce_tracks h hn
  | get => exact get_tracks h hn
  | exit =>
    simp only [next, exit] at hn
    split at hn
    · obtain rfl := Option.some.inj hn
      exact leave_tracks h
    · cases hn
  | cancel =>
    simp only [next, cancel] at hn
    split at hn
    · split at hn
      · obtain rfl := Option.some.inj hn
        exact h.of_eq rfl rfl rfl
      · obtain rfl := Option.some.inj hn
        refine h.of_eq rfl rfl ?_
        show (s.enqueue none).queued ++ s.inHand ++ s.rest = _
        simp
    · cases hn
  | close =>
    simp only [next, close] at hn
    split at hn
    · rename_i hcons
      split at hn
      · obtain rfl := Option.some.inj hn
        exact h
      · split at hn
        · obtain rfl := Option.some.inj hn
          exact ⟨h.before, fun _ => h.all (Or.inl hcons)⟩
        · obtain rfl := Option.some.inj hn
          refine h.of_eq rfl rfl ?_
          show (s.enqueue none).queued ++ s.inHand ++ s.rest = _
          simp
    · cases hn
  | resumeClose =>
    simp only [next, resumeClose] at hn
    split at hn
    · rename_i hcons
      split at hn
      · cases hn
      · obtain rfl := Option.some.inj hn
        refine ⟨h.before, fun _ => ?_⟩
        rw [← h.all (Or.inr hcons)]
        show s.seen ++ (s.enqueue none).queued ++ s.inHand ++ s.rest = _
        simp
    · cases hn
  | join =>
    simp only [next, join] at hn
    split at hn
    · obtain rfl := Option.some.inj hn
      exact ⟨h.before, fun hc => by rcases hc with hc | hc <;> cases hc⟩
    · cases hn

theorem step_tracks (h : Tracks items s) (e : PipelineEvent) : Tracks items (step s e).2 := by
  unfold step
  cases hn : s.next e with
  | none => exact h
  | some s' => exact next_tracks h hn

/-! ### A consumer that does not leave early -/

/-- The sentinel of a producer that has ended. -/
def endMark : ProducerTask α → List (Option α)
  | .done => [none]
  | _ => []

/-- While the consumer iterates and neither leaves nor closes, the queue has items only, and a sentinel behind them once
the producer has ended; and the producer does not end before it has put all of its items. -/
structure Undisturbed (s : PipelineCoordinator α) : Prop where
  listening : s.consumerCancelled = false
  closed : s.closed = true ↔ s.producer = .closing ∨ s.producer = .done
  rest : s.closed = true → s.rest = []
  queue : ∃ xs : List α, s.queue = xs.map some ++ endMark s.producer

/-- The consumer iterates undisturbed, or it has seen everything. -/
def Served (items : List α) (s : PipelineCoordinator α) : Prop :=
  (s.consumer = .iterating ∧ s.Undisturbed) ∨ ((s.consumer = .leaving ∨ s.consumer = .done) ∧ s.seen = items)

theorem Undisturbed.not_closed (h : s.Undisturbed) (hclosing : s.producer ≠ .closing) (hdone : s.producer ≠ .done) :
    s.closed = false := by
  cases hc : s.closed with
  | false => rfl
  | true =>
    rcases h.closed.1 hc with hp | hp
    · exact absurd hp hclosing
    · exact absurd hp hdone

theorem endProducer_undisturbed (h : s.Undisturbed) (hrun : s.producer = .running) (hrest : s.rest = []) :
    s.endProducer.Undisturbed := by
  have hopen := h.not_closed (by simp [hrun]) (by simp [hrun])
  obtain ⟨xs, hxs⟩ := h.queue
  simp only [hrun, endMark, List.append_nil] at hxs
  unfold endProducer
  rw [hopen]
  simp only [Bool.false_eq_true, ↓reduceIte]
  split
  · exact ⟨h.listening, by simp, fun _ => hrest, xs, by simpa [endMark] using hxs⟩
  · exact ⟨h.listening, by simp, fun _ => hrest, xs, by simp [enqueue, endMark, hxs]⟩

theorem produce_undisturbed (h : s.Undisturbed) (hp : s.produce = some s') : s'.Undisturbed := by
  obtain ⟨xs, hxs⟩ := h.queue
  unfold produce at hp
  cases hprod : s.producer with
  | running =>
    have hopen := h.not_closed (by simp [hprod]) (by simp [hprod])
    rw [hprod] at hp
    simp only [hprod, endMark, List.append_nil] at hxs
    obtain rfl := Option.some.inj hp
    unfold produceNext
    cases hrest : s.rest with
    | nil => exact endProducer_undisturbed h hprod hrest
    | cons x rest =>
      dsimp only
      rw [if_neg (by simp [hopen, h.listening])]
      split
      · exact ⟨h.listening, by simp [hopen], by simp [hopen], xs, by simpa [endMark] using hxs⟩
      · refine ⟨h.listening, by simp [enqueue, hopen, hprod], by simp [enqueue, hopen], xs ++ [x], ?_⟩
        simp [enqueue, endMark, hxs, hprod]
  | putting x =>
    have hopen := h.not_closed (by simp [hprod]) (by simp [hprod])
    rw [hprod] at hp hxs
    dsimp only at hp
    split at hp
    · cases hp
    · obtain rfl := Option.some.inj hp
      refine ⟨h.listening, by simp [enqueue, hopen], by simp [enqueue, hopen], xs ++ [x], ?_⟩
      simp [enqueue, endMark, hxs]
  | closing =>
    have hclosed : s.closed = true := h.closed.2 (Or.inl hprod)
    rw [hprod] at hp hxs
    dsimp only at hp
    split at hp
    · cases hp
    · obtain rfl := Option.some.inj hp
      exact ⟨h.listening, by simp [enqueue, hclosed], fun _ => h.rest hclosed, xs, by simp [enqueue, endMark, hxs]⟩
  | done =>
    rw [hprod] at hp
    cases hp

/-- A consumer that gets the sentinel has seen all items. -/
theorem get_served (ht : Tracks items s) (h : s.Undisturbed) (hg : s.get = some s') : Served items s' := by
  obtain ⟨xs, hxs⟩ := h.queue
  unfold get at hg
  split at hg
  · rename_i x queue hcons hqueue
    obtain rfl := Option.some.inj hg
    refine Or.inl ⟨hcons, h.listening, h.closed, h.rest, ?_⟩
    rw [hqueue] at hxs
    cases xs with
    | nil =>
      exfalso
      cases hprod : s.producer <;> rw [hprod] at hxs <;> simp [endMark] at hxs
    | cons y ys =>
      simp only [List.map_cons, List.cons_append, List.cons.injEq] at hxs
      exact ⟨ys, hxs.2⟩
  · rename_i queue hcons hqueue
    obtain rfl := Option.some.inj hg
    refine Or.inr ⟨Or.inl rfl, ?_⟩
    rw [hqueue] at hxs
    cases xs with
    | cons y ys => simp at hxs
    | nil =>
      have hdone : s.producer = .done := by
        cases hprod : s.producer <;> rw [hprod] at hxs <;> first | rfl | simp [endMark] at hxs
      have hempty : queue = [] := by simpa [hdone, endMark] using hxs
      have hrest := h.rest (h.closed.2 (Or.inr hdone))
      have hall := ht.all (Or.inl hcons)
      rw [queued, hqueue, hempty, hrest, inHand, hdone] at hall
      show s.seen = items
      simpa using hall
  · cases hg

theorem next_served (he : e.Patient) (ht : Tracks items s) (h : Served items s) (hn : s.next e = some s') :
    Served items s' := by
  obtain ⟨hexit, hcancel, hclose⟩ := he
  cases e with
  | produce =>
    obtain ⟨hseen, hcons, -, -⟩ := produce_frame hn
    rcases h with ⟨hit, hu⟩ | ⟨hleft, hall⟩
    · exact Or.inl ⟨hcons.trans hit, produce_undisturbed hu hn⟩
    · exact Or.inr ⟨by rw [hcons]; exact hleft, hseen.trans hall⟩
  | get =>
    rcases h with ⟨-, hu⟩ | ⟨hleft, -⟩
    · exact get_served ht hu hn
    · simp only [next, get] at hn
      rcases hleft with hleft | hleft <;> rw [hleft] at hn <;> cases hn
  | resumeClose =>
    simp only [next, resumeClose] at hn
    rcases h with ⟨hit, -⟩ | ⟨hleft | hleft, -⟩
    · rw [hit] at hn
      cases hn
    all_goals
      rw [hleft] at hn
      cases hn
  | join =>
    simp only [next, join] at hn
    split at hn
    · rename_i hleaving _
      obtain rfl := Option.some.inj hn
      rcases h with ⟨hit, -⟩ | ⟨-, hall⟩
      · rw [hleaving] at hit
        cases hit
      · exact Or.inr ⟨Or.inr rfl, hall⟩
    · cases hn
  | exit => exact absurd rfl hexit
  | cancel => exact absurd rfl hcancel
  | close => exact absurd rfl hclose

theorem step_served (he : e.Patient) (ht : Tracks items s) (h : Served items s) : Served items (step s e).2 := by
  unfold step
  cases hn : s.next e with
  | none => exact h
  | some s' => exact next_served he ht h hn

/-! ### Room for the producer -/

/-- The entries that the producer may still put once the consumer has left. -/
def needed (s : PipelineCoordinator α) : Nat :=
  match s.producer with
  | .running => if s.closed then 0 else 1
  | .putting _ => if s.closed then 1 else 2
  | .closing => 1
  | .done => 0

/-- The consumer may leave: there is room for two entries, or the producer needs at most one. -/
def MayLeave (s : PipelineCoordinator α) : Prop := 2 ≤ s.bufferSize ∨ (∀ x, s.producer ≠ .putting x) ∨ s.closed = true

/-- What the consumer does of itself: it leaves, or puts a sentinel by `cancel`, only when it may, and it calls `close`
only when the queue has room. -/
def Orderly (s : PipelineCoordinator α) : PipelineEvent → Prop
  | .exit => s.MayLeave
  | .cancel => s.MayLeave ∨ s.Full
  | .close => s.closed = true ∨ ¬ s.Full
  | _ => True

/-- What holds in an orderly run. -/
structure Inv (s : PipelineCoordinator α) : Prop where
  positive : 0 < s.bufferSize
  room : s.queue.length ≤ s.bufferSize
  calm : s.consumer ≠ .closing
  marked : none ∈ s.queue → s.closed = true ∨ s.consumerCancelled = true
  ended : s.producer = .closing ∨ s.producer = .done → s.closed = true
  awaited : s.consumer = .iterating → s.closed = true → none ∈ s.queue ∨ s.producer = .closing
  mayLeave : s.consumer = .iterating → none ∈ s.queue → s.MayLeave
  left : s.consumer = .leaving → s.consumerCancelled = true ∧ s.queue.length + s.needed ≤ s.bufferSize
  joined : s.consumer = .done → s.producer = .done

theorem inv_create {bufferSize : Int} (h : create bufferSize items = .ok s) : s.Inv := by
  unfold create at h
  split at h
  · cases h
  · obtain rfl := Except.ok.inj h
    exact ⟨by dsimp only; omega, by simp, by simp, by simp, by simp, by simp, by simp, by simp, by simp⟩

theorem needed_le_two (s : PipelineCoordinator α) : s.needed ≤ 2 := by
  unfold needed
  split <;> (try split) <;> omega

/-- A drained queue has the room that the producer needs. -/
theorem Inv.leave (h : s.Inv) (hmay : s.MayLeave) : s.leave.Inv := by
  have hneeded : ∀ n, s.producer = .done ∨ n = 0 → n ≤ s.bufferSize → n + s.needed ≤ s.bufferSize := by
    intro n hn hle
    have hpos := h.positive
    unfold needed
    rcases hn with hd | rfl
    · rw [hd]
      exact hle
    · rcases hmay with h2 | hp | hc
      · have := needed_le_two s
        unfold needed at this
        omega
      · cases hprod : s.producer with
        | putting x => exact absurd hprod (hp x)
        | running =>
          dsimp only
          split <;> omega
        | closing => dsimp only; omega
        | done => dsimp only; omega
      · rw [hc]
        split <;> simp <;> omega
  have hlen : s.leave.queue.length + s.needed ≤ s.bufferSize := by
    unfold PipelineCoordinator.leave
    cases hprod : s.producer with
    | done => exact hneeded s.queue.length (Or.inl hprod) h.room
    | running => exact hneeded 0 (Or.inr rfl) (Nat.zero_le _)
    | putting x => exact hneeded 0 (Or.inr rfl) (Nat.zero_le _)
    | closing => exact hneeded 0 (Or.inr rfl) (Nat.zero_le _)
  refine ⟨h.positive, ?_, by simp [PipelineCoordinator.leave], fun _ => Or.inr rfl, h.ended, ?_, ?_, fun _ => ⟨rfl, hlen⟩, ?_⟩
  · show s.leave.queue.length ≤ s.bufferSize
    omega
  all_goals simp [PipelineCoordinator.leave]

theorem Inv.endProducer (h : s.Inv) (hrun : s.producer = .running) : s.endProducer.Inv := by
  unfold PipelineCoordinator.endProducer
  split
  · rename_i hc
    refine ⟨h.positive, h.room, h.calm, h.marked, fun _ => hc, ?_, ?_, ?_, fun _ => rfl⟩
    · intro hit hcl
      rcases h.awaited hit hcl with hm | hp
      · exact Or.inl hm
      · rw [hrun] at hp
        cases hp
    · intro _ _
      exact Or.inr (Or.inr hc)
    · intro hl
      obtain ⟨h1, h2⟩ := h.left hl
      exact ⟨h1, by simp only [needed] at h2 ⊢; omega⟩
  · rename_i hc
    split
    · rename_i hfull
      refine ⟨h.positive, h.room, h.calm, fun _ => Or.inl rfl, fun _ => rfl, fun _ _ => Or.inr rfl, ?_, ?_, ?_⟩
      · exact fun _ _ => Or.inr (Or.inr rfl)
      · intro hl
        obtain ⟨h1, h2⟩ := h.left hl
        unfold Full at hfull
        simp only [needed, hrun, hc] at h2
        simp at h2
        omega
      · intro hd
        have := h.joined hd
        rw [hrun] at this
        cases this
    · rename_i hfull
      unfold Full at hfull
      refine ⟨h.positive, by simp [enqueue]; omega, h.calm, fun _ => Or.inl rfl, fun _ => rfl, ?_, ?_, ?_, fun _ => rfl⟩
      · exact fun _ _ => Or.inl (by simp [enqueue])
      · exact fun _ _ => Or.inr (Or.inr rfl)
      · intro hl
        obtain ⟨h1, -⟩ := h.left hl
        exact ⟨h1, by simp [enqueue, needed]; omega⟩

theorem Inv.produceNext (h : s.Inv) (hrun : s.producer = .running) : s.produceNext.Inv := by
  unfold PipelineCoordinator.produceNext
  split
  · exact h.endProducer hrun
  · rename_i x xs hrest
    split
    · exact h.endProducer hrun
    · rename_i hopen
      simp only [not_or, Bool.not_eq_true] at hopen
      -- the consumer still iterates, and there is no sentinel
      have hnone : none ∉ s.queue := by
        intro hm
        rcases h.marked hm with hc | hc
        · rw [hopen.1] at hc
          cases hc
        · rw [hopen.2] at hc
          cases hc
      have hleft : s.consumer ≠ .leaving := fun hl => by
        have := (h.left hl).1
        rw [hopen.2] at this
        cases this
      have hdone : s.consumer ≠ .done := fun hd => by
        have := h.joined hd
        rw [hrun] at this
        cases this
      split
      · exact ⟨h.positive, h.room, h.calm, fun hm => absurd hm hnone, by simp, by simp [hopen.1],
          fun _ hm => absurd hm hnone, fun hl => absurd hl hleft, fun hd => absurd hd hdone⟩
      · rename_i hfull
        unfold Full at hfull
        have hnone' : none ∉ (s.enqueue (some x)).queue := by simpa [enqueue] using hnone
        exact ⟨h.positive, by simp [enqueue]; omega, h.calm, fun hm => absurd hm hnone', h.ended,
          by simp [enqueue, hopen.1], fun _ hm => absurd hm hnone', fun hl => absurd hl hleft, fun hd => absurd hd hdone⟩

/-- A waiting producer puts what it waits with. -/
theorem Inv.putEntry (h : s.Inv) (x : Option α) (hroom : ¬ s.Full) {p : ProducerTask α} (hnone : x = none → p = .done)
    (hdone : p = .done → x = none ∧ s.producer = .closing) (hclosing : p ≠ .closing) (hput : ∀ y, p ≠ .putting y)
    (hcost : s.consumer = .leaving → { s.enqueue x with producer := p }.needed + 1 ≤ s.needed)
    (hmark : s.closed = true → s.producer ≠ .closing ∨ x = none) (hwait : s.producer ≠ .done) :
    Inv { s.enqueue x with producer := p } := by
  unfold Full at hroom
  refine ⟨h.positive, by simp [enqueue]; omega, h.calm, ?_, ?_, ?_, ?_, ?_, ?_⟩
  · intro hm
    rcases List.mem_append.1 hm with hm | hm
    · exact h.marked hm
    · have hx : x = none := (List.mem_singleton.1 hm).symm
      exact Or.inl (h.ended (Or.inl (hdone (hnone hx)).2))
  · rintro (hc | hd)
    · exact absurd hc hclosing
    · exact h.ended (Or.inl (hdone hd).2)
  · intro hit hc
    rcases h.awaited hit hc with hm | hp
    · exact Or.inl (List.mem_append_left _ hm)
    · rcases hmark hc with hne | rfl
      · exact absurd hp hne
      · exact Or.inl (by simp [enqueue])
  · exact fun _ _ => Or.inr (Or.inl hput)
  · intro hl
    obtain ⟨h1, h2⟩ := h.left hl
    have h3 := hcost hl
    refine ⟨h1, ?_⟩
    simp only [enqueue, List.length_append, List.length_cons, List.length_nil] at h3 ⊢
    omega
  · intro hd
    exact absurd (h.joined hd) hwait

theorem Inv.produce (h : s.Inv) (hp : s.produce = some s') : s'.Inv := by
  unfold PipelineCoordinator.produce at hp
  cases hprod : s.producer with
  | running =>
    rw [hprod] at hp
    obtain rfl := Option.some.inj hp
    exact h.produceNext hprod
  | putting x =>
    rw [hprod] at hp
    dsimp only at hp
    split at hp
    · cases hp
    · rename_i hfull
      obtain rfl := Option.some.inj hp
      refine h.putEntry (some x) hfull (by simp) (by simp) (by simp) (by simp) (fun _ => ?_) (by simp [hprod]) (by simp [hprod])
      simp only [needed, hprod, enqueue]
      split <;> omega
  | closing =>
    rw [hprod] at hp
    dsimp only at hp
    split at hp
    · cases hp
    · rename_i hfull
      obtain rfl := Option.some.inj hp
      refine h.putEntry none hfull (by simp) (by simp [hprod]) (by simp) (by simp) (fun _ => ?_) (by simp) (by simp [hprod])
      simp only [needed, hprod]
      omega
  | done =>
    rw [hprod] at hp
    cases hp

theorem Inv.get (h : s.Inv) (hg : s.get = some s') : s'.Inv := by
  have hroom := h.room
  unfold PipelineCoordinator.get at hg
  split at hg
  · rename_i x queue hcons hqueue
    obtain rfl := Option.some.inj hg
    have hmem : none ∈ queue → none ∈ s.queue := fun hm => by rw [hqueue]; exact List.mem_cons_of_mem _ hm
    have hmem' : none ∈ s.queue → none ∈ queue := fun hm => by rw [hqueue] at hm; simpa using hm
    rw [hqueue, List.length_cons] at hroom
    refine ⟨h.positive, by dsimp only; omega, h.calm, fun hm => h.marked (hmem hm), h.ended, ?_,
      fun hc hm => h.mayLeave hc (hmem hm), by simp [hcons], by simp [hcons]⟩
    intro hc hcl
    rcases h.awaited hc hcl with hm | hp
    · exact Or.inl (hmem' hm)
    · exact Or.inr hp
  · rename_i queue hcons hqueue
    obtain rfl := Option.some.inj hg
    have hmark : none ∈ s.queue := by rw [hqueue]; simp
    rw [hqueue, List.length_cons] at hroom
    have hmay := h.mayLeave hcons hmark
    -- the sentinel is taken out before the consumer leaves
    have hneeded : s.leave.Inv := h.leave hmay
    refine ⟨h.positive, ?_, by simp [PipelineCoordinator.leave], fun _ => Or.inr rfl, h.ended,
      by simp [PipelineCoordinator.leave], by simp [PipelineCoordinator.leave], fun _ => ⟨rfl, ?_⟩,
      by simp [PipelineCoordinator.leave]⟩
    · have h1 := hneeded.room
      unfold PipelineCoordinator.leave at h1 ⊢
      dsimp only at h1 ⊢
      split
      · omega
      · exact Nat.zero_le _
    · obtain ⟨-, h2⟩ := hneeded.left rfl
      unfold PipelineCoordinator.leave needed at h2 ⊢
      dsimp only at h2 ⊢
      cases hprod : s.producer <;> rw [hprod] at h2 <;> simp only [hqueue, List.length_cons] at h2 ⊢ <;> omega
  · cases hg

theorem Inv.cancel (h : s.Inv) (ho : s.MayLeave ∨ s.Full) (hn : s.cancel = some s') : s'.Inv := by
  unfold PipelineCoordinator.cancel at hn
  split at hn
  · rename_i hcons
    split at hn
    · obtain rfl := Option.some.inj hn
      exact ⟨h.positive, h.room, h.calm, fun _ => Or.inr rfl, h.ended, h.awaited, h.mayLeave, by simp [hcons],
        by simp [hcons]⟩
    · rename_i hfull
      obtain rfl := Option.some.inj hn
      have hmay : s.MayLeave := ho.resolve_right hfull
      unfold Full at hfull
      exact ⟨h.positive, by simp [enqueue]; omega, h.calm, fun _ => Or.inr rfl, h.ended, fun _ _ => Or.inl (by simp [enqueue]),
        fun _ _ => hmay, by simp [enqueue, hcons], by simp [enqueue, hcons]⟩
  · cases hn

theorem Inv.close (h : s.Inv) (ho : s.closed = true ∨ ¬ s.Full) (hn : s.close = some s') : s'.Inv := by
  unfold PipelineCoordinator.close at hn
  split at hn
  · rename_i hcons
    split at hn
    · obtain rfl := Option.some.inj hn
      exact h
    · rename_i hc
      have hfull := ho.resolve_left hc
      rw [if_neg hfull] at hn
      obtain rfl := Option.some.inj hn
      unfold Full at hfull
      exact ⟨h.positive, by simp [enqueue]; omega, h.calm, fun _ => Or.inl rfl, fun _ => rfl,
        fun _ _ => Or.inl (by simp [enqueue]), fun _ _ => Or.inr (Or.inr rfl), by simp [enqueue, hcons],
        by simp [enqueue, hcons]⟩
  · cases hn

theorem Inv.next (h : s.Inv) (ho : s.Orderly e) (hn : s.next e = some s') : s'.Inv := by
  cases e with
  | produce => exact h.produce hn
  | get => exact h.get hn
  | exit =>
    simp only [PipelineCoordinator.next, PipelineCoordinator.exit] at hn
    split at hn
    · obtain rfl := Option.some.inj hn
      exact h.leave ho
    · cases hn
  | cancel => exact h.cancel ho hn
  | close => exact h.close ho hn
  | resumeClose =>
    simp only [PipelineCoordinator.next, PipelineCoordinator.resumeClose] at hn
    split at hn
    · rename_i hcons
      exact absurd hcons h.calm
    · cases hn
  | join =>
    simp only [PipelineCoordinator.next, PipelineCoordinator.join] at hn
    split at hn
    · rename_i hcons hprod
      obtain rfl := Option.some.inj hn
      exact ⟨h.positive, h.room, by simp, h.marked, h.ended, by simp, by simp, by simp, fun _ => hprod⟩
    · cases hn

theorem step_inv (h : s.Inv) (ho : s.Orderly e) : (step s e).2.Inv := by
  unfold step
  cases hn : s.next e with
  | none => exact h
  | some s' => exact h.next ho hn

/-! ### Progress -/

/-- The steps that the producer may still take, apart from its items. -/
def producerRank : ProducerTask α → Nat
  | .running => 3
  | .putting _ => 5
  | .closing => 2
  | .done => 0

/-- The steps that the consumer may still take, apart from the queue. -/
def consumerRank : ConsumerTask → Nat
  | .closing => 4
  | .iterating => 2
  | .leaving => 1
  | .done => 0

/-- A bound on the steps that the tasks can still take of themselves. -/
def measure (s : PipelineCoordinator α) : Nat :=
  3 * s.rest.length + producerRank s.producer + s.queue.length + consumerRank s.consumer

/-- A task can take a step of itself. -/
def CanMove (s : PipelineCoordinator α) (e : PipelineEvent) : Prop := e.Own ∧ (s.next e).isSome

/-- Both tasks have ended. -/
def Finished (s : PipelineCoordinator α) : Prop := s.producer = .done ∧ s.consumer = .done

theorem measure_endProducer (hrun : s.producer = .running) : s.endProducer.measure < s.measure := by
  unfold endProducer measure
  rw [hrun]
  split
  · simp only [producerRank]
    omega
  · split
    · simp only [producerRank]
      omega
    · simp only [producerRank, enqueue, List.length_append, List.length_cons, List.length_nil]
      omega

theorem measure_produce (hp : s.produce = some s') : s'.measure < s.measure := by
  unfold produce at hp
  cases hprod : s.producer with
  | running =>
    rw [hprod] at hp
    obtain rfl := Option.some.inj hp
    unfold produceNext
    split
    · exact measure_endProducer hprod
    · rename_i x xs hrest
      split
      · exact measure_endProducer hprod
      · unfold measure
        rw [hrest, hprod, List.length_cons]
        split
        · simp only [producerRank]
          omega
        · simp only [producerRank, enqueue, hprod, List.length_append, List.length_cons, List.length_nil]
          omega
  | done =>
    rw [hprod] at hp
    cases hp
  | putting x =>
    rw [hprod] at hp
    dsimp only at hp
    split at hp
    · cases hp
    · obtain rfl := Option.some.inj hp
      simp only [measure, hprod, producerRank, enqueue, List.length_append, List.length_cons, List.length_nil]
      omega
  | closing =>
    rw [hprod] at hp
    dsimp only at hp
    split at hp
    · cases hp
    · obtain rfl := Option.some.inj hp
      simp only [measure, hprod, producerRank, enqueue, List.length_append, List.length_cons, List.length_nil]
      omega

theorem length_leave_le (s : PipelineCoordinator α) : s.leave.queue.length ≤ s.queue.length := by
  unfold leave
  dsimp only
  split
  · exact Nat.le_refl _
  · simp

theorem measure_get (hg : s.get = some s') : s'.measure < s.measure := by
  unfold get at hg
  split at hg
  · rename_i x queue hcons hqueue
    obtain rfl := Option.some.inj hg
    simp only [measure, hqueue, List.length_cons]
    omega
  · rename_i queue hcons hqueue
    obtain rfl := Option.some.inj hg
    have hle := length_leave_le { s with queue := queue }
    simp only [measure, hqueue, hcons, consumerRank, List.length_cons]
    show 3 * s.rest.length + producerRank s.producer + { s with queue := queue }.leave.queue.length + 1 < _
    dsimp only at hle
    omega
  · cases hg

theorem measure_next (he : e.Own) (hn : s.next e = some s') : s'.measure < s.measure := by
  rcases he with rfl | rfl | rfl | rfl
  · exact measure_produce hn
  · exact measure_get hn
  · simp only [next, resumeClose] at hn
    split at hn
    · rename_i hcons
      split at hn
      · cases hn
      · obtain rfl := Option.some.inj hn
        simp only [measure, enqueue, hcons, consumerRank, List.length_append, List.length_cons, List.length_nil]
        omega
    · cases hn
  · simp only [next, join] at hn
    split at hn
    · rename_i hcons hprod
      obtain rfl := Option.some.inj hn
      simp only [measure, hcons, consumerRank]
      omega
    · cases hn

/-- The tasks cannot go on for ever. -/
theorem length_moves_le {ms : List PipelineEvent} (h : Machine.AllSteps step CanMove s ms) : ms.length ≤ s.measure := by
  induction ms generalizing s with
  | nil => exact Nat.zero_le _
  | cons e ms ih =>
    obtain ⟨⟨hown, hsome⟩, hrest⟩ := h
    obtain ⟨s', hn⟩ := Option.isSome_iff_exists.1 hsome
    have hlt := measure_next hown hn
    have hle := ih hrest
    simp only [step, hn, Option.getD_some] at hle
    rw [List.length_cons]
    omega

/-- A producer that has not ended can go on when the queue has room. -/
theorem produce_isSome (hroom : ¬ s.Full) (hp : s.producer ≠ .done) : (s.next .produce).isSome := by
  unfold next produce
  cases hprod : s.producer with
  | running => rfl
  | putting x => simp [hroom]
  | closing => simp [hroom]
  | done => exact absurd hprod hp

/-- In an orderly run nothing is stuck: unless both tasks have ended, one of them can go on. -/
theorem Inv.canMove (h : s.Inv) (hf : ¬ s.Finished) : ∃ e, s.CanMove e := by
  cases hcons : s.consumer with
  | closing => exact absurd hcons h.calm
  | done => exact absurd ⟨h.joined hcons, hcons⟩ hf
  | leaving =>
    obtain ⟨-, hlen⟩ := h.left hcons
    cases hprod : s.producer with
    | done => exact ⟨.join, by simp [PipelineEvent.Own], by simp [PipelineCoordinator.next, join, hcons, hprod]⟩
    | running => exact ⟨.produce, by simp [PipelineEvent.Own], by simp [PipelineCoordinator.next, PipelineCoordinator.produce, hprod]⟩
    | putting x =>
      refine ⟨.produce, by simp [PipelineEvent.Own], produce_isSome ?_ (by simp [hprod])⟩
      simp only [needed, hprod] at hlen
      unfold Full
      split at hlen <;> omega
    | closing =>
      refine ⟨.produce, by simp [PipelineEvent.Own], produce_isSome ?_ (by simp [hprod])⟩
      simp only [needed, hprod] at hlen
      unfold Full
      omega
  | iterating =>
    cases hqueue : s.queue with
    | cons x queue =>
      refine ⟨.get, by simp [PipelineEvent.Own], ?_⟩
      cases x <;> simp [PipelineCoordinator.next, PipelineCoordinator.get, hcons, hqueue]
    | nil =>
      refine ⟨.produce, by simp [PipelineEvent.Own], produce_isSome ?_ ?_⟩
      · have hpos := h.positive
        unfold Full
        rw [hqueue, List.length_nil]
        omega
      · intro hd
        rcases h.awaited hcons (h.ended (Or.inr hd)) with hm | hp
        · rw [hqueue] at hm
          cases hm
        · rw [hd] at hp
          cases hp

theorem canMove_orderly (h : s.CanMove e) : s.Orderly e := by
  rcases h.1 with rfl | rfl | rfl | rfl <;> trivial

/-! ### The main result -/

/-- In every orderly run the consumer sees a prefix of the items, and all of them when it leaves without having left early;
and whatever the tasks do from there, they end after finitely many steps, both of them, and are never stuck before. -/
theorem orderly_run_delivers {bufferSize : Int} {s₀ : PipelineCoordinator α} (h₀ : create bufferSize items = .ok s₀)
    (es : List PipelineEvent) (hall : Machine.AllSteps step Orderly s₀ es) :
    let s := Machine.final step s₀ es
    s.seen <+: items ∧
    ((∀ e ∈ es, e.Patient) → s.consumer ≠ .iterating → s.seen = items) ∧
    ∀ ms, Machine.AllSteps step CanMove s ms →
      ms.length ≤ s.measure ∧ ((Machine.final step s ms).Finished ∨ ∃ e, (Machine.final step s ms).CanMove e) := by
  intro s
  have htracks₀ : Tracks items s₀ := tracks_create h₀
  have htracks : Tracks items s := Machine.final_of_step (I := Tracks items) (fun t e ht => step_tracks ht e) es htracks₀
  have hinv : s.Inv := Machine.final_of_steps (fun t e ht ho => step_inv ht ho) (inv_create h₀) hall
  refine ⟨htracks.before, ?_, ?_⟩
  · intro hpatient hcons
    have hserved₀ : Served items s₀ := by
      unfold create at h₀
      split at h₀
      · cases h₀
      · obtain rfl := Except.ok.inj h₀
        exact Or.inl ⟨rfl, rfl, by simp, by simp, [], rfl⟩
    have hsteps : Machine.AllSteps step (fun _ e => e.Patient) s₀ es := Machine.allSteps_of_forall hpatient
    have hserved : Tracks items s ∧ Served items s :=
      Machine.final_of_steps (I := fun t => Tracks items t ∧ Served items t)
        (fun t e ht he => ⟨step_tracks ht.1 e, step_served he ht.1 ht.2⟩) ⟨htracks₀, hserved₀⟩ hsteps
    rcases hserved.2 with ⟨hit, -⟩ | ⟨-, hseen⟩
    · exact absurd hit hcons
    · exact hseen
  · intro ms hms
    refine ⟨length_moves_le hms, ?_⟩
    have hend : (Machine.final step s ms).Inv :=
      Machine.final_of_steps (fun t e ht hm => step_inv ht (canMove_orderly hm)) hinv hms
    by_cases hf : (Machine.final step s ms).Finished
    · exact Or.inl hf
    · exact Or.inr (hend.canMove hf)

/-- A pipeline with room for one entry. -/
def examplePipeline : PipelineCoordinator Nat := { bufferSize := 1, rest := [1, 2, 3] }

/-- The consumer leaves after one item, while the producer waits in `put` with another one. -/
def exampleExit : List PipelineEvent := [.produce, .get, .produce, .produce, .exit, .produce, .produce]

/-- Where no event changes anything, nothing ever will. -/
theorem final_of_stuck (h : ∀ e, s.next e = none) (es : List PipelineEvent) : Machine.final step s es = s := by
  induction es with
  | nil => rfl
  | cons e es ih =>
    show Machine.final step ((s.next e).getD s) es = s
    rw [h e]
    exact ih

/-- The item and the sentinel do not both fit: the producer waits in `close` and the consumer for it, for ever. -/
theorem early_exit_deadlocks :
    create 1 [1, 2, 3] = .ok examplePipeline ∧
      ∀ es, (Machine.final step examplePipeline (exampleExit ++ es)).producer = .closing ∧
        (Machine.final step examplePipeline (exampleExit ++ es)).consumer = .leaving := by
  have hstuck : ∀ e, (Machine.final step examplePipeline exampleExit).next e = none := by
    intro e
    cases e <;> decide
  refine ⟨rfl, fun es => ?_⟩
  rw [Machine.final_append, final_of_stuck hstuck]
  decide

/-- With room for two entries the same run is orderly, and both tasks end. -/
theorem roomy_exit_ends :
    (∃ e, (Machine.final step { examplePipeline with bufferSize := 2 } exampleExit).CanMove e) ∨
      (Machine.final step { examplePipeline with bufferSize := 2 } exampleExit).Finished := by
  have hall : Machine.AllSteps step Orderly { examplePipeline with bufferSize := 2 } exampleExit :=
    ⟨trivial, trivial, trivial, trivial, Or.inl (by decide), trivial, trivial, trivial⟩
  obtain ⟨-, -, hmoves⟩ := orderly_run_delivers
    (rfl : create 2 [1, 2, 3] = .ok { examplePipeline with bufferSize := 2 }) exampleExit hall
  exact (hmoves [] trivial).2.symm

end PipelineCoordinator

end KakeyaEngine
