import KakeyaEngine.Sdk.TimedStream

/-!
# The token stream of the TypeScript library

`Session.generate` starts the call and returns an async generator.  Its body attaches the listeners, and runs only when
the first token is asked for; until then Node holds frames and the end back, and an error has nobody to catch it.  The
listeners fill a buffer and wake the generator, which empties the buffer before it waits again.  It never cancels the call.

`bridged_of_run` says what holds in every run in which no error comes before the listeners and the iterator is not dropped
while the call is running.
-/

namespace KakeyaEngine

namespace Sdk

/-- Where the generator stands: not yet asked, in its loop, at the `await` with `resolveNext` set, at a `yield`, or at
its end. -/
inductive Generator
  | fresh
  | looping
  | waiting
  | suspended
  | ended (o : Outcome)
deriving DecidableEq

/-- The call, the listeners, the buffer `events`, the generator with the requests it has not answered, and what the
consumer has got.  `arrived` records what the call has delivered. -/
structure EventStream where
  arrived : List Item := []
  unread : List Item := []
  listening : Bool := false
  uncaught : Option RpcError := none
  events : List Item := []
  generator : Generator := .fresh
  requests : List Ask := []
  yielded : List Token := []
  last : LastResult := {}
deriving DecidableEq

/-- The end or the error of a call. -/
def Item.isEnd : Item → Bool
  | .frame _ => false
  | _ => true

def Item.token? : Item → Option Token
  | .frame (.tokenId t) => some t
  | _ => none

namespace EventStream

/-- `wakeup`. -/
def wakeup (s : EventStream) : EventStream := if s.generator = .waiting then { s with generator := .looping } else s

/-- The listeners: an event goes to the buffer. -/
def push (s : EventStream) (item : Item) : EventStream := wakeup { s with events := s.events ++ [item] }

/-- The call delivers an item.  Frames and the end wait for a listener and behind what already waits; an error is emitted
at once. -/
def arrive (s : EventStream) (item : Item) : EventStream :=
  match item with
  | .raised e =>
    if s.listening then { s with arrived := s.arrived ++ [item] }.push item
    else { s with arrived := s.arrived ++ [item], uncaught := some e }
  | _ =>
    if s.listening && s.unread.isEmpty then { s with arrived := s.arrived ++ [item] }.push item
    else { s with arrived := s.arrived ++ [item], unread := s.unread ++ [item] }

/-- Node emits what it has held back. -/
def flow (s : EventStream) : EventStream :=
  match s.listening, s.unread with
  | true, item :: rest => { s with unread := rest }.push item
  | _, _ => s

/-- The body of the inner loop. -/
def handle (s : EventStream) : Item → EventStream
  | .raised e => { s with generator := .ended (.raised (wrapGrpcError e)), requests := s.requests.tail }
  | .stop => { s with generator := .ended .returned, requests := s.requests.tail }
  | .frame (.tokenId t) =>
    { s with generator := .suspended, requests := s.requests.tail, yielded := s.yielded ++ [t] }
  | .frame f => { s with last := s.last.note f }

/-- The generator goes on: it takes up the next request, or an event, or waits. -/
def advance (s : EventStream) : EventStream :=
  match s.generator, s.requests, s.events with
  | .fresh, .pull :: _, _ => { s with listening := true, generator := .looping }
  | .suspended, .pull :: _, _ => { s with generator := .looping }
  | .fresh, .drop :: requests, _ | .suspended, .drop :: requests, _ =>
    { s with generator := .ended .dropped, requests := requests }
  | .looping, _, [] => { s with generator := .waiting }
  | .looping, _, item :: rest => { s with events := rest }.handle item
  | .ended _, _ :: requests, _ => { s with requests := requests }
  | _, _, _ => s

end EventStream

/-- What can happen: the call delivers an item, Node emits one, the consumer makes a request, the generator goes on. -/
inductive BridgeEvent
  | arrive (item : Item)
  | flow
  | ask (a : Ask)
  | advance
deriving DecidableEq

namespace EventStream

def step (s : EventStream) : BridgeEvent → Unit × EventStream
  | .arrive item => ((), s.arrive item)
  | .flow => ((), s.flow)
  | .ask a => ((), { s with requests := s.requests ++ [a] })
  | .advance => ((), s.advance)

/-! ### What a consumer may rely on -/

/-- The tokens before the end or the error. -/
def tokenIds (items : List Item) : List Token := (items.takeWhile fun i => !i.isEnd).filterMap Item.token?

/-- The call has neither ended nor failed. -/
def callRunning (s : EventStream) : Bool := !s.arrived.any Item.isEnd

/-- The tokens come in their order, the end and the error end the iterator behind all of them, a waiting generator has
missed nothing, no error went uncaught, and a dropped iterator leaves no call running. -/
structure Bridged (s : EventStream) : Prop where
  inOrder : s.yielded <+: tokenIds s.arrived
  returned : s.generator = .ended .returned →
    s.arrived.find? Item.isEnd = some .stop ∧ s.yielded = tokenIds s.arrived
  raised : ∀ e, s.generator = .ended (.raised e) → ∃ r, s.arrived.find? Item.isEnd = some (.raised r) ∧
    e = wrapGrpcError r ∧ s.yielded = tokenIds s.arrived
  awake : s.generator = .waiting → s.unread = [] → s.yielded = tokenIds s.arrived ∧ s.callRunning = true
  caught : s.uncaught = none
  dropped : s.generator = .ended .dropped → s.callRunning = false

/-- An error finds the listeners attached and nothing held back before it, and the iterator is dropped only after the
call. -/
def Safe (s : EventStream) : BridgeEvent → Prop
  | .arrive (.raised _) => s.listening = true ∧ s.unread = []
  | .advance => s.generator = .fresh ∨ s.generator = .suspended → s.requests.head? = some .drop → s.callRunning = false
  | _ => True

/-! ### The account of a run -/

variable {s : EventStream} {handled rest : List Item} {item : Item}

theorem tokenIds_append (h : ∀ i ∈ handled, i.isEnd = false) :
    tokenIds (handled ++ rest) = handled.filterMap Item.token? ++ tokenIds rest := by
  unfold tokenIds
  rw [List.takeWhile_append_of_pos fun i hi => by rw [h i hi]; rfl, List.filterMap_append]

theorem tokenIds_end (hend : item.isEnd = true) : tokenIds (item :: rest) = [] := by
  unfold tokenIds
  rw [List.takeWhile_cons_of_neg (by rw [hend]; decide)]
  rfl

theorem find?_end (h : ∀ i ∈ handled, i.isEnd = false) (hend : item.isEnd = true) :
    (handled ++ item :: rest).find? Item.isEnd = some item := by
  have hnone : handled.find? Item.isEnd = none := List.find?_eq_none.2 fun i hi => by rw [h i hi]; decide
  rw [List.find?_append, hnone, List.find?_cons_of_pos hend]
  rfl

/-- What the generator has handled: frames alone, and behind them what made it return or throw. -/
def Standing (handled : List Item) : Generator → Prop
  | .ended .returned => ∃ frames, handled = frames ++ [.stop] ∧ ∀ i ∈ frames, i.isEnd = false
  | .ended (.raised e) => ∃ frames r, handled = frames ++ [.raised r] ∧ e = wrapGrpcError r ∧ ∀ i ∈ frames, i.isEnd = false
  | _ => ∀ i ∈ handled, i.isEnd = false

/-- What has arrived was handled, is in the buffer or is held back. -/
structure Accounts (s : EventStream) (handled : List Item) : Prop where
  arrived : s.arrived = handled ++ (s.events ++ s.unread)
  yielded : s.yielded = handled.filterMap Item.token?
  standing : Standing handled s.generator
  emptied : s.generator = .waiting → s.events = []
  unheard : s.listening = false → s.events = []
  caught : s.uncaught = none
  dropped : s.generator = .ended .dropped → s.callRunning = false

/-- The invariant of a run. -/
def Kept (s : EventStream) : Prop := ∃ handled, s.Accounts handled

theorem callRunning_append {t : EventStream} {more : List Item} (ht : t.arrived = s.arrived ++ more)
    (h : s.callRunning = false) : t.callRunning = false := by
  unfold callRunning at h ⊢
  rw [ht, List.any_append, Bool.not_or, h, Bool.false_and]

/-- An event that reaches the buffer. -/
theorem Accounts.push (h : s.Accounts handled) (hlisten : s.listening = true) {arrived more : List Item} (unread : List Item)
    (hmore : arrived = s.arrived ++ more) (harrived : arrived = handled ++ (s.events ++ item :: unread)) :
    ({ s with arrived := arrived, unread := unread }.push item).Accounts handled := by
  have hassoc : arrived = handled ++ ((s.events ++ [item]) ++ unread) := by
    rw [harrived]
    simp
  have hunheard : s.listening = false → s.events ++ [item] = [] := by
    intro hn
    rw [hlisten] at hn
    cases hn
  unfold EventStream.push wakeup
  split
  · rename_i hwait
    have hstanding := h.standing
    rw [show s.generator = .waiting from hwait] at hstanding
    refine ⟨hassoc, h.yielded, hstanding, fun hw => ?_, hunheard, h.caught, fun hd => ?_⟩
    · cases hw
    · cases hd
  · rename_i hwait
    exact ⟨hassoc, h.yielded, h.standing, fun hw => absurd hw hwait, hunheard, h.caught,
      fun hd => callRunning_append hmore (h.dropped hd)⟩

theorem Accounts.listening (h : s.Accounts handled) (hevents : s.events ≠ []) : s.listening = true := by
  rcases hl : s.listening with _ | _
  · exact absurd (h.unheard hl) hevents
  · rfl

/-- The generator takes an event from the buffer. -/
theorem Accounts.handle (h : s.Accounts handled) (hloop : s.generator = .looping) (hevents : s.events = item :: rest) :
    ({ s with events := rest }.handle item).Accounts (handled ++ [item]) := by
  have hopen : ∀ i ∈ handled, i.isEnd = false := by
    have hstanding := h.standing
    rw [hloop] at hstanding
    exact hstanding
  have hlistening : s.listening = true := h.listening (by rw [hevents]; exact List.cons_ne_nil _ _)
  have hunheard : s.listening = false → rest = [] := by
    intro hn
    rw [hlistening] at hn
    cases hn
  have harr : s.arrived = (handled ++ [item]) ++ (rest ++ s.unread) := by
    rw [h.arrived, hevents]
    simp
  have hnone : item.token? = none → s.yielded = (handled ++ [item]).filterMap Item.token? := by
    intro htoken
    rw [h.yielded, List.filterMap_append, List.filterMap_cons_none htoken, List.filterMap_nil, List.append_nil]
  have hopen' : item.isEnd = false → ∀ i ∈ handled ++ [item], i.isEnd = false := by
    intro hitem i hi
    rcases List.mem_append.1 hi with hi | hi
    · exact hopen i hi
    · rw [List.mem_singleton.1 hi]
      exact hitem
  have hpass : ∀ last, item.token? = none → item.isEnd = false →
      ({ s with events := rest, last := last } : EventStream).Accounts (handled ++ [item]) := by
    intro last htoken hitem
    refine ⟨harr, hnone htoken, ?_, fun hw => ?_, hunheard, h.caught, fun hd => ?_⟩
    · show Standing _ s.generator
      rw [hloop]
      exact hopen' hitem
    · rw [show s.generator = .waiting from hw] at hloop
      cases hloop
    · rw [show s.generator = .ended .dropped from hd] at hloop
      cases hloop
  cases item with
  | stop => exact ⟨harr, hnone rfl, ⟨handled, rfl, hopen⟩, fun hw => (by cases hw), hunheard, h.caught, fun hd => (by cases hd)⟩
  | raised e =>
    exact ⟨harr, hnone rfl, ⟨handled, e, rfl, rfl, hopen⟩, fun hw => (by cases hw), hunheard, h.caught, fun hd => (by cases hd)⟩
  | frame f =>
    cases f with
    | tokenId t =>
      refine ⟨harr, ?_, hopen' rfl, fun hw => (by cases hw), hunheard, h.caught, fun hd => (by cases hd)⟩
      show s.yielded ++ [t] = _
      rw [h.yielded, List.filterMap_append]
      rfl
    | truncated n => exact hpass _ rfl rfl
    | done d => exact hpass _ rfl rfl
    | noPayload => exact hpass _ rfl rfl

/-- The generator moves on without an event. -/
theorem Accounts.move (h : s.Accounts handled) (hopen : ∀ i ∈ handled, i.isEnd = false) {t : EventStream}
    (ht : t = { s with generator := t.generator, listening := t.listening, requests := t.requests })
    (hstanding : ∀ o, t.generator = .ended o → o = .dropped ∧ s.callRunning = false)
    (hwait : t.generator = .waiting → s.events = []) (hlisten : t.listening = s.listening ∨ t.listening = true) :
    t.Accounts handled := by
  have hfields : t.arrived = s.arrived ∧ t.events = s.events ∧ t.unread = s.unread ∧ t.yielded = s.yielded ∧
      t.uncaught = s.uncaught := by
    rw [ht]
    exact ⟨rfl, rfl, rfl, rfl, rfl⟩
  obtain ⟨ha, he, hu, hy, hc⟩ := hfields
  refine ⟨by rw [ha, he, hu]; exact h.arrived, hy.trans h.yielded, ?_, fun hw => he.trans (hwait hw), fun hn => ?_,
    hc.trans h.caught, fun hd => ?_⟩
  · rcases hg : t.generator with _ | _ | _ | _ | o
    · exact hopen
    · exact hopen
    · exact hopen
    · exact hopen
    · rw [(hstanding o hg).1]
      exact hopen
  · rcases hlisten with hsame | htrue
    · exact he.trans (h.unheard (hsame.symm.trans hn))
    · rw [htrue] at hn
      cases hn
  · unfold callRunning
    rw [ha]
    exact (hstanding _ hd).2

/-- The step lemma. -/
theorem Kept.step (h : s.Kept) {e : BridgeEvent} (hsafe : s.Safe e) : (s.step e).2.Kept := by
  obtain ⟨handled, h⟩ := h
  cases e with
  | arrive item =>
    have hpush : s.listening = true → s.unread = [] →
        ({ s with arrived := s.arrived ++ [item] }.push item).Kept := by
      intro hlisten hunread
      refine ⟨handled, h.push hlisten s.unread rfl ?_⟩
      rw [h.arrived, hunread]
      simp
    have hhold : ({ s with arrived := s.arrived ++ [item], unread := s.unread ++ [item] } : EventStream).Kept := by
      refine ⟨handled, ?_, h.yielded, h.standing, h.emptied, h.unheard, h.caught,
        fun hd => callRunning_append rfl (h.dropped hd)⟩
      show s.arrived ++ [item] = _
      rw [h.arrived]
      simp
    have hframe : (if s.listening && s.unread.isEmpty then { s with arrived := s.arrived ++ [item] }.push item
        else { s with arrived := s.arrived ++ [item], unread := s.unread ++ [item] }).Kept := by
      split
      · rename_i hboth
        rw [Bool.and_eq_true, List.isEmpty_iff] at hboth
        exact hpush hboth.1 hboth.2
      · exact hhold
    cases item with
    | frame f => exact hframe
    | stop => exact hframe
    | raised e =>
      show (if s.listening then _ else _ : EventStream).Kept
      rw [if_pos hsafe.1]
      exact hpush hsafe.1 hsafe.2
  | flow =>
    show s.flow.Kept
    unfold flow
    split
    · rename_i item rest hlisten hunread
      refine ⟨handled, h.push hlisten rest (List.append_nil _).symm ?_⟩
      rw [h.arrived, hunread]
    · exact ⟨handled, h⟩
  | ask a => exact ⟨handled, h.arrived, h.yielded, h.standing, h.emptied, h.unheard, h.caught, h.dropped⟩
  | advance =>
    show s.advance.Kept
    have hstanding := h.standing
    unfold advance
    split
    · rename_i hgen hreq
      rw [hgen] at hstanding
      exact ⟨handled, h.move hstanding rfl (fun o ho => by cases ho) (fun hw => by cases hw) (Or.inr rfl)⟩
    · rename_i hgen hreq
      rw [hgen] at hstanding
      exact ⟨handled, h.move hstanding rfl (fun o ho => by cases ho) (fun hw => by cases hw) (Or.inl rfl)⟩
    · rename_i hgen hreq
      have hended := hsafe (Or.inl hgen) (by rw [hreq]; rfl)
      rw [hgen] at hstanding
      exact ⟨handled, h.move hstanding rfl (fun o ho => by cases ho; exact ⟨rfl, hended⟩) (fun hw => by cases hw) (Or.inl rfl)⟩
    · rename_i hgen hreq
      have hended := hsafe (Or.inr hgen) (by rw [hreq]; rfl)
      rw [hgen] at hstanding
      exact ⟨handled, h.move hstanding rfl (fun o ho => by cases ho; exact ⟨rfl, hended⟩) (fun hw => by cases hw) (Or.inl rfl)⟩
    · rename_i hgen hevents
      rw [hgen] at hstanding
      exact ⟨handled, h.move hstanding rfl (fun o ho => by cases ho) (fun _ => hevents) (Or.inl rfl)⟩
    · rename_i hgen hevents
      exact ⟨_, h.handle hgen hevents⟩
    · exact ⟨handled, h.arrived, h.yielded, h.standing, h.emptied, h.unheard, h.caught, h.dropped⟩
    · exact ⟨handled, h⟩

/-- What the account says to the consumer. -/
theorem Kept.bridged (h : s.Kept) : s.Bridged := by
  obtain ⟨handled, h⟩ := h
  have hopen : (∀ i ∈ handled, i.isEnd = false) → s.yielded <+: tokenIds s.arrived := by
    intro hall
    rw [h.arrived, tokenIds_append hall, h.yielded]
    exact List.prefix_append _ _
  have hclosed : ∀ {frames item}, handled = frames ++ [item] → (∀ i ∈ frames, i.isEnd = false) → item.isEnd = true →
      item.token? = none → s.arrived.find? Item.isEnd = some item ∧ s.yielded = tokenIds s.arrived := by
    intro frames item hhandled hall hend htoken
    rw [h.arrived, h.yielded, hhandled, List.append_assoc, List.singleton_append, find?_end hall hend,
      tokenIds_append hall, tokenIds_end hend, List.filterMap_append, List.filterMap_cons_none htoken]
    exact ⟨rfl, rfl⟩
  have hstanding := h.standing
  constructor
  · rcases hg : s.generator with _ | _ | _ | _ | o
    all_goals rw [hg] at hstanding
    · exact hopen hstanding
    · exact hopen hstanding
    · exact hopen hstanding
    · exact hopen hstanding
    · cases o with
      | returned =>
        obtain ⟨frames, hhandled, hall⟩ := hstanding
        exact (hclosed hhandled hall rfl rfl).2 ▸ List.prefix_rfl
      | raised e =>
        obtain ⟨frames, r, hhandled, -, hall⟩ := hstanding
        exact (hclosed hhandled hall rfl rfl).2 ▸ List.prefix_rfl
      | timedOut => exact hopen hstanding
      | dropped => exact hopen hstanding
  · intro hg
    rw [hg] at hstanding
    obtain ⟨frames, hhandled, hall⟩ := hstanding
    exact hclosed hhandled hall rfl rfl
  · intro e hg
    rw [hg] at hstanding
    obtain ⟨frames, r, hhandled, he, hall⟩ := hstanding
    obtain ⟨hfind, hyielded⟩ := hclosed hhandled hall rfl rfl
    exact ⟨r, hfind, he, hyielded⟩
  · intro hg hunread
    rw [hg] at hstanding
    have harr : s.arrived = handled := by
      rw [h.arrived, h.emptied hg, hunread]
      simp
    refine ⟨?_, ?_⟩
    · have happ : tokenIds (handled ++ []) = _ := tokenIds_append hstanding
      rw [List.append_nil] at happ
      rw [harr, happ, h.yielded]
      exact (List.append_nil _).symm
    · unfold callRunning
      rw [harr, Bool.not_eq_true', List.any_eq_false]
      exact fun i hi => by rw [hstanding i hi]; decide
  · exact h.caught
  · exact h.dropped

/-- In every run in which errors find the listeners and only ended calls are dropped, the consumer may rely on the
iterator at every moment. -/
theorem bridged_of_run (es : List BridgeEvent) (h : Machine.AllSteps step Safe {} es) : (Machine.final step {} es).Bridged := by
  have hstart : ({} : EventStream).Kept :=
    ⟨[], rfl, rfl, fun _ hi => (by cases hi), fun hw => (by cases hw), fun _ => rfl, rfl, fun hd => (by cases hd)⟩
  exact (Machine.final_of_steps (C := Safe) (I := Kept) (fun _ _ hs hsafe => hs.step hsafe) hstart h).bridged

/-- One token, and then the end of the call. -/
theorem bridged_one_token :
    (Machine.final step {} [.ask .pull, .advance, .advance, .arrive (.frame (.tokenId 7)), .advance, .arrive .stop, .ask .pull,
      .advance, .advance]).Bridged := by
  refine bridged_of_run _ ⟨trivial, ?_, ?_, trivial, ?_, trivial, trivial, ?_, ?_, trivial⟩
  all_goals
    intro _ hdrop
    cases hdrop

/-- An error that comes before the first token is asked for has no listener; and a call is left running when its iterator
is dropped behind the first token. -/
theorem error_uncaught_and_call_left :
    ¬ (Machine.final step {} [.arrive (.raised ⟨.unavailable, "connection lost"⟩)]).Bridged ∧
    ¬ (Machine.final step {} [.ask .pull, .advance, .arrive (.frame (.tokenId 7)), .advance, .ask .drop, .advance]).Bridged := by
  refine ⟨fun h => ?_, fun h => ?_⟩
  · cases h.caught
  · have hended := h.dropped rfl
    cases hended

end EventStream

end Sdk

end KakeyaEngine
