import KakeyaEngine.Lib.Machine
import KakeyaEngine.Sdk.Frames

/-!
# The token stream of the Python library

`Session.generate` turns a `Generate` call into an iterator of tokens.  Without a timeout its generator reads the call
itself.  With one, a thread reads the call into a queue that holds one item, and the generator takes the items from
there.  Both variants hand an item to the same loop body.  The events of the timed variant are the steps of the two
threads and what the consumer asks for, in any order.

The call is cancelled when the generator ends, and the thread then puts one more item.  Nobody takes it, so the thread
ends only if the queue has room for it.
-/

namespace KakeyaEngine

namespace Sdk

/-! ### What the generator does with an item -/

/-- What comes from a call: a frame, its end or its error. -/
inductive Item
  | frame (frame : GenerateResponse)
  | stop
  | raised (e : RpcError)
deriving DecidableEq

/-- What a call delivers: its frames, then its end or its error. -/
def callItems (frames : List GenerateResponse) (ending : Option RpcError) : List Item :=
  frames.map .frame ++ [ending.elim .stop .raised]

/-- How an iterator ends. -/
inductive Outcome
  | returned
  | raised (e : KakeyaError)
  | timedOut
  | dropped
deriving DecidableEq

/-- Where the generator stands.  It is `waiting` inside the loop, `expired` between the timeout and the cancellation that
answers it, and `leaving` before its `finally` block. -/
inductive Consumer
  | fresh
  | suspended
  | waiting
  | expired
  | leaving (o : Outcome)
  | ended (o : Outcome)
deriving DecidableEq

/-- What the consumer sees: the generator, the tokens that it has yielded and what the session keeps of the call. -/
structure Iteration where
  consumer : Consumer
  yielded : List Token
  last : LastResult
deriving DecidableEq

/-- The body of the loop over the responses. -/
def Iteration.handle (v : Iteration) : Item → Iteration
  | .frame (.tokenId t) => { v with consumer := .suspended, yielded := v.yielded ++ [t] }
  | .frame (.truncated n) => { v with last := v.last.note (.truncated n) }
  | .frame (.done d) => { v with consumer := .leaving .returned, last := v.last.note (.done d) }
  | .frame .noPayload => v
  | .stop => { v with consumer := .leaving .returned }
  | .raised e => { v with consumer := .leaving (.raised (wrapGrpcError e)) }

/-- An iterator that is asked for the first time resets what is kept of the last call. -/
def Iteration.start (v : Iteration) : Iteration := { v with consumer := .waiting, last := {} }

/-! ### The two variants -/

/-- What the consumer asks for: the next token, or to be rid of the iterator. -/
inductive Ask
  | pull
  | drop
deriving DecidableEq

/-- The variant without a timeout.  A generator that has ended reads no more of its call. -/
structure DirectStream where
  view : Iteration
  items : List Item
deriving DecidableEq

/-- The loop reads the call until it yields or ends. -/
def drain (v : Iteration) : List Item → DirectStream
  | [] => ⟨v, []⟩
  | item :: rest => if v.consumer = .waiting then drain (v.handle item) rest else ⟨v, item :: rest⟩

/-- The `finally` block. -/
def DirectStream.finish (d : DirectStream) : DirectStream :=
  match d.view.consumer with
  | .leaving o | .ended o => ⟨{ d.view with consumer := .ended o }, []⟩
  | _ => d

/-- One request to the variant without a timeout. -/
def DirectStream.ask (d : DirectStream) (a : Ask) : DirectStream :=
  match d.view.consumer, a with
  | .fresh, .pull => (drain d.view.start d.items).finish
  | .suspended, .pull => (drain { d.view with consumer := .waiting } d.items).finish
  | .fresh, .drop | .suspended, .drop => ⟨{ d.view with consumer := .ended .dropped }, []⟩
  | _, _ => d

/-- The variant without a timeout before it is asked for anything. -/
def DirectStream.open (frames : List GenerateResponse) (ending : Option RpcError) (last : LastResult) : DirectStream :=
  ⟨⟨.fresh, [], last⟩, callItems frames ending⟩

/-- The thread that reads the call. -/
inductive Reader
  | unstarted
  | reading
  | putting (item : Item)
  | done
deriving DecidableEq

/-- The variant with a timeout: what the call will still deliver, whether it was cancelled, the queue, the thread and
the generator. -/
structure TimedStream where
  incoming : List Item
  cancelled : Bool
  queue : Option Item
  reader : Reader
  view : Iteration
deriving DecidableEq

/-- The variant with a timeout before it is asked for anything. -/
def TimedStream.open (frames : List GenerateResponse) (ending : Option RpcError) (last : LastResult) : TimedStream :=
  ⟨callItems frames ending, false, none, .unstarted, ⟨.fresh, [], last⟩⟩

/-- The steps of the consumer (`pull`, `drop`), of the generator (`get`, `expire`, `cancel`) and of the thread
(`receive`, `abort`, `put`). -/
inductive StreamEvent
  | pull
  | drop
  | get
  | expire
  | cancel
  | receive
  | abort (e : RpcError)
  | put
deriving DecidableEq

/-- The thread goes on reading after a frame, and ends after the end of the call or its error. -/
def Reader.after : Item → Reader
  | .frame _ => .reading
  | _ => .done

/-- The thread reads no more: it has ended, or puts the end of the call or its error. -/
def Reader.over : Reader → Bool
  | .putting .stop | .putting (.raised _) | .done => true
  | _ => false

/-- One event, where it is possible. -/
def TimedStream.next (s : TimedStream) : StreamEvent → Option TimedStream
  | .pull =>
    match s.view.consumer with
    | .fresh => some { s with view := s.view.start, reader := .reading }
    | .suspended => some { s with view := { s.view with consumer := .waiting } }
    | _ => none
  | .drop =>
    match s.view.consumer with
    -- a generator that was never asked has made no call, and its body does not run
    | .fresh => some { s with view := { s.view with consumer := .ended .dropped } }
    | .suspended => some { s with view := { s.view with consumer := .leaving .dropped } }
    | _ => none
  | .get =>
    match s.view.consumer, s.queue with
    | .waiting, some item => some { s with queue := none, view := s.view.handle item }
    | _, _ => none
  | .expire =>
    match s.view.consumer, s.queue with
    | .waiting, none => some { s with view := { s.view with consumer := .expired } }
    | _, _ => none
  | .cancel =>
    match s.view.consumer with
    | .expired => some { s with cancelled := true, view := { s.view with consumer := .leaving .timedOut } }
    | .leaving o => some { s with cancelled := true, view := { s.view with consumer := .ended o } }
    | _ => none
  | .receive =>
    match s.reader, s.incoming with
    | .reading, item :: rest => some { s with incoming := rest, reader := .putting item }
    | _, _ => none
  | .abort e =>
    match s.reader, s.cancelled with
    | .reading, true => some { s with incoming := [], reader := .putting (.raised e) }
    | _, _ => none
  | .put =>
    match s.reader, s.queue with
    | .putting item, none => some { s with queue := some item, reader := .after item }
    | _, _ => none

/-- The request that an event makes of the iterator. -/
def StreamEvent.ask? : StreamEvent → Option Ask
  | .pull => some .pull
  | .drop => some .drop
  | _ => none

/-- A step with the request that it makes.  An event that is not possible changes nothing. -/
def TimedStream.step (s : TimedStream) (e : StreamEvent) : Option Ask × TimedStream :=
  match s.next e with
  | some s' => (e.ask?, s')
  | none => (none, s)

/-- The requests of a run, in order. -/
def asks (s : TimedStream) (es : List StreamEvent) : List Ask :=
  (Machine.outputs TimedStream.step s es).filterMap id

/-! ### What the items of a call amount to -/

/-- The tokens of a list of items, up to the first that ends the loop. -/
def tokens : List Item → List Token
  | .frame (.tokenId t) :: rest => t :: tokens rest
  | .frame (.truncated _) :: rest | .frame .noPayload :: rest => tokens rest
  | _ => []

/-- How the loop over a list of items ends, if it does. -/
def outcome : List Item → Option Outcome
  | [] => none
  | .frame (.done _) :: _ | .stop :: _ => some .returned
  | .frame _ :: rest => outcome rest
  | .raised e :: _ => some (.raised (wrapGrpcError e))

/-- The tokens of the frames before the first `done`. -/
def streamTokens (frames : List GenerateResponse) : List Token :=
  (frames.takeWhile fun f => match f with | .done _ => false | _ => true).filterMap fun f =>
    match f with
    | .tokenId t => some t
    | _ => none

/-- The frames hold a `done`. -/
def HasDone (frames : List GenerateResponse) : Prop := ∃ d, .done d ∈ frames

/-- What a consumer may rely on: the yielded tokens are the first of those that the server sent before `done`, an
iterator that returned yielded them all and had a `done` or the end of the call, and one that raised yielded them all
and raises the error of the call. -/
def Delivers (frames : List GenerateResponse) (ending : Option RpcError) (v : Iteration) : Prop :=
  v.yielded <+: streamTokens frames ∧
    (v.consumer = .ended .returned → v.yielded = streamTokens frames ∧ (HasDone frames ∨ ending = none)) ∧
    ∀ e, v.consumer = .ended (.raised e) →
      v.yielded = streamTokens frames ∧ ¬ HasDone frames ∧ ∃ r, ending = some r ∧ e = wrapGrpcError r

/-! ### The loop over a call -/

variable {frames : List GenerateResponse} {ending : Option RpcError}

theorem tokens_callItems (frames : List GenerateResponse) (ending : Option RpcError) :
    tokens (callItems frames ending) = streamTokens frames := by
  induction frames with
  | nil => cases ending <;> rfl
  | cons f frames ih =>
    cases f with
    | tokenId t => exact congrArg (t :: ·) ih
    | truncated n => exact ih
    | done d => rfl
    | noPayload => exact ih

theorem outcome_callItems (frames : List GenerateResponse) (ending : Option RpcError) :
    outcome (callItems frames ending) = some .returned ∧ (HasDone frames ∨ ending = none) ∨
      ∃ r, outcome (callItems frames ending) = some (.raised (wrapGrpcError r)) ∧ ¬ HasDone frames ∧ ending = some r := by
  induction frames with
  | nil =>
    cases ending with
    | none => exact Or.inl ⟨rfl, Or.inr rfl⟩
    | some r => exact Or.inr ⟨r, rfl, by simp [HasDone], rfl⟩
  | cons f frames ih =>
    have hpass : (∀ d, f ≠ .done d) → outcome (callItems (f :: frames) ending) = outcome (callItems frames ending) ∧
        (HasDone (f :: frames) ↔ HasDone frames) := by
      intro hf
      refine ⟨?_, ?_⟩
      · cases f with
        | done d => exact absurd rfl (hf d)
        | tokenId t => rfl
        | truncated n => rfl
        | noPayload => rfl
      · simp only [HasDone, List.mem_cons]
        exact exists_congr fun d => or_iff_right fun h => hf d h.symm
    cases f with
    | done d => exact Or.inl ⟨rfl, Or.inl ⟨d, List.mem_cons_self⟩⟩
    | tokenId t => obtain ⟨h, hd⟩ := hpass (fun d => by simp); rw [h, hd]; exact ih
    | truncated n => obtain ⟨h, hd⟩ := hpass (fun d => by simp); rw [h, hd]; exact ih
    | noPayload => obtain ⟨h, hd⟩ := hpass (fun d => by simp); rw [h, hd]; exact ih

/-- The outcome of a generator that has left its loop. -/
def Consumer.outcome? : Consumer → Option Outcome
  | .leaving o | .ended o => some o
  | _ => none

/-- The view and the items still to come make up the call: a generator inside its loop has yielded what these lack, and
one that returned or raised has come as far as the call goes. -/
structure Tracks (frames : List GenerateResponse) (ending : Option RpcError) (v : Iteration) (items : List Item) :
    Prop where
  inside : v.consumer.outcome? = none →
    v.yielded ++ tokens items = streamTokens frames ∧ outcome items = outcome (callItems frames ending)
  first : v.yielded <+: streamTokens frames
  left : ∀ o, v.consumer.outcome? = some o → (o = .returned ∨ ∃ e, o = .raised e) →
    v.yielded = streamTokens frames ∧ outcome (callItems frames ending) = some o

theorem Tracks.start (frames : List GenerateResponse) (ending : Option RpcError) (last : LastResult) :
    Tracks frames ending ⟨.fresh, [], last⟩ (callItems frames ending) where
  inside _ := ⟨tokens_callItems frames ending, rfl⟩
  first := List.nil_prefix
  left _ ho := nomatch ho

/-- Only the consumer changes, and stays inside its loop. -/
theorem Tracks.inside_of {v w : Iteration} {items : List Item} (h : Tracks frames ending v items)
    (hv : v.consumer.outcome? = none) (hw : w.consumer.outcome? = none) (hy : w.yielded = v.yielded) :
    Tracks frames ending w items where
  inside _ := hy ▸ h.inside hv
  first := hy ▸ h.first
  left o ho := by rw [hw] at ho; exact nomatch ho

/-- Only the consumer changes, to an end that is not the call's. -/
theorem Tracks.leave {v w : Iteration} {items items' : List Item} {o : Outcome} (h : Tracks frames ending v items)
    (hw : w.consumer.outcome? = some o) (hy : w.yielded = v.yielded) (ho : o = .timedOut ∨ o = .dropped) :
    Tracks frames ending w items' where
  inside hn := by rw [hw] at hn; exact nomatch hn
  first := hy ▸ h.first
  left o' ho' hr := by
    obtain rfl : o = o' := Option.some.inj (hw.symm.trans ho')
    rcases ho with rfl | rfl <;> rcases hr with hr | ⟨e, hr⟩ <;> exact nomatch hr

/-- A generator that has left its loop no longer depends on the items. -/
theorem Tracks.forget {v w : Iteration} {items items' : List Item} {o : Outcome} (h : Tracks frames ending v items)
    (hv : v.consumer.outcome? = some o) (hw : w.consumer.outcome? = some o) (hy : w.yielded = v.yielded) :
    Tracks frames ending w items' where
  inside hn := by rw [hw] at hn; exact nomatch hn
  first := hy ▸ h.first
  left o' ho' hr := by
    obtain rfl : o = o' := Option.some.inj (hw.symm.trans ho')
    exact hy ▸ h.left o hv hr

/-- The loop body keeps the account. -/
theorem Tracks.handle {v : Iteration} {item : Item} {rest : List Item} (h : Tracks frames ending v (item :: rest))
    (hv : v.consumer = .waiting) : Tracks frames ending (v.handle item) rest := by
  obtain ⟨hy, ho⟩ := h.inside (by rw [hv]; rfl)
  have hstop : tokens (item :: rest) = [] → v.yielded = streamTokens frames := fun ht => by
    rwa [ht, List.append_nil] at hy
  have hend : ∀ {w : Iteration} {o : Outcome}, tokens (item :: rest) = [] → outcome (item :: rest) = some o →
      w.consumer = .leaving o → w.yielded = v.yielded → Tracks frames ending w rest := by
    intro w o ht hi hw hwy
    refine ⟨fun hn => ?_, hwy ▸ h.first, fun o' ho' _ => ?_⟩
    · rw [hw] at hn
      exact nomatch hn
    · obtain rfl : o = o' := by rw [hw] at ho'; exact Option.some.inj ho'
      exact ⟨hwy.trans (hstop ht), ho ▸ hi⟩
  have hgo : ∀ {w : Iteration}, tokens (item :: rest) = tokens rest → outcome (item :: rest) = outcome rest →
      w.consumer = .waiting → w.yielded = v.yielded → Tracks frames ending w rest := by
    intro w ht hi hw hwy
    refine ⟨fun _ => ⟨?_, hi ▸ ho⟩, hwy ▸ h.first, fun o ho' => ?_⟩
    · rw [hwy, ← ht]
      exact hy
    · rw [hw] at ho'
      exact nomatch ho'
  cases item with
  | stop => exact hend rfl rfl rfl rfl
  | raised e => exact hend rfl rfl rfl rfl
  | frame f =>
    cases f with
    | done d => exact hend rfl rfl rfl rfl
    | tokenId t =>
      have hy' : (v.yielded ++ [t]) ++ tokens rest = streamTokens frames := by rw [List.append_assoc]; exact hy
      exact ⟨fun _ => ⟨hy', ho⟩, ⟨_, hy'⟩, fun o ho' => nomatch ho'⟩
    | truncated n => exact hgo rfl rfl hv rfl
    | noPayload => exact hgo rfl rfl hv rfl

/-- The account at the end of an iterator is what a consumer may rely on. -/
theorem Tracks.delivers {v : Iteration} {items : List Item} (h : Tracks frames ending v items) :
    Delivers frames ending v := by
  have hcall := outcome_callItems frames ending
  refine ⟨h.first, fun hv => ?_, fun e hv => ?_⟩
  · obtain ⟨hy, ho⟩ := h.left .returned (by rw [hv]; rfl) (Or.inl rfl)
    rw [ho] at hcall
    rcases hcall with ⟨-, hc⟩ | ⟨r, hr, -⟩
    · exact ⟨hy, hc⟩
    · exact nomatch hr
  · obtain ⟨hy, ho⟩ := h.left (.raised e) (by rw [hv]; rfl) (Or.inr ⟨e, rfl⟩)
    rw [ho] at hcall
    rcases hcall with ⟨hr, -⟩ | ⟨r, hr, hd, hc⟩
    · exact nomatch hr
    · exact ⟨hy, hd, r, hc, by simpa using hr⟩

/-! ### The variant without a timeout -/

/-- The loop that reads its call keeps the account, and stops at a token or an end. -/
theorem tracks_drain {v : Iteration} {items : List Item} (h : Tracks frames ending v items) :
    Tracks frames ending (drain v items).view (drain v items).items := by
  induction items generalizing v with
  | nil => exact h
  | cons item rest ih =>
    simp only [drain]
    split
    · rename_i hv
      exact ih (h.handle hv)
    · exact h

theorem drain_of_ne {v : Iteration} (hv : v.consumer ≠ .waiting) (items : List Item) : drain v items = ⟨v, items⟩ := by
  cases items with
  | nil => rfl
  | cons item rest => exact if_neg hv

theorem tracks_finish {d : DirectStream} (h : Tracks frames ending d.view d.items) :
    Tracks frames ending d.finish.view d.finish.items := by
  unfold DirectStream.finish
  split
  · rename_i o hc
    exact h.forget (by rw [hc]; rfl) rfl rfl
  · rename_i o hc
    exact h.forget (by rw [hc]; rfl) rfl rfl
  · exact h

/-- One request keeps the account. -/
theorem tracks_ask {d : DirectStream} (a : Ask) (h : Tracks frames ending d.view d.items) :
    Tracks frames ending (d.ask a).view (d.ask a).items := by
  unfold DirectStream.ask
  split
  · rename_i hc
    exact tracks_finish (tracks_drain (h.inside_of (by rw [hc]; rfl) rfl rfl))
  · rename_i hc
    exact tracks_finish (tracks_drain (h.inside_of (by rw [hc]; rfl) rfl rfl))
  · exact h.leave rfl rfl (Or.inr rfl)
  · exact h.leave rfl rfl (Or.inr rfl)
  · exact h

/-- Requests one after another. -/
def DirectStream.run (d : DirectStream) (as : List Ask) : DirectStream := as.foldl DirectStream.ask d

theorem tracks_run {d : DirectStream} (as : List Ask) (h : Tracks frames ending d.view d.items) :
    Tracks frames ending (d.run as).view (d.run as).items := by
  induction as generalizing d with
  | nil => exact h
  | cons a as ih => exact ih (tracks_ask a h)

/-! ### The variant with a timeout -/

/-- The items between the call and the generator. -/
def TimedStream.inFlight (s : TimedStream) : List Item :=
  s.queue.toList ++ (match s.reader with | .putting item => [item] | _ => []) ++ s.incoming

/-- What holds of the two threads in every state. -/
structure Sound (frames : List GenerateResponse) (ending : Option RpcError) (s : TimedStream) : Prop where
  tracks : Tracks frames ending s.view s.inFlight
  cancelled : s.cancelled = true → s.view.consumer.outcome? ≠ none
  fresh : s.view.consumer = .fresh → s.reader = .unstarted
  started : s.reader = .unstarted → s.view.consumer = .fresh ∨ s.view.consumer.outcome? ≠ none
  source : s.incoming = [] ∨ ∃ fs, s.incoming = callItems fs ending
  last : s.reader.over = true → s.incoming = []

theorem sound_open (frames : List GenerateResponse) (ending : Option RpcError) (last : LastResult) :
    Sound frames ending (.open frames ending last) where
  tracks := Tracks.start frames ending last
  cancelled h := nomatch h
  fresh _ := rfl
  started _ := Or.inl rfl
  source := Or.inr ⟨frames, rfl⟩
  last h := nomatch h

/-- What is left of a call behind its first item. -/
theorem callItems_tail {item : Item} {rest : List Item} {fs : List GenerateResponse}
    (h : item :: rest = callItems fs ending) :
    (∃ f fs', item = .frame f ∧ rest = callItems fs' ending) ∨ (∀ f, item ≠ .frame f) ∧ rest = [] := by
  cases fs with
  | nil =>
    obtain ⟨rfl, rfl⟩ := List.cons.inj h
    refine Or.inr ⟨fun f => ?_, rfl⟩
    cases ending <;> exact Item.noConfusion
  | cons f fs =>
    obtain ⟨rfl, rfl⟩ := List.cons.inj h
    exact Or.inl ⟨f, fs, rfl, rfl⟩

/-- Every event keeps it. -/
theorem Sound.next {s s' : TimedStream} {e : StreamEvent} (hs : Sound frames ending s) (h : s.next e = some s') :
    Sound frames ending s' := by
  cases e with
  | pull =>
    simp only [TimedStream.next] at h
    split at h
    · rename_i hc
      cases h
      have hr := hs.fresh hc
      have hi : s.inFlight = ({ s with view := s.view.start, reader := .reading } : TimedStream).inFlight := by
        simp [TimedStream.inFlight, hr]
      refine ⟨hi ▸ hs.tracks.inside_of (by rw [hc]; rfl) rfl rfl, fun h => ?_, nofun, nofun,
        hs.source, nofun⟩
      exact absurd (by rw [hc]; rfl) (hs.cancelled h)
    · rename_i hc
      cases h
      refine ⟨hs.tracks.inside_of (by rw [hc]; rfl) rfl rfl, fun h => ?_, nofun, fun h => ?_, hs.source,
        hs.last⟩
      · exact absurd (by rw [hc]; rfl) (hs.cancelled h)
      · rcases hs.started h with h | h
        · rw [hc] at h
          exact nomatch h
        · exact absurd (by rw [hc]; rfl) h
    · cases h
  | drop =>
    simp only [TimedStream.next] at h
    split at h
    · cases h
      exact ⟨hs.tracks.leave rfl rfl (Or.inr rfl), fun _ => nofun, nofun, fun _ => Or.inr nofun,
        hs.source, hs.last⟩
    · cases h
      exact ⟨hs.tracks.leave rfl rfl (Or.inr rfl), fun _ => nofun, nofun, fun _ => Or.inr nofun,
        hs.source, hs.last⟩
    · cases h
  | get =>
    simp only [TimedStream.next] at h
    split at h
    · rename_i item hc hq
      cases h
      have hi : s.inFlight = item :: ({ s with queue := none, view := s.view.handle item } : TimedStream).inFlight := by
        simp [TimedStream.inFlight, hq]
      refine ⟨(hi ▸ hs.tracks).handle hc, fun h => ?_, fun h => ?_, fun h => ?_, hs.source, hs.last⟩
      · exact absurd (by rw [hc]; rfl) (hs.cancelled h)
      · have hf : ∀ item, s.view.consumer = .waiting → (s.view.handle item).consumer ≠ .fresh := by
          intro item hw
          unfold Iteration.handle
          split <;> simp [hw]
        exact absurd h (hf item hc)
      · rcases hs.started h with h | h
        · rw [hc] at h
          exact nomatch h
        · exact absurd (by rw [hc]; rfl) h
    · cases h
  | expire =>
    simp only [TimedStream.next] at h
    split at h
    · rename_i hc hq
      cases h
      refine ⟨hs.tracks.inside_of (by rw [hc]; rfl) rfl rfl, fun h => ?_, nofun, fun h => ?_, hs.source,
        hs.last⟩
      · exact absurd (by rw [hc]; rfl) (hs.cancelled h)
      · rcases hs.started h with h | h
        · rw [hc] at h
          exact nomatch h
        · exact absurd (by rw [hc]; rfl) h
    · cases h
  | cancel =>
    simp only [TimedStream.next] at h
    split at h
    · cases h
      exact ⟨hs.tracks.leave rfl rfl (Or.inl rfl), fun _ => nofun, nofun, fun _ => Or.inr nofun,
        hs.source, hs.last⟩
    · rename_i o hc
      cases h
      exact ⟨hs.tracks.forget (by rw [hc]; rfl) rfl rfl, fun _ => nofun, nofun,
        fun _ => Or.inr nofun, hs.source, hs.last⟩
    · cases h
  | receive =>
    simp only [TimedStream.next] at h
    split at h
    · rename_i item rest hr hin
      cases h
      have hi : s.inFlight = ({ s with incoming := rest, reader := .putting item } : TimedStream).inFlight := by
        simp [TimedStream.inFlight, hr, hin]
      have hsource : (∃ f fs', item = .frame f ∧ rest = callItems fs' ending) ∨ (∀ f, item ≠ .frame f) ∧ rest = [] := by
        rcases hs.source with h | ⟨fs, h⟩
        · rw [hin] at h
          exact nomatch h
        · exact callItems_tail (hin.symm.trans h)
      refine ⟨hi ▸ hs.tracks, hs.cancelled, fun h => ?_, nofun, ?_, fun h => ?_⟩
      · rw [hs.fresh h] at hr
        exact nomatch hr
      · rcases hsource with ⟨f, fs', -, h⟩ | ⟨-, h⟩
        · exact Or.inr ⟨fs', h⟩
        · exact Or.inl h
      · rcases hsource with ⟨f, fs', rfl, -⟩ | ⟨-, h'⟩
        · exact nomatch h
        · exact h'
    · cases h
  | abort e =>
    simp only [TimedStream.next] at h
    split at h
    · rename_i hr hcan
      cases h
      obtain ⟨o, ho⟩ := Option.ne_none_iff_exists'.mp (hs.cancelled hcan)
      refine ⟨hs.tracks.forget ho ho rfl, hs.cancelled, fun h => ?_, nofun, Or.inl rfl, fun _ => rfl⟩
      rw [hs.fresh h] at hr
      exact nomatch hr
    · cases h
  | put =>
    simp only [TimedStream.next] at h
    split at h
    · rename_i item hr hq
      cases h
      have hi : s.inFlight = ({ s with queue := some item, reader := .after item } : TimedStream).inFlight := by
        cases item <;> simp [TimedStream.inFlight, hr, hq, Reader.after]
      refine ⟨hi ▸ hs.tracks, hs.cancelled, fun h => ?_, fun h => ?_, hs.source, fun h => ?_⟩
      · rw [hs.fresh h] at hr
        exact nomatch hr
      · cases item <;> exact nomatch h
      · cases item with
        | frame f => exact nomatch h
        | stop => exact hs.last (by rw [hr]; rfl)
        | raised e => exact hs.last (by rw [hr]; rfl)
    · cases h

theorem Sound.step {s : TimedStream} (e : StreamEvent) (hs : Sound frames ending s) :
    Sound frames ending (s.step e).2 := by
  unfold TimedStream.step
  split
  · rename_i s' h
    exact hs.next h
  · exact hs

/-- It holds in every state of every run. -/
theorem sound_of_run (frames : List GenerateResponse) (ending : Option RpcError) (last : LastResult)
    (es : List StreamEvent) : Sound frames ending (Machine.final TimedStream.step (.open frames ending last) es) :=
  Machine.final_of_step (fun _ e hs => hs.step e) es (sound_open frames ending last)

/-! ### Without an expiry the two variants agree -/

/-- Where the variant without a timeout stands when it has been asked for the same: it finishes the loop that the
generator is in. -/
def TimedStream.forecast (s : TimedStream) : DirectStream := (drain s.view s.inFlight).finish

/-- The generator is outside its loop. -/
def Consumer.Settled : Consumer → Prop
  | .fresh | .suspended | .ended _ => True
  | _ => False

theorem finish_of_inside {v : Iteration} (h : v.consumer.outcome? = none) (items : List Item) :
    (⟨v, items⟩ : DirectStream).finish = ⟨v, items⟩ := by
  unfold DirectStream.finish
  split
  · rename_i o hc
    rw [show v.consumer = _ from hc] at h
    exact nomatch h
  · rename_i o hc
    rw [show v.consumer = _ from hc] at h
    exact nomatch h
  · rfl

theorem finish_of_left {v : Iteration} {o : Outcome} (h : v.consumer.outcome? = some o) (items : List Item) :
    (⟨v, items⟩ : DirectStream).finish = ⟨{ v with consumer := .ended o }, []⟩ := by
  unfold DirectStream.finish
  split
  · rename_i o' hc
    rw [show v.consumer = _ from hc] at h
    rw [Option.some.inj h]
  · rename_i o' hc
    rw [show v.consumer = _ from hc] at h
    rw [Option.some.inj h]
  · rename_i hl he
    cases hc : v.consumer with
    | leaving o' => exact absurd hc (hl o')
    | ended o' => exact absurd hc (he o')
    | _ => rw [hc] at h; exact nomatch h

theorem forecast_inside {s : TimedStream} (hw : s.view.consumer ≠ .waiting) (h : s.view.consumer.outcome? = none) :
    s.forecast = ⟨s.view, s.inFlight⟩ := by
  rw [TimedStream.forecast, drain_of_ne hw, finish_of_inside h]

theorem forecast_left {s : TimedStream} {o : Outcome} (h : s.view.consumer.outcome? = some o) :
    s.forecast = ⟨{ s.view with consumer := .ended o }, []⟩ := by
  have hw : s.view.consumer ≠ .waiting := fun hw => by rw [hw] at h; exact nomatch h
  rw [TimedStream.forecast, drain_of_ne hw, finish_of_left h]

/-- A generator outside its loop is where the forecast is. -/
theorem forecast_view {s : TimedStream} (h : s.view.consumer.Settled) : s.forecast.view = s.view := by
  cases hc : s.view.consumer with
  | fresh => rw [forecast_inside (by rw [hc]; nofun) (by rw [hc]; rfl)]
  | suspended => rw [forecast_inside (by rw [hc]; nofun) (by rw [hc]; rfl)]
  | ended o =>
    rw [forecast_left (o := o) (by rw [hc]; rfl)]
    simp [← hc]
  | _ => rw [hc] at h; exact h.elim

/-- A thread that moves an item changes no forecast. -/
theorem forecast_congr {s s' : TimedStream} (hv : s'.view = s.view) (hi : s'.inFlight = s.inFlight) :
    s'.forecast = s.forecast := by
  rw [TimedStream.forecast, TimedStream.forecast, hv, hi]

/-- An event other than an expiry does to the forecast what the request that it makes does, and nothing if it makes
none. -/
theorem forecast_next {s s' : TimedStream} {e : StreamEvent} (hs : Sound frames ending s)
    (hx : s.view.consumer ≠ .expired) (he : e ≠ .expire) (h : s.next e = some s') :
    s'.forecast = e.ask?.elim s.forecast s.forecast.ask := by
  cases e with
  | pull =>
    simp only [TimedStream.next] at h
    split at h
    · rename_i hc
      cases h
      have hr := hs.fresh hc
      have hi : ({ s with view := s.view.start, reader := .reading } : TimedStream).inFlight = s.inFlight := by
        simp [TimedStream.inFlight, hr]
      have hf := forecast_inside (s := s) (by rw [hc]; nofun) (by rw [hc]; rfl)
      simp only [StreamEvent.ask?, Option.elim, DirectStream.ask, hf, hc]
      rw [TimedStream.forecast, hi]
    · rename_i hc
      cases h
      have hf := forecast_inside (s := s) (by rw [hc]; nofun) (by rw [hc]; rfl)
      simp only [StreamEvent.ask?, Option.elim, DirectStream.ask, hf, hc]
      rfl
    · cases h
  | drop =>
    simp only [TimedStream.next] at h
    split at h
    · rename_i hc
      cases h
      have hf := forecast_inside (s := s) (by rw [hc]; nofun) (by rw [hc]; rfl)
      simp only [StreamEvent.ask?, Option.elim, DirectStream.ask, hf, hc]
      exact forecast_left rfl
    · rename_i hc
      cases h
      have hf := forecast_inside (s := s) (by rw [hc]; nofun) (by rw [hc]; rfl)
      simp only [StreamEvent.ask?, Option.elim, DirectStream.ask, hf, hc]
      exact forecast_left rfl
    · cases h
  | get =>
    simp only [TimedStream.next] at h
    split at h
    · rename_i item hc hq
      cases h
      have hi : s.inFlight = item :: ({ s with queue := none, view := s.view.handle item } : TimedStream).inFlight := by
        simp [TimedStream.inFlight, hq]
      exact (congrArg DirectStream.finish (by rw [hi]; exact if_pos hc)).symm
    · cases h
  | expire => exact absurd rfl he
  | cancel =>
    simp only [TimedStream.next] at h
    split at h
    · rename_i hc
      exact absurd hc hx
    · rename_i o hc
      cases h
      exact (forecast_left rfl).trans (forecast_left (by rw [hc]; rfl)).symm
    · cases h
  | receive =>
    simp only [TimedStream.next] at h
    split at h
    · rename_i item rest hr hin
      cases h
      exact forecast_congr rfl (by simp [TimedStream.inFlight, hr, hin])
    · cases h
  | abort e =>
    simp only [TimedStream.next] at h
    split at h
    · rename_i hr hcan
      cases h
      obtain ⟨o, ho⟩ := Option.ne_none_iff_exists'.mp (hs.cancelled hcan)
      have hf := forecast_left (s := s) ho
      exact (forecast_left (s := { s with incoming := [], reader := .putting (.raised e) }) ho).trans hf.symm
    · cases h
  | put =>
    simp only [TimedStream.next] at h
    split at h
    · rename_i item hr hq
      cases h
      exact forecast_congr rfl (by cases item <;> simp [TimedStream.inFlight, hr, hq, Reader.after])
    · cases h

/-- Only an expiry leaves the generator expired. -/
theorem not_expired_next {s s' : TimedStream} {e : StreamEvent} (hx : s.view.consumer ≠ .expired) (he : e ≠ .expire)
    (h : s.next e = some s') : s'.view.consumer ≠ .expired := by
  have hh : ∀ item, s.view.consumer = .waiting → (s.view.handle item).consumer ≠ .expired := by
    intro item hw
    unfold Iteration.handle
    split <;> simp [hw]
  cases e with
  | expire => exact absurd rfl he
  | get =>
    simp only [TimedStream.next] at h
    split at h
    · rename_i item hc hq
      cases h
      exact hh item hc
    · cases h
  | _ =>
    simp only [TimedStream.next] at h
    split at h <;> cases h <;> first | exact hx | exact fun hn => nomatch hn

/-- The run rule: without an expiry the forecast after a run is that of the start after the requests of the run. -/
theorem forecast_run {s : TimedStream} {es : List StreamEvent} (hs : Sound frames ending s)
    (hx : s.view.consumer ≠ .expired) (hes : ∀ e ∈ es, e ≠ .expire) :
    (Machine.final TimedStream.step s es).forecast = s.forecast.run (asks s es) := by
  induction es generalizing s with
  | nil => rfl
  | cons e es ih =>
    have he := hes e List.mem_cons_self
    have hes' := fun e' h' => hes e' (List.mem_cons_of_mem e h')
    cases h : s.next e with
    | none =>
      have hstep : s.step e = (none, s) := by rw [TimedStream.step, h]
      simp only [Machine.final, asks, Machine.outputs, hstep, List.filterMap_cons]
      exact ih hs hx hes'
    | some s' =>
      have hstep : s.step e = (e.ask?, s') := by rw [TimedStream.step, h]
      have hrun := ih (hs.next h) (not_expired_next hx he h) hes'
      simp only [Machine.final, asks, Machine.outputs, hstep, List.filterMap_cons]
      rw [hrun, forecast_next hs hx he h]
      cases e.ask? <;> rfl

/-! ### The end of the thread -/

/-- The thread is putting an item, and no continuation lets it go on. -/
def BlockedForever (s : TimedStream) : Prop :=
  ∃ item, ∀ es, (Machine.final TimedStream.step s es).reader = .putting item

/-- The queue has room for all that the thread may still have to put. -/
def Drained (s : TimedStream) : Prop :=
  s.reader = .unstarted ∨ s.reader = .done ∨ s.queue = none ∧ ∀ f, s.reader ≠ .putting (.frame f)

/-- The condition on a step: the generator cancels the call for the last time while the queue has room for all that the
thread may still have to put, and the thread receives no frame after that. -/
def RoomAtEnd (s : TimedStream) : StreamEvent → Prop
  | .cancel => ∀ o, s.view.consumer = .leaving o → Drained s
  | .receive => ∀ o, s.view.consumer = .ended o → ∀ f rest, s.incoming ≠ .frame f :: rest
  | _ => True

/-- A generator that ended left room in the queue. -/
def Roomy (s : TimedStream) : Prop := ∀ o, s.view.consumer = .ended o → Drained s

theorem roomy_next {s s' : TimedStream} {e : StreamEvent} (hs : Sound frames ending s) (hr : Roomy s)
    (hc : RoomAtEnd s e) (h : s.next e = some s') : Roomy s' := by
  intro o ho
  cases e with
  | pull =>
    simp only [TimedStream.next] at h
    split at h <;> cases h <;> exact nomatch ho
  | drop =>
    simp only [TimedStream.next] at h
    split at h
    · rename_i hf
      cases h
      exact Or.inl (hs.fresh hf)
    · cases h
      exact nomatch ho
    · cases h
  | get =>
    have hh : ∀ item, s.view.consumer = .waiting → (s.view.handle item).consumer ≠ .ended o := by
      intro item hw
      unfold Iteration.handle
      split <;> simp [hw]
    simp only [TimedStream.next] at h
    split at h
    · rename_i item hw hq
      cases h
      exact absurd ho (hh item hw)
    · cases h
  | expire =>
    simp only [TimedStream.next] at h
    split at h <;> cases h
    exact nomatch ho
  | cancel =>
    simp only [TimedStream.next] at h
    split at h
    · cases h
      exact nomatch ho
    · rename_i o' hl
      cases h
      exact hc o' hl
    · cases h
  | receive =>
    simp only [TimedStream.next] at h
    split at h
    · rename_i item rest hrd hin
      cases h
      rcases hr o ho with h | h | ⟨hq, -⟩
      · rw [hrd] at h
        exact nomatch h
      · rw [hrd] at h
        exact nomatch h
      · refine Or.inr (Or.inr ⟨hq, fun f hf => ?_⟩)
        exact hc o ho f rest (by rw [hin, Reader.putting.inj hf])
    · cases h
  | abort e =>
    simp only [TimedStream.next] at h
    split at h
    · rename_i hrd hcan
      cases h
      rcases hr o ho with h | h | ⟨hq, -⟩
      · rw [hrd] at h
        exact nomatch h
      · rw [hrd] at h
        exact nomatch h
      · exact Or.inr (Or.inr ⟨hq, nofun⟩)
    · cases h
  | put =>
    simp only [TimedStream.next] at h
    split at h
    · rename_i item hrd hq
      cases h
      rcases hr o ho with h | h | ⟨-, hf⟩
      · rw [hrd] at h
        exact nomatch h
      · rw [hrd] at h
        exact nomatch h
      · cases item with
        | frame f => exact absurd hrd (hf f)
        | stop => exact Or.inr (Or.inl rfl)
        | raised e => exact Or.inr (Or.inl rfl)
    · cases h

theorem roomy_step {s : TimedStream} {e : StreamEvent} (hs : Sound frames ending s) (hr : Roomy s)
    (hc : RoomAtEnd s e) : Roomy (s.step e).2 := by
  unfold TimedStream.step
  split
  · rename_i s' h
    exact roomy_next hs hr hc h
  · exact hr

/-- With room in the queue the thread can go on. -/
theorem not_blocked_of_drained {s : TimedStream} (h : Drained s) : ¬ BlockedForever s := by
  rintro ⟨item, hb⟩
  have hnow : s.reader = .putting item := hb []
  rcases h with h | h | ⟨hq, -⟩
  · rw [hnow] at h
    exact nomatch h
  · rw [hnow] at h
    exact nomatch h
  · have hput : (s.step .put).2.reader = .after item := by
      simp only [TimedStream.step, TimedStream.next, hnow, hq]
    have hthen : (s.step .put).2.reader = .putting item := hb [.put]
    rw [hput] at hthen
    cases item <;> exact nomatch hthen

/-- A thread that puts into a full queue whose generator has ended is blocked for ever. -/
theorem blocked_of_full {s : TimedStream} {item : Item} {o : Outcome} (hr : s.reader = .putting item)
    (hq : s.queue ≠ none) (ho : s.view.consumer = .ended o) : BlockedForever s := by
  refine ⟨item, fun es => ?_⟩
  have hstay : ∀ e, s.step e = (none, s) := by
    intro e
    have hn : s.next e = none := by
      cases e with
      | put => simp [TimedStream.next, hr, hq]
      | _ => simp [TimedStream.next, hr, ho]
    rw [TimedStream.step, hn]
  have hrun : Machine.final TimedStream.step s es = s := by
    induction es with
    | nil => rfl
    | cons e es ih => rw [Machine.final, hstay e, ih]
  rw [hrun, hr]

/-! ### The whole stream -/

theorem Sound.inFlight_ne_nil {s : TimedStream} (hs : Sound frames ending s)
    (h : s.view.consumer.outcome? = none) : s.inFlight ≠ [] := by
  intro hnil
  have ho := (hs.tracks.inside h).2
  rw [hnil] at ho
  rcases outcome_callItems frames ending with ⟨hc, -⟩ | ⟨r, hc, -⟩ <;> rw [hc] at ho <;> exact nomatch ho

/-- A generator inside its loop does not wait in vain. -/
theorem Sound.progress {s : TimedStream} (hs : Sound frames ending s) (hw : s.view.consumer = .waiting) :
    ∃ e, e ≠ .expire ∧ (s.next e).isSome := by
  have hnone : s.view.consumer.outcome? = none := by rw [hw]; rfl
  cases hq : s.queue with
  | some item => exact ⟨.get, nofun, by simp [TimedStream.next, hw, hq]⟩
  | none =>
    cases hr : s.reader with
    | unstarted =>
      rcases hs.started hr with h | h
      · rw [hw] at h
        exact nomatch h
      · exact absurd hnone h
    | putting item => exact ⟨.put, nofun, by simp [TimedStream.next, hr, hq]⟩
    | reading =>
      cases hin : s.incoming with
      | cons item rest => exact ⟨.receive, nofun, by simp [TimedStream.next, hr, hin]⟩
      | nil => exact (hs.inFlight_ne_nil hnone (by simp [TimedStream.inFlight, hq, hr, hin])).elim
    | done =>
      have hin := hs.last (by rw [hr]; rfl)
      exact (hs.inFlight_ne_nil hnone (by simp [TimedStream.inFlight, hq, hr, hin])).elim

/-- In every run of the threads and the consumer, with any frames and any end of the call: the iterator of either variant
delivers the tokens, the generator never waits in vain, the variant with a timeout shows what the other shows after the
same requests as long as the timeout does not expire, and the thread of an iterator that ended is not blocked for ever if
the queue has room at that moment. -/
theorem stream_of_run (frames : List GenerateResponse) (ending : Option RpcError) (last : LastResult)
    (es : List StreamEvent) :
    Delivers frames ending (Machine.final TimedStream.step (.open frames ending last) es).view ∧
      (∀ as, Delivers frames ending ((DirectStream.open frames ending last).run as).view) ∧
      ((Machine.final TimedStream.step (.open frames ending last) es).view.consumer = .waiting →
        ∃ e, e ≠ .expire ∧ ((Machine.final TimedStream.step (.open frames ending last) es).next e).isSome) ∧
      ((∀ e ∈ es, e ≠ .expire) →
        (Machine.final TimedStream.step (.open frames ending last) es).view.consumer.Settled →
        (Machine.final TimedStream.step (.open frames ending last) es).view =
          ((DirectStream.open frames ending last).run (asks (.open frames ending last) es)).view) ∧
      (Machine.AllSteps TimedStream.step RoomAtEnd (.open frames ending last) es →
        ∀ o, (Machine.final TimedStream.step (.open frames ending last) es).view.consumer = .ended o →
          ¬ BlockedForever (Machine.final TimedStream.step (.open frames ending last) es)) := by
  have hs := sound_of_run frames ending last es
  have hopen := sound_open frames ending last
  have hstart : (TimedStream.open frames ending last).forecast = .open frames ending last :=
    forecast_inside nofun rfl
  refine ⟨hs.tracks.delivers, fun as => ?_, hs.progress, fun hes hset => ?_, fun hroom o ho => ?_⟩
  · exact (tracks_run as (Tracks.start frames ending last)).delivers
  · rw [← forecast_view hset, forecast_run hopen nofun hes, hstart]
  · have hrun := Machine.final_of_steps (I := fun s => Sound frames ending s ∧ Roomy s)
      (fun s e hI hc => ⟨hI.1.step e, roomy_step hI.1 hI.2 hc⟩) ⟨hopen, nofun⟩ hroom
    exact not_blocked_of_drained (hrun.2 o ho)

/-- The consumer takes the first of three tokens and drops the iterator while the second is in the queue and the thread
is putting the third. -/
theorem reader_blocked :
    ¬ ∀ (frames : List GenerateResponse) (ending : Option RpcError) (last : LastResult) (es : List StreamEvent)
        (o : Outcome), (Machine.final TimedStream.step (.open frames ending last) es).view.consumer = .ended o →
      ¬ BlockedForever (Machine.final TimedStream.step (.open frames ending last) es) := by
  intro h
  refine h [.tokenId 1, .tokenId 2, .tokenId 3] none {}
    [.pull, .receive, .put, .get, .receive, .put, .receive, .drop, .cancel] .dropped rfl ?_
  exact blocked_of_full rfl nofun rfl

end Sdk

end KakeyaEngine
