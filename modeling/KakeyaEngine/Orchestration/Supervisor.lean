import KakeyaEngine.Lib.Machine
import KakeyaEngine.Orchestration.Atomicity

/-!
# Operator events of the supervisor

The supervisor loop reads the checkpoint, and while it is `BLOCKED` it looks for an event file that the operator has put
down.  The event is applied in memory, the checkpoint is saved, the event is journaled and the file is removed: four
separate steps, with crashes and restarts between any two of them.  `Careful` names the steps after which all events still
act exactly once: event ids are fresh, no crash falls between the save and the removal of the file, and no event that is
read is rejected.
-/

namespace KakeyaEngine

namespace Orchestration

open ProofState

/-! ### The world of the supervisor -/

/-- What reading an event file gives. -/
abbrev EventFile := Except CheckpointError BlockedExitEvent

inductive JournalRecord
  | checkpointChange (c : OrchestrationCheckpoint)
  | blockedExitEvent (event : BlockedExitEvent) (before after : String)

/-- Where the supervisor stands in the handling of an event.  Outside of it, it is `idle`. -/
inductive Supervisor
  | down
  | idle
  | applied (event : BlockedExitEvent) (before : String) (c : OrchestrationCheckpoint)
  | recorded (event : BlockedExitEvent) (before : String) (c : OrchestrationCheckpoint)
  | saved (event : BlockedExitEvent) (before : String) (c : OrchestrationCheckpoint)
  | journaled (event : BlockedExitEvent)
  | failed (e : CheckpointError)

/-- The files, the supervisor, and the history of what happened: `effects` are the events whose effect was saved, and
`exits` the ids of those that moved the checkpoint out of `BLOCKED`. -/
structure World where
  checkpoint : Option OrchestrationCheckpoint
  eventFile : Option EventFile
  journal : List JournalRecord
  supervisor : Supervisor
  effects : List BlockedExitEvent
  exits : List String

/-- A world in which nothing has happened yet. -/
def World.initial (c : Option OrchestrationCheckpoint) : World := ⟨c, none, [], .down, [], []⟩

inductive Action
  /-- the operator puts an event file in its place -/
  | place (file : EventFile)
  /-- the supervisor is started or restarted -/
  | start
  | crash
  /-- the supervisor takes the next step of its event handling -/
  | advance (now : PyValue)
  /-- the rest of an iteration saves a checkpoint -/
  | work (c : OrchestrationCheckpoint)

section Steps

-- how strings are quoted inside other values
variable (quote : String → String)

/-- The checkpoint and the event file that the loop finds. -/
def World.pending (w : World) : Option (OrchestrationCheckpoint × EventFile) :=
  match w.checkpoint, w.eventFile with
  | some c, some file => if c.state = blocked.value then some (c, file) else none
  | _, _ => none

/-- Reads the event and applies it. -/
def handleEvent (now : PyValue) (c : OrchestrationCheckpoint) (file : EventFile) :
    Except CheckpointError (BlockedExitEvent × OrchestrationCheckpoint) :=
  match file with
  | .error e => .error e
  | .ok event =>
    match (applyBlockedExitEvent quote event now).run c with
    | (.error e, _) => .error e
    | (.ok (), c') => .ok (event, c')

/-- One step of the event handling: apply, record the change, replace the checkpoint, journal the event, remove the
file. -/
def World.advance (w : World) (now : PyValue) : World :=
  match w.supervisor with
  | .down => w
  | .failed _ => w
  | .idle =>
    match w.pending with
    | none => w
    | some (c, file) =>
      match handleEvent quote now c file with
      | .error e => { w with supervisor := .failed e }
      | .ok (event, c') => { w with supervisor := .applied event c.state c' }
  | .applied event before c =>
    { w with
      journal := w.journal ++ [.checkpointChange { c with updatedAt := now }]
      supervisor := .recorded event before { c with updatedAt := now } }
  | .recorded event before c =>
    { w with
      checkpoint := some c
      effects := w.effects ++ [event]
      exits := if before = blocked.value ∧ c.state ≠ blocked.value then w.exits ++ [event.eventId] else w.exits
      supervisor := .saved event before c }
  | .saved event before c =>
    { w with
      journal := w.journal ++ [.blockedExitEvent event before c.state]
      supervisor := .journaled event }
  | .journaled _ => { w with eventFile := none, supervisor := .idle }

def World.place (w : World) (file : EventFile) : World := { w with eventFile := some file }

def World.start (w : World) : World :=
  match w.supervisor with
  | .down => { w with supervisor := .idle }
  | .failed _ => { w with supervisor := .idle }
  | _ => w

def Supervisor.isIdle : Supervisor → Bool
  | .idle => true
  | _ => false

def World.work (w : World) (c : OrchestrationCheckpoint) : World :=
  if w.supervisor.isIdle then { w with checkpoint := some c, journal := w.journal ++ [.checkpointChange c] } else w

def World.step (w : World) : Action → World
  | .place file => w.place file
  | .start => w.start
  | .crash => { w with supervisor := .down }
  | .advance now => w.advance quote now
  | .work c => w.work c

/-- The world after a run. -/
def World.after (w : World) (actions : List Action) : World :=
  Machine.final (fun w a => ((), w.step quote a)) w actions

/-- The supervisor has saved the effect of an event and not yet removed its file. -/
def Supervisor.settling : Supervisor → Bool
  | .saved .. => true
  | .journaled _ => true
  | _ => false

/-- The event that the idle supervisor would read now is one that it accepts. -/
def World.acceptsNext (w : World) (now : PyValue) : Bool :=
  match w.supervisor, w.pending with
  | .idle, some (c, file) => (handleEvent quote now c file).isOk
  | _, _ => true

/-- No event file is put down with an id that has moved the checkpoint out of `BLOCKED` already, unless it is about to be
removed; no crash comes between the save of an effect and the removal of the event file; and no event that is read is
rejected. -/
def Careful (w : World) : Action → Prop
  | .place (.ok event) => w.supervisor.settling = false → event.eventId ∉ w.exits
  | .crash => w.supervisor.settling = false
  | .advance now => w.acceptsNext quote now = true
  | _ => True

instance (w : World) : (a : Action) → Decidable (Careful quote w a)
  | .place (.ok event) => inferInstanceAs (Decidable (_ → event.eventId ∉ w.exits))
  | .place (.error _) => isTrue trivial
  | .start => isTrue trivial
  | .crash => inferInstanceAs (Decidable (w.supervisor.settling = false))
  | .advance now => inferInstanceAs (Decidable (w.acceptsNext quote now = true))
  | .work _ => isTrue trivial

/-! ### The invariant -/

/-- The event in the supervisor's hands whose effect is not saved yet. -/
def Supervisor.inHand : Supervisor → Option BlockedExitEvent
  | .applied event _ _ => some event
  | .recorded event _ _ => some event
  | _ => none

/-- The event whose effect is saved and not journaled yet. -/
def Supervisor.owed : Supervisor → Option BlockedExitEvent
  | .saved event _ _ => some event
  | _ => none

/-- What careful steps keep. -/
structure Sound (w : World) : Prop where
  /-- No event id has moved the checkpoint out of `BLOCKED` twice. -/
  once : w.exits.Nodup
  /-- An event file that the supervisor may still read has not acted. -/
  fileFresh : w.supervisor.settling = false → ∀ event, w.eventFile = some (.ok event) → event.eventId ∉ w.exits
  handFresh : ∀ event, w.supervisor.inHand = some event → event.eventId ∉ w.exits
  /-- Every saved effect is journaled, except the one in the supervisor's hands. -/
  journaled : ∀ event ∈ w.effects, (∃ before after, .blockedExitEvent event before after ∈ w.journal) ∨
    w.supervisor.owed = some event
  alive : ∀ e, w.supervisor ≠ .failed e

theorem sound_initial (c : Option OrchestrationCheckpoint) : Sound (World.initial c) where
  once := List.nodup_nil
  fileFresh := by simp [World.initial]
  handFresh := by simp [World.initial, Supervisor.inHand]
  journaled := by simp [World.initial]
  alive := by simp [World.initial]

variable {quote}

theorem handleEvent_ok {now : PyValue} {c c' : OrchestrationCheckpoint} {file : EventFile} {event : BlockedExitEvent}
    (h : handleEvent quote now c file = .ok (event, c')) : file = .ok event := by
  unfold handleEvent at h
  cases file with
  | error e => cases h
  | ok event' =>
    rcases hr : (applyBlockedExitEvent quote event' now).run c with ⟨e | ⟨⟩, d⟩
    · simp only [hr] at h
      cases h
    · simp only [hr] at h
      obtain ⟨rfl, -⟩ := Prod.mk.inj (Except.ok.inj h)
      rfl

theorem pending_file {w : World} {c : OrchestrationCheckpoint} {file : EventFile} (h : w.pending = some (c, file)) :
    w.eventFile = some file := by
  unfold World.pending at h
  split at h
  · rename_i hfile
    split at h
    · obtain ⟨-, rfl⟩ := Prod.mk.inj (Option.some.inj h)
      exact hfile
    · cases h
  · cases h

/-- A supervisor with nothing to settle may stop or start at any time. -/
theorem Sound.rest {w : World} (h : Sound w) (hsettled : w.supervisor.settling = false) {s : Supervisor}
    (hs : s = .down ∨ s = .idle) : Sound { w with supervisor := s } := by
  have hhand : s.inHand = none := by
    rcases hs with rfl | rfl
    · rfl
    · rfl
  have howed : w.supervisor.owed = none := by
    rcases hw : w.supervisor with _ | _ | _ | _ | _ | _ | _
    all_goals first
      | rfl
      | (rw [hw] at hsettled; cases hsettled)
  exact {
    once := h.once
    fileFresh := fun _ => h.fileFresh hsettled
    handFresh := fun event hevent => by rw [hhand] at hevent; cases hevent
    journaled := fun event hevent => by
      rcases h.journaled event hevent with hj | ho
      · exact .inl hj
      · rw [howed] at ho
        cases ho
    alive := fun e he => by
      rcases hs with rfl | rfl
      · cases he
      · cases he }

theorem sound_place {w : World} (h : Sound w) {file : EventFile} (hc : Careful quote w (.place file)) :
    Sound (w.place file) := by
  cases file with
  | error e =>
    exact {
      once := h.once
      fileFresh := fun _ event hevent => by cases hevent
      handFresh := h.handFresh
      journaled := h.journaled
      alive := h.alive }
  | ok event =>
    exact {
      once := h.once
      fileFresh := fun hs event' hevent => by
        obtain rfl := Except.ok.inj (Option.some.inj hevent)
        exact hc hs
      handFresh := h.handFresh
      journaled := h.journaled
      alive := h.alive }

/-- Writing to the journal keeps the records that are there. -/
theorem Sound.record {w : World} (h : Sound w) (records : List JournalRecord) (event : BlockedExitEvent)
    (hevent : event ∈ w.effects) : (∃ before after, .blockedExitEvent event before after ∈ w.journal ++ records) ∨
      w.supervisor.owed = some event := by
  rcases h.journaled event hevent with ⟨before, after, hmem⟩ | ho
  · exact .inl ⟨before, after, List.mem_append_left _ hmem⟩
  · exact .inr ho

theorem sound_advance {w : World} (h : Sound w) {now : PyValue} (hc : w.acceptsNext quote now = true) :
    Sound (w.advance quote now) := by
  unfold World.advance
  rcases hw : w.supervisor with _ | _ | ⟨event, before, c⟩ | ⟨event, before, c⟩ | ⟨event, before, c⟩ | event | e
  · exact h
  · -- the idle supervisor reads the file and applies the event
    unfold World.acceptsNext at hc
    rw [hw] at hc
    rcases hp : w.pending with _ | ⟨c, file⟩
    · exact h
    rw [hp] at hc
    dsimp only at hc ⊢
    rcases hevent : handleEvent quote now c file with e | ⟨event, c'⟩
    · rw [hevent] at hc
      cases hc
    have hfile : w.eventFile = some (.ok event) := by rw [pending_file hp, handleEvent_ok hevent]
    have hsettled : w.supervisor.settling = false := by rw [hw]; rfl
    exact {
      once := h.once
      fileFresh := fun _ => h.fileFresh hsettled
      handFresh := fun event' hevent' => by
        obtain rfl := Option.some.inj hevent'
        exact h.fileFresh hsettled _ hfile
      journaled := fun event' hmem => by
        rcases h.journaled event' hmem with hj | ho
        · exact .inl hj
        · rw [hw] at ho
          cases ho
      alive := fun e he => by cases he }
  · -- the change is recorded
    have hsettled : w.supervisor.settling = false := by rw [hw]; rfl
    have hhand : w.supervisor.inHand = some event := by rw [hw]; rfl
    exact {
      once := h.once
      fileFresh := fun _ => h.fileFresh hsettled
      handFresh := fun event' hevent' => h.handFresh event' (hhand.trans hevent')
      journaled := fun event' hmem => by
        rcases h.record [.checkpointChange { c with updatedAt := now }] event' hmem with hj | ho
        · exact .inl hj
        · rw [hw] at ho
          cases ho
      alive := fun e he => by cases he }
  · -- the checkpoint is replaced: the event acts, and it has not acted before
    have hhand : w.supervisor.inHand = some event := by rw [hw]; rfl
    have hfresh := h.handFresh event hhand
    refine {
      once := ?_
      fileFresh := fun hs => by cases hs
      handFresh := fun event' hevent' => by cases hevent'
      journaled := fun event' hmem => ?_
      alive := fun e he => by cases he }
    · dsimp only
      split
      · exact List.nodup_append.mpr ⟨h.once, List.nodup_singleton _, by
          intro id hid id' hid' heq
          rw [List.mem_singleton] at hid'
          exact hfresh (hid' ▸ heq ▸ hid)⟩
      · exact h.once
    · rcases List.mem_append.mp hmem with hmem | hmem
      · rcases h.journaled event' hmem with hj | ho
        · exact .inl hj
        · rw [hw] at ho
          cases ho
      · rw [List.mem_singleton] at hmem
        exact .inr (by rw [hmem]; rfl)
  · -- the event is journaled
    refine {
      once := h.once
      fileFresh := fun hs => by cases hs
      handFresh := fun event' hevent' => by cases hevent'
      journaled := fun event' hmem => .inl ?_
      alive := fun e he => by cases he }
    rcases h.record [.blockedExitEvent event before c.state] event' hmem with hj | ho
    · exact hj
    · rw [hw] at ho
      obtain rfl := Option.some.inj ho
      exact ⟨before, c.state, List.mem_append_right _ List.mem_cons_self⟩
  · -- the file is removed
    exact {
      once := h.once
      fileFresh := fun _ event' hevent' => by cases hevent'
      handFresh := fun event' hevent' => by cases hevent'
      journaled := fun event' hmem => by
        rcases h.journaled event' hmem with hj | ho
        · exact .inl hj
        · rw [hw] at ho
          cases ho
      alive := fun e he => by cases he }
  · exact h

/-- A careful step keeps the invariant. -/
theorem sound_step {w : World} {a : Action} (h : Sound w) (hc : Careful quote w a) : Sound (w.step quote a) := by
  cases a with
  | place file => exact sound_place h hc
  | start =>
    have hrest := h.rest (s := .idle)
    change Sound w.start
    unfold World.start
    rcases hw : w.supervisor with _ | _ | _ | _ | _ | _ | e
    · exact hrest (by rw [hw]; rfl) (.inr rfl)
    all_goals first
      | exact h
      | exact absurd hw (h.alive e)
  | crash => exact h.rest hc (.inl rfl)
  | advance now => exact sound_advance h hc
  | work c =>
    change Sound (w.work c)
    unfold World.work
    split
    · exact {
        once := h.once
        fileFresh := h.fileFresh
        handFresh := h.handFresh
        journaled := fun event' hmem => h.record [.checkpointChange c] event' hmem
        alive := h.alive }
    · exact h

/-! ### Runs -/

/-- Every step of the run is careful. -/
def CarefulRun (quote : String → String) (w : World) (actions : List Action) : Prop :=
  Machine.AllSteps (fun w a => ((), w.step quote a)) (Careful quote) w actions

/-- From the idle supervisor, an event that is accepted is saved, journaled and removed in the next five steps. -/
def HandlesNext (quote : String → String) (w : World) : Prop :=
  ∀ c file event c' (t₀ t₁ t₂ t₃ t₄ : PyValue), w.supervisor.isIdle = true → w.pending = some (c, file) →
    handleEvent quote t₀ c file = .ok (event, c') →
    let w' := w.after quote [.advance t₀, .advance t₁, .advance t₂, .advance t₃, .advance t₄]
    w'.checkpoint = some { c' with updatedAt := t₁ } ∧ w'.eventFile = none ∧ w'.supervisor.isIdle = true ∧
      .blockedExitEvent event c.state c'.state ∈ w'.journal

theorem handlesNext (w : World) : HandlesNext quote w := by
  intro c file event c' t₀ t₁ t₂ t₃ t₄ hidle hp hevent
  have hw : w.supervisor = .idle := by
    rcases hw : w.supervisor with _ | _ | _ | _ | _ | _ | _
    all_goals first
      | rfl
      | (rw [hw] at hidle; cases hidle)
  have hfirst : w.advance quote t₀ = { w with supervisor := .applied event c.state c' } := by
    unfold World.advance
    rw [hw, hp]
    dsimp only
    rw [hevent]
  unfold World.after
  simp only [Machine.final, World.step, hfirst]
  exact ⟨rfl, rfl, rfl, List.mem_append_right _ List.mem_cons_self⟩

/-- In every careful run, whatever crashes and restarts it has, no event id moves the checkpoint out of `BLOCKED` twice,
every saved effect is journaled unless the supervisor is just about to do so, and the supervisor never stops on an event:
it handles the next one that it accepts. -/
theorem careful_run_once (c : Option OrchestrationCheckpoint) (actions : List Action)
    (h : CarefulRun quote (World.initial c) actions) :
    let w := (World.initial c).after quote actions
    w.exits.Nodup ∧
      (∀ event ∈ w.effects, (∃ before after, .blockedExitEvent event before after ∈ w.journal) ∨
        w.supervisor.owed = some event) ∧
      (∀ e, w.supervisor ≠ .failed e) ∧ HandlesNext quote w := by
  have hsound : Sound ((World.initial c).after quote actions) :=
    Machine.final_of_steps (I := Sound) (fun w a hw hc => sound_step hw hc) (sound_initial c) h
  exact ⟨hsound.once, hsound.journaled, hsound.alive, handlesNext _⟩

end Steps

instance (quote : String → String) (w : World) (actions : List Action) : Decidable (CarefulRun quote w actions) :=
  inferInstanceAs (Decidable (Machine.AllSteps _ _ _ _))

/-- A blocked checkpoint. -/
def halted : OrchestrationCheckpoint := { state := "BLOCKED", updatedAt := .null }

/-- The operator unblocks the decomposer. -/
def unblock (id : String) : BlockedExitEvent where
  eventId := id
  eventType := "OPERATOR_UNBLOCK"
  reason := "parser hardened"
  targetState := "DECOMPOSER"
  resetRole := "DECOMPOSER"
  createdAt := .null

/-- Two events, the second one first lost in a crash before its effect is saved. -/
theorem careful_run_once_restart :
    let actions : List Action := [.start, .place (.ok (unblock "evt-1")), .advance .null, .advance .null, .advance .null,
      .advance .null, .advance .null, .work halted, .place (.ok (unblock "evt-2")), .advance .null, .crash, .start,
      .advance .null, .advance .null, .advance .null, .advance .null, .advance .null]
    CarefulRun id (World.initial (some halted)) actions ∧
      ((World.initial (some halted)).after id actions).exits = ["evt-1", "evt-2"] ∧
      ((World.initial (some halted)).after id actions).exits.Nodup := by
  refine ⟨by decide +kernel, by decide +kernel, (careful_run_once (some halted) _ ?_).1⟩
  decide +kernel

/-- A crash after the save leaves the effect without its record and the file in its place, so the event acts again on a
later block; and a rejected event stops the supervisor, again after every restart. -/
theorem event_acts_twice :
    let saved : List Action := [.start, .place (.ok (unblock "evt-1")), .advance .null, .advance .null, .advance .null,
      .crash]
    let again : List Action := [.start, .work halted, .advance .null, .advance .null, .advance .null]
    let rejected : List Action := [.start, .place (.ok (unblock "")), .advance .null, .start, .advance .null]
    let world (actions : List Action) := (World.initial (some halted)).after id actions
    (¬ ∀ event ∈ (world saved).effects, ∃ before after, .blockedExitEvent event before after ∈ (world saved).journal) ∧
      (world (saved ++ again)).exits = ["evt-1", "evt-1"] ∧ ∃ e, (world rejected).supervisor = .failed e := by
  refine ⟨?_, by decide +kernel, ⟨_, rfl⟩⟩
  intro h
  obtain ⟨before, after, hmem⟩ := h (unblock "evt-1") (List.mem_singleton_self _)
  have hjournal : ∃ c, JournalRecord.blockedExitEvent (unblock "evt-1") before after ∈
      [JournalRecord.checkpointChange c] := ⟨_, hmem⟩
  obtain ⟨c, hc⟩ := hjournal
  cases List.mem_singleton.mp hc

end Orchestration

end KakeyaEngine
