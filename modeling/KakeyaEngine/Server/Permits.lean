import KakeyaEngine.Server.Admission

/-!
# Conservation of the permits

In `Conserved` the free permits and the requests in flight add up to `max_concurrent`, a request in flight holds its one
permit, and any other request has given back what it took and has no live session.  Three kinds of event break this for
good: `create_session` raises for a request that has its permit, the prefill of a streaming request fails, and a client is
lost while its stream has not got past the first `yield`.  `Careful` excludes exactly these.
-/

namespace KakeyaEngine

/-- The request has been granted a permit and has not come to the end of its cleanup. -/
def ChatPhase.inFlight : ChatPhase → Bool
  | .queued | .tail | .over => false
  | _ => true

/-- The accounts of a request: in flight it holds one permit, otherwise it has given back what it took and no session is
left of it; it takes its permit before it makes a session. -/
structure ChatRequest.Square (r : ChatRequest) : Prop where
  held : r.phase.inFlight = true → r.taken = 1 ∧ r.released = 0
  settled : r.phase.inFlight = false → r.taken ≤ 1 ∧ r.released = r.taken ∧ r.session ≠ .live
  queued : r.phase = .queued → r.taken = 0
  granted : r.phase = .granted → r.session ≠ .live

namespace ChatServer

variable {s : ChatServer} {e : ChatEvent} {id : String} {r : ChatRequest}

/-- The number of requests in flight. -/
def inFlight (s : ChatServer) : Nat := s.requests.total fun r => r.phase.inFlight.toNat

/-- No permit is lost or given back twice. -/
structure Conserved (s : ChatServer) : Prop where
  permits : s.value + s.inFlight = s.maxConcurrent
  square : ∀ id r, s.requests.get? id = some r → r.Square

/-- Whether the handler gives the permit back that it goes on with. -/
def HandlesWell (stream createOk prefillOk : Bool) : Prop :=
  createOk = true ∧ (stream = true → prefillOk = true)

/-- `create_session` does not raise for a request with a permit, nor the prefill for one that streams, and no client is lost
before its stream has got past the first `yield`. -/
def Careful (s : ChatServer) : ChatEvent → Prop
  | .arrive id stream createOk prefillOk =>
    s.requests.get? id = none → s.policy = .reject → s.value ≠ 0 → HandlesWell stream createOk prefillOk
  | .resume id createOk prefillOk =>
    ∀ r ∈ s.requests.get? id, r.phase = .granted → HandlesWell r.stream createOk prefillOk
  | .drop id => ∀ r ∈ s.requests.get? id, r.phase ≠ .created ∧ r.phase ≠ .opening
  | _ => True

instance (stream createOk prefillOk : Bool) : Decidable (HandlesWell stream createOk prefillOk) :=
  inferInstanceAs (Decidable (_ ∧ (_ → _)))

instance (s : ChatServer) : (e : ChatEvent) → Decidable (s.Careful e)
  | .arrive .. => inferInstanceAs (Decidable (_ → _ → _ → _))
  | .resume id _ _ => inferInstanceAs (Decidable (∀ r ∈ s.requests.get? id, _))
  | .drop id => inferInstanceAs (Decidable (∀ r ∈ s.requests.get? id, _))
  | .grant _ | .timeout _ | .advance _ => isTrue trivial

/-! ### One request changes -/

/-- What a request counts for before the event. -/
def weight (s : ChatServer) (id : String) : Nat :=
  match s.requests.get? id with
  | none => 0
  | some r => r.phase.inFlight.toNat

theorem weight_of_get (h : s.requests.get? id = some r) : s.weight id = r.phase.inFlight.toNat := by
  unfold weight
  rw [h]

theorem weight_of_absent (h : s.requests.get? id = none) : s.weight id = 0 := by
  unfold weight
  rw [h]

theorem total_set (s : ChatServer) (id : String) (r : ChatRequest) :
    (s.requests.set id r).total (fun r => r.phase.inFlight.toNat) + s.weight id =
      s.inFlight + r.phase.inFlight.toNat := by
  unfold inFlight
  cases h : s.requests.get? id with
  | none => rw [weight_of_absent h, Dict.total_set_new _ r h]; rfl
  | some r' => rw [weight_of_get h]; exact Dict.total_set_old _ r h

/-- The rule for an event that changes one request, and maybe the semaphore. -/
theorem conserved_set_iff (h : s.Conserved) {t : ChatServer} (hmax : t.maxConcurrent = s.maxConcurrent)
    (hreq : t.requests = s.requests.set id r) :
    t.Conserved ↔ t.value + r.phase.inFlight.toNat = s.value + s.weight id ∧ r.Square := by
  have hsum : t.inFlight + s.weight id = s.inFlight + r.phase.inFlight.toNat := by
    have := total_set s id r
    rw [← hreq] at this
    exact this
  have hpermits := h.permits
  constructor
  · intro ht
    have := ht.permits
    refine ⟨by omega, ht.square id r ?_⟩
    rw [hreq, Dict.get?_set_self]
  · rintro ⟨hvalue, hr⟩
    refine ⟨by omega, ?_⟩
    intro id' r' hget
    rw [hreq, Dict.get?_set] at hget
    split at hget
    · cases hget; exact hr
    · exact h.square id' r' hget

/-- An event that leaves the semaphore alone. -/
theorem conserved_put_iff (h : s.Conserved) :
    (s.put id r).Conserved ↔ r.phase.inFlight.toNat = s.weight id ∧ r.Square := by
  have hmax : (s.put id r).maxConcurrent = s.maxConcurrent := rfl
  have hreq : (s.put id r).requests = s.requests.set id r := rfl
  rw [conserved_set_iff h hmax hreq]
  show s.value + _ = _ ∧ _ ↔ _
  constructor
  · rintro ⟨hvalue, hr⟩
    exact ⟨by omega, hr⟩
  · rintro ⟨hweight, hr⟩
    exact ⟨by omega, hr⟩

/-- An event that gives a permit back. -/
theorem conserved_semRelease_iff (h : s.Conserved) :
    (s.semRelease id r).Conserved ↔ r.phase.inFlight.toNat + 1 = s.weight id ∧ r.release.Square := by
  have hmax : (s.semRelease id r).maxConcurrent = s.maxConcurrent := rfl
  have hreq : (s.semRelease id r).requests = s.requests.set id r.release := rfl
  rw [conserved_set_iff h hmax hreq]
  show s.value + 1 + r.phase.inFlight.toNat = _ ∧ _ ↔ _
  constructor
  · rintro ⟨hvalue, hr⟩
    exact ⟨by omega, hr⟩
  · rintro ⟨hweight, hr⟩
    exact ⟨by omega, hr⟩

/-! ### The parts of a request -/

@[simp] theorem phase_goto (p : ChatPhase) (r : ChatRequest) : (r.goto p).phase = p := rfl

@[simp] theorem session_closeSession (r : ChatRequest) : r.closeSession.session ≠ .live := by
  unfold ChatRequest.closeSession
  split <;> simp_all

@[simp] theorem taken_closeSession (r : ChatRequest) : r.closeSession.taken = r.taken := by
  unfold ChatRequest.closeSession
  split <;> rfl

@[simp] theorem released_closeSession (r : ChatRequest) : r.closeSession.released = r.released := by
  unfold ChatRequest.closeSession
  split <;> rfl

/-- A request that holds a permit moves on with it. -/
theorem square_goto_inFlight {p : ChatPhase} (hp : p.inFlight = true) (hg : p ≠ .granted) (ht : r.taken = 1)
    (hr : r.released = 0) : (r.goto p).Square where
  held _ := ⟨ht, hr⟩
  settled hidle := absurd (hp.symm.trans hidle) Bool.noConfusion
  queued hq := absurd (hp.symm.trans (congrArg ChatPhase.inFlight hq)) Bool.noConfusion
  granted hg' := absurd hg' hg

/-- A request that is past its wait and holds no permit. -/
theorem square_of_settled (hp : r.phase.inFlight = false) (hq : r.phase ≠ .queued) (ht : r.taken ≤ 1)
    (hr : r.released = r.taken) (hs : r.session ≠ .live) : r.Square where
  held hflight := absurd (hflight.symm.trans hp) Bool.noConfusion
  settled _ := ⟨ht, hr, hs⟩
  queued hq' := absurd hq' hq
  granted _ := hs

/-- The cleanup settles the accounts of a request. -/
theorem square_cleanUp {p : ChatPhase} (hp : p.inFlight = false) (hq : p ≠ .queued) (ht : r.taken = 1)
    (hr : r.released = 0) : (r.closeSession.goto p).release.Square := by
  apply square_of_settled hp hq
  · show r.closeSession.taken ≤ 1
    rw [taken_closeSession]; omega
  · show r.closeSession.released + 1 = r.closeSession.taken
    rw [released_closeSession, taken_closeSession]; omega
  · exact session_closeSession r

/-- A request that ends with its permit keeps a debt. -/
theorem not_square_over (ht : r.taken = 1) (hr : r.released = 0) : ¬ (r.goto .over).Square := by
  intro h
  obtain ⟨-, hdebt, -⟩ := h.settled rfl
  have : r.released = r.taken := hdebt
  omega

theorem Conserved.cleanUp (h : s.Conserved) {p : ChatPhase} (hp : p.inFlight = false) (hq : p ≠ .queued)
    (hw : s.weight id = 1) (ht : r.taken = 1) (hr : r.released = 0) : (s.cleanUp id r p).Conserved := by
  unfold ChatServer.cleanUp
  rw [conserved_semRelease_iff h, phase_goto, hp, hw]
  exact ⟨rfl, square_cleanUp hp hq ht hr⟩

/-- A request in flight moves on with its permit. -/
theorem Conserved.put_inFlight (h : s.Conserved) {p : ChatPhase} (hp : p.inFlight = true) (hg : p ≠ .granted)
    (hw : s.weight id = 1) (ht : r.taken = 1) (hr : r.released = 0) : (s.put id (r.goto p)).Conserved := by
  rw [conserved_put_iff h, phase_goto, hp, hw]
  exact ⟨rfl, square_goto_inFlight hp hg ht hr⟩

/-- A request in flight ends where nobody cleans up. -/
theorem Conserved.not_put_over (h : s.Conserved) (ht : r.taken = 1) (hr : r.released = 0) :
    ¬ (s.put id (r.goto .over)).Conserved :=
  fun hover => not_square_over ht hr ((conserved_put_iff h).1 hover).2

/-- The handler of a request that has a permit gives it back, or hands it on, exactly if nothing raises where nobody cleans
up. -/
theorem conserved_handle_iff (h : s.Conserved) (hw : s.weight id = 1) (ht : r.taken = 1) (hr : r.released = 0)
    (createOk prefillOk : Bool) :
    (s.handle id createOk prefillOk r).Conserved ↔ HandlesWell r.stream createOk prefillOk := by
  unfold handle HandlesWell
  cases createOk with
  | false =>
    rw [if_pos rfl]
    exact ⟨fun hover => absurd hover (h.not_put_over ht hr), fun hwell => absurd hwell.1 Bool.false_ne_true⟩
  | true =>
    rw [if_neg (by decide)]
    cases hstream : r.stream <;> cases prefillOk
    all_goals simp only [Bool.true_eq_false, Bool.false_eq_true, if_true, if_false]
    · refine iff_of_true (h.cleanUp rfl (by decide) hw ?_ ?_) (by simp)
      · rw [taken_closeSession]; exact ht
      · rw [released_closeSession]; exact hr
    · exact iff_of_true (h.put_inFlight rfl (by decide) hw ht hr) (by simp)
    · refine iff_of_false (h.not_put_over ?_ ?_) (by simp)
      · rw [taken_closeSession]; exact ht
      · rw [released_closeSession]; exact hr
    · exact iff_of_true (h.put_inFlight rfl (by decide) hw ht hr) (by simp)

/-- A request without a permit takes one. -/
theorem Conserved.semTake (h : s.Conserved) (hv : s.value ≠ 0) (hw : s.weight id = 0) (ht : r.taken = 0)
    (hr : r.released = 0) (hs : r.session ≠ .live) : (s.semTake id r).Conserved := by
  have hmax : (s.semTake id r).maxConcurrent = s.maxConcurrent := rfl
  have hreq : (s.semTake id r).requests = s.requests.set id r.take := rfl
  rw [conserved_set_iff h hmax hreq, hw]
  constructor
  · show s.value - 1 + 1 = s.value + 0
    omega
  · have ht' : r.taken + 1 = 1 := by omega
    exact ⟨fun _ => ⟨ht', hr⟩, nofun, nofun, fun _ => hs⟩

theorem weight_semTake (s : ChatServer) (id : String) (r : ChatRequest) : (s.semTake id r).weight id = 1 := by
  have hget : (s.semTake id r).requests.get? id = some r.take := Dict.get?_set_self ..
  rw [weight_of_get hget]
  rfl

/-! ### One event -/

theorem Conserved.inFlight_square (h : s.Conserved) (hget : s.requests.get? id = some r) (hp : r.phase.inFlight = true) :
    s.weight id = 1 ∧ r.taken = 1 ∧ r.released = 0 := by
  refine ⟨?_, (h.square id r hget).held hp⟩
  rw [weight_of_get hget, hp]
  rfl

theorem Conserved.idle_square (h : s.Conserved) (hget : s.requests.get? id = some r) (hp : r.phase.inFlight = false) :
    s.weight id = 0 ∧ r.taken ≤ 1 ∧ r.released = r.taken ∧ r.session ≠ .live := by
  refine ⟨?_, (h.square id r hget).settled hp⟩
  rw [weight_of_get hget, hp]
  rfl

/-- A request that holds no permit ends. -/
theorem Conserved.put_over (h : s.Conserved) (hget : s.requests.get? id = some r) (hp : r.phase.inFlight = false) :
    (s.put id (r.goto .over)).Conserved := by
  obtain ⟨hw, ht, hr, hs⟩ := h.idle_square hget hp
  rw [conserved_put_iff h, hw]
  exact ⟨rfl, square_of_settled (r := r.goto .over) rfl nofun ht hr hs⟩

theorem conserved_arrive_iff (h : s.Conserved) (stream createOk prefillOk : Bool) :
    (s.arrive id stream createOk prefillOk).Conserved ↔ s.Careful (.arrive id stream createOk prefillOk) := by
  unfold arrive Careful
  cases hget : s.requests.get? id with
  | some r => exact iff_of_true h fun habs => absurd (hget.symm.trans habs) (by simp)
  | none =>
    have hw := weight_of_absent hget
    have hnew : ∀ p : ChatPhase, p.inFlight = false → (s.put id { stream := stream, phase := p }).Conserved := by
      intro p hp
      rw [conserved_put_iff h, hw, hp]
      refine ⟨rfl, ?_, fun _ => ⟨Nat.zero_le 1, rfl, by simp⟩, fun _ => rfl, fun _ => by simp⟩
      intro hflight
      exact absurd (hflight.symm.trans hp) Bool.noConfusion
    cases s.policy with
    | queue => exact iff_of_true (hnew .queued rfl) (by simp)
    | reject =>
      by_cases hv : s.value = 0
      · simp only [hv, if_true]
        exact iff_of_true (hnew .over rfl) (by simp)
      · simp only [if_neg hv]
        have htake : (s.semTake id { stream := stream, phase := .queued }).Conserved := 
          h.semTake hv hw rfl rfl (by simp)
        rw [conserved_handle_iff htake (weight_semTake ..) rfl rfl]
        exact ⟨fun hwell _ _ _ => hwell, fun hall => hall hget trivial hv⟩

theorem Conserved.giveUp (h : s.Conserved) (hget : s.requests.get? id = some r) : (s.giveUp id r).Conserved := by
  unfold ChatServer.giveUp
  split
  next hp => exact h.put_over hget (by rw [hp]; rfl)
  next hp =>
    obtain ⟨hw, ht, hr⟩ := h.inFlight_square hget (by rw [hp]; rfl)
    have hs := (h.square id r hget).granted hp
    rw [conserved_semRelease_iff h, hw]
    have hr' : r.released + 1 = r.taken := by omega
    exact ⟨rfl, square_of_settled (r := (r.goto .over).release) rfl nofun (Nat.le_of_eq ht) hr' hs⟩
  next => exact h

theorem Conserved.grant (h : s.Conserved) (hget : s.requests.get? id = some r) : (s.grant id r).Conserved := by
  unfold ChatServer.grant
  split
  next hp =>
    obtain ⟨hw, -, hr, hs⟩ := h.idle_square hget (by rw [hp.1]; rfl)
    have ht := (h.square id r hget).queued hp.1
    exact h.semTake (by omega) hw ht (by omega) hs
  next => exact h

theorem conserved_resume_iff (h : s.Conserved) (hget : s.requests.get? id = some r) (createOk prefillOk : Bool) :
    (s.resume id createOk prefillOk r).Conserved ↔ (r.phase = .granted → HandlesWell r.stream createOk prefillOk) := by
  unfold ChatServer.resume
  split
  next hp =>
    obtain ⟨hw, ht, hr⟩ := h.inFlight_square hget (by rw [hp]; rfl)
    rw [conserved_handle_iff h hw ht hr]
    exact ⟨fun hwell _ => hwell, fun hall => hall hp⟩
  next hp => exact iff_of_true h fun hgranted => absurd hgranted hp

theorem Conserved.timeout (h : s.Conserved) (hget : s.requests.get? id = some r) : (s.timeout id r).Conserved := by
  unfold ChatServer.timeout
  split
  · exact h
  · exact h.giveUp hget

/-- The end of the `finally`, for a request that awaits `drain_task`. -/
theorem Conserved.closing (h : s.Conserved) (hget : s.requests.get? id = some r) {last : Bool}
    (hp : r.phase = .closing last) : (s.cleanUp id r (if last then .over else .tail)).Conserved := by
  obtain ⟨hw, ht, hr⟩ := h.inFlight_square hget (by rw [hp]; rfl)
  cases last with
  | false => exact h.cleanUp rfl (by decide) hw ht hr
  | true => exact h.cleanUp rfl (by decide) hw ht hr

theorem Conserved.advance (h : s.Conserved) (hget : s.requests.get? id = some r) : (s.advance id r).Conserved := by
  unfold ChatServer.advance
  have hmove : ∀ p : ChatPhase, p.inFlight = true → p ≠ .granted → r.phase.inFlight = true →
      (s.put id (r.goto p)).Conserved := by
    intro p hp hg hflight
    obtain ⟨hw, ht, hr⟩ := h.inFlight_square hget hflight
    exact h.put_inFlight hp hg hw ht hr
  split
  next hp => exact hmove (.closing true) rfl (by decide) (by rw [hp]; rfl)
  next hp => exact hmove .opening rfl (by decide) (by rw [hp]; rfl)
  next hp => exact hmove .streaming rfl (by decide) (by rw [hp]; rfl)
  next hp => exact hmove (.closing false) rfl (by decide) (by rw [hp]; rfl)
  next hp => exact h.closing hget hp
  next hp => exact h.put_over hget (by rw [hp]; rfl)
  next => exact h

theorem conserved_drop_iff (h : s.Conserved) (hget : s.requests.get? id = some r) :
    (s.drop id r).Conserved ↔ r.phase ≠ .created ∧ r.phase ≠ .opening := by
  unfold ChatServer.drop
  cases hp : r.phase with
  | queued => exact iff_of_true (h.giveUp hget) (by simp)
  | granted => exact iff_of_true (h.giveUp hget) (by simp)
  | collecting =>
    obtain ⟨hw, ht, hr⟩ := h.inFlight_square hget (by rw [hp]; rfl)
    exact iff_of_true (h.put_inFlight rfl (by decide) hw ht hr) (by simp)
  | created =>
    obtain ⟨-, ht, hr⟩ := h.inFlight_square hget (by rw [hp]; rfl)
    exact iff_of_false (h.not_put_over ht hr) (by simp)
  | opening =>
    obtain ⟨-, ht, hr⟩ := h.inFlight_square hget (by rw [hp]; rfl)
    exact iff_of_false (h.not_put_over ht hr) (by simp)
  | streaming =>
    obtain ⟨hw, ht, hr⟩ := h.inFlight_square hget (by rw [hp]; rfl)
    exact iff_of_true (h.put_inFlight rfl (by decide) hw ht hr) (by simp)
  | closing last => exact iff_of_true (h.closing hget hp) (by simp)
  | tail => exact iff_of_true (h.put_over hget (by rw [hp]; rfl)) (by simp)
  | «over» => exact iff_of_true h (by simp)

theorem act_of_absent {f : ChatRequest → ChatServer → ChatServer} (h : s.requests.get? id = none) : s.act id f = s := by
  unfold act
  rw [h]

theorem act_of_get {f : ChatRequest → ChatServer → ChatServer} (h : s.requests.get? id = some r) :
    s.act id f = f r s := by
  unfold act
  rw [h]

/-- Lets a request act whose step keeps the permits exactly under a condition. -/
theorem conserved_act_iff (h : s.Conserved) {f : ChatRequest → ChatServer → ChatServer} {P : ChatRequest → Prop}
    (hf : ∀ r, s.requests.get? id = some r → ((f r s).Conserved ↔ P r)) :
    (s.act id f).Conserved ↔ ∀ r ∈ s.requests.get? id, P r := by
  cases hget : s.requests.get? id with
  | none =>
    rw [act_of_absent hget]
    exact iff_of_true h (by simp)
  | some r =>
    rw [act_of_get hget, hf r hget]
    simp

theorem Conserved.act (h : s.Conserved) {f : ChatRequest → ChatServer → ChatServer}
    (hf : ∀ r, s.requests.get? id = some r → (f r s).Conserved) : (s.act id f).Conserved :=
  (conserved_act_iff h fun r hget => iff_of_true (hf r hget) trivial).2 fun _ _ => trivial

/-- The careful events are exactly those that keep the permits. -/
theorem conserved_step_iff (h : s.Conserved) (e : ChatEvent) : (s.step e).2.Conserved ↔ s.Careful e := by
  cases e with
  | arrive id stream createOk prefillOk => exact conserved_arrive_iff h stream createOk prefillOk
  | grant id => exact iff_of_true (h.act fun r hget => h.grant hget) trivial
  | resume id createOk prefillOk => exact conserved_act_iff h fun r hget => conserved_resume_iff h hget createOk prefillOk
  | timeout id => exact iff_of_true (h.act fun r hget => h.timeout hget) trivial
  | advance id => exact iff_of_true (h.act fun r hget => h.advance hget) trivial
  | drop id => exact conserved_act_iff h fun r hget => conserved_drop_iff h hget

/-! ### Whole runs -/

theorem conserved_create (maxConcurrent : Nat) (policy : AdmissionPolicy) (queueMaxWait : Nat) :
    (create maxConcurrent policy queueMaxWait).Conserved :=
  ⟨rfl, fun _ _ hget => by simp [create] at hget⟩

theorem maxConcurrent_handle (s : ChatServer) (id : String) (createOk prefillOk : Bool) (r : ChatRequest) :
    (s.handle id createOk prefillOk r).maxConcurrent = s.maxConcurrent := by
  unfold handle
  simp only
  split
  · rfl
  · split <;> split <;> rfl

theorem maxConcurrent_giveUp (s : ChatServer) (id : String) (r : ChatRequest) :
    (s.giveUp id r).maxConcurrent = s.maxConcurrent := by
  unfold giveUp
  split <;> rfl

theorem maxConcurrent_act {f : ChatRequest → ChatServer → ChatServer}
    (hf : ∀ r, (f r s).maxConcurrent = s.maxConcurrent) : (s.act id f).maxConcurrent = s.maxConcurrent := by
  unfold act
  split
  · rfl
  · exact hf _

/-- No event changes the configuration. -/
theorem maxConcurrent_step (s : ChatServer) (e : ChatEvent) : (s.step e).2.maxConcurrent = s.maxConcurrent := by
  cases e with
  | arrive id stream createOk prefillOk =>
    show (s.arrive id stream createOk prefillOk).maxConcurrent = _
    unfold arrive
    split
    · rfl
    · split
      · split
        · rfl
        · exact maxConcurrent_handle ..
      · rfl
  | grant id =>
    apply maxConcurrent_act
    intro r
    unfold ChatServer.grant
    split <;> rfl
  | resume id createOk prefillOk =>
    apply maxConcurrent_act
    intro r
    unfold ChatServer.resume
    split
    · exact maxConcurrent_handle ..
    · rfl
  | timeout id =>
    apply maxConcurrent_act
    intro r
    unfold ChatServer.timeout
    split
    · rfl
    · exact maxConcurrent_giveUp ..
  | advance id =>
    apply maxConcurrent_act
    intro r
    unfold ChatServer.advance
    split <;> rfl
  | drop id =>
    apply maxConcurrent_act
    intro r
    unfold ChatServer.drop
    split <;> first | rfl | exact maxConcurrent_giveUp ..

/-- When every request is over, nobody is in flight. -/
theorem inFlight_of_over (h : ∀ id r, s.requests.get? id = some r → r.phase = .over) : s.inFlight = 0 := by
  unfold inFlight Dict.total
  rw [List.sum_eq_zero_iff_forall_eq_nat]
  intro n hn
  obtain ⟨r, hr, rfl⟩ := List.mem_map.1 hn
  obtain ⟨id, hget⟩ := Dict.mem_values_iff.1 hr
  rw [h id r hget]
  rfl

/-- In every run of careful events the free permits and the requests in flight add up to `max_concurrent`, every request has
given back exactly what it took when it is over, with its session closed, and an idle server has all its permits; the next
event keeps this exactly if it is careful. -/
theorem careful_run_conserves (maxConcurrent : Nat) (policy : AdmissionPolicy) (queueMaxWait : Nat)
    (events : List ChatEvent)
    (h : Machine.AllSteps step Careful (create maxConcurrent policy queueMaxWait) events) :
    let s := run maxConcurrent policy queueMaxWait events
    s.value + s.inFlight = maxConcurrent ∧
      (∀ id r, s.requests.get? id = some r → r.phase.inFlight = true → r.taken = 1 ∧ r.released = 0) ∧
      (∀ id r, s.requests.get? id = some r → r.phase = .over →
        r.taken ≤ 1 ∧ r.released = r.taken ∧ r.session ≠ .live) ∧
      ((∀ id r, s.requests.get? id = some r → r.phase = .over) → s.value = maxConcurrent) ∧
      ∀ e, (s.step e).2.Conserved ↔ s.Careful e := by
  intro s
  have hinv : s.Conserved ∧ s.maxConcurrent = maxConcurrent := by
    refine Machine.final_of_steps (I := fun s => s.Conserved ∧ s.maxConcurrent = maxConcurrent) ?_
      ⟨conserved_create .., rfl⟩ h
    rintro s e ⟨hs, hmax⟩ he
    exact ⟨(conserved_step_iff hs e).2 he, (maxConcurrent_step s e).trans hmax⟩
  obtain ⟨hs, hmax⟩ := hinv
  have hpermits := hs.permits
  rw [hmax] at hpermits
  refine ⟨hpermits, fun id r hget => (hs.square id r hget).held, ?_, ?_, conserved_step_iff hs⟩
  · intro id r hget hover
    exact (hs.square id r hget).settled (by rw [hover]; rfl)
  · intro hover
    rw [inFlight_of_over hover] at hpermits
    exact hpermits

/-- Two plain requests, one cancelled while it collects, and a stream whose client is lost while it streams. -/
theorem careful_run_conserves_mixed :
    let events : List ChatEvent := [.arrive "a" false true true, .arrive "b" true true true, .arrive "c" false true true,
      .drop "a", .advance "b", .advance "b", .advance "a", .drop "b", .advance "b"]
    Machine.AllSteps step Careful (create 2 .reject 0) events ∧
      (run 2 .reject 0 events).value + (run 2 .reject 0 events).inFlight = 2 := by
  refine ⟨by decide +kernel, (careful_run_conserves 2 .reject 0 _ ?_).1⟩
  decide +kernel

/-- With one permit, the run leaves nobody in flight and no permit free: the request of `a` is over with a permit taken
and none released, and the next request is refused. -/
def PermitLost (events : List ChatEvent) : Prop :=
  (run 1 .reject 0 events).inFlight = 0 ∧ (run 1 .reject 0 events).value = 0 ∧
    (∃ r, (run 1 .reject 0 events).requests.get? "a" = some r ∧ r.phase = .over ∧ r.taken = 1 ∧ r.released = 0) ∧
    ∃ r, (run 1 .reject 0 (events ++ [.arrive "b" false true true])).requests.get? "b" = some r ∧
      r.phase = .over ∧ r.taken = 0

/-- A permit is lost when `create_session` raises, when the prefill of a stream fails, when the client of a stream is lost
before the generator was started, and when it is lost at the first chunk. -/
theorem permit_lost :
    PermitLost [.arrive "a" false false true] ∧ PermitLost [.arrive "a" true true false] ∧
      PermitLost [.arrive "a" true true true, .drop "a"] ∧
      PermitLost [.arrive "a" true true true, .advance "a", .drop "a"] := by
  refine ⟨?_, ?_, ?_, ?_⟩
  · exact ⟨by decide, by decide, ⟨_, rfl, by decide⟩, ⟨_, rfl, by decide⟩⟩
  · exact ⟨by decide, by decide, ⟨_, rfl, by decide⟩, ⟨_, rfl, by decide⟩⟩
  · exact ⟨by decide, by decide, ⟨_, rfl, by decide⟩, ⟨_, rfl, by decide⟩⟩
  · exact ⟨by decide, by decide, ⟨_, rfl, by decide⟩, ⟨_, rfl, by decide⟩⟩

end ChatServer

end KakeyaEngine
