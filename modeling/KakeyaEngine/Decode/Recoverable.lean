import KakeyaEngine.Decode.Agreement

/-!
# When an operation recovers

An operation on an open session is expected to return whenever a new worker can be started and does not fail.
`returns_iff_recoverable` says exactly when it does.  It does not for a session that waits for a restore while no
worker is connected, because that restore is outside the attempts; nor for an import as the first operation of a
session whose worker dies between its two requests, because there is no checkpoint from which the session could be
initialised again.
-/

namespace KakeyaEngine

namespace Router

/-! ### A current session is held by the child -/

section

variable {V : Type} {ver : Verifier V}

/-- A connected worker holds the session. -/
def Has (sid : SessionId) (r : Router V) : Prop := r.worker.isSome → (r.slot sid).isSome

/-- A connected worker holds every session that counts as restored in its generation. -/
structure Held (r : Router V) : Prop where
  bounded : r.Bounded
  slots : ∀ s, r.restoredGeneration.get? s = some r.generation → r.Has s

theorem dispatchSession_isSome (ver : Verifier V) (sid : SessionId) {op : SessionOp} {slot : Option V} (hop : op ≠ .close)
    (h : slot.isSome) : (dispatchSession ver sid op slot).2.isSome := by
  obtain ⟨v, rfl⟩ := Option.isSome_iff_exists.1 h
  unfold dispatchSession
  split_ifs
  · rfl
  · cases op with
    | init ts =>
      dsimp only
      unfold initSlot
      split
      · rfl
      · split_ifs
        · rfl
        · split <;> rfl
    | close => exact absurd rfl hop
    | importSnapshot p c => rfl
    | exportSnapshot c => rfl
    | append ts =>
      dsimp only
      split_ifs
      · rfl
      · split <;> rfl
    | generateStep => rfl

theorem dispatchSession_ok_isSome {sid : SessionId} {op : SessionOp} {slot slot' : Option V} {res : Result}
    (hop : op ≠ .close) (h : dispatchSession ver sid op slot = (.ok res, slot')) : slot'.isSome := by
  cases slot with
  | some v =>
    have := dispatchSession_isSome ver sid hop (Option.isSome_some (a := v))
    rw [h] at this
    exact this
  | none =>
    unfold dispatchSession at h
    split_ifs at h
    · cases (Prod.mk.inj h).1
    · cases op with
      | init ts =>
        simp only [initSlot] at h
        split at h
        · cases (Prod.mk.inj h).1
        · split_ifs at h
          · rw [← (Prod.mk.inj h).2]; rfl
          · split at h
            · cases (Prod.mk.inj h).1
            · rw [← (Prod.mk.inj h).2]; rfl
      | close => exact absurd rfl hop
      | importSnapshot p c => cases (Prod.mk.inj h).1
      | exportSnapshot c => cases (Prod.mk.inj h).1
      | append ts => cases (Prod.mk.inj h).1
      | generateStep => cases (Prod.mk.inj h).1

theorem serveSession_snd (sid : SessionId) (op : SessionOp) (slot : Option V) :
    (serveSession ver sid op slot).2 = (dispatchSession ver sid op slot).2 := by
  unfold serveSession
  split
  · rename_i heq
    rw [heq]
    split_ifs <;> rfl
  · rename_i heq
    rw [heq]

theorem Served.has {sid : SessionId} {op : SessionOp} {r r' : Router V} {reply : Except ChildError Result}
    (hs : Served ver sid op r reply r') (hop : op ≠ .close) (s : SessionId) (h : r.Has s) : r'.Has s := by
  intro _
  have hh := h hs.connected
  by_cases hss : s = sid
  · subst hss
    have hd := dispatchSession_isSome ver s hop hh
    have hsv := congrArg Prod.snd hs.serves
    rw [serveSession_snd] at hsv
    rw [hsv] at hd
    exact hd
  · rw [hs.frame s hss]
    exact hh

theorem Served.held {sid : SessionId} {op : SessionOp} {r r' : Router V} {reply : Except ChildError Result}
    (hs : Served ver sid op r reply r') (hop : op ≠ .close) (h : r.Held) : r'.Held := by
  obtain ⟨w, hr⟩ := hs.books
  refine ⟨?_, fun s hg => hs.has hop s (h.slots s ?_)⟩
  · rw [hr]; exact h.bounded
  · rw [hr] at hg; exact hg

theorem held_of_no_worker {r : Router V} (hb : r.Bounded) : ({ r with worker := none } : Router V).Held :=
  ⟨hb, fun _ _ h => by cases h⟩

/-- A request other than a close keeps the sessions, and one that is answered leaves its session held. -/
theorem requestLocked_held (ver : Verifier V) (sid : SessionId) (op : SessionOp) (cancelled : Bool) (hop : op ≠ .close) :
    Proc.Ensures Held (requestLocked ver (.session sid op) cancelled) (fun _ r => r.Held ∧ r.Has sid)
      (fun _ r => r.Held) := by
  intro r hr
  rcases hq : (requestLocked ver (.session sid op) cancelled).run r with ⟨x, r'⟩
  rcases sessionRequestLocked_cases ver hq with ⟨e, rfl, -, rfl⟩ | ⟨reply, hs, -, rfl⟩
  · exact held_of_no_worker hr.bounded
  · cases reply with
    | error e => exact hs.held hop hr
    | ok res =>
      refine ⟨hs.held hop hr, fun _ => ?_⟩
      exact dispatchSession_ok_isSome hop (serveSession_ok hs.serves).2

/-- Requests of a session that is held keep it held. -/
theorem requestLocked_has (ver : Verifier V) (sid : SessionId) (op : SessionOp) (cancelled : Bool) (hop : op ≠ .close) :
    Proc.Keeps (fun r => r.Held ∧ r.Has sid) (requestLocked ver (.session sid op) cancelled) := by
  intro r hr
  rcases hq : (requestLocked ver (.session sid op) cancelled).run r with ⟨x, r'⟩
  rcases sessionRequestLocked_cases ver hq with ⟨e, -, -, rfl⟩ | ⟨reply, hs, -, -⟩
  · exact ⟨held_of_no_worker hr.1.bounded, fun h => by cases h⟩
  · exact ⟨hs.held hop hr.1, hs.has hop sid hr.2⟩

theorem start_held : Proc.Keeps Held (start ver) := by
  intro r hr
  rcases hq : (start ver).run r with ⟨x, r'⟩
  rcases start_cases ver hq with ⟨e, -, -, rfl⟩ | ⟨fate, -, rfl⟩
  · exact ⟨hr.bounded, fun _ _ h => by cases h⟩
  · refine ⟨fun s g hg => Nat.le_succ_of_le (hr.bounded s g hg), fun s hg => ?_⟩
    have := hr.bounded s _ hg
    dsimp only at this
    omega

theorem markCurrent_held (sid : SessionId) {r : Router V} (hr : r.Held) (hs : r.Has sid) :
    ((markCurrent sid).run r).2.Held := by
  refine ⟨fun s g hg => ?_, fun s hg => ?_⟩
  · have hg' : (r.restoredGeneration.set sid r.generation).get? s = some g := hg
    rw [Dict.get?_set] at hg'
    split_ifs at hg'
    · exact Nat.le_of_eq (Option.some.inj hg').symm
    · exact hr.bounded s g hg'
  · have hg' : (r.restoredGeneration.set sid r.generation).get? s = some r.generation := hg
    rw [Dict.get?_set] at hg'
    split_ifs at hg' with hss
    · rw [hss]; exact hs
    · exact hr.slots s hg'

theorem restoreSnapshot_has (ver : Verifier V) (sid : SessionId) (cp : ProofCheckpoint) :
    Proc.Keeps (fun r => r.Held ∧ r.Has sid) (restoreSnapshot ver sid cp) := by
  unfold restoreSnapshot
  split
  · exact .pure ()
  · refine .bind (requestLocked_has ver sid _ false nofun) fun _ => ?_
    split_ifs
    · exact .pure ()
    · exact .bind (requestLocked_has ver sid _ false nofun) fun _ => .pure ()

theorem restoreLocked_held (sid : SessionId) : Proc.Keeps Held (restoreLocked ver sid) := by
  refine Proc.Keeps.get_bind fun r hr => ?_
  by_cases hi : (r.checkpoint sid).initialized = false
  · simp only [hi, if_true]
    exact hr
  · dsimp only
    rw [if_neg hi, Proc.run_bind]
    have h₁ := requestLocked_held ver sid (.init
      (if (r.checkpoint sid).snapshot = none then (r.checkpoint sid).replayTokenIds else [])) false nofun r hr
    rcases hq : (requestLocked ver _ false).run r with ⟨e | res, r₁⟩
    · rw [hq] at h₁
      exact h₁
    · rw [hq] at h₁
      dsimp only
      rw [Proc.run_bind]
      have h₂ := restoreSnapshot_has ver sid (r.checkpoint sid) r₁ h₁
      rcases hq' : (restoreSnapshot ver sid (r.checkpoint sid)).run r₁ with ⟨e | u, r₂⟩
      · rw [hq'] at h₂
        exact h₂.1
      · rw [hq'] at h₂
        exact markCurrent_held sid h₂.1 h₂.2

theorem retry_held (sid : SessionId) (op : SessionOp) (cancelAt : Option Nat) (hop : op ≠ .close) :
    Proc.Ensures Held (retry ver sid op cancelAt) (fun _ r => r.Held ∧ r.Has sid) (fun _ r => r.Held) := by
  refine .bind (Q := fun _ r => r.Held) (.modify fun r hr => ⟨hr.bounded, hr.slots⟩) fun _ => ?_
  refine .bind (Q := fun _ r => r.Held) start_held.ensures fun _ => ?_
  exact .bind (Q := fun _ r => r.Held) (restoreLocked_held sid).ensures fun _ => requestLocked_held ver sid op _ hop

theorem sessionRequest_held (sid : SessionId) (op : SessionOp) (cancelAt : Option Nat) (hop : op ≠ .close) :
    Proc.Ensures Held (sessionRequest ver sid op cancelAt) (fun _ r => r.Held ∧ r.Has sid) (fun _ r => r.Held) := by
  have hatt : Proc.Ensures Held (attempts ver sid op cancelAt) (fun _ r => r.Held ∧ r.Has sid)
      (fun _ r => r.Held) := by
    refine .handle (requestLocked_held ver sid op _ hop) fun e => ?_
    split
    · exact retry_held sid op cancelAt hop
    · exact .raise fun _ hr => hr
  intro r hr
  unfold sessionRequest
  rw [Proc.run_get_bind, Proc.run_ite]
  split_ifs
  · exact Proc.Ensures.bind (restoreLocked_held sid).ensures (fun _ => hatt) r hr
  · exact hatt r hr

theorem publish_held {r : Router V} {sid : SessionId} (h : r.Held) (hs : r.Has sid) (cp : ProofCheckpoint)
    (marks : Bool) (res : Result) : (r.publish sid cp marks res).Held := by
  cases marks with
  | false => exact ⟨h.bounded, h.slots⟩
  | true =>
    have := markCurrent_held sid h hs
    exact ⟨this.bounded, this.slots⟩

theorem checkpointLocked_held (sid : SessionId) : Proc.Keeps Held (checkpointLocked (V := V) sid) := by
  refine Proc.Keeps.get_bind fun r hr => ?_
  split <;> exact hr

theorem commitRequest_held (sid : SessionId) (op : SessionOp) (cancelAt : Option Nat)
    (commit : ProofCheckpoint → Result → ProofCheckpoint) (marks : Bool) (hop : op ≠ .close) :
    Proc.Ensures Held (commitRequest ver sid op cancelAt commit marks) (fun _ r => r.Held) (fun _ r => r.Held) := by
  refine .bind (checkpointLocked_held sid).ensures fun cp => ?_
  refine .bind (sessionRequest_held sid op cancelAt hop) fun res => ?_
  exact .bind (Q := fun _ r => r.Held) (.modify fun r hr => publish_held hr.1 hr.2 _ _ _) fun _ => .pure fun _ h => h

theorem importSnapshot_held (sid : SessionId) (p : Bytes) (c : CacheCompatibility) :
    Proc.Ensures Held (importSnapshot ver sid p c) (fun _ r => r.Held) (fun _ r => r.Held) := by
  refine .bind (checkpointLocked_held sid).ensures fun cp => ?_
  refine .bind (Q := fun _ r => r.Held) ?_ fun _ => ?_
  · exact (sessionRequest_held sid (.init []) none nofun).mono (fun _ h => h) (fun _ _ h => h.1) (fun _ _ h => h)
  refine .bind (sessionRequest_held sid (.importSnapshot p (some c)) none nofun) fun res => ?_
  exact .bind (Q := fun _ r => r.Held) (.modify fun r hr => publish_held hr.1 hr.2 _ _ _) fun _ => .pure fun _ h => h

theorem forget_held {r : Router V} {sid : SessionId} (hb : r.Bounded)
    (h : ∀ s, s ≠ sid → r.restoredGeneration.get? s = some r.generation → r.Has s) : (r.forget sid).Held := by
  refine ⟨fun s g hg => ?_, fun s hg => ?_⟩
  · have hg' : (r.restoredGeneration.erase sid).get? s = some g := hg
    rw [Dict.get?_erase] at hg'
    split_ifs at hg'
    exact hb s g hg'
  · have hg' : (r.restoredGeneration.erase sid).get? s = some r.generation := hg
    rw [Dict.get?_erase] at hg'
    split_ifs at hg' with hs
    exact h s hs hg'

theorem closeSession_held {sid : SessionId} {r r' : Router V} {x : Except RouterError Unit} (hr : r.Held)
    (h : (closeSession ver sid).run r = (x, r')) : r'.Held := by
  rcases closeSession_cases h with ⟨e, -, -, rfl⟩ | ⟨e, hs, -⟩ | ⟨-, r₁, rfl, rfl | ⟨res, hs⟩⟩
  · exact held_of_no_worker hr.bounded
  · have hslot : r'.slot sid = r.slot sid := by
      rcases serve_close hs.serves with ⟨-, res, he⟩ | ⟨hn, -⟩
      · cases he
      · exact hn
    have hfr := hs.frame
    have hc := hs.connected
    obtain ⟨w, rfl⟩ := hs.books
    refine ⟨hr.bounded, fun s hg _ => ?_⟩
    have hh := hr.slots s hg hc
    by_cases hss : s = sid
    · rw [hss] at hh ⊢
      rw [hslot]; exact hh
    · rw [hfr s hss]; exact hh
  · exact forget_held hr.bounded fun _ _ _ h => by cases h
  · have hfr := hs.frame
    have hc := hs.connected
    obtain ⟨w, rfl⟩ := hs.books
    refine forget_held hr.bounded fun s hss hg _ => ?_
    rw [hfr s hss]
    exact hr.slots s hg hc

theorem ensures_held {α : Type} {y : RouterProc V α}
    (h : Proc.Ensures Held y (fun _ r => r.Held) (fun _ r => r.Held)) {r : Router V} (hr : r.Held) :
    (y.run r).2.Held := by
  have h' := h r hr
  rcases hq : y.run r with ⟨_ | _, r'⟩
  · rw [hq] at h'; exact h'
  · rw [hq] at h'; exact h'

/-- The step lemma: every call, and every turn of the worker's fate, keeps the current sessions held. -/
theorem step_held {r : Router V} (ev : RouterEvent) (hr : r.Held) : (step ver r ev).2.Held := by
  cases ev with
  | turn fate =>
    have hs : ∀ s, (step ver r (.turn fate)).2.Has s ↔ r.Has s := by
      intro s
      simp only [step, Has, slot]
      cases r.worker <;> simp
    exact ⟨hr.bounded, fun s hg => (hs s).2 (hr.slots s hg)⟩
  | call c =>
    simp only [step]
    cases c with
    | prefill sid ts k =>
      rw [perform, Proc.run_map]
      exact ensures_held (commitRequest_held sid (.init ts) k _ true (by simp)) hr
    | appendAcceptedTokens sid ts k =>
      rw [perform, Proc.run_map]
      exact ensures_held (commitRequest_held sid (.append ts) k _ false (by simp)) hr
    | generateStep sid k =>
      rw [perform, Proc.run_map]
      exact ensures_held (commitRequest_held sid .generateStep k _ false (by simp)) hr
    | reset sid =>
      rw [perform, Proc.run_map]
      exact ensures_held (commitRequest_held sid (.init []) none _ true (by simp)) hr
    | importSnapshot sid p c =>
      rw [perform, Proc.run_map]
      exact ensures_held (importSnapshot_held sid p c) hr
    | closeSession sid =>
      rw [perform, Proc.run_map]
      exact closeSession_held hr (show (closeSession ver sid).run r = (_, _) from rfl)
    | get sid =>
      rw [perform, Proc.run_map]
      obtain ⟨hre, hge, hw⟩ := get_frame r sid
      refine ⟨fun s g hg => ?_, fun s hg => ?_⟩
      · dsimp only at hg ⊢
        rw [hre] at hg
        rw [hge]
        exact hr.bounded s g hg
      · dsimp only at hg ⊢
        rw [hre, hge] at hg
        unfold Has slot
        rw [hw]
        exact hr.slots s hg
    | health =>
      rw [perform, Proc.run_map]
      rcases hq : (requestLocked ver .health false).run r with ⟨x, r'⟩
      rcases requestLocked_cases ver hq with ⟨e, -, -, rfl⟩ | ⟨w, w', reply, hw, -, -, hs, -, rfl⟩
      · exact held_of_no_worker hr.bounded
      · have hrt : w.runtime = w'.runtime := congrArg Prod.snd hs
        refine ⟨hr.bounded, fun s hg _ => ?_⟩
        have hh := hr.slots s hg (by simp [hw])
        simpa [slot, hw, hrt] using hh
    | hardKill =>
      rw [perform, Proc.run_map]
      exact held_of_no_worker hr.bounded

theorem launched_held (starts : List StartOutcome) : (launched starts : Router V).Held := by
  refine ⟨fun s g hg => ?_, fun s hg => ?_⟩ <;> cases hg

end

/-! ### The requests of a restore -/

/-- The operations whose requests rebuild a session from its checkpoint. -/
def restoreOps (cp : ProofCheckpoint) : List SessionOp :=
  if cp.initialized = false then []
  else
    match cp.snapshot with
    | none => [.init cp.replayTokenIds]
    | some p =>
      .init [] :: .importSnapshot p cp.compatibility ::
        (if cp.replayTokenIds = [] then [] else [.append cp.replayTokenIds])

/-- Sends the operations one after the other. -/
def sendAll {V : Type} (ver : Verifier V) (sid : SessionId) : List SessionOp → RouterProc V Unit
  | [] => pure ()
  | op :: ops => do
    let _ ← requestLocked ver (.session sid op) false
    sendAll ver sid ops

section

variable {V : Type} {ver : Verifier V}

theorem run_bind_congr {α β : Type} {y : RouterProc V α} {f g : α → RouterProc V β} {r : Router V}
    (h : ∀ a r', (f a).run r' = (g a).run r') : (y >>= f).run r = (y >>= g).run r := by
  rw [Proc.run_bind, Proc.run_bind]
  rcases y.run r with ⟨_ | a, r'⟩
  · rfl
  · exact h a r'

theorem run_bind_assoc {α β γ : Type} (y : RouterProc V α) (f : α → RouterProc V β) (g : β → RouterProc V γ)
    (r : Router V) : ((y >>= f) >>= g).run r = (y >>= fun a => f a >>= g).run r := by
  rw [Proc.run_bind, Proc.run_bind, Proc.run_bind]
  rcases y.run r with ⟨_ | a, r'⟩
  · rfl
  · rfl

/-- The restore of an initialised session sends its operations and marks the session current. -/
theorem run_restoreLocked {r : Router V} {sid : SessionId} (hi : (r.checkpoint sid).initialized = true) :
    (restoreLocked ver sid).run r =
      (sendAll ver sid (restoreOps (r.checkpoint sid)) >>= fun _ => markCurrent sid).run r := by
  unfold restoreLocked restoreOps
  rw [Proc.run_get_bind]
  simp only [hi, Bool.true_eq_false, if_false]
  cases hsn : (r.checkpoint sid).snapshot with
  | none =>
    simp only [if_true, sendAll]
    rw [run_bind_assoc]
    refine run_bind_congr fun _ r' => ?_
    simp only [restoreSnapshot, hsn]
  | some p =>
    simp only [reduceCtorEq, if_false, sendAll]
    rw [run_bind_assoc]
    refine run_bind_congr fun _ r' => ?_
    simp only [restoreSnapshot, hsn]
    rw [run_bind_assoc, run_bind_assoc]
    refine run_bind_congr fun _ r'' => ?_
    split_ifs with hre
    · rfl
    · rw [sendAll, run_bind_assoc, run_bind_assoc]
      rfl

end

end Router

/-- The operations that every session takes part in with a reply of its state. -/
def SessionOp.commits : SessionOp → Bool
  | init _ => true
  | importSnapshot .. => true
  | append ts => decide (ts ≠ [])
  | generateStep => true
  | _ => false

/-- The child executes and answers every operation on a session that it holds. -/
def Verifier.Accepting {V : Type} (ver : Verifier V) : Prop :=
  ∀ sid op slot, sid ≠ "" → op.commits = true → (op.needsSession = true → slot.isSome = true) →
    ∃ res v, serveSession ver sid op slot = (.ok res, some v)

namespace Router

theorem restoreOps_commits {cp : ProofCheckpoint} {op : SessionOp} (h : op ∈ restoreOps cp) : op.commits = true := by
  unfold restoreOps at h
  by_cases hi : cp.initialized = false
  · rw [if_pos hi] at h
    cases h
  · rw [if_neg hi] at h
    split at h
    · rw [List.mem_singleton.1 h]; rfl
    · rcases List.mem_cons.1 h with rfl | h
      · rfl
      · rcases List.mem_cons.1 h with rfl | h
        · rfl
        · split_ifs at h with hre
          · cases h
          · rw [List.mem_singleton.1 h]
            simp [SessionOp.commits, hre]

theorem restoreOps_eq_cons {cp : ProofCheckpoint} (hi : cp.initialized = true) :
    ∃ ts ops, restoreOps cp = .init ts :: ops := by
  unfold restoreOps
  rw [if_neg (by simp [hi])]
  cases cp.snapshot with
  | none => exact ⟨_, [], rfl⟩
  | some p => exact ⟨_, _, rfl⟩

section

variable {V : Type} {ver : Verifier V}

/-- The requests of the session's restore can be framed. -/
def Rebuildable (r : Router V) (sid : SessionId) : Prop :=
  ∀ op ∈ restoreOps (r.checkpoint sid), (Request.session sid op).fits = true

theorem lasts_zero {r : Router V} (h : r.worker.isSome) : r.Lasts 0 := by
  obtain ⟨w, hw⟩ := Option.isSome_iff_exists.1 h
  exact ⟨w, hw, fun f _ => Nat.zero_le _⟩

theorem Lasts.mono {r : Router V} {m n : Nat} (h : r.Lasts n) (hmn : m ≤ n) : r.Lasts m := by
  obtain ⟨w, hw, hl⟩ := h
  exact ⟨w, hw, fun f hf => Nat.le_trans hmn (hl f hf)⟩

variable (hacc : ver.Accepting) {sid : SessionId} (hsid : sid ≠ "")

include hacc hsid

/-- An operation that the child is ready for is answered, and the session is held. -/
theorem request_accepted {r : Router V} (op : SessionOp) (hop : op.commits = true) (hl : r.Lasts 1)
    (hfit : (Request.session sid op).fits = true) (hslot : op.needsSession = true → (r.slot sid).isSome) :
    ∃ res r' w, (requestLocked ver (.session sid op) false).run r = (.ok res, r') ∧
      r' = { r with worker := some w } ∧ (r'.slot sid).isSome ∧ ∀ n, r.Lasts (n + 1) ↔ r'.Lasts n := by
  obtain ⟨res, v, hs⟩ := hacc sid op (r.slot sid) hsid hop hslot
  obtain ⟨r', hrun, hserved, hl'⟩ := requestLocked_answered ver hl hfit hs
  obtain ⟨w, hr'⟩ := hserved.books
  refine ⟨res, r', w, hrun, hr', ?_, hl'⟩
  have := hserved.serves
  rw [hs] at this
  rw [← (Prod.mk.inj this).2]
  rfl

theorem sendAll_ok {ops : List SessionOp} (hops : ∀ op ∈ ops, op.commits = true)
    (hfit : ∀ op ∈ ops, (Request.session sid op).fits = true) {r : Router V} (hslot : (r.slot sid).isSome)
    (hl : r.Lasts ops.length) :
    ∃ r' w, (sendAll ver sid ops).run r = (.ok (), r') ∧ r' = { r with worker := some w } ∧
      (r'.slot sid).isSome ∧ ∀ n, r.Lasts (n + ops.length) ↔ r'.Lasts n := by
  induction ops generalizing r with
  | nil =>
    obtain ⟨w, hw, -⟩ := hl
    exact ⟨r, w, rfl, by rw [← hw], hslot, fun n => Iff.rfl⟩
  | cons op ops ih =>
    have hl₁ : r.Lasts 1 := hl.mono (by simp)
    obtain ⟨res, r₁, w₁, hrun, hr₁, hs₁, hn₁⟩ := request_accepted hacc hsid _ (hops op List.mem_cons_self) hl₁
      (hfit op List.mem_cons_self) fun _ => hslot
    obtain ⟨r', w, hrun', hr', hs', hn'⟩ := ih (fun o ho => hops o (List.mem_cons_of_mem _ ho))
      (fun o ho => hfit o (List.mem_cons_of_mem _ ho)) hs₁ ((hn₁ _).1 hl)
    refine ⟨r', w, ?_, ?_, hs', fun n => ?_⟩
    · rw [sendAll, Proc.run_bind_ok hrun, hrun']
    · rw [hr', hr₁]
    · rw [← hn', ← hn₁]
      simp only [List.length_cons, Nat.add_assoc]

theorem sendAll_unavailable {ops : List SessionOp} (hops : ∀ op ∈ ops, op.commits = true) {r : Router V}
    (hslot : (r.slot sid).isSome) (hc : r.worker.isSome)
    (h : ¬ ((∀ op ∈ ops, (Request.session sid op).fits = true) ∧ r.Lasts ops.length)) :
    ∃ m, (sendAll ver sid ops).run r = (.error (.unavailable m), { r with worker := none }) := by
  induction ops generalizing r with
  | nil => exact absurd ⟨nofun, lasts_zero hc⟩ h
  | cons op ops ih =>
    by_cases hgo : (Request.session sid op).fits = true ∧ r.Lasts 1
    · obtain ⟨res, r₁, w₁, hrun, hr₁, hs₁, hn₁⟩ := request_accepted hacc hsid _ (hops op List.mem_cons_self) hgo.2
        hgo.1 fun _ => hslot
      have h₁ : ¬ ((∀ op ∈ ops, (Request.session sid op).fits = true) ∧ r₁.Lasts ops.length) := by
        rintro ⟨hf, hl⟩
        refine h ⟨fun o ho => ?_, (hn₁ _).2 hl⟩
        rcases List.mem_cons.1 ho with rfl | ho
        · exact hgo.1
        · exact hf o ho
      obtain ⟨m, hm⟩ := ih (fun o ho => hops o (List.mem_cons_of_mem _ ho)) hs₁ (by simp [hr₁]) h₁
      refine ⟨m, ?_⟩
      rw [sendAll, Proc.run_bind_ok hrun, hm, hr₁]
    · have hor : (Request.session sid op).fits = false ∨ ¬ r.Lasts 1 := by
        by_cases hf : (Request.session sid op).fits = true
        · exact .inr fun hl => hgo ⟨hf, hl⟩
        · exact .inl (by simpa using hf)
      obtain ⟨m, hm⟩ := requestLocked_unanswered ver _ hor
      exact ⟨m, by rw [sendAll, Proc.run_bind_error hm]⟩

/-- The restore of an initialised session succeeds when its requests can be framed and the worker outlasts them. -/
theorem restoreLocked_ok {r : Router V} (hi : (r.checkpoint sid).initialized = true) (hb : r.Rebuildable sid)
    (hl : r.Lasts (restoreOps (r.checkpoint sid)).length) :
    ∃ r' w, (restoreLocked ver sid).run r = (.ok (), r') ∧
      r' = { r with worker := some w, restoredGeneration := r.restoredGeneration.set sid r.generation } ∧
      (r'.slot sid).isSome ∧ ∀ n, r.Lasts (n + (restoreOps (r.checkpoint sid)).length) ↔ r'.Lasts n := by
  have hcommits : ∀ op ∈ restoreOps (r.checkpoint sid), op.commits = true := fun _ => restoreOps_commits
  rw [run_restoreLocked hi]
  unfold Rebuildable at hb
  obtain ⟨ts, ops, hops⟩ := restoreOps_eq_cons hi
  rw [hops] at hb hl hcommits ⊢
  obtain ⟨res, r₁, w₁, hrun, hr₁, hs₁, hn₁⟩ := request_accepted hacc hsid _ (hcommits _ List.mem_cons_self)
    (hl.mono (by simp)) (hb _ List.mem_cons_self) nofun
  obtain ⟨r₂, w₂, hrun₂, hr₂, hs₂, hn₂⟩ := sendAll_ok hacc hsid
    (fun o ho => hcommits o (List.mem_cons_of_mem _ ho)) (fun o ho => hb o (List.mem_cons_of_mem _ ho)) hs₁
    ((hn₁ _).1 hl)
  have hr₂' : r₂ = { r with worker := some w₂ } := by rw [hr₂, hr₁]
  refine ⟨_, w₂, ?_, rfl, ?_, fun n => ?_⟩
  · rw [sendAll, Proc.run_bind, Proc.run_bind_ok hrun, hrun₂, hr₂']
    rfl
  · rw [hr₂'] at hs₂
    exact hs₂
  · have hsame : r₂.Lasts n ↔ ({ r with
        worker := some w₂, restoredGeneration := r.restoredGeneration.set sid r.generation } : Router V).Lasts n := by
      rw [hr₂']; rfl
    rw [← hsame, ← hn₂, ← hn₁]
    simp only [List.length_cons, Nat.add_assoc]

theorem restoreLocked_unavailable {r : Router V} (hi : (r.checkpoint sid).initialized = true)
    (h : ¬ (r.Rebuildable sid ∧ r.Lasts (restoreOps (r.checkpoint sid)).length)) :
    ∃ m, (restoreLocked ver sid).run r = (.error (.unavailable m), { r with worker := none }) := by
  have hcommits : ∀ op ∈ restoreOps (r.checkpoint sid), op.commits = true := fun _ => restoreOps_commits
  rw [run_restoreLocked hi]
  unfold Rebuildable at h
  obtain ⟨ts, ops, hops⟩ := restoreOps_eq_cons hi
  rw [hops] at h hcommits ⊢
  by_cases hgo : (Request.session sid (.init ts)).fits = true ∧ r.Lasts 1
  · obtain ⟨res, r₁, w₁, hrun, hr₁, hs₁, hn₁⟩ := request_accepted hacc hsid _ (hcommits _ List.mem_cons_self) hgo.2
      hgo.1 nofun
    have h₁ : ¬ ((∀ op ∈ ops, (Request.session sid op).fits = true) ∧ r₁.Lasts ops.length) := by
      rintro ⟨hf, hl⟩
      refine h ⟨fun o ho => ?_, (hn₁ _).2 hl⟩
      rcases List.mem_cons.1 ho with rfl | ho
      · exact hgo.1
      · exact hf o ho
    obtain ⟨m, hm⟩ := sendAll_unavailable hacc hsid (fun o ho => hcommits o (List.mem_cons_of_mem _ ho)) hs₁
      (by simp [hr₁]) h₁
    refine ⟨m, ?_⟩
    rw [sendAll, Proc.run_bind, Proc.run_bind_ok hrun, hm, hr₁]
  · have hor : (Request.session sid (.init ts)).fits = false ∨ ¬ r.Lasts 1 := by
      by_cases hf : (Request.session sid (.init ts)).fits = true
      · exact .inr fun hl => hgo ⟨hf, hl⟩
      · exact .inl (by simpa using hf)
    obtain ⟨m, hm⟩ := requestLocked_unanswered ver _ hor
    exact ⟨m, by rw [sendAll, Proc.run_bind, Proc.run_bind_error hm]⟩

/-! ### The attempts of a request -/

omit hacc hsid in
theorem request_not_ok {r r' : Router V} {op : SessionOp} {res : Result} {cancelled : Bool}
    (hop : op.needsSession = true) (hslot : r.slot sid = none) :
    (requestLocked ver (.session sid op) cancelled).run r ≠ (.ok res, r') := by
  intro h
  rcases sessionRequestLocked_cases ver h with ⟨e, he, -⟩ | ⟨reply, hs, -, hx⟩
  · cases he
  · have hsv := hs.serves
    rw [hslot, serve_unknown hop] at hsv
    rw [← (Prod.mk.inj hsv).1] at hx
    cases hx

/-- The router after a restart with a worker that does not fail. -/
def restarted (r : Router V) : Router V :=
  { r with
    worker := some ⟨⟨Dict.empty⟩, none⟩, generation := r.generation + 1, restartCount := r.restartCount + 1,
    starts := r.starts.tail }

omit hacc hsid in
theorem restarted_lasts (r : Router V) (n : Nat) : r.restarted.Lasts n := ⟨_, rfl, nofun⟩

omit hacc hsid in
theorem run_retry {r : Router V} {op : SessionOp} (hst : r.starts.headD (.connects none) = .connects none) :
    (retry ver sid op none).run r =
      (restoreLocked ver sid >>= fun _ => requestLocked ver (.session sid op) false).run r.restarted := by
  have hs := start_healthy ver (r := { r with restartCount := r.restartCount + 1 }) hst
  unfold retry
  rw [Proc.run_modify_bind, Proc.run_bind_ok hs]
  rfl

omit hacc hsid in
theorem run_restoreLocked_uninitialized (ver : Verifier V) {r : Router V} (hi : (r.checkpoint sid).initialized ≠ true) :
    (restoreLocked ver sid).run r = (.ok (), r) := by
  unfold restoreLocked
  rw [Proc.run_get_bind]
  simp [hi]

/-- The second attempt succeeds on a worker that does not fail, for an operation that can be framed, on a session that
can be rebuilt or that the operation initialises. -/
theorem retry_ok {r : Router V} (op : SessionOp) (hst : r.starts.headD (.connects none) = .connects none)
    (hop : op.commits = true) (hfit : (Request.session sid op).fits = true) (hb : r.Rebuildable sid)
    (hi : op.needsSession = true → (r.checkpoint sid).initialized = true) :
    ∃ res r', (retry ver sid op none).run r = (.ok res, r') ∧ r'.checkpoints = r.checkpoints ∧
      (r'.slot sid).isSome ∧ ∀ n, r'.Lasts n := by
  rw [run_retry hst]
  have hl₁ := r.restarted_lasts
  by_cases hin : (r.checkpoint sid).initialized = true
  · obtain ⟨r₂, w₂, hrun₂, hr₂, hs₂, hn₂⟩ := restoreLocked_ok hacc hsid (r := r.restarted) hin hb (hl₁ _)
    obtain ⟨res, r₃, w₃, hrun₃, hr₃, hs₃, hn₃⟩ := request_accepted hacc hsid _ hop
      ((hn₂ 1).1 (hl₁ _)) hfit fun _ => hs₂
    refine ⟨res, r₃, ?_, ?_, hs₃, fun n => (hn₃ n).1 ((hn₂ _).1 (hl₁ _))⟩
    · rw [Proc.run_bind_ok hrun₂]
      exact hrun₃
    · rw [hr₃, hr₂]; rfl
  · have hrun₂ := run_restoreLocked_uninitialized ver (r := r.restarted) hin
    obtain ⟨res, r₃, w₃, hrun₃, hr₃, hs₃, hn₃⟩ := request_accepted hacc hsid _ hop (hl₁ 1) hfit
      fun hn => absurd (hi hn) hin
    refine ⟨res, r₃, ?_, ?_, hs₃, fun n => (hn₃ n).1 (hl₁ _)⟩
    · rw [Proc.run_bind_ok hrun₂]
      exact hrun₃
    · rw [hr₃]; rfl

/-- Conversely, the second attempt fails otherwise. -/
theorem retry_not_ok {r r' : Router V} {op : SessionOp} {res : Result}
    (hst : r.starts.headD (.connects none) = .connects none)
    (h : ¬ ((Request.session sid op).fits = true ∧ r.Rebuildable sid ∧
      (op.needsSession = true → (r.checkpoint sid).initialized = true))) :
    (retry ver sid op none).run r ≠ (.ok res, r') := by
  rw [run_retry hst]
  have hl₁ := r.restarted_lasts
  by_cases hin : (r.checkpoint sid).initialized = true
  · by_cases hb : r.Rebuildable sid
    · have hfit : (Request.session sid op).fits = false := by
        by_contra hf
        exact h ⟨by simpa using hf, hb, fun _ => hin⟩
      obtain ⟨r₂, w₂, hrun₂, -⟩ := restoreLocked_ok hacc hsid (r := r.restarted) hin hb (hl₁ _)
      obtain ⟨m, hm⟩ := requestLocked_unanswered ver (r := r₂) _ (.inl hfit)
      rw [Proc.run_bind_ok hrun₂, hm]
      simp
    · obtain ⟨m, hm⟩ := restoreLocked_unavailable hacc hsid (r := r.restarted) hin fun hbl => hb hbl.1
      rw [Proc.run_bind_error hm]
      simp
  · have hrun₂ := run_restoreLocked_uninitialized ver (r := r.restarted) hin
    have hb : r.Rebuildable sid := by
      intro o ho
      simp [restoreOps, hin] at ho
    rw [Proc.run_bind_ok hrun₂]
    by_cases hn : op.needsSession = true
    · exact request_not_ok hn rfl
    · have hfit : (Request.session sid op).fits = false := by
        by_contra hf
        exact h ⟨by simpa using hf, hb, fun h' => absurd h' hn⟩
      obtain ⟨m, hm⟩ := requestLocked_unanswered ver (r := r.restarted) _ (.inl hfit)
      rw [hm]
      simp

/-- The attempts succeed exactly when the operation can be framed, and either the worker answers it on a session it
holds, or the session can be rebuilt in a new worker. -/
theorem attempts_ok_iff {r : Router V} (op : SessionOp) (hst : r.starts.headD (.connects none) = .connects none)
    (hop : op.commits = true)
    (hheld : op.needsSession = true → (r.checkpoint sid).initialized = true → r.Has sid) :
    (∃ res r', (attempts ver sid op none).run r = (.ok res, r')) ↔
      (Request.session sid op).fits = true ∧
        ((r.Lasts 1 ∧ (op.needsSession = true → (r.slot sid).isSome)) ∨
          (¬ r.Lasts 1 ∧ r.Rebuildable sid ∧ (op.needsSession = true → (r.checkpoint sid).initialized = true))) := by
  have hc0 : cancelledIn none 0 = false := rfl
  constructor
  · rintro ⟨res, r', h⟩
    unfold attempts at h
    rw [Proc.run_handle, hc0] at h
    by_cases hgo : (Request.session sid op).fits = true ∧ r.Lasts 1
    · by_cases hslot : op.needsSession = true → (r.slot sid).isSome
      · exact ⟨hgo.1, .inl ⟨hgo.2, hslot⟩⟩
      · -- an unknown session is refused, or its refusal cannot be framed and the retry is refused as well
        obtain ⟨hn, hsl⟩ := Classical.not_imp.1 hslot
        have hsn : r.slot sid = none := by simpa using hsl
        have hun : (r.checkpoint sid).initialized ≠ true := by
          intro hi
          obtain ⟨w, hw, -⟩ := hgo.2
          exact hsl (hheld hn hi (by simp [hw]))
        exfalso
        rcases hq : (requestLocked ver (.session sid op) false).run r with ⟨e | a, r₁⟩
        · rw [hq] at h
          dsimp only at h
          split at h
          · rcases sessionRequestLocked_cases ver hq with ⟨e', -, -, rfl⟩ | ⟨reply, hs, -, hx⟩
            · exact retry_not_ok hacc hsid (r := { r with worker := none }) hst
                (fun hh => hun (hh.2.2 hn)) h
            · cases reply with
              | ok a => cases hx
              | error ce =>
                have := ofChild_isApplication ce
                rw [← Except.error.inj hx] at this
                cases this
          · cases (Prod.mk.inj h).1
        · exact request_not_ok hn hsn hq
    · have hor : (Request.session sid op).fits = false ∨ ¬ r.Lasts 1 := by
        by_cases hf : (Request.session sid op).fits = true
        · exact .inr fun hl => hgo ⟨hf, hl⟩
        · exact .inl (by simpa using hf)
      obtain ⟨m, hm⟩ := requestLocked_unanswered ver _ hor
      rw [hm] at h
      dsimp only at h
      have hre : (Request.session sid op).fits = true ∧ r.Rebuildable sid ∧
          (op.needsSession = true → (r.checkpoint sid).initialized = true) := by
        by_contra hno
        exact retry_not_ok hacc hsid (r := { r with worker := none }) hst hno h
      exact ⟨hre.1, .inr ⟨fun hl => hgo ⟨hre.1, hl⟩, hre.2⟩⟩
  · rintro ⟨hfit, ⟨hl, hslot⟩ | ⟨hl, hb, hi⟩⟩
    · obtain ⟨res, r', w, hrun, -⟩ := request_accepted hacc hsid _ hop hl hfit hslot
      refine ⟨res, r', ?_⟩
      unfold attempts
      rw [Proc.run_handle, hc0, hrun]
    · obtain ⟨m, hm⟩ := requestLocked_unanswered ver (.session sid op) (.inr hl)
      obtain ⟨res, r', hrun, -⟩ := retry_ok hacc hsid (r := { r with worker := none }) op hst hop hfit hb hi
      refine ⟨res, r', ?_⟩
      unfold attempts
      rw [Proc.run_handle, hc0, hm]
      exact hrun

/-! ### The operations -/

omit hacc hsid in
/-- Only requests that can be framed, name a session and append something return. -/
theorem sessionRequest_sent (ver : Verifier V) (sid : SessionId) (op : SessionOp) (cancelAt : Option Nat) :
    Proc.Ensures (fun _ => True) (sessionRequest ver sid op cancelAt)
      (fun _ _ => (Request.session sid op).fits = true ∧ sid ≠ "" ∧ op ≠ .append []) (fun _ _ => True) := by
  have hreq : ∀ c, Proc.Ensures (fun _ => True) (requestLocked ver (.session sid op) c)
      (fun _ _ => (Request.session sid op).fits = true ∧ sid ≠ "" ∧ op ≠ .append []) (fun _ _ => True) := by
    intro c r _
    rcases hq : (requestLocked ver (.session sid op) c).run r with ⟨e | res, r'⟩
    · trivial
    · rcases sessionRequestLocked_cases ver hq with ⟨e, he, -⟩ | ⟨reply, hs, -, hx⟩
      · cases he
      · cases reply with
        | error e => cases hx
        | ok a =>
          obtain ⟨hsid, hd⟩ := serveSession_ok hs.serves
          refine ⟨hs.fits, hsid, ?_⟩
          rintro rfl
          simp only [dispatchSession, hsid, if_false, if_true] at hd
          split at hd <;> cases (Prod.mk.inj hd).1
  have htriv : ∀ {α : Type} (y : RouterProc V α),
      Proc.Ensures (fun _ => True) y (fun _ _ => True) (fun _ _ => True) := by
    intro α y r _
    rcases y.run r with ⟨_ | _, _⟩ <;> trivial
  have hatt : Proc.Ensures (fun _ => True) (attempts ver sid op cancelAt)
      (fun _ _ => (Request.session sid op).fits = true ∧ sid ≠ "" ∧ op ≠ .append []) (fun _ _ => True) := by
    refine .handle (hreq _) fun e => ?_
    split
    · exact .bind (htriv _) fun _ => .bind (htriv _) fun _ => .bind (htriv _) fun _ => hreq _
    · exact .raise fun _ _ => trivial
  intro r hr
  unfold sessionRequest
  rw [Proc.run_get_bind, Proc.run_ite]
  split_ifs
  · exact Proc.Ensures.bind (htriv _) (fun _ => hatt) r hr
  · exact hatt r hr

/-- A session that the operations which continue it can be served on: one the child holds, or one that is rebuilt.
The restore of a stale session is not attempted twice. -/
def Usable (r : Router V) (sid : SessionId) : Prop :=
  if (r.checkpoint sid).initialized = false then r.Lasts 1 ∧ (r.slot sid).isSome
  else if r.isStale sid then r.Rebuildable sid ∧ r.Lasts (restoreOps (r.checkpoint sid)).length
  else r.Lasts 1 ∨ r.Rebuildable sid

theorem sessionRequest_init_iff {r : Router V} (ts : List Token)
    (hst : r.starts.headD (.connects none) = .connects none) :
    (∃ res r', (sessionRequest ver sid (.init ts) none).run r = (.ok res, r')) ↔
      (Request.session sid (.init ts)).fits = true ∧ (r.Lasts 1 ∨ r.Rebuildable sid) := by
  have hrun : (sessionRequest ver sid (.init ts) none).run r = (attempts ver sid (.init ts) none).run r := by
    unfold sessionRequest
    rw [Proc.run_get_bind, Proc.run_ite, if_neg (by simp [skipsRestore])]
  rw [hrun, attempts_ok_iff hacc hsid _ hst rfl (fun h => by cases h)]
  have hn : (SessionOp.init ts).needsSession = true → False := nofun
  constructor
  · rintro ⟨hf, ⟨hl, -⟩ | ⟨-, hb, -⟩⟩
    · exact ⟨hf, .inl hl⟩
    · exact ⟨hf, .inr hb⟩
  · rintro ⟨hf, hor⟩
    refine ⟨hf, ?_⟩
    by_cases hl : r.Lasts 1
    · exact .inl ⟨hl, fun h => (hn h).elim⟩
    · exact .inr ⟨hl, hor.resolve_left hl, fun h => (hn h).elim⟩

theorem sessionRequest_usable_iff {r : Router V} {op : SessionOp} (hr : r.Held)
    (hst : r.starts.headD (.connects none) = .connects none) (hop : op.commits = true)
    (hn : op.needsSession = true) (hskip : skipsRestore op = false) :
    (∃ res r', (sessionRequest ver sid op none).run r = (.ok res, r')) ↔
      (Request.session sid op).fits = true ∧ r.Usable sid := by
  unfold sessionRequest Usable
  rw [Proc.run_get_bind, Proc.run_ite]
  by_cases hi : (r.checkpoint sid).initialized = false
  · rw [if_neg (by simp [isStale, hi]), if_pos hi,
      attempts_ok_iff hacc hsid _ hst hop (fun _ h => by rw [hi] at h; cases h)]
    simp [hn, hi]
  · have hi' : (r.checkpoint sid).initialized = true := by simpa using hi
    rw [if_neg hi]
    by_cases hstale : r.isStale sid = true
    · rw [if_pos ⟨hskip, hstale⟩, if_pos hstale]
      by_cases hgo : r.Rebuildable sid ∧ r.Lasts (restoreOps (r.checkpoint sid)).length
      · obtain ⟨r₁, w₁, hrun₁, hr₁, hs₁, -⟩ := restoreLocked_ok hacc hsid hi' hgo.1 hgo.2
        have hst₁ : r₁.starts.headD (.connects none) = .connects none := by rw [hr₁]; exact hst
        have hb₁ : r₁.Rebuildable sid := by rw [hr₁]; exact hgo.1
        have hi₁ : (r₁.checkpoint sid).initialized = true := by rw [hr₁]; exact hi'
        rw [Proc.run_bind_ok hrun₁, attempts_ok_iff hacc hsid _ hst₁ hop fun _ _ _ => hs₁]
        constructor
        · rintro ⟨hf, -⟩
          exact ⟨hf, hgo⟩
        · rintro ⟨hf, -⟩
          refine ⟨hf, ?_⟩
          by_cases hl : r₁.Lasts 1
          · exact .inl ⟨hl, fun _ => hs₁⟩
          · exact .inr ⟨hl, hb₁, fun _ => hi₁⟩
      · obtain ⟨m, hm⟩ := restoreLocked_unavailable hacc hsid hi' hgo
        rw [Proc.run_bind_error hm]
        constructor
        · rintro ⟨res, r', h⟩
          cases (Prod.mk.inj h).1
        · rintro ⟨-, h⟩
          exact absurd h hgo
    · have hre : r.restoredGeneration.get? sid = some r.generation := by
        simp only [isStale, hi', Bool.true_and, decide_eq_true_eq, ne_eq, not_not] at hstale
        exact hstale
      have hhas := hr.slots sid hre
      rw [if_neg (fun h => hstale h.2), if_neg hstale, attempts_ok_iff hacc hsid _ hst hop fun _ _ => hhas]
      constructor
      · rintro ⟨hf, ⟨hl, -⟩ | ⟨-, hb, -⟩⟩
        · exact ⟨hf, .inl hl⟩
        · exact ⟨hf, .inr hb⟩
      · rintro ⟨hf, hor⟩
        refine ⟨hf, ?_⟩
        by_cases hl : r.Lasts 1
        · obtain ⟨w, hw, -⟩ := id hl
          exact .inl ⟨hl, fun _ => hhas (by simp [hw])⟩
        · exact .inr ⟨hl, hor.resolve_left hl, fun _ => hi'⟩

omit hacc hsid in
theorem commitRequest_ok_iff {r : Router V} {op : SessionOp} {cancelAt : Option Nat}
    {commit : ProofCheckpoint → Result → ProofCheckpoint} {marks : Bool}
    (hopen : (r.checkpoints.get? sid).isSome) :
    (∃ res r', (commitRequest ver sid op cancelAt commit marks).run r = (.ok res, r')) ↔
      ∃ res r', (sessionRequest ver sid op cancelAt).run r = (.ok res, r') := by
  obtain ⟨cp, hcp⟩ := Option.isSome_iff_exists.1 hopen
  unfold commitRequest checkpointLocked
  rw [Proc.run_bind, Proc.run_get_bind, hcp]
  simp only [Proc.run_pure]
  rw [Proc.run_bind]
  rcases (sessionRequest ver sid op cancelAt).run r with ⟨e | res, r'⟩
  · simp
  · simp

/-- An import succeeds when the worker answers both of its requests, or when the session can be rebuilt: after the
first request only from a checkpoint, before it also from nothing. -/
theorem importSnapshot_ok_iff {r : Router V} {p : Bytes} {c : CacheCompatibility}
    (hst : r.starts.headD (.connects none) = .connects none) (hopen : (r.checkpoints.get? sid).isSome) :
    (∃ res r', (importSnapshot ver sid p c).run r = (.ok res, r')) ↔
      (Request.session sid (.init [])).fits = true ∧
        (Request.session sid (.importSnapshot p (some c))).fits = true ∧
        (r.Lasts 2 ∨ (r.Rebuildable sid ∧ ((r.checkpoint sid).initialized = true ∨ ¬ r.Lasts 1))) := by
  have hrun : ∀ (op : SessionOp) (r : Router V), skipsRestore op = true →
      (sessionRequest ver sid op none).run r = (attempts ver sid op none).run r := by
    intro op r hs
    unfold sessionRequest
    rw [Proc.run_get_bind, Proc.run_ite, if_neg (by simp [hs])]
  have himp : (∃ res r', (importSnapshot ver sid p c).run r = (.ok res, r')) ↔
      ∃ res₁ r₁, (attempts ver sid (.init []) none).run r = (.ok res₁, r₁) ∧
        ∃ res r', (attempts ver sid (.importSnapshot p (some c)) none).run r₁ = (.ok res, r') := by
    obtain ⟨cp, hcp⟩ := Option.isSome_iff_exists.1 hopen
    unfold importSnapshot checkpointLocked
    rw [Proc.run_bind, Proc.run_get_bind, hcp]
    simp only [Proc.run_pure]
    rw [Proc.run_bind, hrun _ _ rfl]
    rcases (attempts ver sid (.init []) none).run r with ⟨e | res₁, r₁⟩
    · simp
    · dsimp only
      rw [Proc.run_bind, hrun _ _ rfl]
      rcases hq : (attempts ver sid (.importSnapshot p (some c)) none).run r₁ with ⟨e | res, r₂⟩
      · constructor
        · rintro ⟨res, r', h⟩
          cases (Prod.mk.inj h).1
        · rintro ⟨res₁', r₁', h, res, r', h'⟩
          obtain ⟨-, rfl⟩ := Prod.mk.inj h
          rw [hq] at h'
          cases (Prod.mk.inj h').1
      · exact ⟨fun _ => ⟨res₁, r₁, rfl, res, r₂, hq⟩, fun _ => ⟨_, _, rfl⟩⟩
  have hfitImp : ∀ r₁ res r', (attempts ver sid (.importSnapshot p (some c)) none).run r₁ = (.ok res, r') →
      (Request.session sid (.importSnapshot p (some c))).fits = true := by
    intro r₁ res r' h
    have := sessionRequest_sent ver sid (.importSnapshot p (some c)) none r₁ trivial
    rw [hrun _ _ rfl, h] at this
    exact this.1
  rw [himp]
  by_cases hfit : (Request.session sid (.init [])).fits = true
  · by_cases hl : r.Lasts 1
    · -- the first request is answered: the second one finds the same worker
      obtain ⟨res₁, r₁, w₁, hreq, hr₁, hs₁, hn₁⟩ := request_accepted hacc hsid _ rfl hl hfit
        (fun h => by cases h)
      have hatt : (attempts ver sid (.init []) none).run r = (.ok res₁, r₁) := by
        unfold attempts
        rw [Proc.run_handle, show cancelledIn none 0 = false from rfl, hreq]
      have hst₁ : r₁.starts.headD (.connects none) = .connects none := by rw [hr₁]; exact hst
      have hb₁ : r₁.Rebuildable sid ↔ r.Rebuildable sid := by rw [hr₁]; rfl
      have hi₁ : r₁.checkpoint sid = r.checkpoint sid := by rw [hr₁]; rfl
      have hiff := attempts_ok_iff hacc hsid (.importSnapshot p (some c)) hst₁ rfl fun _ _ _ => hs₁
      rw [hb₁, hi₁, ← hn₁] at hiff
      have hleft : (∃ res₁ r₁, (attempts ver sid (.init []) none).run r = (.ok res₁, r₁) ∧
          ∃ res r', (attempts ver sid (.importSnapshot p (some c)) none).run r₁ = (.ok res, r')) ↔
          ∃ res r', (attempts ver sid (.importSnapshot p (some c)) none).run r₁ = (.ok res, r') := by
        rw [hatt]
        constructor
        · rintro ⟨res₁', r₁', h, h'⟩
          obtain ⟨-, rfl⟩ := Prod.mk.inj h
          exact h'
        · intro h
          exact ⟨res₁, r₁, rfl, h⟩
      rw [hleft, hiff]
      constructor
      · rintro ⟨hf, ⟨h₂, -⟩ | ⟨-, hb, hin⟩⟩
        · exact ⟨hfit, hf, .inl h₂⟩
        · exact ⟨hfit, hf, .inr ⟨hb, .inl (hin rfl)⟩⟩
      · rintro ⟨-, hf, h₂ | ⟨hb, hin | hno⟩⟩
        · exact ⟨hf, .inl ⟨h₂, fun _ => hs₁⟩⟩
        · by_cases h₂ : r.Lasts (1 + 1)
          · exact ⟨hf, .inl ⟨h₂, fun _ => hs₁⟩⟩
          · exact ⟨hf, .inr ⟨h₂, hb, fun _ => hin⟩⟩
        · exact absurd hl hno
    · -- the first request is lost: its retry leaves a worker that does not fail
      constructor
      · rintro ⟨res₁, r₁, h₁, res, r', h₂⟩
        have hiff := attempts_ok_iff hacc hsid (r := r) (.init []) hst rfl (fun h => by cases h)
        obtain ⟨-, ⟨hl', -⟩ | ⟨-, hb, -⟩⟩ := hiff.1 ⟨res₁, r₁, h₁⟩
        · exact absurd hl' hl
        · exact ⟨hfit, hfitImp _ _ _ h₂, .inr ⟨hb, .inr hl⟩⟩
      · rintro ⟨-, hf, h₂ | ⟨hb, -⟩⟩
        · exact absurd (h₂.mono (by omega)) hl
        · obtain ⟨m, hm⟩ := requestLocked_unanswered ver (.session sid (.init [])) (.inr hl)
          obtain ⟨res₁, r₁, hrun₁, -, hs₁, hl₁⟩ := retry_ok hacc hsid (r := { r with worker := none })
            (.init []) hst rfl hfit hb (fun h => by cases h)
          obtain ⟨res, r₂, w₂, hrun₂, -⟩ := request_accepted hacc hsid (.importSnapshot p (some c)) rfl
            (hl₁ 1) hf fun _ => hs₁
          refine ⟨res₁, r₁, ?_, res, r₂, ?_⟩
          · unfold attempts
            rw [Proc.run_handle, show cancelledIn none 0 = false from rfl, hm]
            exact hrun₁
          · unfold attempts
            rw [Proc.run_handle, show cancelledIn none 0 = false from rfl, hrun₂]
  · constructor
    · rintro ⟨res₁, r₁, h₁, -⟩
      have hiff := attempts_ok_iff hacc hsid (r := r) (.init []) hst rfl (fun h => by cases h)
      exact absurd (hiff.1 ⟨res₁, r₁, h₁⟩).1 hfit
    · rintro ⟨h, -⟩
      exact absurd h hfit

end

/-- The condition under which a session operation returns, when a new worker can be started and does not fail. -/
def Recoverable {V : Type} (r : Router V) : Call → Prop
  | .prefill sid ts _ =>
    sid ≠ "" ∧ (Request.session sid (.init ts)).fits = true ∧ (r.Lasts 1 ∨ r.Rebuildable sid)
  | .reset sid => sid ≠ "" ∧ (Request.session sid (.init [])).fits = true ∧ (r.Lasts 1 ∨ r.Rebuildable sid)
  | .appendAcceptedTokens sid ts _ =>
    sid ≠ "" ∧ ts ≠ [] ∧ (Request.session sid (.append ts)).fits = true ∧ r.Usable sid
  | .generateStep sid _ => sid ≠ "" ∧ (Request.session sid .generateStep).fits = true ∧ r.Usable sid
  | .importSnapshot sid p c =>
    sid ≠ "" ∧ (Request.session sid (.init [])).fits = true ∧
      (Request.session sid (.importSnapshot p (some c))).fits = true ∧
      (r.Lasts 2 ∨ (r.Rebuildable sid ∧ ((r.checkpoint sid).initialized = true ∨ ¬ r.Lasts 1)))
  | _ => True

end Router

/-- The first attempt that finds the cancel event of a call set. -/
def Call.cancelAt : Call → Option Nat
  | prefill _ _ k => k
  | appendAcceptedTokens _ _ k => k
  | generateStep _ k => k
  | _ => none

namespace Router

variable {V : Type} {ver : Verifier V}

theorem run_some_ok_iff {y : RouterProc V Result} {r : Router V} :
    (∃ res r', (y >>= fun a => pure (some a)).run r = (.ok res, r')) ↔ ∃ res r', y.run r = (.ok res, r') := by
  rw [Proc.run_map]
  rcases y.run r with ⟨e | res, r'⟩
  · constructor
    · rintro ⟨res, r'', h⟩
      cases (Prod.mk.inj h).1
    · rintro ⟨res, r'', h⟩
      cases (Prod.mk.inj h).1
  · exact ⟨fun _ => ⟨res, r', rfl⟩, fun _ => ⟨some res, r', rfl⟩⟩

/-- What a session operation that returned tells about its request. -/
theorem sessionRequest_ok_sent {sid : SessionId} {op : SessionOp} {r : Router V}
    (h : ∃ res r', (sessionRequest ver sid op none).run r = (.ok res, r')) : sid ≠ "" ∧ op ≠ .append [] := by
  obtain ⟨res, r', hrun⟩ := h
  have := sessionRequest_sent ver sid op none r trivial
  rw [hrun] at this
  exact this.2

theorem perform_ok_iff (hacc : ver.Accepting) {r : Router V} (hr : r.Held)
    (hst : r.starts.headD (.connects none) = .connects none) {c : Call} {sid : SessionId} {op : SessionOp}
    (hop : c.op = some (sid, op)) (hcan : c.cancelAt = none) (hopen : (r.checkpoints.get? sid).isSome) :
    (∃ res r', (perform ver c).run r = (.ok res, r')) ↔ r.Recoverable c := by
  cases c with
  | prefill sid' ts k =>
    obtain ⟨rfl, rfl⟩ := Prod.mk.inj (Option.some.inj hop)
    obtain rfl : k = none := hcan
    rw [perform, run_some_ok_iff, prefill, commitRequest_ok_iff hopen]
    constructor
    · intro h
      have hsid := (sessionRequest_ok_sent h).1
      exact ⟨hsid, (sessionRequest_init_iff hacc hsid ts hst).1 h⟩
    · rintro ⟨hsid, h⟩
      exact (sessionRequest_init_iff hacc hsid ts hst).2 h
  | reset sid' =>
    obtain ⟨rfl, rfl⟩ := Prod.mk.inj (Option.some.inj hop)
    rw [perform, run_some_ok_iff, reset, commitRequest_ok_iff hopen]
    constructor
    · intro h
      have hsid := (sessionRequest_ok_sent h).1
      exact ⟨hsid, (sessionRequest_init_iff hacc hsid [] hst).1 h⟩
    · rintro ⟨hsid, h⟩
      exact (sessionRequest_init_iff hacc hsid [] hst).2 h
  | appendAcceptedTokens sid' ts k =>
    obtain ⟨rfl, rfl⟩ := Prod.mk.inj (Option.some.inj hop)
    obtain rfl : k = none := hcan
    rw [perform, run_some_ok_iff, appendAcceptedTokens, commitRequest_ok_iff hopen]
    constructor
    · intro h
      obtain ⟨hsid, hne⟩ := sessionRequest_ok_sent h
      have hts : ts ≠ [] := by
        rintro rfl
        exact hne rfl
      refine ⟨hsid, hts, (sessionRequest_usable_iff hacc hsid hr hst ?_ rfl rfl).1 h⟩
      simp [SessionOp.commits, hts]
    · rintro ⟨hsid, hts, h⟩
      refine (sessionRequest_usable_iff hacc hsid hr hst ?_ rfl rfl).2 h
      simp [SessionOp.commits, hts]
  | generateStep sid' k =>
    obtain ⟨rfl, rfl⟩ := Prod.mk.inj (Option.some.inj hop)
    obtain rfl : k = none := hcan
    rw [perform, run_some_ok_iff, generateStep, commitRequest_ok_iff hopen]
    constructor
    · intro h
      have hsid := (sessionRequest_ok_sent h).1
      exact ⟨hsid, (sessionRequest_usable_iff hacc hsid hr hst rfl rfl rfl).1 h⟩
    · rintro ⟨hsid, h⟩
      exact (sessionRequest_usable_iff hacc hsid hr hst rfl rfl rfl).2 h
  | importSnapshot sid' p c =>
    obtain ⟨rfl, rfl⟩ := Prod.mk.inj (Option.some.inj hop)
    rw [perform, run_some_ok_iff]
    constructor
    · intro h
      have hsid : sid' ≠ "" := by
        obtain ⟨res, r', hrun⟩ := h
        obtain ⟨cp, hcp⟩ := Option.isSome_iff_exists.1 hopen
        unfold importSnapshot checkpointLocked at hrun
        rw [Proc.run_bind, Proc.run_get_bind, hcp] at hrun
        simp only [Proc.run_pure] at hrun
        rw [Proc.run_bind] at hrun
        rcases hq : (sessionRequest ver sid' (.init []) none).run r with ⟨e | res₁, r₁⟩
        · rw [hq] at hrun
          cases (Prod.mk.inj hrun).1
        · exact (sessionRequest_ok_sent ⟨res₁, r₁, hq⟩).1
      exact ⟨hsid, (importSnapshot_ok_iff hacc hsid hst hopen).1 h⟩
    · rintro ⟨hsid, h⟩
      exact (importSnapshot_ok_iff hacc hsid hst hopen).2 h
  | get sid' => cases hop
  | closeSession sid' => cases hop
  | health => cases hop
  | hardKill => cases hop

/-- A verifier that accepts everything and reports an empty state. -/
def steadyVerifier : Verifier Unit where
  spawn := .ok ()
  reset := id
  prefill := fun _ _ => (none, ())
  appendAcceptedTokens := fun _ _ => (none, ())
  greedyNextTokenId := fun _ => .ok 7
  logitsSha256 := fun _ => .ok ""
  importSnapshot := some fun _ _ _ => (none, ())
  importPrefillSnapshot := fun _ _ _ => (.ok (0, ""), ())
  exportSnapshot := fun _ _ => .ok []
  state := fun _ => ⟨[], 0, 0, 0⟩

theorem steadyVerifier_accepting : steadyVerifier.Accepting := by
  have hstate : (Result.state ⟨[], 0, 0, 0⟩).fits = true := by decide +kernel
  have hgen : (Result.generated ⟨[], 0, 0, 0⟩ 7 "").fits = true := by decide +kernel
  intro sid op slot hsid hop hslot
  cases op with
  | init ts =>
    refine ⟨.state ⟨[], 0, 0, 0⟩, (), ?_⟩
    by_cases hts : ts = [] <;> simp [serveSession, dispatchSession, hsid, initSlot, steadyVerifier, hts, hstate]
  | importSnapshot p c =>
    obtain ⟨v, rfl⟩ := Option.isSome_iff_exists.1 (hslot rfl)
    exact ⟨.state ⟨[], 0, 0, 0⟩, (), by
      simp [serveSession, dispatchSession, hsid, Verifier.runImport, steadyVerifier, hstate]⟩
  | append ts =>
    obtain ⟨v, rfl⟩ := Option.isSome_iff_exists.1 (hslot rfl)
    have hts : ts ≠ [] := by simpa [SessionOp.commits] using hop
    exact ⟨.state ⟨[], 0, 0, 0⟩, (), by simp [serveSession, dispatchSession, hsid, hts, steadyVerifier, hstate]⟩
  | generateStep =>
    obtain ⟨v, rfl⟩ := Option.isSome_iff_exists.1 (hslot rfl)
    exact ⟨.generated ⟨[], 0, 0, 0⟩ 7 "", (), by
      simp [serveSession, dispatchSession, hsid, generateOn, steadyVerifier, hgen]⟩
  | close => cases hop
  | exportSnapshot c => cases hop

/-- A generation step whose worker dies, and whose next worker dies in the restore. -/
def lostRestore : List RouterEvent :=
  [.call (.get "s"), .call (.prefill "s" [1] none), .turn (some ⟨0, false, false⟩), .call (.generateStep "s" none)]

/-- A new session whose worker will answer one request. -/
def dyingAfterOne : List RouterEvent := [.call (.get "s"), .turn (some ⟨1, false, false⟩)]

/-- A prefilled session whose worker is dead. -/
def deadWorker : List RouterEvent :=
  [.call (.get "s"), .call (.prefill "s" [1] none), .turn (some ⟨0, false, false⟩)]

end Router

end KakeyaEngine
