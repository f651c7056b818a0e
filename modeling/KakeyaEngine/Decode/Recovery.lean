import KakeyaEngine.Decode.Router

/-!
# Agreement of the router and its child

The router's committed history of a session is what its checkpoint stands for.  `Synced` says that a session which is
not waiting for a restore has, in the child, the verifier fed exactly that history; it is kept by every call, through
worker deaths at any point, unless the child refuses an operation after it has changed the session.

The verifier is assumed deterministic in the tokens it consumed (`Verifier.Lawful`), for the operations that succeed.
-/

namespace KakeyaEngine

/-- The verifier's state is `feed h` after it consumed `h`, and an accepted snapshot stands for the tokens
`standsFor` gives, whatever the session held before.  Nothing is assumed about operations that raise. -/
structure Verifier.Lawful {V : Type} (ver : Verifier V) (feed : List Token → V)
    (standsFor : Bytes → Option CacheCompatibility → List Token) : Prop where
  spawn : ∀ v, ver.spawn = .ok v → v = feed []
  prefill : ∀ ts v, ver.prefill (feed []) ts = (none, v) → v = feed ts
  append : ∀ h ts v, ver.appendAcceptedTokens (feed h) ts = (none, v) → v = feed (h ++ ts)
  imports : ∀ u p c res v, ver.runImport u p c = (.ok res, v) →
    v = feed (standsFor p c) ∧ ∀ u', ver.runImport u' p c = (.ok res, v)

/-- The token history a checkpoint stands for. -/
def ProofCheckpoint.history (standsFor : Bytes → Option CacheCompatibility → List Token) (cp : ProofCheckpoint) :
    List Token :=
  match cp.snapshot with
  | none => cp.replayTokenIds
  | some p => standsFor p cp.compatibility ++ cp.replayTokenIds

theorem ProofCheckpoint.history_none {standsFor : Bytes → Option CacheCompatibility → List Token}
    {cp : ProofCheckpoint} (h : cp.snapshot = none) : cp.history standsFor = cp.replayTokenIds := by
  simp [history, h]

theorem ProofCheckpoint.history_some {standsFor : Bytes → Option CacheCompatibility → List Token}
    {cp : ProofCheckpoint} {p : Bytes} (h : cp.snapshot = some p) :
    cp.history standsFor = standsFor p cp.compatibility ++ cp.replayTokenIds := by
  simp [history, h]

theorem ProofCheckpoint.history_append (standsFor : Bytes → Option CacheCompatibility → List Token)
    (cp : ProofCheckpoint) (ts : List Token) :
    ({ cp with replayTokenIds := cp.replayTokenIds ++ ts } : ProofCheckpoint).history standsFor =
      cp.history standsFor ++ ts := by
  unfold history
  cases cp.snapshot <;> simp

/-! ### What the child's success means -/

section Child

variable {V : Type} {ver : Verifier V}

theorem serveSession_ok {sid : SessionId} {op : SessionOp} {slot slot' : Option V} {res : Result}
    (h : serveSession ver sid op slot = (.ok res, slot')) :
    sid ≠ "" ∧ dispatchSession ver sid op slot = (.ok res, slot') := by
  unfold serveSession at h
  split at h
  · rename_i res' s' hd
    split_ifs at h
    · obtain ⟨h1, rfl⟩ := Prod.mk.inj h
      obtain rfl := Except.ok.inj h1
      refine ⟨?_, hd⟩
      rintro rfl
      simp [dispatchSession] at hd
    · cases (Prod.mk.inj h).1
  · cases (Prod.mk.inj h).1

/-- The operations that need a session the child holds. -/
def SessionOp.needsSession : SessionOp → Bool
  | .init _ => false
  | .close => false
  | _ => true

theorem serve_unknown {sid : SessionId} {op : SessionOp} (hop : op.needsSession = true) :
    serveSession ver sid op none =
      (.error (if sid = "" then missingSessionId op else unknownSession sid), none) := by
  unfold serveSession dispatchSession
  by_cases hsid : sid = ""
  · simp only [hsid, if_true]
  · simp only [hsid, if_false]
    cases op with
    | init ts => cases hop
    | close => cases hop
    | importSnapshot p c => rfl
    | exportSnapshot c => rfl
    | append ts => rfl
    | generateStep => rfl

variable {feed : List Token → V} {standsFor : Bytes → Option CacheCompatibility → List Token}
  (law : ver.Lawful feed standsFor)

include law

/-- An accepted `Init` leaves the verifier fed its tokens. -/
theorem serve_init {sid : SessionId} {ts : List Token} {slot slot' : Option V} {res : Result}
    (h : serveSession ver sid (.init ts) slot = (.ok res, slot')) : slot' = some (feed ts) := by
  obtain ⟨hsid, hd⟩ := serveSession_ok h
  simp only [dispatch_init, hsid, if_false, initSlot] at hd
  split at hd
  · cases (Prod.mk.inj hd).1
  · rename_i v hv
    obtain rfl := law.spawn v hv
    split_ifs at hd with hts
    · rw [hts]; exact (Prod.mk.inj hd).2.symm
    · split at hd
      · cases (Prod.mk.inj hd).1
      · rename_i v' hp
        obtain rfl := law.prefill ts v' hp
        exact (Prod.mk.inj hd).2.symm

/-- An accepted `Append` finds the session and feeds it the tokens. -/
theorem serve_append {sid : SessionId} {ts h : List Token} {slot slot' : Option V} {res : Result}
    (hslot : ∀ v, slot = some v → v = feed h) (hs : serveSession ver sid (.append ts) slot = (.ok res, slot')) :
    slot = some (feed h) ∧ slot' = some (feed (h ++ ts)) := by
  obtain ⟨hsid, hd⟩ := serveSession_ok hs
  simp only [dispatch_append, hsid, if_false] at hd
  cases slot with
  | none => cases (Prod.mk.inj hd).1
  | some v =>
    obtain rfl := hslot v rfl
    dsimp only at hd
    split_ifs at hd with hts
    · cases (Prod.mk.inj hd).1
    · split at hd
      · cases (Prod.mk.inj hd).1
      · rename_i v' hp
        obtain rfl := law.append h ts v' hp
        exact ⟨rfl, (Prod.mk.inj hd).2.symm⟩

/-- An accepted `GenerateStep` returns the greedy token of the history and feeds it. -/
theorem serve_generate {sid : SessionId} {h : List Token} {slot slot' : Option V} {res : Result}
    (hslot : ∀ v, slot = some v → v = feed h) (hs : serveSession ver sid .generateStep slot = (.ok res, slot')) :
    slot = some (feed h) ∧ ver.greedyNextTokenId (feed h) = .ok (Router.resultToken res) ∧
      slot' = some (feed (h ++ [Router.resultToken res])) := by
  obtain ⟨hsid, hd⟩ := serveSession_ok hs
  simp only [dispatch_generate, hsid, if_false, generateOn] at hd
  cases slot with
  | none => cases (Prod.mk.inj hd).1
  | some v =>
    obtain rfl := hslot v rfl
    dsimp only at hd
    split at hd
    · cases (Prod.mk.inj hd).1
    · rename_i tok htok
      split at hd
      · cases (Prod.mk.inj hd).1
      · split at hd
        · cases (Prod.mk.inj hd).1
        · rename_i u hu
          obtain ⟨h1, rfl⟩ := Prod.mk.inj hd
          obtain rfl := Except.ok.inj h1
          obtain rfl := law.append h [tok] u hu
          exact ⟨rfl, htok, rfl⟩

/-- An accepted `ImportSnapshot` finds the session and leaves it fed what the snapshot stands for. -/
theorem serve_import {sid : SessionId} {p : Bytes} {c : Option CacheCompatibility} {slot slot' : Option V}
    {res : Result} (hs : serveSession ver sid (.importSnapshot p c) slot = (.ok res, slot')) :
    slot' = some (feed (standsFor p c)) ∧
      ∀ u, serveSession ver sid (.importSnapshot p c) (some u) = (.ok res, slot') := by
  obtain ⟨hsid, hd⟩ := serveSession_ok hs
  simp only [dispatch_import, hsid, if_false] at hd
  cases slot with
  | none => cases (Prod.mk.inj hd).1
  | some v =>
    dsimp only at hd
    rcases hi : ver.runImport v p c with ⟨res', v'⟩
    rw [hi] at hd
    obtain ⟨rfl, rfl⟩ := Prod.mk.inj hd
    obtain ⟨rfl, hall⟩ := law.imports v p c res v' hi
    refine ⟨rfl, fun u => ?_⟩
    rw [← hs]
    simp only [serveSession, dispatch_import, hsid, if_false, hi, hall u]

end Child

/-! ### The invariant -/

namespace Router

theorem ofChild_isApplication (e : ChildError) : (RouterError.ofChild e).isApplication = true := by
  unfold RouterError.ofChild
  split <;> rfl

section

variable {V : Type} (feed : List Token → V) (standsFor : Bytes → Option CacheCompatibility → List Token)

/-- The committed history of a session. -/
def history (r : Router V) (sid : SessionId) : List Token := (r.checkpoint sid).history standsFor

/-- Unless the session waits for a restore, the verifier the child holds for it was fed the committed history. -/
def SyncedAt (r : Router V) (sid : SessionId) : Prop :=
  r.isStale sid = false → ∀ v, r.slot sid = some v → v = feed (r.history standsFor sid)

/-- No session was restored in a generation to come. -/
def Bounded (r : Router V) : Prop := ∀ s g, r.restoredGeneration.get? s = some g → g ≤ r.generation

/-- The router agrees with its child on every session. -/
structure Synced (r : Router V) : Prop where
  bounded : r.Bounded
  agrees : ∀ s, r.SyncedAt feed standsFor s

/-- The router agrees with its child on every session but possibly `sid`. -/
structure SyncedBut (sid : SessionId) (r : Router V) : Prop where
  bounded : r.Bounded
  others : ∀ s, s ≠ sid → r.SyncedAt feed standsFor s

/-- In `r₁` the session was rebuilt from the checkpoint it has in `r`, if it has one. -/
def Rebuilt (sid : SessionId) (r r₁ : Router V) : Prop :=
  r₁.isStale sid = false ∧ (r₁.slot sid = none ∨
    ((r.checkpoint sid).initialized = true ∧ r₁.slot sid = some (feed (r.history standsFor sid))))

/-- `r₁` is a router that is about to send a request of `sid`, `r` the one before a restart or a restore that may have
come first: the child's session is the one of `r`, or it was rebuilt. -/
structure Ready (sid : SessionId) (r r₁ : Router V) : Prop extends SyncedBut feed standsFor sid r₁ where
  checkpoints : r₁.checkpoints = r.checkpoints
  proxies : r₁.proxies = r.proxies
  frame : ∀ s, s ≠ sid → r₁.slot s = r.slot s ∨ r₁.slot s = none
  own : (r₁.slot sid = r.slot sid ∧ r₁.isStale sid = r.isStale sid) ∨ Rebuilt feed standsFor sid r r₁

end

/-- The child refused a request of the session; the other sessions are as before. -/
def Refused {V α : Type} (sid : SessionId) (r : Router V) (x : Except RouterError α) (r' : Router V) : Prop :=
  ∃ e w', x = .error e ∧ e.isApplication = true ∧ r' = { r with worker := some w' } ∧
    ∀ s, s ≠ sid → r'.slot s = r.slot s

section

variable {V : Type} {ver : Verifier V} {feed : List Token → V}
  {standsFor : Bytes → Option CacheCompatibility → List Token}

theorem slot_of_no_worker {r : Router V} (h : r.worker = none) (s : SessionId) : r.slot s = none := by
  simp [slot, h]

theorem synced_of_slots {r : Router V} (hb : r.Bounded) (h : ∀ s, r.slot s = none) : Synced feed standsFor r := by
  refine ⟨hb, fun s _ v hv => ?_⟩
  rw [h s] at hv
  cases hv

theorem Synced.but {r : Router V} (h : Synced feed standsFor r) (sid : SessionId) :
    SyncedBut feed standsFor sid r := ⟨h.bounded, fun s _ => h.agrees s⟩

/-- Sessions whose child verifier is untouched stay in agreement when only the worker changes. -/
theorem SyncedBut.of_frame {sid : SessionId} {r r' : Router V} {w : Option (Worker V)}
    (h : SyncedBut feed standsFor sid r) (hr : r' = { r with worker := w })
    (hf : ∀ s, s ≠ sid → r'.slot s = r.slot s) : SyncedBut feed standsFor sid r' := by
  refine ⟨by rw [hr]; exact h.bounded, fun s hs hst v hv => ?_⟩
  rw [hf s hs] at hv
  have := h.others s hs (by rw [hr] at hst; exact hst) v hv
  rw [this, hr]; rfl

theorem Served.syncedBut {sid : SessionId} {op : SessionOp} {r r' : Router V} {reply : Except ChildError Result}
    (hs : Served ver sid op r reply r') (h : SyncedBut feed standsFor sid r) : SyncedBut feed standsFor sid r' := by
  obtain ⟨w', hr⟩ := hs.books
  exact h.of_frame hr hs.frame

theorem Served.isStale_eq {sid : SessionId} {op : SessionOp} {r r' : Router V} {reply : Except ChildError Result}
    (hs : Served ver sid op r reply r') (s : SessionId) : r'.isStale s = r.isStale s := by
  obtain ⟨w', hr⟩ := hs.books
  rw [hr]; rfl

theorem Served.checkpoints_eq {sid : SessionId} {op : SessionOp} {r r' : Router V}
    {reply : Except ChildError Result} (hs : Served ver sid op r reply r') : r'.checkpoints = r.checkpoints := by
  obtain ⟨w', hr⟩ := hs.books
  rw [hr]

theorem Served.proxies_eq {sid : SessionId} {op : SessionOp} {r r' : Router V}
    {reply : Except ChildError Result} (hs : Served ver sid op r reply r') : r'.proxies = r.proxies := by
  obtain ⟨w', hr⟩ := hs.books
  rw [hr]

theorem Served.refused {α : Type} {sid : SessionId} {op : SessionOp} {r r' : Router V} {e : ChildError}
    (hs : Served ver sid op r (.error e) r') :
    Refused sid r (.error (.ofChild e) : Except RouterError α) r' := by
  obtain ⟨w', hr⟩ := hs.books
  exact ⟨_, w', rfl, ofChild_isApplication e, hr, hs.frame⟩

/-- What follows a request of the session: the request is lost, or refused, or the continuation runs. -/
theorem requestLocked_bind_cases {α : Type} {sid : SessionId} {op : SessionOp} {cancelled : Bool}
    {k : Result → RouterProc V α} {r r' : Router V} {x : Except RouterError α}
    (h : (requestLocked ver (.session sid op) cancelled >>= k).run r = (x, r')) :
    Lost r x r' ∨ (∃ e, Served ver sid op r (.error e) r' ∧ x = .error (.ofChild e)) ∨
      ∃ res r₁, Served ver sid op r (.ok res) r₁ ∧ (k res).run r₁ = (x, r') := by
  rw [Proc.run_bind] at h
  rcases hq : (requestLocked ver (.session sid op) cancelled).run r with ⟨y, r₁⟩
  rw [hq] at h
  rcases sessionRequestLocked_cases ver hq with ⟨e, rfl, he, hr⟩ | ⟨reply, hs, -, rfl⟩
  · obtain ⟨rfl, rfl⟩ := Prod.mk.inj h
    exact .inl ⟨e, rfl, he, hr⟩
  · cases reply with
    | error e =>
      obtain ⟨rfl, rfl⟩ := Prod.mk.inj h
      exact .inr (.inl ⟨e, hs, rfl⟩)
    | ok res => exact .inr (.inr ⟨res, r₁, hs, h⟩)

/-- After a served request, a loss is a loss of the router before it. -/
theorem Served.lost {α : Type} {sid : SessionId} {op : SessionOp} {r r₁ r' : Router V}
    {reply : Except ChildError Result} {x : Except RouterError α} (hs : Served ver sid op r reply r₁)
    (h : Lost r₁ x r') : Lost r x r' := by
  obtain ⟨w, rfl⟩ := hs.books
  exact h

/-- After a served request, a refusal is a refusal of the router before it. -/
theorem Served.refused_trans {α : Type} {sid : SessionId} {op : SessionOp} {r r₁ r' : Router V}
    {reply : Except ChildError Result} {x : Except RouterError α} (hs : Served ver sid op r reply r₁)
    (h : Refused sid r₁ x r') : Refused sid r x r' := by
  obtain ⟨e, w', hx, he, hr, hf⟩ := h
  have hfr := hs.frame
  obtain ⟨w, rfl⟩ := hs.books
  exact ⟨e, w', hx, he, hr, fun s hs' => (hf s hs').trans (hfr s hs')⟩

variable (law : ver.Lawful feed standsFor)

include law

/-- The snapshot part of a restore, from a session that was just initialised. -/
theorem restoreSnapshot_cases {sid : SessionId} {cp : ProofCheckpoint} {r r' : Router V}
    {x : Except RouterError Unit} (h : (restoreSnapshot ver sid cp).run r = (x, r'))
    (hslot : cp.snapshot = none → r.slot sid = some (feed (cp.history standsFor))) (hc : r.worker.isSome) :
    Lost r x r' ∨ Refused sid r x r' ∨
      (x = .ok () ∧ (∃ w', r' = { r with worker := some w' }) ∧ (∀ s, s ≠ sid → r'.slot s = r.slot s) ∧
        r'.slot sid = some (feed (cp.history standsFor))) := by
  unfold restoreSnapshot at h
  split at h
  · rename_i hn
    obtain ⟨rfl, rfl⟩ := Prod.mk.inj h
    obtain ⟨w, hw⟩ := Option.isSome_iff_exists.1 hc
    exact .inr (.inr ⟨rfl, ⟨w, by rw [← hw]⟩, fun _ _ => rfl, hslot hn⟩)
  · rename_i p hp
    rcases requestLocked_bind_cases h with hl | ⟨e, hs, rfl⟩ | ⟨res, r₁, hs, hk⟩
    · exact .inl hl
    · exact .inr (.inl hs.refused)
    · have h₁ := (serve_import law hs.serves).1
      rw [Proc.run_ite] at hk
      split_ifs at hk with hre
      · obtain ⟨rfl, rfl⟩ := Prod.mk.inj hk
        refine .inr (.inr ⟨rfl, hs.books, hs.frame, ?_⟩)
        rw [h₁, ProofCheckpoint.history_some hp, hre, List.append_nil]
      · rcases requestLocked_bind_cases hk with hl | ⟨e, hs', rfl⟩ | ⟨res', r₂, hs', hk'⟩
        · exact .inl (hs.lost hl)
        · exact .inr (.inl (hs.refused_trans hs'.refused))
        · obtain ⟨rfl, rfl⟩ := Prod.mk.inj hk'
          have hv : ∀ v, r₁.slot sid = some v → v = feed (standsFor p cp.compatibility) := by
            intro v hv
            rw [h₁] at hv
            exact (Option.some.inj hv).symm
          have h₂ := (serve_append law hv hs'.serves).2
          obtain ⟨w₁, rfl⟩ := hs.books
          obtain ⟨w₂, rfl⟩ := hs'.books
          refine .inr (.inr ⟨rfl, ⟨w₂, rfl⟩, fun s hs'' => ?_, ?_⟩)
          · exact (hs'.frame s hs'').trans (hs.frame s hs'')
          · rw [h₂, ProofCheckpoint.history_some hp]

/-- A restore does nothing for a session that was never initialised; otherwise it is lost, it is refused, or it
rebuilds the session from its committed history. -/
theorem restoreLocked_cases {sid : SessionId} {r r' : Router V} {x : Except RouterError Unit}
    (h : (restoreLocked ver sid).run r = (x, r')) :
    (x = .ok () ∧ (r.checkpoint sid).initialized = false ∧ r' = r) ∨
      (r.checkpoint sid).initialized = true ∧ (Lost r x r' ∨ Refused sid r x r' ∨
        (x = .ok () ∧
          (∃ w', r' = { r with
            worker := some w', restoredGeneration := r.restoredGeneration.set sid r.generation }) ∧
          (∀ s, s ≠ sid → r'.slot s = r.slot s) ∧ r'.slot sid = some (feed (r.history standsFor sid)))) := by
  unfold restoreLocked at h
  rw [Proc.run_get_bind, Proc.run_ite] at h
  by_cases hi : (r.checkpoint sid).initialized = false
  · rw [if_pos hi] at h
    obtain ⟨rfl, rfl⟩ := Prod.mk.inj h
    exact .inl ⟨rfl, hi, rfl⟩
  · refine .inr ⟨by simpa using hi, ?_⟩
    rw [if_neg hi] at h
    rcases requestLocked_bind_cases h with hl | ⟨e, hs, rfl⟩ | ⟨res, r₁, hs, hk⟩
    · exact .inl hl
    · exact .inr (.inl hs.refused)
    · have h₁ := serve_init law hs.serves
      have hslot : (r.checkpoint sid).snapshot = none →
          r₁.slot sid = some (feed ((r.checkpoint sid).history standsFor)) := by
        intro hn
        rw [h₁, if_pos hn, ProofCheckpoint.history_none hn]
      rw [Proc.run_bind] at hk
      rcases hq : (restoreSnapshot ver sid (r.checkpoint sid)).run r₁ with ⟨y, r₂⟩
      rw [hq] at hk
      have hc : r₁.worker.isSome := by
        obtain ⟨w, hw⟩ := hs.books
        simp [hw]
      rcases restoreSnapshot_cases law hq hslot hc with ⟨e, rfl, he, hr⟩ | ⟨e, w', rfl, he, hr, hf⟩ |
        ⟨rfl, ⟨w', hr⟩, hf, hv⟩
      · obtain ⟨rfl, rfl⟩ := Prod.mk.inj hk
        exact .inl (hs.lost ⟨e, rfl, he, hr⟩)
      · obtain ⟨rfl, rfl⟩ := Prod.mk.inj hk
        exact .inr (.inl (hs.refused_trans ⟨e, w', rfl, he, hr, hf⟩))
      · obtain ⟨rfl, rfl⟩ := Prod.mk.inj hk
        have hfr := hs.frame
        obtain ⟨w₁, rfl⟩ := hs.books
        subst hr
        exact .inr (.inr ⟨rfl, ⟨w', rfl⟩, fun s hs' => (hf s hs').trans (hfr s hs'), hv⟩)

end

/-! ### A session request -/

section

variable {V : Type} {ver : Verifier V} {feed : List Token → V}
  {standsFor : Bytes → Option CacheCompatibility → List Token}

/-- The call ends with an exception that is none of the application, and without a worker. -/
structure Gone {α : Type} (r : Router V) (x : Except RouterError α) (r' : Router V) : Prop where
  raised : ∃ e, x = .error e ∧ e.isApplication = false
  worker : r'.worker = none
  checkpoints : r'.checkpoints = r.checkpoints
  proxies : r'.proxies = r.proxies
  bounded : r'.Bounded

/-- The child refused to rebuild the session, which still waits for its restore. -/
structure Unrestored {α : Type} (feed : List Token → V)
    (standsFor : Bytes → Option CacheCompatibility → List Token) (sid : SessionId) (r : Router V)
    (x : Except RouterError α) (r' : Router V) : Prop extends SyncedBut feed standsFor sid r' where
  raised : ∃ e, x = .error e ∧ e.isApplication = true
  checkpoints : r'.checkpoints = r.checkpoints
  proxies : r'.proxies = r.proxies
  stale : r'.isStale sid = true

theorem checkpoint_congr {r r' : Router V} (h : r'.checkpoints = r.checkpoints) (sid : SessionId) :
    r'.checkpoint sid = r.checkpoint sid := by
  unfold checkpoint
  rw [h]

theorem history_congr {r r' : Router V} (h : r'.checkpoints = r.checkpoints) (sid : SessionId) :
    r'.history standsFor sid = r.history standsFor sid := by
  unfold history
  rw [checkpoint_congr h]

theorem Ready.refl {sid : SessionId} {r : Router V} (h : SyncedBut feed standsFor sid r) :
    Ready feed standsFor sid r r := ⟨h, rfl, rfl, fun _ _ => .inl rfl, .inl ⟨rfl, rfl⟩⟩

theorem Ready.trans {sid : SessionId} {r r₀ r₁ : Router V} (h : Ready feed standsFor sid r r₀)
    (h' : Ready feed standsFor sid r₀ r₁) : Ready feed standsFor sid r r₁ := by
  refine ⟨h'.toSyncedBut, h'.checkpoints.trans h.checkpoints, h'.proxies.trans h.proxies, fun s hs => ?_, ?_⟩
  · rcases h'.frame s hs with h₁ | h₁
    · rw [h₁]; exact h.frame s hs
    · exact .inr h₁
  · rcases h'.own with ⟨hs, ht⟩ | ⟨ht, hv⟩
    · unfold Rebuilt
      rw [hs, ht]; exact h.own
    · rw [history_congr h.checkpoints, checkpoint_congr h.checkpoints] at hv
      exact .inr ⟨ht, hv⟩

theorem Lost.gone {α : Type} {r r' : Router V} {x : Except RouterError α} (h : Lost r x r') (hb : r.Bounded) :
    Gone r x r' := by
  obtain ⟨e, hx, he, rfl⟩ := h
  exact ⟨⟨e, hx, he⟩, rfl, rfl, rfl, hb⟩

theorem Gone.trans {α : Type} {r r₀ r' : Router V} {x : Except RouterError α} (h : Gone r₀ x r')
    (hc : r₀.checkpoints = r.checkpoints) (hp : r₀.proxies = r.proxies) : Gone r x r' :=
  ⟨h.raised, h.worker, h.checkpoints.trans hc, h.proxies.trans hp, h.bounded⟩

theorem Unrestored.trans {α : Type} {sid : SessionId} {r r₀ r' : Router V} {x : Except RouterError α}
    (h : Unrestored feed standsFor sid r₀ x r') (hc : r₀.checkpoints = r.checkpoints)
    (hp : r₀.proxies = r.proxies) : Unrestored feed standsFor sid r x r' :=
  ⟨h.toSyncedBut, h.raised, h.checkpoints.trans hc, h.proxies.trans hp, h.stale⟩

/-- A session restored in the current generation is not stale. -/
theorem not_isStale_of_restored {r : Router V} {sid : SessionId}
    (h : r.restoredGeneration.get? sid = some r.generation) : r.isStale sid = false := by
  simp [isStale, h]

theorem not_isStale_of_uninitialized {r : Router V} {sid : SessionId}
    (h : (r.checkpoint sid).initialized = false) : r.isStale sid = false := by
  simp [isStale, h]

/-- In a new generation every initialised session is stale. -/
theorem isStale_of_new_generation {r : Router V} {sid : SessionId} (hb : r.Bounded)
    (hi : (r.checkpoint sid).initialized = true) (w : Option (Worker V)) (n : Nat) (st : List StartOutcome) :
    isStale { r with worker := w, generation := r.generation + 1, restartCount := n, starts := st } sid = true := by
  have hne : r.restoredGeneration.get? sid ≠ some (r.generation + 1) := by
    intro hg
    have := hb sid _ hg
    omega
  have hi' : ((r.checkpoints.get? sid).getD {}).initialized = true := hi
  simp [isStale, checkpoint, hi', hne]

/-- A cancel event that is not set in the second attempt is not set in the first. -/
theorem not_cancelledIn_zero {cancelAt : Option Nat} (h : cancelledIn cancelAt 1 = false) :
    cancelledIn cancelAt 0 = false := by
  unfold cancelledIn at h ⊢
  split at h
  · rfl
  · simp only [decide_eq_false_iff_not] at h ⊢
    omega

variable (law : ver.Lawful feed standsFor)

include law

/-- What a restore does to the agreement: it is lost, it is refused and the session stays as stale as it was, or the
session is ready. -/
theorem restoreLocked_ready {sid : SessionId} {r r' : Router V} {x : Except RouterError Unit}
    (hr : SyncedBut feed standsFor sid r) (h : (restoreLocked ver sid).run r = (x, r')) :
    Gone r x r' ∨
      (Refused sid r x r' ∧ SyncedBut feed standsFor sid r' ∧ (r.checkpoint sid).initialized = true) ∨
      (x = .ok () ∧ Ready feed standsFor sid r r' ∧ r'.isStale sid = false) := by
  rcases restoreLocked_cases law h with ⟨rfl, hi, rfl⟩ | ⟨hi, hl | hf | ⟨rfl, ⟨w', hr'⟩, hfr, hv⟩⟩
  · exact .inr (.inr ⟨rfl, .refl hr, not_isStale_of_uninitialized hi⟩)
  · exact .inl (hl.gone hr.bounded)
  · obtain ⟨e, w', hx, he, hr', hfr⟩ := id hf
    exact .inr (.inl ⟨hf, hr.of_frame hr' hfr, hi⟩)
  · have hst : r'.isStale sid = false := by
      apply not_isStale_of_restored
      rw [hr']; simp
    refine .inr (.inr ⟨rfl, ⟨⟨?_, ?_⟩, by rw [hr'], by rw [hr'], fun s hs => .inl (hfr s hs), ?_⟩, hst⟩)
    · intro s g hg
      rw [hr'] at hg ⊢
      dsimp only at hg ⊢
      rw [Dict.get?_set] at hg
      split_ifs at hg
      · exact Nat.le_of_eq (Option.some.inj hg).symm
      · exact hr.bounded s g hg
    · intro s hs hst' v hv'
      rw [hfr s hs] at hv'
      have hst₀ : r.isStale s = false := by
        rw [hr'] at hst'
        simpa [isStale, checkpoint, Dict.get?_set_ne _ hs] using hst'
      rw [hr.others s hs hst₀ v hv', hr']; rfl
    · exact .inr ⟨hst, .inr ⟨hi, hv⟩⟩

/-- The second attempt of a session request. -/
theorem retry_cases {sid : SessionId} {op : SessionOp} {cancelAt : Option Nat} {r r' : Router V}
    {x : Except RouterError Result} (hb : r.Bounded) (h : (retry ver sid op cancelAt).run r = (x, r')) :
    Gone r x r' ∨ Unrestored feed standsFor sid r x r' ∨
      ∃ r₁ reply, Ready feed standsFor sid r r₁ ∧ r₁.isStale sid = false ∧ cancelledIn cancelAt 1 = false ∧
        Served ver sid op r₁ reply r' ∧ x = reply.mapError .ofChild := by
  unfold retry at h
  rw [Proc.run_modify_bind, Proc.run_bind] at h
  rcases hst : (start ver).run { r with restartCount := r.restartCount + 1 } with ⟨y, r₁⟩
  rw [hst] at h
  rcases start_cases ver hst with ⟨e, rfl, he, rfl⟩ | ⟨fate, rfl, rfl⟩
  · obtain ⟨rfl, rfl⟩ := Prod.mk.inj h
    exact .inl ⟨⟨e, rfl, he⟩, rfl, rfl, rfl, hb⟩
  · dsimp only at h
    generalize hr₁ : ({ r with
      worker := some ⟨⟨Dict.empty⟩, fate⟩, generation := r.generation + 1, restartCount := r.restartCount + 1,
      starts := r.starts.tail } : Router V) = r₁ at h
    have hslot : ∀ s, r₁.slot s = none := fun s => by rw [← hr₁]; rfl
    have hc₁ : r₁.checkpoints = r.checkpoints := by rw [← hr₁]
    have hp₁ : r₁.proxies = r.proxies := by rw [← hr₁]
    have hb₁ : r₁.Bounded := by
      intro s g hg
      rw [← hr₁] at hg ⊢
      exact Nat.le_succ_of_le (hb s g hg)
    have hsync : SyncedBut feed standsFor sid r₁ := (synced_of_slots hb₁ hslot).but sid
    rw [Proc.run_bind] at h
    rcases hre : (restoreLocked ver sid).run r₁ with ⟨z, r₂⟩
    rw [hre] at h
    rcases restoreLocked_ready law hsync hre with hg | ⟨⟨e, w', rfl, he, hr₂, hfr⟩, hs₂, hi⟩ | ⟨rfl, hready, hst₂⟩
    · obtain ⟨e, rfl, he⟩ := hg.raised
      obtain ⟨rfl, rfl⟩ := Prod.mk.inj h
      exact .inl ⟨⟨e, rfl, he⟩, hg.worker, hg.checkpoints.trans hc₁, hg.proxies.trans hp₁, hg.bounded⟩
    · obtain ⟨rfl, rfl⟩ := Prod.mk.inj h
      have hstale : r₁.isStale sid = true := by
        rw [checkpoint_congr hc₁] at hi
        rw [← hr₁]
        exact isStale_of_new_generation hb hi _ _ _
      refine .inr (.inl ⟨hs₂, ⟨e, rfl, he⟩, ?_, ?_, ?_⟩)
      · rw [hr₂]; exact hc₁
      · rw [hr₂]; exact hp₁
      · rw [hr₂]; exact hstale
    · dsimp only at h
      have hc₂ := hready.checkpoints.trans hc₁
      have hready' : Ready feed standsFor sid r r₂ := by
        refine ⟨hready.toSyncedBut, hc₂, hready.proxies.trans hp₁, fun s hs => .inr ?_, .inr ⟨hst₂, ?_⟩⟩
        · rcases hready.frame s hs with h₁ | h₁
          · rw [h₁, hslot]
          · exact h₁
        · rcases hready.own with ⟨hs, -⟩ | ⟨-, hv⟩
          · exact .inl (by rw [hs, hslot])
          · rw [history_congr hc₁, checkpoint_congr hc₁] at hv
            exact hv
      rcases sessionRequestLocked_cases ver h with hl | ⟨reply, hserved, hcan, hx⟩
      · exact .inl ((hl.gone hready.bounded).trans hc₂ hready'.proxies)
      · exact .inr (.inr ⟨r₂, reply, hready', hst₂, hcan, hserved, hx⟩)

/-- The attempts of a session request. -/
theorem attempts_cases {sid : SessionId} {op : SessionOp} {cancelAt : Option Nat} {r r' : Router V}
    {x : Except RouterError Result} (hr : SyncedBut feed standsFor sid r)
    (h : (attempts ver sid op cancelAt).run r = (x, r')) :
    Gone r x r' ∨ Unrestored feed standsFor sid r x r' ∨
      ∃ r₁ reply, Ready feed standsFor sid r r₁ ∧ (r₁.isStale sid = true → r.isStale sid = true) ∧
        cancelledIn cancelAt 0 = false ∧ Served ver sid op r₁ reply r' ∧ x = reply.mapError .ofChild := by
  unfold attempts at h
  rw [Proc.run_handle] at h
  rcases hq : (requestLocked ver (.session sid op) (cancelledIn cancelAt 0)).run r with ⟨y, r₁⟩
  rw [hq] at h
  rcases sessionRequestLocked_cases ver hq with ⟨e, rfl, he, rfl⟩ | ⟨reply, hserved, hcan, rfl⟩
  · dsimp only at h
    split at h
    · rename_i m
      rcases retry_cases law (show Bounded ({ r with worker := none } : Router V) from hr.bounded) h with hg | hu | ⟨r₁, reply, hready, hst, hcan, hserved, hx⟩
      · exact .inl (hg.trans rfl rfl)
      · exact .inr (.inl (hu.trans rfl rfl))
      · refine .inr (.inr ⟨r₁, reply, ?_, fun hs => by simp [hst] at hs, not_cancelledIn_zero hcan, hserved, hx⟩)
        refine ⟨hready.toSyncedBut, hready.checkpoints, hready.proxies, fun s hs => .inr ?_, .inr ⟨hst, ?_⟩⟩
        · rcases hready.frame s hs with h₁ | h₁
          · rw [h₁]; rfl
          · exact h₁
        · rcases hready.own with ⟨hs, -⟩ | ⟨-, hv⟩
          · exact .inl (by rw [hs]; rfl)
          · exact hv
    · obtain ⟨rfl, rfl⟩ := Prod.mk.inj h
      exact .inl ⟨⟨_, rfl, he⟩, rfl, rfl, rfl, hr.bounded⟩
  · refine .inr (.inr ⟨r, reply, .refl hr, id, hcan, ?_, ?_⟩)
    · cases reply with
      | ok res =>
        obtain ⟨-, rfl⟩ := Prod.mk.inj h
        exact hserved
      | error e =>
        have ha := ofChild_isApplication e
        simp only [Except.mapError] at h
        split at h
        · rename_i m hm
          rw [hm] at ha
          cases ha
        · obtain ⟨-, rfl⟩ := Prod.mk.inj h
          exact hserved
    · cases reply with
      | ok res => exact (Prod.mk.inj h).1.symm
      | error e =>
        have ha := ofChild_isApplication e
        simp only [Except.mapError] at h ⊢
        split at h
        · rename_i m hm
          rw [hm] at ha
          cases ha
        · exact (Prod.mk.inj h).1.symm

/-- What a session request can do: it ends without a worker, or with the session still to be restored, or the child
served the operation on a session that is ready for it. -/
theorem sessionRequest_cases {sid : SessionId} {op : SessionOp} {cancelAt : Option Nat} {r r' : Router V}
    {x : Except RouterError Result} (hr : SyncedBut feed standsFor sid r)
    (h : (sessionRequest ver sid op cancelAt).run r = (x, r')) :
    Gone r x r' ∨ Unrestored feed standsFor sid r x r' ∨
      ∃ r₁ reply, Ready feed standsFor sid r r₁ ∧ (skipsRestore op = false → r₁.isStale sid = false) ∧
        cancelledIn cancelAt 0 = false ∧ Served ver sid op r₁ reply r' ∧ x = reply.mapError .ofChild := by
  unfold sessionRequest at h
  rw [Proc.run_get_bind, Proc.run_ite] at h
  split_ifs at h with hpre
  · rw [Proc.run_bind] at h
    rcases hre : (restoreLocked ver sid).run r with ⟨z, r₀⟩
    rw [hre] at h
    rcases restoreLocked_ready law hr hre with hg | ⟨⟨e, w', rfl, he, hr₀, -⟩, hs₀, -⟩ | ⟨rfl, hready, hst⟩
    · obtain ⟨e, rfl, he⟩ := hg.raised
      obtain ⟨rfl, rfl⟩ := Prod.mk.inj h
      exact .inl ⟨⟨e, rfl, he⟩, hg.worker, hg.checkpoints, hg.proxies, hg.bounded⟩
    · obtain ⟨rfl, rfl⟩ := Prod.mk.inj h
      exact .inr (.inl ⟨hs₀, ⟨e, rfl, he⟩, by rw [hr₀], by rw [hr₀], by rw [hr₀]; exact hpre.2⟩)
    · rcases attempts_cases law hready.toSyncedBut h with hg | hu | ⟨r₁, reply, h₁, hst₁, hcan, hserved, hx⟩
      · exact .inl (hg.trans hready.checkpoints hready.proxies)
      · exact .inr (.inl (hu.trans hready.checkpoints hready.proxies))
      · refine .inr (.inr ⟨r₁, reply, hready.trans h₁, fun _ => ?_, hcan, hserved, hx⟩)
        by_contra hs
        rw [hst₁ (by simpa using hs)] at hst
        cases hst
  · rcases attempts_cases law hr h with hg | hu | ⟨r₁, reply, h₁, hst₁, hcan, hserved, hx⟩
    · exact .inl hg
    · exact .inr (.inl hu)
    · refine .inr (.inr ⟨r₁, reply, h₁, fun hskip => ?_, hcan, hserved, hx⟩)
      by_contra hs
      exact hpre ⟨hskip, hst₁ (by simpa using hs)⟩

end

end Router

end KakeyaEngine
