import KakeyaEngine.Decode.Recovery

/-!
# Calls of the router keep the agreement

A call that returns has acted on the committed history of its session, and commits exactly its own tokens to it; a call
that raises commits nothing.  The agreement with the child survives the call, unless the child refuses an operation
after it has changed the session: `Atomic` excludes exactly the refusals of that kind.
-/

namespace KakeyaEngine

namespace Call

/-- The session operation a call commits when it returns. -/
def op : Call → Option (SessionId × SessionOp)
  | prefill sid ts _ => some (sid, .init ts)
  | appendAcceptedTokens sid ts _ => some (sid, .append ts)
  | generateStep sid _ => some (sid, .generateStep)
  | importSnapshot sid p c => some (sid, .importSnapshot p (some c))
  | reset sid => some (sid, .init [])
  | _ => none

end Call

namespace SessionOp

/-- The history after an accepted operation on a session with history `h`. -/
def after (standsFor : Bytes → Option CacheCompatibility → List Token) (op : SessionOp) (h : List Token)
    (res : Result) : List Token :=
  match op with
  | init ts => ts
  | append ts => h ++ ts
  | generateStep => h ++ [Router.resultToken res]
  | importSnapshot p c => standsFor p c
  | exportSnapshot _ => h
  | close => []

end SessionOp

/-- The committed token history of every session. -/
abbrev Ledger : Type := SessionId → List Token

/-- What a call that returned `res` commits. -/
def Ledger.commit (standsFor : Bytes → Option CacheCompatibility → List Token) (l : Ledger) (c : Call)
    (res : Option Result) : Ledger :=
  match c with
  | .prefill sid ts _ => Function.update l sid ts
  | .appendAcceptedTokens sid ts _ => Function.update l sid (l sid ++ ts)
  | .generateStep sid _ => Function.update l sid (l sid ++ (res.map Router.resultToken).toList)
  | .importSnapshot sid p c => Function.update l sid (standsFor p (some c))
  | .reset sid => Function.update l sid []
  | .closeSession sid => Function.update l sid []
  | .get _ => l
  | .health => l
  | .hardKill => l

namespace Router

/-! ### The ends of a call -/

section

variable {V : Type} {ver : Verifier V} {feed : List Token → V}
  {standsFor : Bytes → Option CacheCompatibility → List Token}

theorem Gone.synced {α : Type} {r r' : Router V} {x : Except RouterError α} (h : Gone r x r') :
    Synced feed standsFor r' := synced_of_slots h.bounded (slot_of_no_worker h.worker)

theorem Unrestored.synced {α : Type} {sid : SessionId} {r r' : Router V} {x : Except RouterError α}
    (h : Unrestored feed standsFor sid r x r') : Synced feed standsFor r' := by
  refine ⟨h.bounded, fun s => ?_⟩
  by_cases hs : s = sid
  · subst hs
    intro hst
    rw [h.stale] at hst
    cases hst
  · exact h.others s hs

@[simp] theorem slot_publish (r : Router V) (sid s : SessionId) (cp : ProofCheckpoint) (marks : Bool)
    (res : Result) : (r.publish sid cp marks res).slot s = r.slot s := rfl

@[simp] theorem checkpoint_publish (r : Router V) (sid s : SessionId) (cp : ProofCheckpoint) (marks : Bool)
    (res : Result) : (r.publish sid cp marks res).checkpoint s = if s = sid then cp else r.checkpoint s := by
  unfold publish checkpoint
  rw [Dict.get?_set]
  split <;> rfl

theorem isStale_publish_ne {r : Router V} {sid s : SessionId} (cp : ProofCheckpoint) (marks : Bool)
    (res : Result) (h : s ≠ sid) : (r.publish sid cp marks res).isStale s = r.isStale s := by
  unfold isStale
  rw [checkpoint_publish, if_neg h]
  cases marks <;> simp [publish, Dict.get?_set_ne _ h]

theorem bounded_publish {r : Router V} (hb : r.Bounded) (sid : SessionId) (cp : ProofCheckpoint) (marks : Bool)
    (res : Result) : (r.publish sid cp marks res).Bounded := by
  intro s g hg
  cases marks with
  | false => exact hb s g hg
  | true =>
    have hg' : (r.restoredGeneration.set sid r.generation).get? s = some g := hg
    rw [Dict.get?_set] at hg'
    split_ifs at hg'
    · exact Nat.le_of_eq (Option.some.inj hg').symm
    · exact hb s g hg'

/-- A checkpoint is published in agreement when the child's session was fed the history it stands for. -/
theorem publish_synced {sid : SessionId} {r : Router V} (cp : ProofCheckpoint) (marks : Bool) (res : Result)
    (h : SyncedBut feed standsFor sid r) (hslot : r.slot sid = some (feed (cp.history standsFor))) :
    Synced feed standsFor (r.publish sid cp marks res) := by
  refine ⟨bounded_publish h.bounded sid cp marks res, fun s hst v hv => ?_⟩
  unfold history
  rw [checkpoint_publish]
  rw [slot_publish] at hv
  by_cases hs : s = sid
  · subst hs
    rw [hslot] at hv
    rw [if_pos rfl]
    exact (Option.some.inj hv).symm
  · rw [isStale_publish_ne cp marks res hs] at hst
    rw [if_neg hs]
    exact h.others s hs hst v hv

theorem history_publish (r : Router V) (sid s : SessionId) (cp : ProofCheckpoint) (marks : Bool) (res : Result) :
    (r.publish sid cp marks res).history standsFor s =
      if s = sid then cp.history standsFor else r.history standsFor s := by
  unfold history
  rw [checkpoint_publish]
  split <;> rfl

/-- A ready session that does not wait for a restore is unknown to the child or was fed the committed history. -/
theorem Ready.slot_cases {sid : SessionId} {r r₁ : Router V} (h : Ready feed standsFor sid r r₁)
    (hr : r.SyncedAt feed standsFor sid) (hst : r₁.isStale sid = false) :
    ∀ v, r₁.slot sid = some v → v = feed (r.history standsFor sid) := by
  rcases h.own with ⟨hs, ht⟩ | ⟨-, hn | ⟨-, hv⟩⟩
  · rw [hs]
    rw [ht] at hst
    exact hr hst
  · rw [hn]
    nofun
  · rw [hv]
    intro v hv'
    exact (Option.some.inj hv').symm

end

/-- The child, refusing the operation on one of the given slots, leaves the session fed `h`. -/
def Spares {V : Type} (ver : Verifier V) (feed : List Token → V) (sid : SessionId) (op : SessionOp)
    (slots : List (Option V)) (h : List Token) : Prop :=
  ∀ slot ∈ slots, ∀ e v, serveSession ver sid op slot = (.error e, some v) → v = feed h

/-- The child does not refuse the call's operation after it has changed the session: on the committed history, as on
a session it does not hold, it accepts the operation or leaves the committed history.  An import, which initialises the
session first, must also not be refused by the empty session. -/
def Atomic {V : Type} (ver : Verifier V) (feed : List Token → V)
    (standsFor : Bytes → Option CacheCompatibility → List Token) (r : Router V) : RouterEvent → Prop
  | .call (.importSnapshot sid p c) =>
    Spares ver feed sid (.init []) [none, some (feed (r.history standsFor sid))] (r.history standsFor sid) ∧
      Spares ver feed sid (.importSnapshot p (some c)) [some (feed []), some (feed (r.history standsFor sid))]
        (r.history standsFor sid)
  | .call c =>
    ∀ sid op, c.op = some (sid, op) →
      Spares ver feed sid op [none, some (feed (r.history standsFor sid))] (r.history standsFor sid)
  | .turn _ => True

/-- What a returned call of a session operation did: the child executed the operation on the committed history, and
the session was left fed the history that is now committed. -/
def ActedOn {V : Type} (ver : Verifier V) (feed : List Token → V)
    (standsFor : Bytes → Option CacheCompatibility → List Token) (r : Router V) (sid : SessionId) (op : SessionOp)
    (res : Option Result) (r' : Router V) : Prop :=
  ∃ result, res = some result ∧
    serveSession ver sid op (some (feed (r.history standsFor sid))) =
      (.ok result, some (feed (r'.history standsFor sid))) ∧
    r'.slot sid = some (feed (r'.history standsFor sid))

section

variable {V : Type} {ver : Verifier V} {feed : List Token → V}
  {standsFor : Bytes → Option CacheCompatibility → List Token}

/-- A refusal that spares the session keeps the agreement. -/
theorem refused_synced {sid : SessionId} {op : SessionOp} {r r₁ r' : Router V} {e : ChildError}
    (hready : Ready feed standsFor sid r r₁) (hserved : Served ver sid op r₁ (.error e) r')
    (hspare : r₁.isStale sid = false → ∀ v, r'.slot sid = some v → v = feed (r.history standsFor sid)) :
    Synced feed standsFor r' := by
  have hbut := hserved.syncedBut hready.toSyncedBut
  refine ⟨hbut.bounded, fun s => ?_⟩
  by_cases hs : s = sid
  · subst hs
    intro hst v hv
    rw [hserved.isStale_eq] at hst
    rw [history_congr (hserved.checkpoints_eq.trans hready.checkpoints)]
    exact hspare hst v hv
  · exact hbut.others s hs

/-- A ready session and a sparing operation: a refusal leaves the committed history. -/
theorem Spares.after {sid : SessionId} {op : SessionOp} {r₁ r' : Router V} {e : ChildError} {h : List Token}
    (hsp : Spares ver feed sid op [none, some (feed h)] h) (hserved : Served ver sid op r₁ (.error e) r')
    (hslot : ∀ v, r₁.slot sid = some v → v = feed h) : ∀ v, r'.slot sid = some v → v = feed h := by
  intro v hv
  have hs := hserved.serves
  rw [hv] at hs
  refine hsp (r₁.slot sid) ?_ e v hs
  cases hc : r₁.slot sid with
  | none => simp
  | some u => simp [hslot u hc]

theorem checkpoint_of_get? {r : Router V} {sid : SessionId} {cp : ProofCheckpoint}
    (h : r.checkpoints.get? sid = some cp) : r.checkpoint sid = cp := by
  simp [checkpoint, h]

variable (law : ver.Lawful feed standsFor)

include law

/-- What an operation of one request can do. -/
theorem commitRequest_cases {sid : SessionId} {op : SessionOp} {cancelAt : Option Nat} {marks : Bool}
    {commit : ProofCheckpoint → Result → ProofCheckpoint} {r r' : Router V} {x : Except RouterError Result}
    (hr : Synced feed standsFor r) (h : (commitRequest ver sid op cancelAt commit marks).run r = (x, r')) :
    (∃ e, x = .error e ∧ e.isApplication = false ∧ r' = r) ∨ Gone r x r' ∨ Unrestored feed standsFor sid r x r' ∨
      ∃ r₁, Ready feed standsFor sid r r₁ ∧ (skipsRestore op = false → r₁.isStale sid = false) ∧
        ((∃ e, Served ver sid op r₁ (.error e) r' ∧ x = .error (.ofChild e)) ∨
          ∃ r₂ res, Served ver sid op r₁ (.ok res) r₂ ∧ x = .ok res ∧ (r.checkpoints.get? sid).isSome ∧
            cancelledIn cancelAt 0 = false ∧
            r' = r₂.publish sid (commit (r.checkpoint sid) res) marks res) := by
  unfold commitRequest checkpointLocked at h
  cases hcp : r.checkpoints.get? sid with
  | none =>
    rw [Proc.run_bind, Proc.run_get_bind, hcp] at h
    obtain ⟨rfl, rfl⟩ := Prod.mk.inj h
    exact .inl ⟨_, rfl, rfl, rfl⟩
  | some cp =>
    rw [Proc.run_bind, Proc.run_get_bind, hcp] at h
    simp only [Proc.run_pure] at h
    rw [Proc.run_bind] at h
    rcases hq : (sessionRequest ver sid op cancelAt).run r with ⟨y, r₂⟩
    rw [hq] at h
    rcases sessionRequest_cases law (hr.but sid) hq with hg | hu | ⟨r₁, reply, hready, hst, hcan, hserved, rfl⟩
    · obtain ⟨e, rfl, he⟩ := hg.raised
      obtain ⟨rfl, rfl⟩ := Prod.mk.inj h
      exact .inr (.inl ⟨⟨e, rfl, he⟩, hg.worker, hg.checkpoints, hg.proxies, hg.bounded⟩)
    · obtain ⟨e, rfl, he⟩ := hu.raised
      obtain ⟨rfl, rfl⟩ := Prod.mk.inj h
      exact .inr (.inr (.inl ⟨hu.toSyncedBut, ⟨e, rfl, he⟩, hu.checkpoints, hu.proxies, hu.stale⟩))
    · refine .inr (.inr (.inr ⟨r₁, hready, hst, ?_⟩))
      cases reply with
      | error e =>
        obtain ⟨rfl, rfl⟩ := Prod.mk.inj h
        exact .inl ⟨e, hserved, rfl⟩
      | ok res =>
        obtain ⟨rfl, rfl⟩ := Prod.mk.inj h
        refine .inr ⟨r₂, res, hserved, rfl, rfl, hcan, ?_⟩
        rw [checkpoint_of_get? hcp]

omit law in
/-- An accepted `Init` is accepted with the same reply on every slot. -/
theorem serve_init_any {sid : SessionId} {ts : List Token} {slot slot' : Option V} {res : Result}
    (h : serveSession ver sid (.init ts) slot = (.ok res, slot')) (u : Option V) :
    serveSession ver sid (.init ts) u = (.ok res, slot') := by
  obtain ⟨hsid, hd⟩ := serveSession_ok h
  rw [← h]
  simp only [dispatchSession, hsid, if_false, initSlot] at hd
  simp only [serveSession, dispatchSession, hsid, if_false, initSlot]
  split at hd
  · cases (Prod.mk.inj hd).1
  · rfl

/-- An accepted operation that commits was executed on the committed history, if the session it was sent to was fed
that history or the operation replaces the session. -/
theorem serve_after {sid : SessionId} {c : Call} {op : SessionOp} {h : List Token} {slot slot' : Option V}
    {res : Result} (hop : c.op = some (sid, op))
    (hslot : skipsRestore op = false → ∀ v, slot = some v → v = feed h)
    (hs : serveSession ver sid op slot = (.ok res, slot')) :
    slot' = some (feed (op.after standsFor h res)) ∧
      serveSession ver sid op (some (feed h)) = (.ok res, slot') := by
  cases op with
  | init ts => exact ⟨serve_init law hs, serve_init_any hs _⟩
  | append ts =>
    obtain ⟨h₁, h₂⟩ := serve_append law (hslot rfl) hs
    rw [h₁] at hs
    exact ⟨h₂, hs⟩
  | generateStep =>
    obtain ⟨h₁, -, h₂⟩ := serve_generate law (hslot rfl) hs
    rw [h₁] at hs
    exact ⟨h₂, hs⟩
  | importSnapshot p c =>
    obtain ⟨h₁, h₂⟩ := serve_import law hs
    exact ⟨h₁, h₂ _⟩
  | exportSnapshot _ => cases c <;> simp [Call.op] at hop
  | close => cases c <;> simp [Call.op] at hop

/-- An operation of one request keeps the agreement; it commits when it returns, and only then. -/
theorem commitRequest_keeps {sid : SessionId} {c : Call} {op : SessionOp} {cancelAt : Option Nat} {marks : Bool}
    {commit : ProofCheckpoint → Result → ProofCheckpoint} {r r' : Router V} {x : Except RouterError Result}
    (hop : c.op = some (sid, op))
    (hcommit : ∀ cp res, (commit cp res).history standsFor = op.after standsFor (cp.history standsFor) res)
    (hr : Synced feed standsFor r) (h : (commitRequest ver sid op cancelAt commit marks).run r = (x, r')) :
    (((∃ e, x = .error e ∧ e.isApplication = true) →
        Spares ver feed sid op [none, some (feed (r.history standsFor sid))] (r.history standsFor sid)) →
      Synced feed standsFor r') ∧ (∀ e, x = .error e → r'.checkpoints = r.checkpoints) ∧
      ∀ res, x = .ok res →
        serveSession ver sid op (some (feed (r.history standsFor sid))) =
          (.ok res, some (feed (op.after standsFor (r.history standsFor sid) res))) ∧
        r'.slot sid = some (feed (op.after standsFor (r.history standsFor sid) res)) ∧
        ∀ s, r'.history standsFor s =
          if s = sid then op.after standsFor (r.history standsFor sid) res else r.history standsFor s := by
  rcases commitRequest_cases law hr h with ⟨e, rfl, -, rfl⟩ | hg | hu | ⟨r₁, hready, hst, hrest⟩
  · exact ⟨fun _ => hr, fun _ _ => rfl, nofun⟩
  · obtain ⟨e, rfl, -⟩ := hg.raised
    exact ⟨fun _ => hg.synced, fun _ _ => hg.checkpoints, nofun⟩
  · obtain ⟨e, rfl, -⟩ := hu.raised
    exact ⟨fun _ => hu.synced, fun _ _ => hu.checkpoints, nofun⟩
  · rcases hrest with ⟨e, hserved, rfl⟩ | ⟨r₂, res, hserved, rfl, -, -, rfl⟩
    · refine ⟨fun hat => refused_synced hready hserved fun hst' => ?_, fun _ _ => ?_, nofun⟩
      · have hsp := hat ⟨_, rfl, ofChild_isApplication e⟩
        exact hsp.after hserved (hready.slot_cases (hr.agrees sid) hst')
      · exact hserved.checkpoints_eq.trans hready.checkpoints
    · have hslot : skipsRestore op = false → ∀ v, r₁.slot sid = some v → v = feed (r.history standsFor sid) :=
        fun hskip => hready.slot_cases (hr.agrees sid) (hst hskip)
      obtain ⟨h₁, h₂⟩ := serve_after law hop hslot hserved.serves
      have hcp : (commit (r.checkpoint sid) res).history standsFor =
          op.after standsFor (r.history standsFor sid) res := hcommit _ _
      have hsync : Synced feed standsFor (r₂.publish sid (commit (r.checkpoint sid) res) marks res) :=
        publish_synced _ marks res (hserved.syncedBut hready.toSyncedBut) (by rw [h₁, hcp])
      refine ⟨fun _ => hsync, nofun, fun res' hx => ?_⟩
      obtain rfl := Except.ok.inj hx
      refine ⟨by rw [h₂, h₁], by rw [slot_publish, h₁], fun s => ?_⟩
      rw [history_publish, hcp, history_congr (hserved.checkpoints_eq.trans hready.checkpoints)]

/-- What an import can do: its first request initialises the session, its second one imports the snapshot. -/
theorem importSnapshot_cases {sid : SessionId} {p : Bytes} {c : CacheCompatibility} {r r' : Router V}
    {x : Except RouterError Result} (hr : Synced feed standsFor r)
    (h : (importSnapshot ver sid p c).run r = (x, r')) :
    (∃ e, x = .error e ∧ e.isApplication = false ∧ r' = r) ∨ Gone r x r' ∨ Unrestored feed standsFor sid r x r' ∨
      (∃ r₁ e, Ready feed standsFor sid r r₁ ∧ Served ver sid (.init []) r₁ (.error e) r' ∧
        x = .error (.ofChild e)) ∨
      ∃ r₁ res₁ r₂ r₃, Ready feed standsFor sid r r₁ ∧ Served ver sid (.init []) r₁ (.ok res₁) r₂ ∧
        Ready feed standsFor sid r₂ r₃ ∧
        ((∃ e, Served ver sid (.importSnapshot p (some c)) r₃ (.error e) r' ∧ x = .error (.ofChild e)) ∨
          ∃ r₄ res, Served ver sid (.importSnapshot p (some c)) r₃ (.ok res) r₄ ∧ x = .ok res ∧
            (r.checkpoints.get? sid).isSome ∧
            r' = r₄.publish sid ⟨some p, some c, [], true⟩ true res) := by
  unfold importSnapshot checkpointLocked at h
  cases hcp : r.checkpoints.get? sid with
  | none =>
    rw [Proc.run_bind, Proc.run_get_bind, hcp] at h
    obtain ⟨rfl, rfl⟩ := Prod.mk.inj h
    exact .inl ⟨_, rfl, rfl, rfl⟩
  | some cp =>
    rw [Proc.run_bind, Proc.run_get_bind, hcp] at h
    simp only [Proc.run_pure] at h
    rw [Proc.run_bind] at h
    rcases hq : (sessionRequest ver sid (.init []) none).run r with ⟨y, r₂⟩
    rw [hq] at h
    rcases sessionRequest_cases law (hr.but sid) hq with hg | hu | ⟨r₁, reply, hready, -, -, hserved, rfl⟩
    · obtain ⟨e, rfl, he⟩ := hg.raised
      obtain ⟨rfl, rfl⟩ := Prod.mk.inj h
      exact .inr (.inl ⟨⟨e, rfl, he⟩, hg.worker, hg.checkpoints, hg.proxies, hg.bounded⟩)
    · obtain ⟨e, rfl, he⟩ := hu.raised
      obtain ⟨rfl, rfl⟩ := Prod.mk.inj h
      exact .inr (.inr (.inl ⟨hu.toSyncedBut, ⟨e, rfl, he⟩, hu.checkpoints, hu.proxies, hu.stale⟩))
    have hc₂ : r₂.checkpoints = r.checkpoints := hserved.checkpoints_eq.trans hready.checkpoints
    have hp₂ : r₂.proxies = r.proxies := hserved.proxies_eq.trans hready.proxies
    cases reply with
    | error e =>
      obtain ⟨rfl, rfl⟩ := Prod.mk.inj h
      exact .inr (.inr (.inr (.inl ⟨r₁, e, hready, hserved, rfl⟩)))
    | ok res₁ =>
      simp only [Except.mapError] at h
      rw [Proc.run_bind] at h
      rcases hq' : (sessionRequest ver sid (.importSnapshot p (some c)) none).run r₂ with ⟨z, r₄⟩
      rw [hq'] at h
      have hbut₂ := hserved.syncedBut hready.toSyncedBut
      rcases sessionRequest_cases law hbut₂ hq' with hg | hu | ⟨r₃, reply', hready', -, -, hserved', rfl⟩
      · obtain ⟨e, rfl, he⟩ := hg.raised
        obtain ⟨rfl, rfl⟩ := Prod.mk.inj h
        exact .inr (.inl (Gone.trans ⟨⟨e, rfl, he⟩, hg.worker, hg.checkpoints, hg.proxies, hg.bounded⟩ hc₂ hp₂))
      · obtain ⟨e, rfl, he⟩ := hu.raised
        obtain ⟨rfl, rfl⟩ := Prod.mk.inj h
        exact .inr (.inr (.inl
          (Unrestored.trans ⟨hu.toSyncedBut, ⟨e, rfl, he⟩, hu.checkpoints, hu.proxies, hu.stale⟩ hc₂ hp₂)))
      · refine .inr (.inr (.inr (.inr ⟨r₁, res₁, r₂, r₃, hready, hserved, hready', ?_⟩)))
        cases reply' with
        | error e =>
          obtain ⟨rfl, rfl⟩ := Prod.mk.inj h
          exact .inl ⟨e, hserved', rfl⟩
        | ok res =>
          obtain ⟨rfl, rfl⟩ := Prod.mk.inj h
          exact .inr ⟨r₄, res, hserved', rfl, rfl, rfl⟩

/-- An import keeps the agreement in the same way. -/
theorem importSnapshot_keeps {sid : SessionId} {p : Bytes} {c : CacheCompatibility} {r r' : Router V}
    {x : Except RouterError Result} (hr : Synced feed standsFor r)
    (h : (importSnapshot ver sid p c).run r = (x, r')) :
    (((∃ e, x = .error e ∧ e.isApplication = true) →
        Atomic ver feed standsFor r (.call (.importSnapshot sid p c))) → Synced feed standsFor r') ∧ (∀ e, x = .error e → r'.checkpoints = r.checkpoints) ∧
      ∀ res, x = .ok res →
        serveSession ver sid (.importSnapshot p (some c)) (some (feed (r.history standsFor sid))) =
          (.ok res, some (feed (standsFor p (some c)))) ∧
        r'.slot sid = some (feed (standsFor p (some c))) ∧
        ∀ s, r'.history standsFor s = if s = sid then standsFor p (some c) else r.history standsFor s := by
  rcases importSnapshot_cases law hr h with ⟨e, rfl, -, rfl⟩ | hg | hu | ⟨r₁, e, hready, hserved, rfl⟩ |
    ⟨r₁, res₁, r₂, r₃, hready, hserved, hready', hrest⟩
  · exact ⟨fun _ => hr, fun _ _ => rfl, nofun⟩
  · obtain ⟨e, rfl, -⟩ := hg.raised
    exact ⟨fun _ => hg.synced, fun _ _ => hg.checkpoints, nofun⟩
  · obtain ⟨e, rfl, -⟩ := hu.raised
    exact ⟨fun _ => hu.synced, fun _ _ => hu.checkpoints, nofun⟩
  · refine ⟨fun hat => refused_synced hready hserved fun hst => ?_, fun _ _ => ?_, nofun⟩
    · have hsp := (hat ⟨_, rfl, ofChild_isApplication e⟩).1
      exact hsp.after hserved (hready.slot_cases (hr.agrees sid) hst)
    · exact hserved.checkpoints_eq.trans hready.checkpoints
  -- from here on the child has held an empty session, while the router still has the old checkpoint
  have hslot₂ : r₂.slot sid = some (feed []) := serve_init law hserved.serves
  have hc₂ : r₂.checkpoints = r.checkpoints := hserved.checkpoints_eq.trans hready.checkpoints
  rcases hrest with ⟨e, hserved', rfl⟩ | ⟨r₄, res, hserved', rfl, -, rfl⟩
  · refine ⟨fun hat => refused_synced hready' hserved' fun _ v hv => ?_, fun _ _ => ?_, nofun⟩
    · have hsp := (hat ⟨_, rfl, ofChild_isApplication e⟩).2
      rw [history_congr hc₂]
      have hs := hserved'.serves
      rw [hv] at hs
      cases hslot₃ : r₃.slot sid with
      | none =>
        rw [hslot₃, serve_unknown rfl] at hs
        cases (Prod.mk.inj hs).2
      | some u =>
        rw [hslot₃] at hs
        refine hsp (some u) ?_ e v hs
        rcases hready'.own with ⟨h₃, -⟩ | ⟨-, h₃ | ⟨-, h₃⟩⟩
        · rw [h₃, hslot₂] at hslot₃
          simp [← Option.some.inj hslot₃]
        · rw [h₃] at hslot₃
          cases hslot₃
        · rw [h₃, history_congr hc₂] at hslot₃
          simp [← Option.some.inj hslot₃]
    · exact (hserved'.checkpoints_eq.trans hready'.checkpoints).trans hc₂
  · obtain ⟨h₁, h₂⟩ := serve_import law hserved'.serves
    have hc₄ : r₄.checkpoints = r.checkpoints :=
      (hserved'.checkpoints_eq.trans hready'.checkpoints).trans hc₂
    have hsync := publish_synced ⟨some p, some c, [], true⟩ true res (hserved'.syncedBut hready'.toSyncedBut)
      (by rw [h₁, ProofCheckpoint.history_some rfl, List.append_nil])
    refine ⟨fun _ => hsync, nofun, fun res' hx => ?_⟩
    obtain rfl := Except.ok.inj hx
    refine ⟨by rw [h₂, h₁], by rw [slot_publish, h₁], fun s => ?_⟩
    rw [history_publish, ProofCheckpoint.history_some rfl, List.append_nil, history_congr hc₄]

omit law in
theorem closed_fits (b : Bool) : (Result.closed b).fits = true := by
  cases b <;> decide +kernel

omit law in
/-- A close drops the session, or is refused for want of a session id. -/
theorem serve_close {sid : SessionId} {slot slot' : Option V} {reply : Except ChildError Result}
    (h : serveSession ver sid .close slot = (reply, slot')) :
    (slot' = none ∧ ∃ res, reply = .ok res) ∨ (slot' = slot ∧ ∃ e, reply = .error e ∧ e.errorType = "ValueError") := by
  unfold serveSession dispatchSession at h
  by_cases hsid : sid = ""
  · simp only [hsid, if_true] at h
    obtain ⟨rfl, rfl⟩ := Prod.mk.inj h
    exact .inr ⟨rfl, _, rfl, rfl⟩
  · simp only [hsid, if_false, closed_fits, if_true] at h
    obtain ⟨rfl, rfl⟩ := Prod.mk.inj h
    exact .inl ⟨rfl, _, rfl⟩

omit law in
/-- Dropping a session the child does not hold keeps the agreement. -/
theorem forget_synced {sid : SessionId} {r : Router V} (h : SyncedBut feed standsFor sid r)
    (hslot : r.slot sid = none) : Synced feed standsFor (r.forget sid) := by
  refine ⟨fun s g hg => ?_, fun s hst v hv => ?_⟩
  · have hg' : (r.restoredGeneration.erase sid).get? s = some g := hg
    rw [Dict.get?_erase] at hg'
    split_ifs at hg'
    exact h.bounded s g hg'
  · have hv' : r.slot s = some v := hv
    have hs : s ≠ sid := by
      rintro rfl
      rw [hslot] at hv'
      cases hv'
    have hcp : (r.forget sid).checkpoint s = r.checkpoint s := by
      simp [forget, checkpoint, Dict.get?_erase_ne hs]
    have hst' : r.isStale s = false := by
      have hre : (r.forget sid).restoredGeneration.get? s = r.restoredGeneration.get? s := Dict.get?_erase_ne hs
      unfold isStale at hst ⊢
      rw [hcp, hre] at hst
      exact hst
    rw [h.others s hs hst' v hv']
    unfold history
    rw [hcp]

omit law in
theorem history_forget (r : Router V) (sid s : SessionId) :
    (r.forget sid).history standsFor s = if s = sid then [] else r.history standsFor s := by
  unfold history checkpoint forget
  rw [Dict.get?_erase]
  split <;> rfl

omit law in
/-- What closing a session can do: the session is forgotten when the request was lost or served; a refusal for want of
a session id is raised. -/
theorem closeSession_cases {sid : SessionId} {r r' : Router V} {x : Except RouterError Unit}
    (h : (closeSession ver sid).run r = (x, r')) :
    Lost r x r' ∨ (∃ e, Served ver sid .close r (.error e) r' ∧ x = .error (.ofChild e)) ∨
      (x = .ok () ∧ ∃ r₁, r' = r₁.forget sid ∧
        (r₁ = { r with worker := none } ∨ ∃ res, Served ver sid .close r (.ok res) r₁)) := by
  unfold closeSession at h
  rw [Proc.run_bind, Proc.run_handle] at h
  rcases hq : (requestLocked ver (.session sid .close) false >>= fun _ => pure ()).run r with ⟨y, r₁⟩
  rw [hq] at h
  rcases requestLocked_bind_cases hq with ⟨e, rfl, he, rfl⟩ | ⟨e, hs, rfl⟩ | ⟨res, r₂, hs, hk⟩
  · cases e with
    | valueError m => cases he
    | remote t m => cases he
    | cancelled m =>
      obtain ⟨rfl, rfl⟩ := Prod.mk.inj h
      exact .inl ⟨_, rfl, rfl, rfl⟩
    | unavailable m =>
      obtain ⟨rfl, rfl⟩ := Prod.mk.inj h
      exact .inr (.inr ⟨rfl, _, rfl, .inl rfl⟩)
    | sessionClosed m =>
      obtain ⟨rfl, rfl⟩ := Prod.mk.inj h
      exact .inr (.inr ⟨rfl, _, rfl, .inl rfl⟩)
  · have hve : e.errorType = "ValueError" := by
      rcases serve_close hs.serves with ⟨-, res, he⟩ | ⟨-, e', he, ht⟩
      · cases he
      · rw [Except.error.inj he]; exact ht
    have hof : RouterError.ofChild e = .valueError e.message := by rw [RouterError.ofChild, if_pos hve]
    rw [hof] at h
    obtain ⟨rfl, rfl⟩ := Prod.mk.inj h
    exact .inr (.inl ⟨e, hs, by rw [hof]⟩)
  · obtain ⟨rfl, rfl⟩ := Prod.mk.inj hk
    obtain ⟨rfl, rfl⟩ := Prod.mk.inj h
    exact .inr (.inr ⟨rfl, r₂, rfl, .inr ⟨res, hs⟩⟩)

omit law in
theorem Served.close_slot {sid : SessionId} {r r' : Router V} {res : Result}
    (hs : Served ver sid .close r (.ok res) r') : r'.slot sid = none := by
  rcases serve_close hs.serves with ⟨hn, -⟩ | ⟨-, e, he, -⟩
  · exact hn
  · cases he

omit law in
/-- Closing a session keeps the agreement. -/
theorem closeSession_keeps {sid : SessionId} {r r' : Router V} {x : Except RouterError Unit}
    (hr : Synced feed standsFor r) (h : (closeSession ver sid).run r = (x, r')) :
    Synced feed standsFor r' ∧ (∀ e, x = .error e → r'.checkpoints = r.checkpoints) ∧
      (x = .ok () → ∀ s, r'.history standsFor s = if s = sid then [] else r.history standsFor s) := by
  have hsync : Synced feed standsFor ({ r with worker := none } : Router V) :=
    synced_of_slots hr.bounded fun _ => rfl
  rcases closeSession_cases h with ⟨e, rfl, -, rfl⟩ | ⟨e, hs, rfl⟩ | ⟨rfl, r₁, rfl, rfl | ⟨res, hs⟩⟩
  · exact ⟨hsync, fun _ _ => rfl, nofun⟩
  · refine ⟨refused_synced (.refl (hr.but sid)) hs fun hst v hv => ?_, fun _ _ => hs.checkpoints_eq, nofun⟩
    rcases serve_close hs.serves with ⟨hn, -⟩ | ⟨hn, -⟩
    · rw [hn] at hv
      cases hv
    · rw [hn] at hv
      exact hr.agrees sid hst v hv
  · exact ⟨forget_synced (hsync.but sid) rfl, nofun, fun _ s => history_forget _ sid s⟩
  · refine ⟨forget_synced (hs.syncedBut (hr.but sid)) hs.close_slot, nofun, fun _ s => ?_⟩
    rw [history_forget, history_congr hs.checkpoints_eq]

omit law in
theorem checkpoint_get (r : Router V) (sid s : SessionId) :
    ((Router.get sid).run r).2.checkpoint s = r.checkpoint s := by
  unfold Router.get checkpoint
  rw [Proc.run_modify]
  split
  · rfl
  · dsimp only
    split_ifs with hc
    · rfl
    · have hn : r.checkpoints.get? sid = none := by simpa [Dict.contains] using hc
      rw [Dict.get?_set]
      split_ifs with hs
      · rw [hs, hn]; rfl
      · rfl

omit law in
theorem get_frame (r : Router V) (sid : SessionId) :
    ((Router.get sid).run r).2.restoredGeneration = r.restoredGeneration ∧
      ((Router.get sid).run r).2.generation = r.generation ∧ ((Router.get sid).run r).2.worker = r.worker := by
  unfold Router.get
  rw [Proc.run_modify]
  split <;> exact ⟨rfl, rfl, rfl⟩

omit law in
theorem get_synced {sid : SessionId} {r : Router V} (hr : Synced feed standsFor r) :
    Synced feed standsFor ((Router.get sid).run r).2 := by
  have hcp := checkpoint_get r sid
  obtain ⟨hre, hge, hw⟩ := get_frame r sid
  refine ⟨fun s g hg => ?_, fun s hst v hv => ?_⟩
  · rw [hre] at hg
    rw [hge]
    exact hr.bounded s g hg
  · have hst' : r.isStale s = false := by
      unfold isStale at hst ⊢
      rw [hcp, hre, hge] at hst
      exact hst
    have hv' : r.slot s = some v := by
      unfold slot at hv ⊢
      rw [hw] at hv
      exact hv
    rw [hr.agrees s hst' v hv']
    unfold history
    rw [hcp]

omit law in
/-- A change of the worker that leaves the child's sessions keeps the agreement. -/
theorem worker_synced {r : Router V} (hr : Synced feed standsFor r) (w : Option (Worker V))
    (hs : ∀ s, ({ r with worker := w } : Router V).slot s = r.slot s ∨
      ({ r with worker := w } : Router V).slot s = none) :
    Synced feed standsFor ({ r with worker := w } : Router V) := by
  refine ⟨hr.bounded, fun s hst v hv => ?_⟩
  rcases hs s with h | h
  · rw [h] at hv
    exact hr.agrees s hst v hv
  · rw [h] at hv
    cases hv

omit law in
theorem health_synced {r r' : Router V} {x : Except RouterError Result} (hr : Synced feed standsFor r)
    (h : (requestLocked ver .health false).run r = (x, r')) :
    Synced feed standsFor r' ∧ r'.checkpoints = r.checkpoints := by
  rcases requestLocked_cases ver h with ⟨e, -, -, rfl⟩ | ⟨w, w', reply, hw, -, -, hs, -, rfl⟩
  · exact ⟨worker_synced hr none fun _ => .inr rfl, rfl⟩
  · have hrt : w.runtime = w'.runtime := congrArg Prod.snd hs
    refine ⟨worker_synced hr (some w') fun s => .inl ?_, rfl⟩
    simp [slot, hw, hrt]

/-! ### A step -/

/-- What every call keeps and does. -/
structure CallKeeps (ver : Verifier V) (feed : List Token → V)
    (standsFor : Bytes → Option CacheCompatibility → List Token) (r : Router V) (c : Call)
    (x : Except RouterError (Option Result)) (r' : Router V) : Prop where
  synced : ((∃ e, x = .error e ∧ e.isApplication = true) → Atomic ver feed standsFor r (.call c)) →
    Synced feed standsFor r'
  raised : ∀ e, x = .error e → r'.history standsFor = r.history standsFor
  commits : ∀ res, x = .ok res → r'.history standsFor = Ledger.commit standsFor (r.history standsFor) c res
  acted : ∀ res sid op, x = .ok res → c.op = some (sid, op) → ActedOn ver feed standsFor r sid op res r'

omit law in
/-- A session operation keeps what its procedure keeps. -/
theorem CallKeeps.of_op {r r' : Router V} {c : Call} {sid : SessionId} {op : SessionOp}
    {y : Except RouterError Result} (hop : c.op = some (sid, op))
    (hcommit : ∀ res, Ledger.commit standsFor (r.history standsFor) c (some res) =
      Function.update (r.history standsFor) sid (op.after standsFor (r.history standsFor sid) res))
    (h : (((∃ e, y = .error e ∧ e.isApplication = true) → Atomic ver feed standsFor r (.call c)) →
        Synced feed standsFor r') ∧ (∀ e, y = .error e → r'.checkpoints = r.checkpoints) ∧
      ∀ res, y = .ok res →
        serveSession ver sid op (some (feed (r.history standsFor sid))) =
          (.ok res, some (feed (op.after standsFor (r.history standsFor sid) res))) ∧
        r'.slot sid = some (feed (op.after standsFor (r.history standsFor sid) res)) ∧
        ∀ s, r'.history standsFor s =
          if s = sid then op.after standsFor (r.history standsFor sid) res else r.history standsFor s) :
    CallKeeps ver feed standsFor r c (y.map some) r' := by
  obtain ⟨hsync, herr, hok⟩ := h
  cases y with
  | error e =>
    refine ⟨fun hat => hsync fun ⟨e', he, ha⟩ => hat ⟨e', by rw [Except.error.inj he]; rfl, ha⟩, ?_, nofun, nofun⟩
    intro _ _
    funext s
    exact history_congr (herr e rfl) s
  | ok res =>
    obtain ⟨hserve, hslot, hhist⟩ := hok res rfl
    have hafter : r'.history standsFor sid = op.after standsFor (r.history standsFor sid) res := by
      rw [hhist, if_pos rfl]
    refine ⟨fun _ => hsync nofun, nofun, ?_, ?_⟩
    · intro res' hx
      obtain rfl : some res = res' := Except.ok.inj hx
      rw [hcommit]
      funext s
      rw [hhist, Function.update_apply]
    · intro res' sid' op' hx hop'
      obtain rfl : some res = res' := Except.ok.inj hx
      obtain ⟨rfl, rfl⟩ := Prod.mk.inj (Option.some.inj (hop.symm.trans hop'))
      refine ⟨res, rfl, ?_, ?_⟩
      · rw [hafter]; exact hserve
      · rw [hafter]; exact hslot

/-- The step lemma: every call keeps the agreement, unless the child refused an operation after it changed the
session; it commits its tokens when it returns, and nothing when it raises. -/
theorem perform_keeps {r r' : Router V} {c : Call} {x : Except RouterError (Option Result)}
    (hr : Synced feed standsFor r) (h : (perform ver c).run r = (x, r')) :
    CallKeeps ver feed standsFor r c x r' := by
  cases c with
  | prefill sid ts k =>
    rw [perform, Proc.run_map] at h
    rcases hq : (prefill ver sid ts k).run r with ⟨y, r₁⟩
    rw [hq] at h
    obtain ⟨rfl, rfl⟩ := Prod.mk.inj h
    have hk := commitRequest_keeps law (c := .prefill sid ts k) rfl (by intro _ _; rfl) hr hq
    exact .of_op rfl (fun _ => rfl) ⟨fun hat => hk.1 fun he => hat he sid _ rfl, hk.2⟩
  | appendAcceptedTokens sid ts k =>
    rw [perform, Proc.run_map] at h
    rcases hq : (appendAcceptedTokens ver sid ts k).run r with ⟨y, r₁⟩
    rw [hq] at h
    obtain ⟨rfl, rfl⟩ := Prod.mk.inj h
    have hk := commitRequest_keeps law (c := .appendAcceptedTokens sid ts k) rfl
      (fun cp _ => cp.history_append standsFor ts) hr hq
    exact .of_op rfl (fun _ => rfl) ⟨fun hat => hk.1 fun he => hat he sid _ rfl, hk.2⟩
  | generateStep sid k =>
    rw [perform, Proc.run_map] at h
    rcases hq : (generateStep ver sid k).run r with ⟨y, r₁⟩
    rw [hq] at h
    obtain ⟨rfl, rfl⟩ := Prod.mk.inj h
    have hk := commitRequest_keeps law (c := .generateStep sid k) rfl
      (fun cp res => cp.history_append standsFor [resultToken res]) hr hq
    exact .of_op rfl (fun _ => rfl) ⟨fun hat => hk.1 fun he => hat he sid _ rfl, hk.2⟩
  | reset sid =>
    rw [perform, Proc.run_map] at h
    rcases hq : (reset ver sid).run r with ⟨y, r₁⟩
    rw [hq] at h
    obtain ⟨rfl, rfl⟩ := Prod.mk.inj h
    have hk := commitRequest_keeps law (c := .reset sid) rfl (by intro _ _; rfl) hr hq
    exact .of_op rfl (fun _ => rfl) ⟨fun hat => hk.1 fun he => hat he sid _ rfl, hk.2⟩
  | importSnapshot sid p c =>
    rw [perform, Proc.run_map] at h
    rcases hq : (importSnapshot ver sid p c).run r with ⟨y, r₁⟩
    rw [hq] at h
    obtain ⟨rfl, rfl⟩ := Prod.mk.inj h
    exact .of_op rfl (fun _ => rfl) (importSnapshot_keeps law hr hq)
  | closeSession sid =>
    rw [perform, Proc.run_map] at h
    rcases hq : (closeSession ver sid).run r with ⟨y, r₁⟩
    rw [hq] at h
    obtain ⟨rfl, rfl⟩ := Prod.mk.inj h
    obtain ⟨hsync, herr, hok⟩ := closeSession_keeps hr hq
    refine ⟨fun _ => hsync, ?_, ?_, by simp [Call.op]⟩
    · intro e he
      cases y with
      | error e' => funext s; exact history_congr (herr e' rfl) s
      | ok u => cases he
    · intro res hx
      cases y with
      | error e' => cases hx
      | ok u =>
        funext s
        rw [hok rfl s, Ledger.commit, Function.update_apply]
  | get sid =>
    rw [perform, Proc.run_map] at h
    obtain ⟨rfl, rfl⟩ := Prod.mk.inj h
    refine ⟨fun _ => get_synced hr, nofun, ?_, by simp [Call.op]⟩
    intro _ _
    funext s
    unfold history
    rw [checkpoint_get]
    rfl
  | health =>
    rw [perform, Proc.run_map] at h
    rcases hq : (requestLocked ver .health false).run r with ⟨y, r₁⟩
    rw [hq] at h
    obtain ⟨rfl, rfl⟩ := Prod.mk.inj h
    obtain ⟨hsync, hc⟩ := health_synced hr hq
    have hh : r₁.history standsFor = r.history standsFor := by funext s; exact history_congr hc s
    exact ⟨fun _ => hsync, fun _ _ => hh, fun _ _ => hh, by simp [Call.op]⟩
  | hardKill =>
    rw [perform, Proc.run_map] at h
    obtain ⟨rfl, rfl⟩ := Prod.mk.inj h
    exact ⟨fun _ => worker_synced hr none fun _ => .inr rfl, nofun, fun _ _ => rfl, by simp [Call.op]⟩

/-- A step of a run keeps the agreement. -/
theorem step_synced {r : Router V} {ev : RouterEvent} (hr : Synced feed standsFor r)
    (hat : (∃ e, (step ver r ev).1 = some (.error e) ∧ e.isApplication = true) → Atomic ver feed standsFor r ev) :
    Synced feed standsFor (step ver r ev).2 := by
  cases ev with
  | call c =>
    rcases hq : (perform ver c).run r with ⟨x, r'⟩
    have hk := perform_keeps law hr hq
    simp only [step, hq] at hat ⊢
    exact hk.synced fun ⟨e, he, ha⟩ => hat ⟨e, congrArg some he, ha⟩
  | turn fate =>
    refine worker_synced hr _ fun s => .inl ?_
    simp only [slot]
    cases r.worker <;> rfl

omit law in
theorem launched_synced (starts : List StartOutcome) : Synced feed standsFor (launched starts) := by
  refine synced_of_slots ?_ fun _ => rfl
  intro s g hg
  cases hg

end

end Router

end KakeyaEngine
