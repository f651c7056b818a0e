import KakeyaEngine.Decode.Agreement

/-!
# Runs of the router

`agreement_of_atomic` is about runs with application errors, `recovery_exactly_once` about runs in which the worker may
fail at every point and the child refuses nothing: such a run has, call by call, the replies and the histories of a
run without any failure.
-/

namespace KakeyaEngine

namespace Router

variable {V : Type} {ver : Verifier V} {feed : List Token → V}
  {standsFor : Bytes → Option CacheCompatibility → List Token}

/-! ### Application errors -/

/-- In a run whose calls are all atomic, every later call that returns has acted on the committed history, and a call
that raises leaves every history as it was. -/
theorem agreement_of_atomic (law : ver.Lawful feed standsFor) (starts : List StartOutcome) (es : List RouterEvent)
    (hat : Machine.AllSteps (step ver) (Atomic ver feed standsFor) (launched starts) es) :
    let r := Machine.final (step ver) (launched starts) es
    ∀ c x r', (perform ver c).run r = (x, r') →
      (∀ e, x = .error e → r'.history standsFor = r.history standsFor) ∧
      (∀ res, x = .ok res → r'.history standsFor = Ledger.commit standsFor (r.history standsFor) c res ∧
        ∀ sid op, c.op = some (sid, op) → ActedOn ver feed standsFor r sid op res r') := by
  have hsync : Synced feed standsFor (Machine.final (step ver) (launched starts) es) :=
    Machine.final_of_steps (fun r ev hr ha => step_synced law hr fun _ => ha) (launched_synced starts) hat
  intro r c x r' h
  have hk := perform_keeps law hsync h
  exact ⟨hk.raised, fun res hx => ⟨hk.commits res hx, fun sid op hop => hk.acted res sid op hx hop⟩⟩

/-- A verifier that records the tokens it consumed.  A snapshot is a non-empty list of tokens. -/
def tokenVerifier : Verifier (List Token) where
  spawn := .ok []
  reset := fun _ => []
  prefill := fun v ts => (none, v ++ ts)
  appendAcceptedTokens := fun v ts => (none, v ++ ts)
  greedyNextTokenId := fun v => .ok v.length
  logitsSha256 := fun _ => .ok ""
  importSnapshot := none
  importPrefillSnapshot := fun v p _ =>
    if p = [] then (.error ⟨"ValueError", "invalid prefill snapshot"⟩, v)
    else (.ok (p.length, ""), v ++ p.map fun b => (b.toNat : Token))
  exportSnapshot := fun v _ => .ok (v.map fun t => UInt8.ofNat t.toNat)
  state := fun v => ⟨v, v.length, v.length, 0⟩

/-- The tokens of a snapshot of `tokenVerifier`. -/
def snapshotTokens (p : Bytes) (_ : Option CacheCompatibility) : List Token := p.map fun b => (b.toNat : Token)

theorem tokenVerifier_lawful : tokenVerifier.Lawful id snapshotTokens where
  spawn v h := by simpa [tokenVerifier] using h.symm
  prefill ts v h := by simpa [tokenVerifier] using h.symm
  append h ts v hv := by simpa [tokenVerifier] using hv.symm
  imports u p c res v h := by
    by_cases hp : p = []
    · simp [Verifier.runImport, tokenVerifier, hp] at h
    · simp only [Verifier.runImport, tokenVerifier, hp, if_false, List.nil_append, Prod.mk.injEq] at h ⊢
      obtain ⟨h₁, rfl⟩ := h
      exact ⟨rfl, fun _ => ⟨h₁, rfl⟩⟩

/-- The compatibility of the snapshots in the examples. -/
def demoCompatibility : CacheCompatibility := { modelId := "m" }

/-- A prefilled session whose import of a snapshot was refused. -/
def refusedImport : List RouterEvent :=
  [.call (.get "s"), .call (.prefill "s" [1, 2, 3] none), .call (.importSnapshot "s" [] demoCompatibility)]

/-- After a refused import the next append acts on the empty session, although the router still has the history of
the prefill. -/
theorem refused_import_diverges :
    (Machine.outputs (step tokenVerifier) (launched []) refusedImport).getLast? =
        some (some (.error (.valueError "invalid prefill snapshot"))) ∧
      ¬ ∀ c res r' sid op,
        (perform tokenVerifier c).run (Machine.final (step tokenVerifier) (launched []) refusedImport) = (.ok res, r') →
        c.op = some (sid, op) →
        ActedOn tokenVerifier id snapshotTokens (Machine.final (step tokenVerifier) (launched []) refusedImport) sid op
          res r' := by
  refine ⟨by decide +kernel, fun h => ?_⟩
  generalize hr : Machine.final (step tokenVerifier) (launched []) refusedImport = r at h
  have hx : ((perform tokenVerifier (.appendAcceptedTokens "s" [4] none)).run r).1 =
      .ok (some (.state ⟨[4], 1, 1, 0⟩)) := by
    rw [← hr]
    decide +kernel
  obtain ⟨result, -, -, hslot⟩ := h (.appendAcceptedTokens "s" [4] none) _ _ "s" (.append [4])
    (Prod.ext hx rfl) rfl
  rw [← hr] at hslot
  revert hslot
  decide +kernel

/-- A prefilled session that refused an empty append. -/
def refusedAppend : List RouterEvent :=
  [.call (.get "s"), .call (.prefill "s" [1, 2, 3] none), .call (.appendAcceptedTokens "s" [] none)]

/-- A refused empty append changes nothing, and the append that follows acts on the history of the prefill. -/
theorem append_after_refused_append :
    ∃ res r', (perform tokenVerifier (.appendAcceptedTokens "s" [4] none)).run
        (Machine.final (step tokenVerifier) (launched []) refusedAppend) = (.ok res, r') ∧
      ActedOn tokenVerifier id snapshotTokens (Machine.final (step tokenVerifier) (launched []) refusedAppend) "s"
        (.append [4]) res r' := by
  have hat : Machine.AllSteps (step tokenVerifier) (Atomic tokenVerifier id snapshotTokens) (launched [])
      refusedAppend := by
    refine ⟨by simp [Atomic, Call.op], ?_, ?_, trivial⟩
    · intro sid op hop slot hs e v h
      obtain ⟨rfl, rfl⟩ := Prod.mk.inj (Option.some.inj hop)
      have hinit : serveSession tokenVerifier "s" (.init [1, 2, 3]) none =
          (.ok (.state ⟨[1, 2, 3], 3, 3, 0⟩), some [1, 2, 3]) := by decide +kernel
      rw [serve_init_any hinit slot] at h
      cases (Prod.mk.inj h).1
    · intro sid op hop slot hs e v h
      obtain ⟨rfl, rfl⟩ := Prod.mk.inj (Option.some.inj hop)
      rcases List.mem_pair.1 hs with rfl | rfl
      · rw [serve_unknown rfl] at h
        cases (Prod.mk.inj h).2
      · exact (Option.some.inj (Prod.mk.inj h).2).symm
  generalize hr : Machine.final (step tokenVerifier) (launched []) refusedAppend = r
  have hx : ((perform tokenVerifier (.appendAcceptedTokens "s" [4] none)).run r).1 =
      .ok (some (.state ⟨[1, 2, 3, 4], 4, 4, 0⟩)) := by
    rw [← hr]
    decide +kernel
  have hall := agreement_of_atomic tokenVerifier_lawful [] refusedAppend hat
  rw [hr] at hall
  exact ⟨_, _, Prod.ext hx rfl, ((hall _ _ _ (Prod.ext hx rfl)).2 _ rfl).2 "s" (.append [4]) rfl⟩

/-! ### Requests to a worker that does not fail -/

/-- A worker that does not fail is connected. -/
def Healthy (q : Router V) : Prop := ∀ n, q.Lasts n

theorem requestLocked_healthy {q : Router V} {sid : SessionId} {op : SessionOp} {res : Result} {slot' : Option V}
    (hh : q.Healthy) (hfit : (Request.session sid op).fits = true)
    (hs : serveSession ver sid op (q.slot sid) = (.ok res, slot')) :
    ∃ q', (requestLocked ver (.session sid op) false).run q = (.ok res, q') ∧ Served ver sid op q (.ok res) q' ∧
      q'.Healthy := by
  obtain ⟨q', hrun, hserved, hl⟩ := requestLocked_answered ver (hh 1) hfit hs
  exact ⟨q', hrun, hserved, fun n => (hl n).1 (hh (n + 1))⟩

theorem sessionRequest_healthy {q : Router V} {sid : SessionId} {op : SessionOp} (cancelAt : Option Nat)
    {res : Result} {slot' : Option V} (hh : q.Healthy) (hst : q.isStale sid = false)
    (hcan : cancelledIn cancelAt 0 = false) (hfit : (Request.session sid op).fits = true)
    (hs : serveSession ver sid op (q.slot sid) = (.ok res, slot')) :
    ∃ q', (sessionRequest ver sid op cancelAt).run q = (.ok res, q') ∧ Served ver sid op q (.ok res) q' ∧
      q'.Healthy := by
  obtain ⟨q', hrun, hserved, hh'⟩ := requestLocked_healthy hh hfit hs
  refine ⟨q', ?_, hserved, hh'⟩
  unfold sessionRequest attempts
  rw [Proc.run_get_bind, Proc.run_ite, if_neg (by simp [hst]), Proc.run_handle, hcan, hrun]

theorem commitRequest_healthy {q : Router V} {sid : SessionId} {op : SessionOp} {cancelAt : Option Nat}
    (commit : ProofCheckpoint → Result → ProofCheckpoint) (marks : Bool) {res : Result} {slot' : Option V}
    (hh : q.Healthy) (hst : q.isStale sid = false) (hopen : (q.checkpoints.get? sid).isSome)
    (hcan : cancelledIn cancelAt 0 = false) (hfit : (Request.session sid op).fits = true)
    (hs : serveSession ver sid op (q.slot sid) = (.ok res, slot')) :
    ∃ q', (commitRequest ver sid op cancelAt commit marks).run q =
        (.ok res, q'.publish sid (commit (q.checkpoint sid) res) marks res) ∧
      Served ver sid op q (.ok res) q' ∧ q'.Healthy := by
  obtain ⟨q', hrun, hserved, hh'⟩ := sessionRequest_healthy cancelAt hh hst hcan hfit hs
  obtain ⟨cp, hcp⟩ := Option.isSome_iff_exists.1 hopen
  refine ⟨q', ?_, hserved, hh'⟩
  unfold commitRequest checkpointLocked
  rw [Proc.run_bind, Proc.run_get_bind, hcp]
  simp only [Proc.run_pure]
  rw [Proc.run_bind, hrun, checkpoint_of_get? hcp]
  rfl

theorem importSnapshot_healthy {q : Router V} {sid : SessionId} {p : Bytes} {c : CacheCompatibility}
    {res₁ res : Result} {slot₁ slot' : Option V} (hh : q.Healthy) (hst : q.isStale sid = false)
    (hopen : (q.checkpoints.get? sid).isSome) (hfit₁ : (Request.session sid (.init [])).fits = true)
    (hs₁ : serveSession ver sid (.init []) (q.slot sid) = (.ok res₁, slot₁))
    (hfit : (Request.session sid (.importSnapshot p (some c))).fits = true)
    (hs : serveSession ver sid (.importSnapshot p (some c)) slot₁ = (.ok res, slot')) :
    ∃ q₁ q', (importSnapshot ver sid p c).run q =
        (.ok res, q'.publish sid ⟨some p, some c, [], true⟩ true res) ∧
      Served ver sid (.init []) q (.ok res₁) q₁ ∧ Served ver sid (.importSnapshot p (some c)) q₁ (.ok res) q' ∧
      q'.Healthy := by
  obtain ⟨q₁, hrun₁, hserved₁, hh₁⟩ := sessionRequest_healthy none hh hst rfl hfit₁ hs₁
  have hslot₁ : q₁.slot sid = slot₁ := by
    have := hserved₁.serves
    rw [hs₁] at this
    exact (Prod.mk.inj this).2.symm
  rw [← hslot₁] at hs
  have hst₁ : q₁.isStale sid = false := by rw [hserved₁.isStale_eq]; exact hst
  obtain ⟨q', hrun, hserved, hh'⟩ := sessionRequest_healthy none hh₁ hst₁ rfl hfit hs
  obtain ⟨cp, hcp⟩ := Option.isSome_iff_exists.1 hopen
  refine ⟨q₁, q', ?_, hserved₁, hserved, hh'⟩
  unfold importSnapshot checkpointLocked
  rw [Proc.run_bind, Proc.run_get_bind, hcp]
  simp only [Proc.run_pure]
  rw [Proc.run_bind, hrun₁]
  dsimp only
  rw [Proc.run_bind, hrun]
  rfl

/-! ### The run without failures -/

/-- A session id that no request of the child can name: it is empty, or it does not fit into a frame. -/
def Unnamed (sid : SessionId) : Prop := sid = "" ∨ (Request.session sid .close).fits = false

instance (sid : SessionId) : Decidable (Unnamed sid) := inferInstanceAs (Decidable (_ ∨ _))

/-- The calls that a run without failures repeats.  Kills and health reports are left out, and the closing of a
session that no request can name, which would end the worker or be refused. -/
def replays : Call → Bool
  | .closeSession sid => decide (¬ Unnamed sid)
  | .health => false
  | .hardKill => false
  | _ => true

/-- The calls of a run that returned, to be repeated without failures. -/
def returned (ver : Verifier V) (r : Router V) : List RouterEvent → List Call
  | [] => []
  | ev :: es =>
    match ev, (step ver r ev).1 with
    | .call c, some (.ok _) =>
      if replays c then c :: returned ver (step ver r ev).2 es else returned ver (step ver r ev).2 es
    | _, _ => returned ver (step ver r ev).2 es

/-- The router after the given calls, with workers that never fail. -/
def replay (ver : Verifier V) (cs : List Call) : Router V :=
  Machine.final (step ver) (launched []) (cs.map .call)

/-- `q` has seen the calls that returned in the run of `r`, and no failure: every session that was initialised is
current in its worker. -/
structure Mirrors (feed : List Token → V) (standsFor : Bytes → Option CacheCompatibility → List Token)
    (r q : Router V) : Prop where
  synced : Synced feed standsFor r
  quiet : ∀ s, (r.checkpoint s).initialized = false → r.slot s = none
  unnamed : ∀ s, Unnamed s → r.checkpoint s = {}
  same : ∀ s, q.checkpoint s = r.checkpoint s
  opened : ∀ s, (r.checkpoints.get? s).isSome → (q.checkpoints.get? s).isSome
  registered : ∀ s, (q.proxies.get? s).isSome → (q.checkpoints.get? s).isSome
  healthy : q.Healthy
  current : ∀ s, (q.checkpoint s).initialized = true →
    q.restoredGeneration.get? s = some q.generation ∧ q.slot s = some (feed (q.history standsFor s))

theorem Mirrors.not_isStale {r q : Router V} (h : Mirrors feed standsFor r q) (s : SessionId) :
    q.isStale s = false := by
  cases hi : (q.checkpoint s).initialized with
  | false => exact not_isStale_of_uninitialized hi
  | true => exact not_isStale_of_restored (h.current s hi).1

/-- The child of a session that is ready for a request holds it only when it was initialised. -/
theorem Mirrors.initialized {r q r₁ : Router V} {sid : SessionId} {v : V} (h : Mirrors feed standsFor r q)
    (hready : Ready feed standsFor sid r r₁) (hv : r₁.slot sid = some v) :
    (r.checkpoint sid).initialized = true := by
  rcases hready.own with ⟨hs, -⟩ | ⟨-, hs | ⟨hi, -⟩⟩
  · by_contra hn
    rw [hs, h.quiet sid (by simpa using hn)] at hv
    cases hv
  · rw [hs] at hv
    cases hv
  · exact hi

theorem checkpoints_publish_isSome {r : Router V} {sid s : SessionId} {cp : ProofCheckpoint} {marks : Bool}
    {res : Result} : ((r.publish sid cp marks res).checkpoints.get? s).isSome ↔
      s = sid ∨ (r.checkpoints.get? s).isSome := by
  unfold publish
  rw [Dict.get?_set]
  split_ifs with hs
  · simp [hs]
  · simp [hs]

theorem proxies_publish_isSome {r : Router V} {sid s : SessionId} {cp : ProofCheckpoint} {marks : Bool}
    {res : Result} (h : ((r.publish sid cp marks res).proxies.get? s).isSome) : (r.proxies.get? s).isSome := by
  have h' : ((r.applyState sid res).get? s).isSome := h
  unfold applyState at h'
  split at h'
  · rename_i st px _ hpx
    rw [Dict.get?_set] at h'
    split_ifs at h' with hs
    · rw [hs, hpx]; rfl
    · exact h'
  · exact h'

/-- Both routers publish the same checkpoint. -/
theorem Mirrors.publish {r q r₂ q₂ : Router V} {sid : SessionId} {cp : ProofCheckpoint} {marks : Bool}
    {res : Result} (h : Mirrors feed standsFor r q)
    (hsync : Synced feed standsFor (r₂.publish sid cp marks res)) (hsid : ¬ Unnamed sid)
    (hi : cp.initialized = true) (hmarks : marks = true ∨ (q.checkpoint sid).initialized = true)
    (hc : r₂.checkpoints = r.checkpoints) (hf : ∀ s, s ≠ sid → r₂.slot s = r.slot s ∨ r₂.slot s = none)
    (hq : ∃ w, q₂ = { q with worker := some w }) (hh : q₂.Healthy)
    (hfq : ∀ s, s ≠ sid → q₂.slot s = q.slot s) (hslot : q₂.slot sid = some (feed (cp.history standsFor))) :
    Mirrors feed standsFor (r₂.publish sid cp marks res) (q₂.publish sid cp marks res) := by
  have hcq : q₂.checkpoints = q.checkpoints := by obtain ⟨w, rfl⟩ := hq; rfl
  refine ⟨hsync, ?_, ?_, ?_, ?_, ?_, ?_, ?_⟩
  · intro s hn
    rw [checkpoint_publish] at hn
    rw [slot_publish]
    split_ifs at hn with hs
    · rw [hi] at hn
      cases hn
    · rw [checkpoint_congr hc] at hn
      rcases hf s hs with h₁ | h₁
      · rw [h₁, h.quiet s hn]
      · exact h₁
  · intro s hs
    rw [checkpoint_publish, if_neg (by rintro rfl; exact hsid hs), checkpoint_congr hc]
    exact h.unnamed s hs
  · intro s
    rw [checkpoint_publish, checkpoint_publish, checkpoint_congr hc, checkpoint_congr hcq, h.same]
  · intro s hs
    rw [checkpoints_publish_isSome] at hs ⊢
    rw [hc] at hs
    rw [hcq]
    exact hs.imp_right (h.opened s)
  · intro s hs
    have hp := proxies_publish_isSome hs
    rw [checkpoints_publish_isSome, hcq]
    obtain ⟨w, rfl⟩ := hq
    exact .inr (h.registered s hp)
  · exact hh
  · intro s hin
    rw [checkpoint_publish] at hin
    rw [slot_publish, history_publish]
    have hre : (q₂.publish sid cp marks res).restoredGeneration =
        if marks then q.restoredGeneration.set sid q.generation else q.restoredGeneration := by
      obtain ⟨w, rfl⟩ := hq; rfl
    have hge : (q₂.publish sid cp marks res).generation = q.generation := by obtain ⟨w, rfl⟩ := hq; rfl
    rw [hre, hge]
    by_cases hs : s = sid
    · rw [if_pos hs, hs, hslot]
      refine ⟨?_, rfl⟩
      split_ifs with hm
      · exact Dict.get?_set_self _ _ _
      · exact (h.current sid (hmarks.resolve_left hm)).1
    · rw [if_neg hs, checkpoint_congr hcq] at hin
      rw [if_neg hs, hfq s hs, history_congr hcq]
      refine ⟨?_, (h.current s hin).2⟩
      split_ifs
      · rw [Dict.get?_set_ne _ hs]
        exact (h.current s hin).1
      · exact (h.current s hin).1

section

variable (law : ver.Lawful feed standsFor)

include law

/-- A session operation of one request that returned has the same reply in the run without failures. -/
theorem Mirrors.commitRequest {r r' q : Router V} {c : Call} {sid : SessionId} {op : SessionOp}
    {cancelAt : Option Nat} {commit : ProofCheckpoint → Result → ProofCheckpoint} {marks : Bool} {res : Result}
    (h : Mirrors feed standsFor r q) (hop : c.op = some (sid, op))
    (hcommit : ∀ cp res, (commit cp res).history standsFor = op.after standsFor (cp.history standsFor) res)
    (hinit : ∀ cp res, (commit cp res).initialized = (skipsRestore op || cp.initialized))
    (hmarks : marks = skipsRestore op) (hneeds : op.needsSession = !skipsRestore op)
    (hrun : (commitRequest ver sid op cancelAt commit marks).run r = (.ok res, r')) :
    ∃ q', (Router.commitRequest ver sid op cancelAt commit marks).run q = (.ok res, q') ∧
      Mirrors feed standsFor r' q' := by
  have hsync := (commitRequest_keeps law hop hcommit h.synced hrun).1 nofun
  rcases commitRequest_cases law h.synced hrun with ⟨e, he, -⟩ | hg | hu | ⟨r₁, hready, hst, ⟨e, -, he⟩ | hok⟩
  · cases he
  · obtain ⟨e, he, -⟩ := hg.raised
    cases he
  · obtain ⟨e, he, -⟩ := hu.raised
    cases he
  · cases he
  obtain ⟨r₂, res', hserved, hx, hopen, hcan, hr'⟩ := hok
  obtain rfl := Except.ok.inj hx
  have hslot : skipsRestore op = false → ∀ v, r₁.slot sid = some v → v = feed (r.history standsFor sid) :=
    fun hskip => hready.slot_cases (h.synced.agrees sid) (hst hskip)
  obtain ⟨h₁, h₂⟩ := serve_after law hop hslot hserved.serves
  have hsid : ¬ Unnamed sid := by
    rintro (hs | hs)
    · exact (serveSession_ok hserved.serves).1 hs
    · rw [Request.close_fits hserved.fits] at hs
      cases hs
  have hheld : skipsRestore op = false → (r.checkpoint sid).initialized = true := by
    intro hskip
    cases hc : r₁.slot sid with
    | none =>
      have hs := hserved.serves
      rw [hc, serve_unknown (by rw [hneeds, hskip]; rfl)] at hs
      cases (Prod.mk.inj hs).1
    | some v => exact h.initialized hready hc
  have hserve : serveSession ver sid op (q.slot sid) = (.ok res, r₂.slot sid) := by
    cases hskip : skipsRestore op with
    | true =>
      cases op with
      | init ts => exact serve_init_any hserved.serves _
      | importSnapshot p c => cases hneeds
      | close => cases c <;> simp [Call.op] at hop
      | exportSnapshot c => cases hskip
      | append ts => cases hskip
      | generateStep => cases hskip
    | false =>
      have hi : (q.checkpoint sid).initialized = true := by rw [h.same]; exact hheld hskip
      have hq : q.history standsFor sid = r.history standsFor sid := by unfold history; rw [h.same]
      rw [(h.current sid hi).2, hq]
      exact h₂
  obtain ⟨q₂, hq, hservedq, hh⟩ := commitRequest_healthy commit marks h.healthy
    (h.not_isStale sid) (h.opened sid hopen) hcan hserved.fits hserve
  refine ⟨_, hq, ?_⟩
  rw [h.same]
  subst hr'
  have hcp : (commit (r.checkpoint sid) res).history standsFor =
      op.after standsFor (r.history standsFor sid) res := hcommit _ _
  refine h.publish hsync hsid ?_ ?_ ?_ ?_ hservedq.books hh hservedq.frame ?_
  · rw [hinit]
    cases hskip : skipsRestore op with
    | true => rfl
    | false => exact hheld hskip
  · rw [hmarks, h.same]
    cases hskip : skipsRestore op with
    | true => exact .inl rfl
    | false => exact .inr (hheld hskip)
  · exact hserved.checkpoints_eq.trans hready.checkpoints
  · intro s hs
    rw [hserved.frame s hs]
    exact hready.frame s hs
  · have hs := hservedq.serves
    rw [hserve] at hs
    rw [← (Prod.mk.inj hs).2, h₁, hcp]

theorem Mirrors.importSnapshot {r r' q : Router V} {sid : SessionId} {p : Bytes} {c : CacheCompatibility}
    {res : Result} (h : Mirrors feed standsFor r q)
    (hrun : (importSnapshot ver sid p c).run r = (.ok res, r')) :
    ∃ q', (Router.importSnapshot ver sid p c).run q = (.ok res, q') ∧ Mirrors feed standsFor r' q' := by
  have hsync := (importSnapshot_keeps law h.synced hrun).1 nofun
  rcases importSnapshot_cases law h.synced hrun with ⟨e, he, -⟩ | hg | hu | ⟨r₁, e, -, -, he⟩ |
    ⟨r₁, res₁, r₂, r₃, hready, hserved, hready', ⟨e, -, he⟩ | ⟨r₄, res', hserved', hx, hopen, hr'⟩⟩
  · cases he
  · obtain ⟨e, he, -⟩ := hg.raised
    cases he
  · obtain ⟨e, he, -⟩ := hu.raised
    cases he
  · cases he
  · cases he
  obtain rfl := Except.ok.inj hx
  have hsid : ¬ Unnamed sid := by
    rintro (hs | hs)
    · exact (serveSession_ok hserved.serves).1 hs
    · rw [Request.close_fits hserved.fits] at hs
      cases hs
  have hslot₂ := serve_init law hserved.serves
  obtain ⟨h₁, h₂⟩ := serve_import law hserved'.serves
  have hinit := serve_init_any hserved.serves (q.slot sid)
  have himp : serveSession ver sid (.importSnapshot p (some c)) (r₂.slot sid) = (.ok res, r₄.slot sid) := by
    rw [hslot₂]
    exact h₂ _
  obtain ⟨q₁, q₂, hq, hserved₁, hserved₂, hh⟩ := importSnapshot_healthy h.healthy (h.not_isStale sid)
    (h.opened sid hopen) hserved.fits hinit hserved'.fits himp
  refine ⟨_, hq, ?_⟩
  subst hr'
  have hcp : (⟨some p, some c, [], true⟩ : ProofCheckpoint).history standsFor = standsFor p (some c) := by
    rw [ProofCheckpoint.history_some rfl, List.append_nil]
  have hbooks : ∃ w, q₂ = { q with worker := some w } := by
    obtain ⟨w₁, rfl⟩ := hserved₁.books
    exact hserved₂.books
  refine h.publish hsync hsid rfl (.inl rfl) ?_ ?_ hbooks hh ?_ ?_
  · exact ((hserved'.checkpoints_eq.trans hready'.checkpoints).trans hserved.checkpoints_eq).trans
      hready.checkpoints
  · intro s hs
    rw [hserved'.frame s hs]
    rcases hready'.frame s hs with h₃ | h₃
    · rw [h₃, hserved.frame s hs]
      exact hready.frame s hs
    · exact .inr h₃
  · intro s hs
    rw [hserved₂.frame s hs, hserved₁.frame s hs]
  · have hs₁ : r₂.slot sid = q₁.slot sid := by
      have hs := hserved₁.serves
      rw [hinit] at hs
      exact (Prod.mk.inj hs).2
    have hs := hserved₂.serves
    rw [← hs₁, himp] at hs
    rw [← (Prod.mk.inj hs).2, h₁, hcp]

end

/-- A step that commits nothing, and after which the child holds no session it did not hold before. -/
theorem Mirrors.of_frame {r r' q : Router V} (h : Mirrors feed standsFor r q) (hsync : Synced feed standsFor r')
    (hc : r'.checkpoints = r.checkpoints) (hf : ∀ s, r'.slot s = r.slot s ∨ r'.slot s = none) :
    Mirrors feed standsFor r' q := by
  refine ⟨hsync, ?_, ?_, ?_, ?_, h.registered, h.healthy, h.current⟩
  · intro s hn
    rw [checkpoint_congr hc] at hn
    rcases hf s with h₁ | h₁
    · rw [h₁, h.quiet s hn]
    · exact h₁
  · intro s hs
    rw [checkpoint_congr hc]
    exact h.unnamed s hs
  · intro s
    rw [checkpoint_congr hc, h.same]
  · intro s hs
    rw [hc] at hs
    exact h.opened s hs

theorem Mirrors.gone {α : Type} {r r' q : Router V} {x : Except RouterError α} (h : Mirrors feed standsFor r q)
    (hg : Gone r x r') : Mirrors feed standsFor r' q :=
  h.of_frame hg.synced hg.checkpoints fun s => .inr (slot_of_no_worker hg.worker s)

theorem Mirrors.lost {α : Type} {r r' q : Router V} {x : Except RouterError α} (h : Mirrors feed standsFor r q)
    (hl : Lost r x r') : Mirrors feed standsFor r' q := h.gone (hl.gone h.synced.bounded)

theorem Mirrors.get {r q : Router V} (h : Mirrors feed standsFor r q) (sid : SessionId) :
    Mirrors feed standsFor ((Router.get sid).run r).2 ((Router.get sid).run q).2 := by
  obtain ⟨hre, hge, hw⟩ := get_frame q sid
  obtain ⟨-, -, hwr⟩ := get_frame r sid
  have hopen : ∀ s, (((Router.get sid).run q).2.checkpoints.get? s).isSome ↔
      s = sid ∨ (q.checkpoints.get? s).isSome := by
    intro s
    unfold Router.get
    rw [Proc.run_modify]
    split
    · rename_i px hpx
      have hreg := h.registered sid (by rw [hpx]; rfl)
      constructor
      · exact .inr
      · rintro (rfl | hs)
        · exact hreg
        · exact hs
    · dsimp only
      split_ifs with hc
      · have hreg : (q.checkpoints.get? sid).isSome := hc
        constructor
        · exact .inr
        · rintro (rfl | hs)
          · exact hreg
          · exact hs
      · rw [Dict.get?_set]
        split_ifs with hs
        · simp [hs]
        · simp [hs]
  have hopenr : ∀ s, (((Router.get sid).run r).2.checkpoints.get? s).isSome →
      s = sid ∨ (r.checkpoints.get? s).isSome := by
    intro s hs
    unfold Router.get at hs
    rw [Proc.run_modify] at hs
    split at hs
    · exact .inr hs
    · dsimp only at hs
      split_ifs at hs with hc
      · exact .inr hs
      · rw [Dict.get?_set] at hs
        split_ifs at hs with hs'
        · exact .inl hs'
        · exact .inr hs
  refine ⟨get_synced h.synced, ?_, ?_, ?_, ?_, ?_, ?_, ?_⟩
  · intro s hn
    rw [checkpoint_get] at hn
    unfold slot
    rw [hwr]
    exact h.quiet s hn
  · intro s hs
    rw [checkpoint_get]
    exact h.unnamed s hs
  · intro s
    rw [checkpoint_get, checkpoint_get, h.same]
  · intro s hs
    rw [hopen]
    exact (hopenr s hs).imp_right (h.opened s)
  · intro s hs
    rw [hopen]
    unfold Router.get at hs
    rw [Proc.run_modify] at hs
    split at hs
    · exact .inr (h.registered s hs)
    · dsimp only at hs
      rw [Dict.get?_set] at hs
      split_ifs at hs with hs'
      · exact .inl hs'
      · exact .inr (h.registered s hs)
  · unfold Healthy Lasts
    rw [hw]
    exact h.healthy
  · intro s hi
    rw [checkpoint_get] at hi
    have hslot : ((Router.get sid).run q).2.slot s = q.slot s := by unfold slot; rw [hw]
    have hhist : ((Router.get sid).run q).2.history standsFor s = q.history standsFor s := by
      unfold history
      rw [checkpoint_get]
    rw [hre, hge, hslot, hhist]
    exact h.current s hi

theorem checkpoint_forget (r : Router V) (sid s : SessionId) :
    (r.forget sid).checkpoint s = if s = sid then {} else r.checkpoint s := by
  unfold forget checkpoint
  rw [Dict.get?_erase]
  split <;> rfl

/-- Dropping a session that the child does not hold, on the side of the failing run only. -/
theorem Mirrors.forget_left {r q : Router V} {sid : SessionId} (h : Mirrors feed standsFor r q)
    (hslot : r.slot sid = none) (hcp : r.checkpoint sid = {}) : Mirrors feed standsFor (r.forget sid) q := by
  have hsame : ∀ s, (r.forget sid).checkpoint s = r.checkpoint s := by
    intro s
    rw [checkpoint_forget]
    split_ifs with hs
    · rw [hs, hcp]
    · rfl
  refine ⟨forget_synced (h.synced.but sid) hslot, ?_, ?_, ?_, ?_, h.registered, h.healthy, h.current⟩
  · intro s hn
    rw [hsame] at hn
    exact h.quiet s hn
  · intro s hs
    rw [hsame]
    exact h.unnamed s hs
  · intro s
    rw [hsame, h.same]
  · intro s hs
    have hs' : ((r.checkpoints.erase sid).get? s).isSome := hs
    rw [Dict.get?_erase] at hs'
    split_ifs at hs'
    · cases hs'
    · exact h.opened s hs'

/-- Dropping a session on both sides. -/
theorem Mirrors.forget {r q : Router V} {sid : SessionId} (h : Mirrors feed standsFor r q)
    (hslot : r.slot sid = none) : Mirrors feed standsFor (r.forget sid) (q.forget sid) := by
  have herase : ∀ {ν : Type} (d : Dict SessionId ν) (s : SessionId), ((d.erase sid).get? s).isSome ↔
      s ≠ sid ∧ (d.get? s).isSome := by
    intro ν d s
    rw [Dict.get?_erase]
    split_ifs with hs
    · simp [hs]
    · simp [hs]
  refine ⟨forget_synced (h.synced.but sid) hslot, ?_, ?_, ?_, ?_, ?_, h.healthy, ?_⟩
  · intro s hn
    rw [checkpoint_forget] at hn
    split_ifs at hn with hs
    · rw [hs]; exact hslot
    · exact h.quiet s hn
  · intro s hs
    rw [checkpoint_forget]
    split_ifs
    · rfl
    · exact h.unnamed s hs
  · intro s
    rw [checkpoint_forget, checkpoint_forget, h.same]
  · intro s hs
    have hs' := (herase r.checkpoints s).1 hs
    exact (herase q.checkpoints s).2 ⟨hs'.1, h.opened s hs'.2⟩
  · intro s hs
    have hs' := (herase q.proxies s).1 hs
    exact (herase q.checkpoints s).2 ⟨hs'.1, h.registered s hs'.2⟩
  · intro s hi
    rw [checkpoint_forget] at hi
    by_cases hs : s = sid
    · rw [if_pos hs] at hi
      cases hi
    · rw [if_neg hs] at hi
      have hre : (q.forget sid).restoredGeneration.get? s = q.restoredGeneration.get? s := Dict.get?_erase_ne hs
      rw [hre, history_forget, if_neg hs]
      exact h.current s hi

/-- A worker that does not fail serves the closing of every session that a request can name. -/
theorem closeSession_healthy (ver : Verifier V) {q : Router V} {sid : SessionId} (hh : q.Healthy) (hsid : ¬ Unnamed sid) :
    ∃ res q', (closeSession ver sid).run q = (.ok (), q'.forget sid) ∧ Served ver sid .close q (.ok res) q' ∧
      q'.Healthy := by
  simp only [Unnamed, not_or, Bool.not_eq_false] at hsid
  have hserve : serveSession ver sid .close (q.slot sid) = (.ok (.closed (q.slot sid).isSome), none) := by
    simp [serveSession, dispatchSession, hsid.1, closed_fits]
  obtain ⟨q', hrun, hserved, hh'⟩ := requestLocked_healthy hh hsid.2 hserve
  refine ⟨_, q', ?_, hserved, hh'⟩
  unfold closeSession
  rw [Proc.run_bind, Proc.run_handle, Proc.run_bind, hrun]
  rfl

/-- Served requests of one session take over the sessions of the child that they do not name. -/
theorem Mirrors.served_left {r r₁ q : Router V} {sid : SessionId} {op : SessionOp}
    {reply : Except ChildError Result} (h : Mirrors feed standsFor r q) (hs : Served ver sid op r reply r₁)
    (hn : r₁.slot sid = none) : Mirrors feed standsFor r₁ q := by
  have hf : ∀ s, r₁.slot s = r.slot s ∨ r₁.slot s = none := by
    intro s
    by_cases hss : s = sid
    · rw [hss]; exact .inr hn
    · exact .inl (hs.frame s hss)
  refine h.of_frame ?_ hs.checkpoints_eq hf
  obtain ⟨w, rfl⟩ := hs.books
  exact worker_synced h.synced (some w) hf

/-- A served close in the run without failures leaves its other sessions. -/
theorem Mirrors.close {r r' q : Router V} {sid : SessionId} (h : Mirrors feed standsFor r q)
    (hrun : (closeSession ver sid).run r = (.ok (), r')) :
    (Unnamed sid → Mirrors feed standsFor r' q) ∧
      (¬ Unnamed sid → ∃ q', (closeSession ver sid).run q = (.ok (), q') ∧ Mirrors feed standsFor r' q') := by
  obtain ⟨r₁, rfl, h₁, hslot⟩ : ∃ r₁, r' = r₁.forget sid ∧ Mirrors feed standsFor r₁ q ∧ r₁.slot sid = none := by
    rcases closeSession_cases hrun with ⟨e, he, -⟩ | ⟨e, -, he⟩ | ⟨-, r₁, rfl, rfl | ⟨res, hs⟩⟩
    · cases he
    · cases he
    · exact ⟨_, rfl, h.lost (x := (.error (.unavailable "") : Except RouterError Unit)) ⟨_, rfl, rfl, rfl⟩, rfl⟩
    · exact ⟨r₁, rfl, h.served_left hs hs.close_slot, hs.close_slot⟩
  constructor
  · intro hsid
    exact h₁.forget_left hslot (h₁.unnamed sid hsid)
  · intro hsid
    obtain ⟨res, q', hq, hserved, hh⟩ := closeSession_healthy ver h.healthy hsid
    refine ⟨_, hq, ?_⟩
    obtain ⟨w, hq'⟩ := hserved.books
    have hfr : ∀ s, s ≠ sid → q'.slot s = q.slot s := hserved.frame
    subst hq'
    -- the close served in `q` drops only the slot of the session that is forgotten next
    refine ⟨forget_synced (h₁.synced.but sid) hslot, (h₁.forget hslot).quiet, (h₁.forget hslot).unnamed,
      (h₁.forget hslot).same, (h₁.forget hslot).opened, (h₁.forget hslot).registered, hh, ?_⟩
    intro s hi
    have hs : s ≠ sid := by
      rintro rfl
      rw [checkpoint_forget, if_pos rfl] at hi
      cases hi
    obtain ⟨hre, hsl⟩ := (h₁.forget hslot).current s hi
    exact ⟨hre, (hfr s hs).trans hsl⟩

section

variable (law : ver.Lawful feed standsFor)

include law

/-- A call that returned is repeated in the run without failures, with the same reply. -/
theorem Mirrors.perform_ok {r r' q : Router V} {c : Call} {res : Option Result} (h : Mirrors feed standsFor r q)
    (hrun : (perform ver c).run r = (.ok res, r')) :
    (replays c = true → ∃ q', (perform ver c).run q = (.ok res, q') ∧ Mirrors feed standsFor r' q') ∧
      (replays c = false → Mirrors feed standsFor r' q) := by
  have lift : ∀ (y : RouterProc V Result),
      (∀ res r', y.run r = (.ok res, r') → ∃ q', y.run q = (.ok res, q') ∧ Mirrors feed standsFor r' q') →
      (y >>= fun a => pure (some a)).run r = (.ok res, r') →
      ∃ q', (y >>= fun a => pure (some a)).run q = (.ok res, q') ∧ Mirrors feed standsFor r' q' := by
    intro y hy hr
    rw [Proc.run_map] at hr
    rcases hq : y.run r with ⟨e | a, r₁⟩
    · rw [hq] at hr
      cases (Prod.mk.inj hr).1
    · rw [hq] at hr
      obtain ⟨h₁, rfl⟩ := Prod.mk.inj hr
      obtain ⟨q', hq', hm⟩ := hy a r₁ hq
      refine ⟨q', ?_, hm⟩
      rw [Proc.run_map, hq']
      exact Prod.ext h₁ rfl
  cases c with
  | prefill sid ts k =>
    refine ⟨fun _ => lift _ (fun a r₁ hq => ?_) hrun, fun hno => by cases hno⟩
    exact h.commitRequest law (c := .prefill sid ts k) rfl (by intro _ _; rfl) (by intro _ _; rfl) rfl rfl hq
  | appendAcceptedTokens sid ts k =>
    refine ⟨fun _ => lift _ (fun a r₁ hq => ?_) hrun, fun hno => by cases hno⟩
    exact h.commitRequest law (c := .appendAcceptedTokens sid ts k) rfl
      (fun cp _ => cp.history_append standsFor ts) (by intro _ _; rfl) rfl rfl hq
  | generateStep sid k =>
    refine ⟨fun _ => lift _ (fun a r₁ hq => ?_) hrun, fun hno => by cases hno⟩
    exact h.commitRequest law (c := .generateStep sid k) rfl
      (fun cp res => cp.history_append standsFor [resultToken res]) (by intro _ _; rfl) rfl rfl hq
  | reset sid =>
    refine ⟨fun _ => lift _ (fun a r₁ hq => ?_) hrun, fun hno => by cases hno⟩
    exact h.commitRequest law (c := .reset sid) rfl (by intro _ _; rfl) (by intro _ _; rfl) rfl rfl hq
  | importSnapshot sid p c =>
    refine ⟨fun _ => lift _ (fun a r₁ hq => ?_) hrun, fun hno => by cases hno⟩
    exact h.importSnapshot law hq
  | get sid =>
    rw [perform, Proc.run_map] at hrun
    obtain ⟨hx, rfl⟩ := Prod.mk.inj hrun
    obtain rfl : none = res := Except.ok.inj hx
    exact ⟨fun _ => ⟨_, rfl, h.get sid⟩, fun hno => by cases hno⟩
  | closeSession sid =>
    rw [perform, Proc.run_map] at hrun
    rcases hq : (closeSession ver sid).run r with ⟨e | u, r₁⟩
    · rw [hq] at hrun
      cases (Prod.mk.inj hrun).1
    · rw [hq] at hrun
      obtain ⟨hx, rfl⟩ := Prod.mk.inj hrun
      obtain rfl : none = res := Except.ok.inj hx
      obtain ⟨hun, hna⟩ := h.close hq
      refine ⟨fun hr => ?_, fun hr => hun (by simpa [replays] using hr)⟩
      obtain ⟨q', hq', hm⟩ := hna (by simpa [replays] using hr)
      refine ⟨q', ?_, hm⟩
      rw [perform, Proc.run_map, hq']
      rfl
  | health =>
    rw [perform, Proc.run_map] at hrun
    rcases hq : (requestLocked ver .health false).run r with ⟨y, r₁⟩
    rw [hq] at hrun
    obtain ⟨-, rfl⟩ := Prod.mk.inj hrun
    refine ⟨(fun hyes => by cases hyes), fun _ => ?_⟩
    rcases requestLocked_cases ver hq with hl | ⟨w, w', reply, hw, -, -, hs, -, rfl⟩
    · exact h.lost hl
    · have hrt : w.runtime = w'.runtime := congrArg Prod.snd hs
      have hf : ∀ s, ({ r with worker := some w' } : Router V).slot s = r.slot s := by
        intro s
        simp [slot, hw, hrt]
      exact h.of_frame (worker_synced h.synced _ fun s => .inl (hf s)) rfl fun s => .inl (hf s)
  | hardKill =>
    rw [perform, Proc.run_map] at hrun
    obtain ⟨-, rfl⟩ := Prod.mk.inj hrun
    refine ⟨(fun hyes => by cases hyes), fun _ => ?_⟩
    exact h.of_frame (worker_synced h.synced none fun _ => .inr rfl) rfl fun _ => .inr rfl

/-- A call that raised, though no application error, leaves the run without failures where it is. -/
theorem Mirrors.perform_error {r r' q : Router V} {c : Call} {e : RouterError} (h : Mirrors feed standsFor r q)
    (hrun : (perform ver c).run r = (.error e, r')) (he : e.isApplication = false) :
    Mirrors feed standsFor r' q := by
  have lift : ∀ (y : RouterProc V Result),
      (∀ r', y.run r = (.error e, r') → Mirrors feed standsFor r' q) →
      (y >>= fun a => pure (some a)).run r = (.error e, r') → Mirrors feed standsFor r' q := by
    intro y hy hr
    rw [Proc.run_map] at hr
    rcases hq : y.run r with ⟨e' | a, r₁⟩
    · rw [hq] at hr
      obtain ⟨h₁, rfl⟩ := Prod.mk.inj hr
      obtain rfl : e' = e := Except.error.inj h₁
      exact hy r₁ hq
    · rw [hq] at hr
      cases (Prod.mk.inj hr).1
  have single : ∀ (sid : SessionId) (op : SessionOp) (k : Option Nat)
      (commit : ProofCheckpoint → Result → ProofCheckpoint) (marks : Bool) (r₁ : Router V),
      (Router.commitRequest ver sid op k commit marks).run r = (.error e, r₁) → Mirrors feed standsFor r₁ q := by
    intro sid op k commit marks r₁ hq
    rcases commitRequest_cases law h.synced hq with ⟨e', -, -, rfl⟩ | hg | hu | ⟨r₂, -, -, ⟨e', -, hx⟩ | hok⟩
    · exact h
    · exact h.gone hg
    · obtain ⟨e', hx, ha⟩ := hu.raised
      rw [Except.error.inj hx, ha] at he
      cases he
    · rw [Except.error.inj hx, ofChild_isApplication] at he
      cases he
    · obtain ⟨_, _, -, hx, -⟩ := hok
      cases hx
  cases c with
  | prefill sid ts k => exact lift _ (fun r₁ hq => single _ _ _ _ _ r₁ hq) hrun
  | appendAcceptedTokens sid ts k => exact lift _ (fun r₁ hq => single _ _ _ _ _ r₁ hq) hrun
  | generateStep sid k => exact lift _ (fun r₁ hq => single _ _ _ _ _ r₁ hq) hrun
  | reset sid => exact lift _ (fun r₁ hq => single _ _ _ _ _ r₁ hq) hrun
  | importSnapshot sid p c =>
    refine lift _ (fun r₁ hq => ?_) hrun
    rcases importSnapshot_cases law h.synced hq with ⟨e', -, -, rfl⟩ | hg | hu | ⟨r₂, e', -, -, hx⟩ |
      ⟨r₂, res₁, r₃, r₄, -, -, -, ⟨e', -, hx⟩ | ⟨_, _, -, hx, -⟩⟩
    · exact h
    · exact h.gone hg
    · obtain ⟨e', hx, ha⟩ := hu.raised
      rw [Except.error.inj hx, ha] at he
      cases he
    · rw [Except.error.inj hx, ofChild_isApplication] at he
      cases he
    · rw [Except.error.inj hx, ofChild_isApplication] at he
      cases he
    · cases hx
  | closeSession sid =>
    rw [perform, Proc.run_map] at hrun
    rcases hq : (closeSession ver sid).run r with ⟨e' | u, r₁⟩
    · rw [hq] at hrun
      obtain ⟨h₁, rfl⟩ := Prod.mk.inj hrun
      obtain rfl : e' = e := Except.error.inj h₁
      rcases closeSession_cases hq with hl | ⟨e₂, -, hx⟩ | ⟨hx, -⟩
      · exact h.lost hl
      · rw [Except.error.inj hx, ofChild_isApplication] at he
        cases he
      · cases hx
    · rw [hq] at hrun
      cases (Prod.mk.inj hrun).1
  | get sid =>
    rw [perform, Proc.run_map] at hrun
    cases (Prod.mk.inj hrun).1
  | health =>
    refine lift _ (fun r₁ hq => ?_) hrun
    rcases requestLocked_cases ver hq with hl | ⟨w, w', reply, -, -, -, -, hx, -⟩
    · exact h.lost hl
    · cases reply with
      | ok res => cases hx
      | error e' =>
        rw [Except.error.inj hx, ofChild_isApplication] at he
        cases he
  | hardKill =>
    rw [perform, Proc.run_map] at hrun
    cases (Prod.mk.inj hrun).1

/-- The step lemma of the simulation. -/
theorem Mirrors.step {r q : Router V} {ev : RouterEvent} (h : Mirrors feed standsFor r q)
    (happ : ∀ e, (Router.step ver r ev).1 = some (.error e) → e.isApplication = false) :
    Mirrors feed standsFor (Router.step ver r ev).2
      (Machine.final (Router.step ver) q ((returned ver r [ev]).map .call)) := by
  cases ev with
  | turn fate =>
    have hf : ∀ s, (Router.step ver r (.turn fate)).2.slot s = r.slot s := by
      intro s
      simp only [Router.step, slot]
      cases r.worker <;> rfl
    have hquiet : (Router.step ver r (.turn fate)).1 = none := rfl
    have hsynced : Synced feed standsFor (Router.step ver r (.turn fate)).2 := step_synced law h.synced fun herr => by
      obtain ⟨e, herr, -⟩ := herr
      rw [hquiet] at herr
      cases herr
    exact h.of_frame hsynced rfl fun s => .inl (hf s)
  | call c =>
    rcases hq : (perform ver c).run r with ⟨e | res, r'⟩
    · have hx : (Router.step ver r (.call c)).1 = some (.error e) := by simp [Router.step, hq]
      have hret : returned ver r [.call c] = [] := by simp [returned, hx]
      rw [hret]
      have hr : (Router.step ver r (.call c)).2 = r' := by simp [Router.step, hq]
      rw [hr]
      exact h.perform_error law hq (happ e hx)
    · have hx : (Router.step ver r (.call c)).1 = some (.ok res) := by simp [Router.step, hq]
      have hr : (Router.step ver r (.call c)).2 = r' := by simp [Router.step, hq]
      obtain ⟨hyes, hno⟩ := h.perform_ok law hq
      rw [hr]
      cases hrep : replays c with
      | false =>
        have hret : returned ver r [.call c] = [] := by simp [returned, hx, hrep]
        rw [hret]
        exact hno hrep
      | true =>
        have hret : returned ver r [.call c] = [c] := by simp [returned, hx, hrep]
        obtain ⟨q', hq', hm⟩ := hyes hrep
        have hs : (Router.step ver q (.call c)).2 = q' := by simp [Router.step, hq']
        rw [hret]
        simpa [Machine.final, hs] using hm

end

theorem returned_cons (ver : Verifier V) (r : Router V) (ev : RouterEvent) (es : List RouterEvent) :
    returned ver r (ev :: es) = returned ver r [ev] ++ returned ver (step ver r ev).2 es := by
  cases ev with
  | turn fate => simp [returned]
  | call c =>
    rcases hx : (step ver r (.call c)).1 with _ | _ | _
    · simp [returned, hx]
    · simp [returned, hx]
    · cases hr : replays c <;> simp [returned, hx, hr]

/-- The run lemma of the simulation. -/
theorem Mirrors.final (law : ver.Lawful feed standsFor) {r q : Router V} (es : List RouterEvent)
    (h : Mirrors feed standsFor r q)
    (happ : ∀ e, some (.error e) ∈ Machine.outputs (Router.step ver) r es → e.isApplication = false) :
    Mirrors feed standsFor (Machine.final (Router.step ver) r es)
      (Machine.final (Router.step ver) q ((returned ver r es).map .call)) := by
  induction es generalizing r q with
  | nil => exact h
  | cons ev es ih =>
    rw [returned_cons, List.map_append, Machine.final_append]
    refine ih (h.step law fun e he => happ e ?_) fun e he => happ e ?_
    · exact he ▸ List.mem_cons_self
    · exact List.mem_cons_of_mem _ he

theorem launched_mirrors (feed : List Token → V) (standsFor : Bytes → Option CacheCompatibility → List Token)
    (starts : List StartOutcome) :
    Mirrors feed standsFor (launched starts) (launched [] : Router V) where
  synced := launched_synced starts
  quiet _ _ := rfl
  unnamed _ _ := rfl
  same _ := rfl
  opened _ h := by cases h
  registered _ h := by cases h
  healthy := fun _ => ⟨_, rfl, nofun⟩
  current _ h := by cases h

/-- Exactly-once recovery.  In every run in which the child refuses nothing, whatever the fates of its workers, a call
that returns commits exactly its own tokens; the child's session is then the verifier fed the committed history, a
generation step has returned the greedy token of the history it found, and the replies and histories are those of the
run of the returned calls without failures. -/
theorem recovery_exactly_once (law : ver.Lawful feed standsFor) (starts : List StartOutcome)
    (es : List RouterEvent)
    (happ : ∀ e, some (.error e) ∈ Machine.outputs (step ver) (launched starts) es → e.isApplication = false) :
    let r := Machine.final (step ver) (launched starts) es
    let q := replay ver (returned ver (launched starts) es)
    r.history standsFor = q.history standsFor ∧
    ∀ c res r', (perform ver c).run r = (.ok res, r') →
      r'.history standsFor = Ledger.commit standsFor (r.history standsFor) c res ∧
      (∀ sid op, c.op = some (sid, op) →
        r'.slot sid = some (feed (r'.history standsFor sid)) ∧
        ∃ q', (perform ver c).run q = (.ok res, q') ∧ q'.history standsFor = r'.history standsFor) ∧
      (∀ sid k, c = .generateStep sid k →
        ∃ result, res = some result ∧
          ver.greedyNextTokenId (feed (r.history standsFor sid)) = .ok (resultToken result)) ∧
      (∀ s, r'.isStale s = false → ∀ v, r'.slot s = some v → v = feed (r'.history standsFor s)) := by
  have hm := (launched_mirrors feed standsFor starts).final law es happ
  intro r q
  refine ⟨funext fun s => ?_, ?_⟩
  · unfold history
    rw [← hm.same]
    rfl
  intro c res r' hrun
  have hk := perform_keeps law hm.synced hrun
  refine ⟨hk.commits res rfl, ?_, ?_, (hk.synced nofun).agrees⟩
  · intro sid op hop
    obtain ⟨result, hres, hserve, hslot⟩ := hk.acted res sid op rfl hop
    have hrep : replays c = true := by cases c <;> simp [Call.op] at hop <;> rfl
    obtain ⟨q', hq', hm'⟩ := (hm.perform_ok law hrun).1 hrep
    refine ⟨hslot, q', hq', funext fun s => ?_⟩
    unfold history
    rw [← hm'.same]
  · intro sid k hc
    subst hc
    obtain ⟨result, hres, hserve, hslot⟩ := hk.acted res sid .generateStep rfl rfl
    refine ⟨result, hres, ?_⟩
    have hfed : ∀ v, some (feed (r.history standsFor sid)) = some v → v = feed (r.history standsFor sid) :=
      fun v hv => (Option.some.inj hv).symm
    exact (serve_generate law hfed hserve).2.1

/-- A prefilled session whose worker will execute its next request and die before it replies. -/
def dyingWorker : List RouterEvent :=
  [.call (.get "s"), .call (.prefill "s" [1, 2] none), .turn (some ⟨0, true, false⟩)]

/-- The generation step that the dying worker executes is executed once more by its successor, and counts once. -/
theorem generate_after_death :
    ∃ res r', (perform tokenVerifier (.generateStep "s" none)).run
        (Machine.final (step tokenVerifier) (launched []) dyingWorker) = (.ok res, r') ∧
      r'.slot "s" = some (id (r'.history snapshotTokens "s")) ∧
      r'.history snapshotTokens "s" = [1, 2, 2] ∧ r'.restartCount = 1 := by
  have hout : Machine.outputs (step tokenVerifier) (launched []) dyingWorker =
      [some (.ok none), some (.ok (some (.state ⟨[1, 2], 2, 2, 0⟩))), none] := by decide +kernel
  have hall := recovery_exactly_once tokenVerifier_lawful [] dyingWorker (by simp [hout])
  generalize hr : Machine.final (step tokenVerifier) (launched []) dyingWorker = r at hall ⊢
  have hx : ((perform tokenVerifier (.generateStep "s" none)).run r).1 =
      .ok (some (.generated ⟨[1, 2, 2], 3, 3, 0⟩ 2 "")) := by
    rw [← hr]
    decide +kernel
  obtain ⟨hcommit, hop, -, -⟩ := hall.2 _ _ _ (Prod.ext hx rfl)
  refine ⟨_, _, Prod.ext hx rfl, (hop "s" .generateStep rfl).1, ?_, ?_⟩
  · rw [hcommit, ← hr]
    decide +kernel
  · rw [← hr]
    decide +kernel

end Router

end KakeyaEngine
