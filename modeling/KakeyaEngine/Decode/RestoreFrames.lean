import KakeyaEngine.Decode.ExactlyOnce
import KakeyaEngine.Decode.Recoverable

/-!
# The frames of a restore

A restore sends a session's whole journal in one header, while the operations that grew the journal each sent a part of it.
In every state that a run reaches, the empty `Init` and the snapshot of a session fit a frame, because they were sent
before; what is left is the journal (`rebuildable_iff`).
-/

namespace KakeyaEngine

namespace Router

variable {V : Type} {ver : Verifier V}

/-! ### The checkpoints change only at the end of an operation -/

theorem requestLocked_checkpoints (d : Dict SessionId ProofCheckpoint) (req : Request) (cancelled : Bool) :
    Proc.Keeps (fun r => r.checkpoints = d) (requestLocked ver req cancelled) := by
  intro r hr
  rw [run_requestLocked]
  cases r.worker with
  | none => exact hr
  | some w =>
    dsimp only
    split
    · exact hr
    · split
      · exact hr
      · rcases w.answer ver req with ⟨_ | _ | _, _⟩ <;> exact hr

theorem start_checkpoints (d : Dict SessionId ProofCheckpoint) :
    Proc.Keeps (fun r => r.checkpoints = d) (start ver) := by
  intro r hr
  rcases h : (start ver).run r with ⟨x, r'⟩
  rcases start_cases ver h with ⟨e, -, -, rfl⟩ | ⟨fate, -, rfl⟩
  · exact hr
  · exact hr

theorem restoreSnapshot_checkpoints (d : Dict SessionId ProofCheckpoint) (sid : SessionId) (cp : ProofCheckpoint) :
    Proc.Keeps (fun r => r.checkpoints = d) (restoreSnapshot ver sid cp) := by
  unfold restoreSnapshot
  split
  · exact .pure _
  · refine .bind (requestLocked_checkpoints d _ _) fun _ => ?_
    split
    · exact .pure _
    · exact .bind (requestLocked_checkpoints d _ _) fun _ => .pure _

theorem restoreLocked_checkpoints (d : Dict SessionId ProofCheckpoint) (sid : SessionId) :
    Proc.Keeps (fun r => r.checkpoints = d) (restoreLocked ver sid) := by
  refine .get_bind fun r hr => ?_
  dsimp only
  split
  · exact hr
  · refine Proc.Keeps.bind (requestLocked_checkpoints d _ _) (fun _ => ?_) r hr
    exact .bind (restoreSnapshot_checkpoints d sid _) fun _ => .modify fun _ h => h

variable (ver) in
theorem sessionRequest_checkpoints (d : Dict SessionId ProofCheckpoint) (sid : SessionId) (op : SessionOp)
    (cancelAt : Option Nat) : Proc.Keeps (fun r => r.checkpoints = d) (sessionRequest ver sid op cancelAt) := by
  have hattempts : Proc.Keeps (fun r => r.checkpoints = d) (attempts ver sid op cancelAt) := by
    refine .handle (requestLocked_checkpoints d _ _) fun e => ?_
    split
    · refine .bind (.modify fun _ h => h) fun _ => .bind (start_checkpoints d) fun _ => ?_
      exact .bind (restoreLocked_checkpoints d sid) fun _ => requestLocked_checkpoints d _ _
    · exact .raise _
  refine .get_bind fun r hr => ?_
  split
  · exact Proc.Keeps.bind (restoreLocked_checkpoints d sid) (fun _ => hattempts) r hr
  · exact hattempts r hr

/-! ### What was sent before fits -/

/-- The requests that a restore repeats as they were sent. -/
structure Framed (sid : SessionId) (cp : ProofCheckpoint) : Prop where
  named : sid ≠ ""
  init : (Request.session sid (.init [])).fits = true
  snapshot : ∀ p, cp.snapshot = some p → (Request.session sid (.importSnapshot p cp.compatibility)).fits = true

/-- Every initialised session has its frames. -/
def AllFramed (r : Router V) : Prop := ∀ sid, (r.checkpoint sid).initialized = true → Framed sid (r.checkpoint sid)

theorem AllFramed.congr {r r' : Router V} (h : r.AllFramed) (hc : r'.checkpoints = r.checkpoints) : r'.AllFramed := by
  intro sid
  rw [checkpoint_congr hc]
  exact h sid

theorem AllFramed.publish {r : Router V} (h : r.AllFramed) {sid : SessionId} {cp : ProofCheckpoint} (marks : Bool)
    (res : Result) (hcp : cp.initialized = true → Framed sid cp) : (r.publish sid cp marks res).AllFramed := by
  intro s
  rw [checkpoint_publish]
  split
  · rename_i hs
    rw [hs]
    exact hcp
  · exact h s

theorem init_nil_fits {sid : SessionId} {ts : List Token} (h : (Request.session sid (.init ts)).fits = true) :
    (Request.session sid (.init [])).fits = true := by
  rw [Request.init_fits_iff] at h ⊢
  have hlen := Json.length_arr (ts.map Json.int)
  have hnil : (Json.arr (([] : List Token).map Json.int)).length = 2 := rfl
  omega

/-- The step lemma for an operation of one request. -/
theorem commitRequest_framed {sid : SessionId} {op : SessionOp} {cancelAt : Option Nat}
    {commit : ProofCheckpoint → Result → ProofCheckpoint} {marks : Bool}
    (hcommit : ∀ cp res, (cp.initialized = true → Framed sid cp) → (Request.session sid op).fits = true → sid ≠ "" →
      (commit cp res).initialized = true → Framed sid (commit cp res)) :
    Proc.Keeps AllFramed (commitRequest ver sid op cancelAt commit marks) := by
  intro r hr
  unfold commitRequest checkpointLocked
  rw [Proc.run_bind, Proc.run_get_bind]
  cases hcp : r.checkpoints.get? sid with
  | none => exact hr
  | some cp =>
    simp only [Proc.run_pure]
    rw [Proc.run_bind]
    have hkeep := sessionRequest_checkpoints ver r.checkpoints sid op cancelAt r rfl
    have hsent := sessionRequest_sent ver sid op cancelAt r trivial
    rcases hrun : (sessionRequest ver sid op cancelAt).run r with ⟨e | res, r₁⟩
    · rw [hrun] at hkeep
      exact hr.congr hkeep
    · rw [hrun] at hkeep hsent
      refine (hr.congr hkeep).publish marks res ?_
      have hcp' : r.checkpoint sid = cp := checkpoint_of_get? hcp
      exact hcommit cp res (by rw [← hcp']; exact hr sid) hsent.1 hsent.2.1

theorem importSnapshot_framed (sid : SessionId) (p : Bytes) (c : CacheCompatibility) :
    Proc.Keeps AllFramed (importSnapshot ver sid p c) := by
  intro r hr
  unfold importSnapshot checkpointLocked
  rw [Proc.run_bind, Proc.run_get_bind]
  cases r.checkpoints.get? sid with
  | none => exact hr
  | some cp =>
    simp only [Proc.run_pure]
    rw [Proc.run_bind]
    have hkeep := sessionRequest_checkpoints ver r.checkpoints sid (.init []) none r rfl
    have hsent := sessionRequest_sent ver sid (.init []) none r trivial
    rcases hrun : (sessionRequest ver sid (.init []) none).run r with ⟨e | res, r₁⟩
    · rw [hrun] at hkeep
      exact hr.congr hkeep
    · rw [hrun] at hkeep hsent
      dsimp only
      rw [Proc.run_bind]
      have hkeep' := sessionRequest_checkpoints ver r₁.checkpoints sid (.importSnapshot p (some c)) none r₁ rfl
      have hsent' := sessionRequest_sent ver sid (.importSnapshot p (some c)) none r₁ trivial
      rcases hrun' : (sessionRequest ver sid (.importSnapshot p (some c)) none).run r₁ with ⟨e | res', r₂⟩
      · rw [hrun'] at hkeep'
        exact hr.congr (hkeep'.trans hkeep)
      · rw [hrun'] at hkeep' hsent'
        refine (hr.congr (hkeep'.trans hkeep)).publish true res' fun _ => ⟨hsent.2.1, hsent.1, ?_⟩
        intro q hq
        obtain rfl := Option.some.inj hq
        exact hsent'.1

theorem get_framed (sid : SessionId) : Proc.Keeps (AllFramed (V := V)) (get sid) := by
  intro r hr s hi
  have hsame : ((get sid : RouterProc V Unit).run r).2.checkpoint s = r.checkpoint s ∨
      ((get sid : RouterProc V Unit).run r).2.checkpoint s = {} := by
    unfold get
    rw [Proc.run_modify]
    dsimp only
    split
    · exact Or.inl rfl
    · by_cases hc : r.checkpoints.contains sid = true
      · left
        unfold checkpoint
        rw [if_pos hc]
      · unfold checkpoint
        rw [if_neg hc]
        dsimp only
        rw [Dict.get?_set]
        split
        · exact Or.inr rfl
        · exact Or.inl rfl
  rcases hsame with h | h
  · rw [h] at hi ⊢
    exact hr s hi
  · rw [h] at hi
    cases hi

theorem forget_framed {r : Router V} (h : r.AllFramed) (sid : SessionId) : (r.forget sid).AllFramed := by
  intro s hi
  by_cases hs : s = sid
  · have hnone : (r.forget sid).checkpoint s = {} := by
      unfold forget checkpoint
      rw [hs, Dict.get?_erase_self]
      rfl
    rw [hnone] at hi
    cases hi
  · have hsame : (r.forget sid).checkpoint s = r.checkpoint s := by
      unfold forget checkpoint
      rw [Dict.get?_erase_ne hs]
    rw [hsame] at hi ⊢
    exact h s hi

theorem requestLocked_framed (req : Request) (cancelled : Bool) :
    Proc.Keeps AllFramed (requestLocked ver req cancelled) :=
  fun r hr => hr.congr (requestLocked_checkpoints r.checkpoints req cancelled r rfl)

/-- Every call keeps the frames. -/
theorem perform_framed (c : Call) : Proc.Keeps AllFramed (perform ver c) := by
  cases c with
  | get sid => exact .bind (get_framed sid) fun _ => .pure _
  | closeSession sid =>
    refine .bind (.bind (.handle (.bind (requestLocked_framed _ _) fun _ => .pure _) fun e => ?_)
      fun _ => .modify fun r hr => forget_framed hr sid) fun _ => .pure _
    split
    · exact .raise _
    · exact .raise _
    · exact .pure _
  | prefill sid ts k =>
    refine .bind (commitRequest_framed fun cp res _ hfit hsid _ => ?_) fun _ => .pure _
    exact ⟨hsid, init_nil_fits hfit, nofun⟩
  | appendAcceptedTokens sid ts k =>
    refine .bind (commitRequest_framed fun cp res hcp _ _ hi => ?_) fun _ => .pure _
    exact ⟨(hcp hi).named, (hcp hi).init, (hcp hi).snapshot⟩
  | generateStep sid k =>
    refine .bind (commitRequest_framed fun cp res hcp _ _ hi => ?_) fun _ => .pure _
    exact ⟨(hcp hi).named, (hcp hi).init, (hcp hi).snapshot⟩
  | importSnapshot sid p c => exact .bind (importSnapshot_framed sid p c) fun _ => .pure _
  | reset sid =>
    refine .bind (commitRequest_framed fun cp res _ hfit hsid _ => ?_) fun _ => .pure _
    exact ⟨hsid, hfit, nofun⟩
  | health => exact .bind (requestLocked_framed _ _) fun _ => .pure _
  | hardKill => exact .bind (.modify fun r hr => hr.congr rfl) fun _ => .pure _

/-- The run lemma: in every state that a run reaches, what was sent before fits. -/
theorem run_framed (ver : Verifier V) (starts : List StartOutcome) (es : List RouterEvent) :
    (Machine.final (step ver) (launched starts) es).AllFramed := by
  refine Machine.final_of_step (fun r ev hr => ?_) es ?_
  · cases ev with
    | call c => exact perform_framed c r hr
    | turn fate => exact hr.congr rfl
  · intro sid hi
    cases hi

/-! ### The journal -/

/-- The bytes of a journal in a header: its decimals and the commas between them. -/
def journalBytes (ts : List Token) : Nat := (ts.map fun t => (Json.int t).length).sum + (ts.length - 1)

/-- The journal of an initialised session fits a header beside the session id and the fixed members, of which there are
two bytes more when a snapshot comes first: the journal is then sent by `Append` instead of `Init`. -/
def JournalFits (sid : SessionId) (cp : ProofCheckpoint) : Prop :=
  cp.initialized = true → cp.replayTokenIds ≠ [] →
    (Json.str sid).length + journalBytes cp.replayTokenIds + (if cp.snapshot = none then 142 else 144) ≤ maxHeaderBytes

theorem length_arr_int (ts : List Token) : (Json.arr (ts.map Json.int)).length = 2 + journalBytes ts := by
  rw [Json.length_arr, List.map_map, List.length_map]
  rfl

/-- The frames of a restore fit exactly when the journal does, once what was sent before does. -/
theorem restoreOps_fit_iff {sid : SessionId} {cp : ProofCheckpoint} (h : cp.initialized = true → Framed sid cp) :
    (∀ op ∈ restoreOps cp, (Request.session sid op).fits = true) ↔ JournalFits sid cp := by
  by_cases hi : cp.initialized = true
  · obtain ⟨-, hinit, hsnap⟩ := h hi
    unfold restoreOps JournalFits
    rw [if_neg (by simp [hi])]
    rcases hs : cp.snapshot with _ | p
    · -- the journal is the argument of `Init`
      dsimp only
      rw [if_pos rfl]
      simp only [List.mem_singleton, forall_eq, hi, forall_const]
      rw [Request.init_fits_iff, length_arr_int]
      constructor
      · intro hfit _
        omega
      · intro hfit
        by_cases hnil : cp.replayTokenIds = []
        · rw [Request.init_fits_iff, length_arr_int] at hinit
          rw [hnil]
          exact hinit
        · have := hfit hnil
          omega
    · dsimp only
      rw [if_neg (Option.some_ne_none p)]
      by_cases hnil : cp.replayTokenIds = []
      · rw [if_pos hnil]
        constructor
        · exact fun _ _ hne => absurd hnil hne
        · intro _ op hop
          rcases List.mem_pair.1 hop with rfl | rfl
          · exact hinit
          · exact hsnap p hs
      · -- the journal is the argument of `Append`
        rw [if_neg hnil]
        have happend : (Request.session sid (.append cp.replayTokenIds)).fits = true ↔
            (Json.str sid).length + journalBytes cp.replayTokenIds + 144 ≤ maxHeaderBytes := by
          rw [Request.append_fits_iff, length_arr_int]
          omega
        constructor
        · intro hfit _ _
          exact happend.1 (hfit _ (by simp))
        · intro hfit op hop
          simp only [List.mem_cons, List.not_mem_nil, or_false] at hop
          rcases hop with rfl | rfl | rfl
          · exact hinit
          · exact hsnap p hs
          · exact happend.2 (hfit hi hnil)
  · constructor
    · exact fun _ hi' => absurd hi' hi
    · intro _ op hop
      unfold restoreOps at hop
      rw [if_pos (by simpa using hi)] at hop
      cases hop

/-- In every state that a run reaches, the frames of a session's restore fit if and only if its journal does; and that
decides whether the session can be restored in a new worker that does not fail. -/
theorem rebuildable_iff (ver : Verifier V) (starts : List StartOutcome) (es : List RouterEvent) (sid : SessionId) :
    let r := Machine.final (step ver) (launched starts) es
    (r.Rebuildable sid ↔ JournalFits sid (r.checkpoint sid)) ∧
      (ver.Accepting → ((∃ r', (restoreLocked ver sid).run r.restarted = (.ok (), r')) ↔
        JournalFits sid (r.checkpoint sid))) := by
  intro r
  have hframed : r.AllFramed := run_framed ver starts es
  have hiff : r.Rebuildable sid ↔ JournalFits sid (r.checkpoint sid) := restoreOps_fit_iff (hframed sid)
  refine ⟨hiff, fun hacc => ?_⟩
  by_cases hi : (r.checkpoint sid).initialized = true
  · have hsid := (hframed sid hi).named
    rw [← hiff]
    constructor
    · rintro ⟨r', hrun⟩
      by_contra hn
      obtain ⟨m, hm⟩ := restoreLocked_unavailable (r := r.restarted) hacc hsid hi fun h => hn h.1
      rw [hm] at hrun
      cases (Prod.mk.inj hrun).1
    · intro hb
      obtain ⟨r', -, hrun, -⟩ := restoreLocked_ok (r := r.restarted) hacc hsid hi hb (restarted_lasts r _)
      exact ⟨r', hrun⟩
  · constructor
    · exact fun _ hi' => absurd hi' hi
    · intro _
      refine ⟨r.restarted, ?_⟩
      exact run_restoreLocked_uninitialized ver hi

/-! ### A session that outgrows a frame -/

/-- A session that is prefilled and appended to. -/
def grownSession (ts us : List Token) : List RouterEvent :=
  [.call (.get "s"), .call (.prefill "s" ts none), .call (.appendAcceptedTokens "s" us none)]

/-- Both operations succeed when each fits a frame, and the journal is both token lists together. -/
theorem grownSession_journal {ts us : List Token} (hus : us ≠ [])
    (hinit : (Request.session "s" (.init ts)).fits = true) (happend : (Request.session "s" (.append us)).fits = true) :
    (∃ res res', Machine.outputs (step steadyVerifier) (launched []) (grownSession ts us) =
        [some (.ok none), some (.ok (some res)), some (.ok (some res'))]) ∧
      (Machine.final (step steadyVerifier) (launched []) (grownSession ts us)).checkpoint "s" =
        ⟨none, none, ts ++ us, true⟩ := by
  have hcan : cancelledIn none 0 = false := rfl
  -- the new session
  have hopened : ∃ r₁, (perform steadyVerifier (.get "s")).run (launched []) = (.ok none, r₁) ∧ r₁.Healthy ∧
      r₁.isStale "s" = false ∧ (r₁.checkpoints.get? "s").isSome := by
    refine ⟨_, rfl, ?_, by decide +kernel, by decide +kernel⟩
    exact fun n => ⟨_, rfl, nofun⟩
  obtain ⟨r₁, hget, hh₁, hst₁, hopen₁⟩ := hopened
  -- the prefill
  obtain ⟨res, v, hs⟩ := steadyVerifier_accepting "s" (.init ts) (r₁.slot "s") (by decide) rfl nofun
  obtain ⟨q₁, hrun₁, hserved₁, hq₁⟩ :=
    commitRequest_healthy (fun _ _ => ⟨none, none, ts, true⟩) true hh₁ hst₁ hopen₁ hcan hinit hs
  obtain ⟨r₂, hr₂⟩ : ∃ r₂, r₂ = q₁.publish "s" ⟨none, none, ts, true⟩ true res := ⟨_, rfl⟩
  have hprefill : (perform steadyVerifier (.prefill "s" ts none)).run r₁ = (.ok (some res), r₂) := by
    rw [perform, prefill, Proc.run_bind_ok hrun₁, hr₂]
    rfl
  have hh₂ : r₂.Healthy := by
    rw [hr₂]
    exact hq₁
  have hst₂ : r₂.isStale "s" = false := by
    rw [hr₂]
    apply not_isStale_of_restored
    exact Dict.get?_set_self _ _ _
  have hcp₂ : r₂.checkpoint "s" = ⟨none, none, ts, true⟩ := by
    rw [hr₂, checkpoint_publish, if_pos rfl]
  have hopen₂ : (r₂.checkpoints.get? "s").isSome := by
    rw [hr₂, checkpoints_publish_isSome]
    exact Or.inl rfl
  have hslot₂ : (r₂.slot "s").isSome := by
    rw [hr₂, slot_publish]
    have hsv := hserved₁.serves
    rw [hs] at hsv
    rw [← (Prod.mk.inj hsv).2]
    rfl
  -- the append
  obtain ⟨res', v', hs'⟩ := steadyVerifier_accepting "s" (.append us) (r₂.slot "s") (by decide)
    (by simp [SessionOp.commits, hus]) fun _ => hslot₂
  obtain ⟨q₂, hrun₂, -, -⟩ :=
    commitRequest_healthy (fun cp _ => { cp with replayTokenIds := cp.replayTokenIds ++ us }) false hh₂ hst₂ hopen₂
      hcan happend hs'
  have hgrown : ∃ r₃, (perform steadyVerifier (.appendAcceptedTokens "s" us none)).run r₂ = (.ok (some res'), r₃) ∧
      r₃.checkpoint "s" = ⟨none, none, ts ++ us, true⟩ := by
    rw [hcp₂] at hrun₂
    refine ⟨q₂.publish "s" ⟨none, none, ts ++ us, true⟩ false res', ?_, ?_⟩
    · rw [perform, appendAcceptedTokens, Proc.run_bind_ok hrun₂]
      rfl
    · rw [checkpoint_publish, if_pos rfl]
  obtain ⟨r₃, hrun₃, hcp₃⟩ := hgrown
  unfold grownSession
  simp only [Machine.outputs, Machine.final, step, hget, hprefill, hrun₃]
  exact ⟨⟨res, res', rfl⟩, hcp₃⟩

theorem journalBytes_zeros (n : Nat) : journalBytes (List.replicate n 0) = n + (n - 1) := by
  have hz : (Json.int 0).length = 1 := by decide
  unfold journalBytes
  rw [List.map_replicate, List.sum_replicate, List.length_replicate, hz]
  simp

/-- A prompt of 300 000 tokens and as many appended ones: both requests fit, and the restore that repeats them in one
`Init` does not. -/
theorem grown_session_not_rebuildable :
    (Request.session "s" (.init (List.replicate 300000 0))).fits = true ∧
    (Request.session "s" (.append (List.replicate 300000 0))).fits = true ∧
    (∃ res res', Machine.outputs (step steadyVerifier) (launched [])
        (grownSession (List.replicate 300000 0) (List.replicate 300000 0)) =
      [some (.ok none), some (.ok (some res)), some (.ok (some res'))]) ∧
    ¬ (Machine.final (step steadyVerifier) (launched [])
        (grownSession (List.replicate 300000 0) (List.replicate 300000 0))).Rebuildable "s" := by
  have hs : (Json.str "s").length = 3 := by decide
  have hmax : maxHeaderBytes = 1048576 := by decide
  have hinit : (Request.session "s" (.init (List.replicate 300000 0))).fits = true := by
    rw [Request.init_fits_iff, length_arr_int, journalBytes_zeros, hs, hmax]
    omega
  have happend : (Request.session "s" (.append (List.replicate 300000 0))).fits = true := by
    rw [Request.append_fits_iff, length_arr_int, journalBytes_zeros, hs, hmax]
    omega
  have hne : (List.replicate 300000 0 : List Token) ≠ [] := by
    intro h
    have := congrArg List.length h
    rw [List.length_replicate] at this
    cases this
  obtain ⟨hout, hcp⟩ := grownSession_journal hne hinit happend
  refine ⟨hinit, happend, hout, fun h => ?_⟩
  unfold Rebuildable restoreOps at h
  rw [hcp] at h
  have hfit := h (.init (List.replicate 300000 0 ++ List.replicate 300000 0)) List.mem_cons_self
  rw [List.replicate_append_replicate, Request.init_fits_iff, length_arr_int, journalBytes_zeros, hs, hmax] at hfit
  omega

end Router

end KakeyaEngine
