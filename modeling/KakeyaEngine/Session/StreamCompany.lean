import KakeyaEngine.Session.StreamProtocol

/-!
# Streams in company

While a stream works under the guard of its session, other streams of the session are turned away there, and the streams
of other sessions work on theirs.  So nothing else writes to the session, and the guard is held exactly while a stream is
under it, however it ends.

The environment may remove a session at any time, and do anything to a session that is not generating (`Undisturbing`).
-/

namespace KakeyaEngine

namespace Stream

open Server (Undisturbed Follows Quiet)

variable {β η ε τ : Type} (vs : Verifiers β η ε) (kvLiveBytes : SessionId → η → β → Int)

/-! ### The stages of a stream -/

/-- Where the stream of a request is. -/
inductive Stage (sid : SessionId) (r : Request) : StreamProg β η ε Unit → Prop
  | requested : Stage sid r (generate vs kvLiveBytes sid r.1 r.2)
  | entering : Stage sid r (guarded vs kvLiveBytes sid r.1 r.2)
  | inside (rest : StreamProg β η ε Unit) (hrest : Working sid rest) : Stage sid r (rest.andThen (release sid))
  | ended (e : Except (StreamError ε) Unit) : Stage sid r (.done e)

/-- The state with the guard of the session held. -/
def entered (sid : SessionId) (m : Metered β ε) : Metered β ε :=
  { m with server := { m.server with generating := sid :: m.server.generating } }

/-- The state with the guard of the session released. -/
def left (sid : SessionId) (m : Metered β ε) : Metered β ε :=
  { m with server := { m.server with generating := m.server.generating.filter fun x => x ≠ sid } }

/-- What a step of the stream of a request does. -/
inductive Moved (sid : SessionId) (r : Request) (m : Metered β ε) :
    StreamLabel η → Metered β ε → StreamProg β η ε Unit → Prop
  | waits (q : StreamProg β η ε Unit) (hq : Stage vs kvLiveBytes sid r q) (hout : underGuard q = false) :
    Moved sid r m .outside m q
  | enters (hfree : sid ∉ m.server.generating) :
    Moved sid r m .outside (entered sid m) ((generateEvents vs kvLiveBytes sid r.1 r.2).andThen (release sid))
  | works (m' : Metered β ε) (rest : StreamProg β η ε Unit) (hfollows : Follows sid m.server m'.server)
    (hrest : Working sid rest) (k : StreamLabel η) (hk : k ≠ .outside) :
    Moved sid r m k m' (rest.andThen (release sid))
  | leaves (e : Except (StreamError ε) Unit) : Moved sid r m .inside (left sid m) (.done e)

variable {vs kvLiveBytes} {sid : SessionId} {r : Request} {m : Metered β ε}

theorem underGuard_iff {q : StreamProg β η ε Unit} {k : StreamLabel η} (hk : q.pending = some k) :
    underGuard q = true ↔ k ≠ .outside := by
  unfold underGuard
  rw [hk]
  cases k <;> simp

theorem inside_underGuard (hm : Sound m) {rest : StreamProg β η ε Unit} (hrest : Working sid rest) :
    underGuard (rest.andThen (release sid)) = true := by
  cases rest with
  | done e => rfl
  | step k act next =>
    have hk : k ≠ .outside := (hrest ⟨⟨0, none⟩, false⟩ m hm).2.1.1
    exact (underGuard_iff rfl).2 hk

/-- What the next step of a stream does. -/
theorem Stage.moved {k : StreamLabel η} {act : Pull → Metered β ε → Metered β ε}
    {next : Pull → Metered β ε → StreamProg β η ε Unit} (h : Stage vs kvLiveBytes sid r (.step k act next)) (hm : Sound m)
    (i : Pull) : Moved vs kvLiveBytes sid r m k (act i m) (next i m) := by
  generalize hq : Prog.step k act next = q at h
  cases h with
  | requested =>
    obtain ⟨rfl, rfl, rfl⟩ := Prog.step.inj hq
    dsimp only
    cases i.closed with
    | false => exact .waits _ .entering rfl
    | true => exact .waits _ (.ended (.error .generatorExit)) rfl
  | entering =>
    obtain ⟨rfl, rfl, rfl⟩ := Prog.step.inj hq
    dsimp only
    rw [run_onServer, Server.run_enterGuard]
    split
    · exact .waits _ (.ended _) rfl
    · rename_i hfree
      exact .enters hfree
  | inside rest hrest =>
    cases rest with
    | done e =>
      obtain ⟨rfl, rfl, rfl⟩ := Prog.step.inj hq
      exact .leaves e
    | step k' act' next' =>
      obtain ⟨rfl, rfl, rfl⟩ := Prog.step.inj hq
      obtain ⟨-, ⟨hk, hfollows⟩, hnext⟩ := hrest i m hm
      exact .works _ _ hfollows hnext k hk
  | ended e => cases hq

/-! ### The guard -/

/-- What the environment may do: it leaves the guard alone, and the sessions under it up to their removal. -/
structure Undisturbing (m m' : Metered β ε) : Prop where
  sound : Sound m → Sound m'
  generating : m'.server.generating = m.server.generating
  sessions : ∀ sid ∈ m.server.generating, Undisturbed sid m.server m'.server

/-- A step for a session that is not under the guard, such as one of `AppendTokens` (`Server.appendTokens_follows`). -/
theorem undisturbing_of_follows {m' : Metered β ε} (h : Follows sid m.server m'.server)
    (hsid : sid ∉ m.server.generating) : Undisturbing m m' := by
  refine ⟨fun _ => h.consistent, h.generating, fun id hid => h.others id ?_⟩
  rintro rfl
  exact hsid hid

/-- An event of the server. -/
def serverTurn {ρ : Type} (vs : Verifiers β η ε) (act : ρ → β → β) (e : Server.ServerEvent ρ) (m : Metered β ε) :
    Metered β ε :=
  { m with server := Server.turn vs act e m.server }

variable (vs) in
/-- The events of the server are undisturbing, as long as no id is issued twice. -/
theorem turn_undisturbing {ρ : Type} (act : ρ → β → β) (hm : Sound m) (e : Server.ServerEvent ρ)
    (hfresh : ∀ hex eos label created active, e = .createSession hex eos label created active →
      ¬ m.server.store.Live (Server.issueId hex) ∧ Server.issueId hex ∉ m.server.generating) :
    Undisturbing m (serverTurn vs act e m) := by
  have hcall : ∀ {α : Type} {x : SessionProc α} {issued : Option SessionId}, (x.run m.server.store).2.Consistent →
      SessionStore.Pruned issued m.server.store (x.run m.server.store).2 →
      (∀ id, issued = some id → id ∉ m.server.generating) →
      Undisturbing m { m with server := ((Server.callStore vs x).run m.server).2 } := by
    intro α x issued hcons hpruned hissued
    refine ⟨fun _ => hcons, rfl, fun id hid => ⟨rfl, ?_⟩⟩
    rcases hpruned.2 id fun heq => hissued id heq hid with hsame | hgone
    · exact SessionStore.KeepsHistory.of_eq hsame
    · intro y hy
      cases hgone.symm.trans hy
  cases e with
  | createSession hex eos label created active =>
    obtain ⟨hnew, hguard⟩ := hfresh hex eos label created active rfl
    obtain ⟨hcons, -⟩ := SessionStore.createSession_spec hm (fun _ => none) hnew eos label created active
    refine hcall hcons (SessionStore.createSession_pruned hm _ eos label created active) fun id hid => ?_
    rw [← Option.some.inj hid]
    exact hguard
  | closeSession id =>
    exact hcall (SessionStore.closeSession_lowers (fun _ => none) id _ hm).1 (SessionStore.closeSession_pruned hm id) (by simp)
  | removeSessionIfPresent id reason =>
    exact hcall (SessionStore.removeSessionIfPresent_lowers (fun _ => none) id reason _ hm).1
      (SessionStore.removeSessionIfPresent_pruned hm id reason) (by simp)
  | evictIdle ttl clock =>
    exact hcall (SessionStore.evictIdle_lowers (fun _ => none) ttl clock _ hm).1
      (SessionStore.evictIdleLoop_pruned ttl clock _ hm) (by simp)
  | verifiers t => exact ⟨id, rfl, fun id _ => ⟨rfl, SessionStore.KeepsHistory.of_eq rfl⟩⟩

/-- What happens between the steps of the streams is undisturbing. -/
def Admitted (turn : τ → Metered β ε → Metered β ε) (p : Company β η ε) (mv : Move Pull SessionId Request τ) : Prop :=
  ∀ t, mv = .turn t → Undisturbing p.shared (turn t p.shared)

instance (p : Company β η ε) (name : SessionId × Nat) : Decidable (Active p name) := by
  unfold Active
  infer_instance

variable (vs kvLiveBytes) in
/-- The guard is held exactly for the sessions with a stream under it, one for each. -/
structure Guarded (p : Company β η ε) : Prop where
  sound : Sound p.shared
  stages : ∀ name q, p.programs.get? name = some q → ∃ r, Stage vs kvLiveBytes name.1 r q
  guards : ∀ sid, sid ∈ p.shared.server.generating ↔ ∃ n, Active p (sid, n)
  alone : ∀ sid n n', Active p (sid, n) → Active p (sid, n') → n = n'

variable {p : Company β η ε} {turn : τ → Metered β ε → Metered β ε}

theorem active_set {name name' : SessionId × Nat} {q : StreamProg β η ε Unit} :
    Active ⟨m, p.programs.set name q⟩ name' ↔ if name' = name then underGuard q = true else Active p name' := by
  unfold Active
  dsimp only
  rw [Dict.get?_set]
  split
  · rfl
  · rfl

theorem active_iff {name : SessionId × Nat} {q : StreamProg β η ε Unit} (hq : p.programs.get? name = some q) :
    Active p name ↔ underGuard q = true := by
  unfold Active
  rw [hq]
  rfl

theorem Guarded.stages_set (hp : Guarded vs kvLiveBytes p) {name : SessionId × Nat} {q : StreamProg β η ε Unit}
    (hq : Stage vs kvLiveBytes name.1 r q) (name' : SessionId × Nat) (q' : StreamProg β η ε Unit)
    (h : (p.programs.set name q).get? name' = some q') : ∃ r, Stage vs kvLiveBytes name'.1 r q' := by
  rw [Dict.get?_set] at h
  split at h
  · rename_i heq
    rw [heq, ← Option.some.inj h]
    exact ⟨r, hq⟩
  · exact hp.stages name' q' h

/-- A step that neither enters nor leaves the guard. -/
theorem Guarded.set (hp : Guarded vs kvLiveBytes p) {name : SessionId × Nat} {q : StreamProg β η ε Unit}
    (hq : Stage vs kvLiveBytes name.1 r q) (hm : Sound m) (hgen : m.server.generating = p.shared.server.generating)
    (hactive : underGuard q = true ↔ Active p name) : Guarded vs kvLiveBytes ⟨m, p.programs.set name q⟩ := by
  have hsame : ∀ name', Active ⟨m, p.programs.set name q⟩ name' ↔ Active p name' := by
    intro name'
    rw [active_set]
    split
    · rename_i heq
      rw [heq]
      exact hactive
    · rfl
  refine ⟨hm, hp.stages_set hq, fun id => ?_, fun id n n' hn hn' => ?_⟩
  · simp only [hsame, hgen]
    exact hp.guards id
  · exact hp.alone id n n' ((hsame _).1 hn) ((hsame _).1 hn')

theorem Guarded.enter (hp : Guarded vs kvLiveBytes p) {name : SessionId × Nat} {q : StreamProg β η ε Unit}
    (hq : Stage vs kvLiveBytes name.1 r q) (hin : underGuard q = true)
    (hfree : name.1 ∉ p.shared.server.generating) :
    Guarded vs kvLiveBytes ⟨entered name.1 p.shared, p.programs.set name q⟩ := by
  have hnone : ∀ n, ¬ Active p (name.1, n) := fun n hn => hfree ((hp.guards name.1).2 ⟨n, hn⟩)
  have hown : ∀ n, Active ⟨entered name.1 p.shared, p.programs.set name q⟩ (name.1, n) ↔ n = name.2 := by
    intro n
    rw [active_set]
    split
    · rename_i heq
      exact ⟨fun _ => congrArg Prod.snd heq, fun _ => hin⟩
    · rename_i hne
      exact ⟨fun hn => absurd hn (hnone n), fun hn => (hne (Prod.ext rfl hn)).elim⟩
  have hother : ∀ id n, id ≠ name.1 →
      (Active ⟨entered name.1 p.shared, p.programs.set name q⟩ (id, n) ↔ Active p (id, n)) := by
    intro id n hid
    rw [active_set, if_neg fun heq => hid (congrArg Prod.fst heq)]
  refine ⟨hp.sound, hp.stages_set hq, fun id => ?_, fun id n n' hn hn' => ?_⟩
  · by_cases hid : id = name.1
    · rw [hid]
      simp only [hown]
      exact ⟨fun _ => ⟨name.2, rfl⟩, fun _ => List.mem_cons_self⟩
    · simp only [hother id _ hid]
      rw [← hp.guards id]
      exact List.mem_cons.trans (or_iff_right hid)
  · by_cases hid : id = name.1
    · subst hid
      rw [(hown n).1 hn, (hown n').1 hn']
    · exact hp.alone id n n' ((hother id n hid).1 hn) ((hother id n' hid).1 hn')

theorem Guarded.leave (hp : Guarded vs kvLiveBytes p) {name : SessionId × Nat} (hactive : Active p name)
    (e : Except (StreamError ε) Unit) :
    Guarded vs kvLiveBytes ⟨left name.1 p.shared, p.programs.set name (.done e)⟩ := by
  have hown : ∀ n, ¬ Active ⟨left name.1 p.shared, p.programs.set name (.done e)⟩ (name.1, n) := by
    intro n hn
    rw [active_set] at hn
    split at hn
    · cases hn
    · rename_i hne
      exact hne (Prod.ext rfl (hp.alone name.1 n name.2 hn hactive))
  have hother : ∀ id n, id ≠ name.1 →
      (Active ⟨left name.1 p.shared, p.programs.set name (.done e)⟩ (id, n) ↔ Active p (id, n)) := by
    intro id n hid
    rw [active_set, if_neg fun heq => hid (congrArg Prod.fst heq)]
  refine ⟨hp.sound, hp.stages_set (r := (1, {})) (.ended e), fun id => ?_, fun id n n' hn hn' => ?_⟩
  · have hmem : id ∈ (left name.1 p.shared).server.generating ↔ id ∈ p.shared.server.generating ∧ id ≠ name.1 := by
      simp [left]
    rw [hmem]
    by_cases hid : id = name.1
    · rw [hid]
      exact ⟨fun h => absurd rfl h.2, fun ⟨n, hn⟩ => absurd hn (hown n)⟩
    · simp only [hother id _ hid]
      rw [← hp.guards id]
      exact and_iff_left hid
  · by_cases hid : id = name.1
    · subst hid
      exact absurd hn (hown n)
    · exact hp.alone id n n' ((hother id n hid).1 hn) ((hother id n' hid).1 hn')

/-! ### Moves -/

variable (vs kvLiveBytes) in
/-- What a move of the company does: nothing, or a stream is asked for or makes a step, or the environment acts. -/
inductive Turned (turn : τ → Metered β ε → Metered β ε) (p : Company β η ε) :
    Move Pull SessionId Request τ → Company β η ε → Prop
  | idle (mv : Move Pull SessionId Request τ) : Turned turn p mv p
  | asked (name : SessionId × Nat) (r : Request) (hnew : p.programs.get? name = none) :
    Turned turn p (.start name r) ⟨p.shared, p.programs.set name (generate vs kvLiveBytes name.1 r.1 r.2)⟩
  | stepped (name : SessionId × Nat) (i : Pull) (k : StreamLabel η) (q q' : StreamProg β η ε Unit) (m' : Metered β ε)
    (hq : p.programs.get? name = some q) (hk : q.pending = some k)
    (hmoved : ∀ r, Stage vs kvLiveBytes name.1 r q → Moved vs kvLiveBytes name.1 r p.shared k m' q')
    (hsurvives : ∀ Q : Except (StreamError ε) Unit → Metered β ε → Prop,
      q.Survives (Others name.1) Q p.shared → q'.Survives (Others name.1) Q m') :
    Turned turn p (.step name i) ⟨m', p.programs.set name q'⟩
  | turned (t : τ) : Turned turn p (.turn t) ⟨turn t p.shared, p.programs⟩

variable (vs kvLiveBytes turn) in
theorem step_turned (hm : Sound p.shared) (mv : Move Pull SessionId Request τ) :
    Turned vs kvLiveBytes turn p mv (step vs kvLiveBytes turn p mv).2 := by
  unfold step Pool.move
  cases mv with
  | turn t => exact .turned t
  | start name r =>
    dsimp only
    split
    · exact .idle _
    · rename_i hnew
      exact .asked name r (Option.not_isSome_iff_eq_none.1 hnew)
  | step name i =>
    dsimp only
    cases hq : p.programs.get? name with
    | none => exact .idle _
    | some q =>
      cases q with
      | done e => exact .idle _
      | step k act next =>
        exact .stepped name i k _ _ _ hq rfl (fun r h => h.moved hm i) fun Q h => h.step (Others.refl name.1) i

theorem Moved.stage {k : StreamLabel η} {m' : Metered β ε} {q : StreamProg β η ε Unit}
    (h : Moved vs kvLiveBytes sid r m k m' q) : Stage vs kvLiveBytes sid r q := by
  cases h with
  | waits q hq hout => exact hq
  | enters hfree => exact .inside _ (generateEvents_working vs kvLiveBytes sid r.1 r.2)
  | works m' rest hfollows hrest k hin' => exact .inside rest hrest
  | leaves e => exact .ended e

theorem Moved.sound {k : StreamLabel η} {m' : Metered β ε} {q : StreamProg β η ε Unit}
    (h : Moved vs kvLiveBytes sid r m k m' q) (hm : Sound m) : Sound m' := by
  cases h with
  | waits q hq hout => exact hm
  | enters hfree => exact hm
  | works m' rest hfollows hrest k hin' => exact hfollows.consistent
  | leaves e => exact hm

/-- A step of a stream of another session. -/
theorem Moved.others {k : StreamLabel η} {m' : Metered β ε} {q : StreamProg β η ε Unit}
    (h : Moved vs kvLiveBytes sid r m k m' q) {id : SessionId} (hid : id ≠ sid) :
    Undisturbed id m.server m'.server := by
  cases h with
  | waits q hq hout => exact Undisturbed.refl id m.server
  | enters hfree => exact ⟨rfl, SessionStore.KeepsHistory.of_eq rfl⟩
  | works m' rest hfollows hrest k hin' => exact hfollows.others id hid
  | leaves e => exact ⟨rfl, SessionStore.KeepsHistory.of_eq rfl⟩

theorem Guarded.step (hp : Guarded vs kvLiveBytes p) {mv : Move Pull SessionId Request τ} (hadm : Admitted turn p mv) :
    Guarded vs kvLiveBytes (step vs kvLiveBytes turn p mv).2 := by
  have hturned := step_turned vs kvLiveBytes turn hp.sound mv
  generalize (Stream.step vs kvLiveBytes turn p mv).2 = p' at hturned ⊢
  cases hturned with
  | idle => exact hp
  | asked name r hnew =>
    have hnot : ¬ Active p name := by
      unfold Active
      rw [hnew]
      nofun
    exact hp.set .requested hp.sound rfl ⟨nofun, fun h => absurd h hnot⟩
  | stepped name i k q q' m' hq hk hmoved hsurvives =>
    obtain ⟨r, hstage⟩ := hp.stages name q hq
    have hactive := (active_iff hq).trans (underGuard_iff hk)
    have hm := hmoved r hstage
    have hstage' := hm.stage
    have hsound := hm.sound hp.sound
    cases hm with
    | waits q' hq' hout =>
      exact hp.set hq' hsound rfl ⟨fun h => absurd (hout.symm.trans h) nofun, fun h => absurd rfl (hactive.1 h)⟩
    | enters hfree => exact hp.enter hstage' (inside_underGuard hsound (generateEvents_working _ _ _ _ _)) hfree
    | works m' rest hfollows hrest k hin' =>
      exact hp.set hstage' hsound hfollows.generating 
        ⟨fun _ => hactive.2 hin', fun _ => inside_underGuard hsound hrest⟩
    | leaves e => exact hp.leave (hactive.2 nofun) e
  | turned t =>
    obtain ⟨hsound, hgen, -⟩ := hadm t rfl
    refine ⟨hsound hp.sound, hp.stages, fun id => ?_, hp.alone⟩
    show id ∈ (turn t p.shared).server.generating ↔ _
    rw [hgen]
    exact hp.guards id

/-! ### The course of one stream -/

/-- The stream goes on under the guard to what `Q` allows, or has ended. -/
def OnCourse (name : SessionId × Nat) (Q : Except (StreamError ε) Unit → Metered β ε → Prop) (p : Company β η ε) : Prop :=
  ∃ q, p.programs.get? name = some q ∧
    (underGuard q = true ∧ q.Survives (Others name.1) Q p.shared ∨ ∃ e, q = .done e)

/-- A step of another stream leaves the session alone whose guard is held. -/
theorem Moved.undisturbed (hp : Guarded vs kvLiveBytes p) {name name' : SessionId × Nat} (hactive : Active p name)
    (hne : name' ≠ name) {k : StreamLabel η} {q q' : StreamProg β η ε Unit} {m' : Metered β ε}
    (hq : p.programs.get? name' = some q) (hk : q.pending = some k)
    (h : Moved vs kvLiveBytes name'.1 r p.shared k m' q') : Undisturbed name.1 p.shared.server m'.server := by
  by_cases hsid : name.1 = name'.1
  · have hheld : name'.1 ∈ p.shared.server.generating := (hp.guards _).2 ⟨name.2, by rw [← hsid]; exact hactive⟩
    have hturnedAway : k = .outside := by
      by_contra hin
      have hactive' : Active p (name.1, name'.2) := by
        rw [hsid]
        exact ((active_iff hq).trans (underGuard_iff hk)).2 hin
      exact hne (Prod.ext hsid.symm (hp.alone name.1 _ _ hactive' hactive))
    cases h with
    | waits q hq hout => exact Undisturbed.refl name.1 _
    | enters hfree => exact absurd hheld hfree
    | works m' rest hfollows hrest k hin' => exact absurd hturnedAway hin'
    | leaves e => cases hturnedAway
  · exact h.others hsid

theorem OnCourse.step (hp : Guarded vs kvLiveBytes p) {name : SessionId × Nat}
    {Q : Except (StreamError ε) Unit → Metered β ε → Prop} (h : OnCourse name Q p) {mv : Move Pull SessionId Request τ}
    (hadm : Admitted turn p mv) : OnCourse name Q (step vs kvLiveBytes turn p mv).2 := by
  have hturned := step_turned vs kvLiveBytes turn hp.sound mv
  generalize (Stream.step vs kvLiveBytes turn p mv).2 = p' at hturned ⊢
  obtain ⟨q, hq, hcourse⟩ := h
  have hinterfere : ∀ m', (Active p name → Sound m' ∧ Undisturbed name.1 p.shared.server m'.server) →
      (underGuard q = true ∧ q.Survives (Others name.1) Q m' ∨ ∃ e, q = .done e) := by
    intro m' hm'
    rcases hcourse with ⟨hin, hsurvives⟩ | hended
    · obtain ⟨hsound, hsame⟩ := hm' ((active_iff hq).2 hin)
      refine Or.inl ⟨hin, hsurvives.interfere Others.trans (fun _ _ => ⟨fun _ => hsound, hsame⟩) ?_⟩
      rintro e rfl
      cases hin
    · exact Or.inr hended
  cases hturned with
  | idle => exact ⟨q, hq, hcourse⟩
  | asked name' r hnew =>
    have hne : name ≠ name' := by
      rintro rfl
      cases hq.symm.trans hnew
    exact ⟨q, (Dict.get?_set_ne _ hne).trans hq, hcourse⟩
  | stepped name' i k q₀ q' m' hq₀ hk hmoved hsurvives =>
    obtain ⟨r, hstage⟩ := hp.stages name' q₀ hq₀
    have hm := hmoved r hstage
    by_cases hname : name' = name
    · subst hname
      obtain rfl : q₀ = q := Option.some.inj (hq₀.symm.trans hq)
      refine ⟨q', Dict.get?_set_self _ _ _, ?_⟩
      rcases hcourse with ⟨hin, hsurv⟩ | ⟨e, rfl⟩
      · have hk' := (underGuard_iff hk).1 hin
        have hgo := hsurvives Q hsurv
        have hsound := hm.sound hp.sound
        cases hm with
        | waits q' hq' hout => exact absurd rfl hk'
        | enters hfree => exact absurd rfl hk'
        | works m' rest hfollows hrest k hin' => exact Or.inl ⟨inside_underGuard hsound hrest, hgo⟩
        | leaves e => exact Or.inr ⟨e, rfl⟩
      · cases hk
    · refine ⟨q, (Dict.get?_set_ne _ fun heq => hname heq.symm).trans hq, hinterfere m' fun hactive => ?_⟩
      exact ⟨hm.sound hp.sound, hm.undisturbed hp hactive hname hq₀ hk⟩
  | turned t =>
    obtain ⟨hsound, hgen, hsame⟩ := hadm t rfl
    refine ⟨q, hq, hinterfere _ fun hactive => ⟨hsound hp.sound, hsame _ ?_⟩⟩
    exact (hp.guards _).2 ⟨name.2, hactive⟩

/-- The move with which a stream leaves the guard. -/
theorem OnCourse.ends (hp : Guarded vs kvLiveBytes p) {name : SessionId × Nat}
    {Q : Except (StreamError ε) Unit → Metered β ε → Prop} (h : OnCourse name Q p) (hactive : Active p name)
    {mv : Move Pull SessionId Request τ} {e : Except (StreamError ε) Unit}
    (hend : (Stream.step vs kvLiveBytes turn p mv).2.programs.get? name = some (.done e)) :
    Q e (Stream.step vs kvLiveBytes turn p mv).2.shared ∧
      name.1 ∉ (Stream.step vs kvLiveBytes turn p mv).2.shared.server.generating := by
  have hturned := step_turned vs kvLiveBytes turn hp.sound mv
  generalize (Stream.step vs kvLiveBytes turn p mv).2 = p' at hturned hend ⊢
  obtain ⟨q, hq, hcourse⟩ := h
  have hin := (active_iff hq).1 hactive
  have hgoing : ∀ {d : Dict (SessionId × Nat) (StreamProg β η ε Unit)}, d.get? name = some (.done e) →
      d.get? name ≠ p.programs.get? name := by
    intro d hd heq
    rw [heq, hq] at hd
    rw [Option.some.inj hd] at hin
    cases hin
  cases hturned with
  | idle => exact absurd rfl (hgoing hend)
  | asked name' r hnew =>
    have hne : name ≠ name' := by
      rintro rfl
      cases hq.symm.trans hnew
    exact absurd (Dict.get?_set_ne _ hne) (hgoing hend)
  | stepped name' i k q₀ q' m' hq₀ hk hmoved hsurvives =>
    obtain ⟨r, hstage⟩ := hp.stages name' q₀ hq₀
    have hm := hmoved r hstage
    by_cases hname : name' = name
    · subst hname
      obtain rfl : q₀ = q := Option.some.inj (hq₀.symm.trans hq)
      have hk' := (underGuard_iff hk).1 hin
      obtain rfl : q' = .done e := Option.some.inj ((Dict.get?_set_self _ _ _).symm.trans hend)
      rcases hcourse with ⟨-, hsurv⟩ | ⟨e', rfl⟩
      · have hgo := hsurvives Q hsurv
        have hsound := hm.sound hp.sound
        generalize hq' : (Prog.done e : StreamProg β η ε Unit) = q' at hm
        cases hm with
        | waits q' hq' hout => exact absurd rfl hk'
        | enters hfree => exact absurd rfl hk'
        | works m' rest hfollows hrest k hin' =>
          have := inside_underGuard hsound hrest
          rw [← hq'] at this
          cases this
        | leaves e' => exact ⟨hgo, by simp [left]⟩
      · cases hin
    · exact absurd (Dict.get?_set_ne _ fun heq => hname heq.symm) (hgoing hend)
  | turned t => exact absurd rfl (hgoing hend)

/-! ### Runs -/

/-- How a stream has ended. -/
def outcome (p : Company β η ε) (name : SessionId × Nat) : Option (Except (StreamError ε) Unit) :=
  match p.programs.get? name with
  | some (.done e) => some e
  | _ => none

theorem outcome_eq_some {name : SessionId × Nat} {e : Except (StreamError ε) Unit} :
    outcome p name = some e ↔ p.programs.get? name = some (.done e) := by
  unfold outcome
  cases p.programs.get? name with
  | none => simp
  | some q =>
    cases q with
    | done e' => simp
    | step k act next => simp

/-- What a stream that ended by itself has done since it entered the guard in the state `m`: it has shown the protocol of
some tokens, and the history, if it is still stored, has been extended by these tokens. -/
def Fulfils (sid : SessionId) (maxTokens : Int) (m m' : Metered β ε) : Prop :=
  ∃ x tokens events, m.server.store.sessions.get? sid = some x ∧ Protocol maxTokens x.eosTokenIds tokens events ∧
    shown sid m' = shown sid m ++ events.map .event ∧
    ∀ y, m'.server.store.sessions.get? sid = some y → y.historyTokenIds = x.historyTokenIds ++ tokens

/-- From its entry on a stream goes to the end of the protocol, or raises. -/
theorem entered_survives (hm : Sound m) (r : Request) :
    ((generateEvents vs kvLiveBytes sid r.1 r.2).andThen (release sid)).Survives (Others sid)
      (fun e m' => e = .ok () → Fulfils sid r.1 m m') (entered sid m) := by
  refine Prog.Survives.andThen (Prog.Survives.mono (generateEvents_returns vs kvLiveBytes (m := entered sid m) hm r.1 r.2) ?_)
  intro e m₁ h₁ m₂ h₂ i
  show e = .ok () → _
  rintro rfl
  obtain ⟨x, tokens, events, hx, hprotocol, hemitted⟩ := h₁ () rfl
  have hend := hemitted.interfere h₂
  exact ⟨x, tokens, events, hx, hprotocol, hend.shown, fun y hy => (hend.history y hy).1⟩

/-- A stream that comes under the guard is on its course. -/
theorem Guarded.entry (hp : Guarded vs kvLiveBytes p) {name : SessionId × Nat} {q : StreamProg β η ε Unit}
    (hq : p.programs.get? name = some q) (hstage : Stage vs kvLiveBytes name.1 r q) (hnot : ¬ Active p name)
    {mv : Move Pull SessionId Request τ} (hactive : Active (Stream.step vs kvLiveBytes turn p mv).2 name) :
    OnCourse name (fun e m' => e = .ok () → Fulfils name.1 r.1 p.shared m') (Stream.step vs kvLiveBytes turn p mv).2 := by
  have hturned := step_turned vs kvLiveBytes turn hp.sound mv
  generalize (Stream.step vs kvLiveBytes turn p mv).2 = p' at hturned hactive ⊢
  cases hturned with
  | idle => exact absurd hactive hnot
  | asked name' r' hnew =>
    rw [active_set] at hactive
    split at hactive
    · cases hactive
    · exact absurd hactive hnot
  | stepped name' i k q₀ q' m' hq₀ hk hmoved hsurvives =>
    rw [active_set] at hactive
    split at hactive
    · rename_i hname
      subst hname
      obtain rfl : q₀ = q := Option.some.inj (hq₀.symm.trans hq)
      have hout : k = .outside := by
        by_contra hin
        exact hnot (((active_iff hq).trans (underGuard_iff hk)).2 hin)
      have hm := hmoved r hstage
      cases hm with
      | waits q' hq' hout' => exact absurd (hout'.symm.trans hactive) nofun
      | enters hfree => exact ⟨_, Dict.get?_set_self _ _ _, Or.inl ⟨hactive, entered_survives hp.sound r⟩⟩
      | works m' rest hfollows hrest k hin' => exact absurd hout hin'
      | leaves e => cases hout
    · exact absurd hactive hnot
  | turned t => exact absurd hactive hnot

/-- A stream stays the one that was asked for. -/
theorem Guarded.stage_step (hp : Guarded vs kvLiveBytes p) {name : SessionId × Nat} {q : StreamProg β η ε Unit}
    (hq : p.programs.get? name = some q) (hstage : Stage vs kvLiveBytes name.1 r q)
    (mv : Move Pull SessionId Request τ) :
    ∃ q', (Stream.step vs kvLiveBytes turn p mv).2.programs.get? name = some q' ∧ Stage vs kvLiveBytes name.1 r q' := by
  have hturned := step_turned vs kvLiveBytes turn hp.sound mv
  generalize (Stream.step vs kvLiveBytes turn p mv).2 = p' at hturned ⊢
  cases hturned with
  | idle => exact ⟨q, hq, hstage⟩
  | asked name' r' hnew =>
    have hne : name ≠ name' := by
      rintro rfl
      cases hq.symm.trans hnew
    exact ⟨q, (Dict.get?_set_ne _ hne).trans hq, hstage⟩
  | stepped name' i k q₀ q' m' hq₀ hk hmoved hsurvives =>
    by_cases hname : name = name'
    · subst hname
      obtain rfl : q₀ = q := Option.some.inj (hq₀.symm.trans hq)
      exact ⟨q', Dict.get?_set_self _ _ _, (hmoved r hstage).stage⟩
    · exact ⟨q, (Dict.get?_set_ne _ hname).trans hq, hstage⟩
  | turned t => exact ⟨q, hq, hstage⟩

variable (vs kvLiveBytes turn) in
/-- In the run the stream is asked for, enters the guard in the state `m`, and ends with the last move. -/
def Ends (start : Company β η ε) (run : List (Move Pull SessionId Request τ)) (name : SessionId × Nat) (r : Request)
    (m : Metered β ε) (e : Except (StreamError ε) Unit) : Prop :=
  ∃ before between enter during last, run = before ++ .start name r :: between ++ enter :: during ++ [last] ∧
    (Machine.final (Stream.step vs kvLiveBytes turn) start before).programs.get? name = none ∧
    (Machine.final (Stream.step vs kvLiveBytes turn) start (before ++ .start name r :: between)).shared = m ∧
    ¬ Active (Machine.final (Stream.step vs kvLiveBytes turn) start (before ++ .start name r :: between)) name ∧
    Active (Machine.final (Stream.step vs kvLiveBytes turn) start (before ++ .start name r :: between ++ [enter])) name ∧
    Active (Machine.final (Stream.step vs kvLiveBytes turn) start
      (before ++ .start name r :: between ++ enter :: during)) name ∧
    (Machine.final (Stream.step vs kvLiveBytes turn) start run).programs.get? name = some (.done e)

theorem final_guarded (hp : Guarded vs kvLiveBytes p) {run : List (Move Pull SessionId Request τ)}
    (hadm : Machine.AllSteps (Stream.step vs kvLiveBytes turn) (Admitted turn) p run) :
    Guarded vs kvLiveBytes (Machine.final (Stream.step vs kvLiveBytes turn) p run) :=
  Machine.final_of_steps (fun _ _ hp hadm => hp.step hadm) hp hadm

theorem final_stage (hp : Guarded vs kvLiveBytes p) {name : SessionId × Nat} {q : StreamProg β η ε Unit}
    (hq : p.programs.get? name = some q) (hstage : Stage vs kvLiveBytes name.1 r q)
    {run : List (Move Pull SessionId Request τ)}
    (hadm : Machine.AllSteps (Stream.step vs kvLiveBytes turn) (Admitted turn) p run) :
    ∃ q', (Machine.final (Stream.step vs kvLiveBytes turn) p run).programs.get? name = some q' ∧
      Stage vs kvLiveBytes name.1 r q' := by
  have hrun := Machine.final_of_steps
    (I := fun p => Guarded vs kvLiveBytes p ∧ ∃ q, p.programs.get? name = some q ∧ Stage vs kvLiveBytes name.1 r q)
    (fun p mv h hadm => ⟨h.1.step hadm, h.1.stage_step h.2.choose_spec.1 h.2.choose_spec.2 mv⟩) ⟨hp, q, hq, hstage⟩ hadm
  exact hrun.2

theorem final_onCourse (hp : Guarded vs kvLiveBytes p) {name : SessionId × Nat}
    {Q : Except (StreamError ε) Unit → Metered β ε → Prop} (h : OnCourse name Q p)
    {run : List (Move Pull SessionId Request τ)}
    (hadm : Machine.AllSteps (Stream.step vs kvLiveBytes turn) (Admitted turn) p run) :
    OnCourse name Q (Machine.final (Stream.step vs kvLiveBytes turn) p run) := by
  have hrun := Machine.final_of_steps (I := fun p => Guarded vs kvLiveBytes p ∧ OnCourse name Q p)
    (fun p mv h hadm => ⟨h.1.step hadm, h.2.step h.1 hadm⟩) ⟨hp, h⟩ hadm
  exact hrun.2

theorem opened_guarded {store : SessionStore} (hstore : store.Consistent) (b : β) :
    Guarded vs kvLiveBytes (opened store b : Company β η ε) := by
  have hnone : ∀ name, ¬ Active (opened store b : Company β η ε) name := fun name => nofun
  refine ⟨hstore, fun name q hq => ?_, fun id => ?_, fun id n n' hn => absurd hn (hnone _)⟩
  · cases hq
  · exact ⟨nofun, fun ⟨n, hn⟩ => absurd hn (hnone _)⟩

/-- A stream from its entry to its last step. -/
theorem Guarded.course (hp : Guarded vs kvLiveBytes p) {name : SessionId × Nat} {q : StreamProg β η ε Unit}
    (hq : p.programs.get? name = some q) (hstage : Stage vs kvLiveBytes name.1 r q) (hnot : ¬ Active p name)
    {enter last : Move Pull SessionId Request τ} {during : List (Move Pull SessionId Request τ)}
    (hadm : Machine.AllSteps (Stream.step vs kvLiveBytes turn) (Admitted turn) p (enter :: during))
    (hentered : Active (Stream.step vs kvLiveBytes turn p enter).2 name)
    (hactive : Active (Machine.final (Stream.step vs kvLiveBytes turn) p (enter :: during)) name)
    {e : Except (StreamError ε) Unit} {p' : Company β η ε}
    (hlast : (Stream.step vs kvLiveBytes turn
      (Machine.final (Stream.step vs kvLiveBytes turn) p (enter :: during)) last).2 = p')
    (hend : p'.programs.get? name = some (.done e)) :
    name.1 ∉ p'.shared.server.generating ∧ (e = .ok () → Fulfils name.1 r.1 p.shared p'.shared) := by
  subst hlast
  have hcourse := final_onCourse (hp.step hadm.1) (hp.entry hq hstage hnot hentered) hadm.2
  obtain ⟨hdone, hfree⟩ := hcourse.ends (final_guarded hp hadm) hactive hend
  exact ⟨hfree, hdone⟩

theorem step_start {name : SessionId × Nat} (hnew : p.programs.get? name = none) (r : Request) :
    (Stream.step vs kvLiveBytes turn p (.start name r)).2 =
      ⟨p.shared, p.programs.set name (generate vs kvLiveBytes name.1 r.1 r.2)⟩ := by
  unfold Stream.step Pool.move
  dsimp only
  rw [if_neg (by simp [Dict.contains, hnew])]

/-- How a stream ends. -/
theorem Ends.fulfils (hp : Guarded vs kvLiveBytes p) {run : List (Move Pull SessionId Request τ)}
    (hadm : Machine.AllSteps (Stream.step vs kvLiveBytes turn) (Admitted turn) p run) {name : SessionId × Nat}
    {e : Except (StreamError ε) Unit} (h : Ends vs kvLiveBytes turn p run name r m e) :
    name.1 ∉ (Machine.final (Stream.step vs kvLiveBytes turn) p run).shared.server.generating ∧
      (e = .ok () → Fulfils name.1 r.1 m (Machine.final (Stream.step vs kvLiveBytes turn) p run).shared) := by
  obtain ⟨before, between, enter, during, last, rfl, hnew, rfl, hnot, hentered, hactive, hend⟩ := h
  rw [Machine.allSteps_append, Machine.allSteps_append, Machine.allSteps_append] at hadm
  obtain ⟨⟨⟨hbefore, hstart, hbetween⟩, hcourse⟩, -⟩ := hadm
  have hp₀ := final_guarded hp hbefore
  have hasked : (Stream.step vs kvLiveBytes turn (Machine.final (Stream.step vs kvLiveBytes turn) p before)
      (.start name r)).2.programs.get? name = some (generate vs kvLiveBytes name.1 r.1 r.2) := by
    rw [step_start hnew r]
    exact Dict.get?_set_self _ _ _
  obtain ⟨q, hq, hstage⟩ := final_stage (hp₀.step hstart) hasked .requested hbetween
  have hp₂ : Guarded vs kvLiveBytes
      (Machine.final (Stream.step vs kvLiveBytes turn) p (before ++ .start name r :: between)) := by
    rw [Machine.final_append]
    exact final_guarded (hp₀.step hstart) hbetween
  have hq₂ : (Machine.final (Stream.step vs kvLiveBytes turn) p (before ++ .start name r :: between)).programs.get? name =
      some q := by
    rw [Machine.final_append]
    exact hq
  have hlast : (Stream.step vs kvLiveBytes turn (Machine.final (Stream.step vs kvLiveBytes turn)
      (Machine.final (Stream.step vs kvLiveBytes turn) p (before ++ .start name r :: between)) (enter :: during))
      last).2 = Machine.final (Stream.step vs kvLiveBytes turn) p
        (before ++ .start name r :: between ++ enter :: during ++ [last]) := by
    rw [← Machine.final_append, Machine.final_append _ _ _ [last]]
    rfl
  rw [Machine.final_append] at hentered hactive
  exact hp₂.course hq₂ hstage hnot hcourse hentered hactive hlast hend

end Stream

/-- In every run of streams of any sessions, whatever the environment does to sessions that are not under the guard: at
most one stream of a session is under the guard, the guard is held exactly while one is, and a stream releases it when it
ends.  If it ends by itself, its events are the protocol of the tokens that it has appended to the history. -/
theorem generate_keeps_protocol {β η ε τ : Type} (vs : Verifiers β η ε) (kvLiveBytes : SessionId → η → β → Int)
    (turn : τ → Metered β ε → Metered β ε) {store : SessionStore} (hstore : store.Consistent) (b : β)
    (run : List (Move Pull SessionId Stream.Request τ))
    (hadm : Machine.AllSteps (Stream.step vs kvLiveBytes turn) (Stream.Admitted turn) (Stream.opened store b) run) :
    let p := Machine.final (Stream.step vs kvLiveBytes turn) (Stream.opened store b) run
    (∀ sid n n', Stream.Active p (sid, n) → Stream.Active p (sid, n') → n = n') ∧
    (∀ sid, sid ∈ p.shared.server.generating ↔ ∃ n, Stream.Active p (sid, n)) ∧
    ∀ name r m e, Stream.Ends vs kvLiveBytes turn (Stream.opened store b) run name r m e →
      name.1 ∉ p.shared.server.generating ∧ (e = .ok () → Stream.Fulfils name.1 r.1 m p.shared) := by
  intro p
  have hopened : Stream.Guarded (ε := ε) vs kvLiveBytes (Stream.opened store b) := Stream.opened_guarded hstore b
  have hp : Stream.Guarded vs kvLiveBytes p := Stream.final_guarded hopened hadm
  exact ⟨hp.alone, hp.guards, fun name r m e hends => hends.fulfils hopened hadm⟩

namespace Stream

/-- Opens a session with a token of history. -/
def openSession : SessionProc Unit := do
  let _ ← SessionStore.createSession (fun _ => none) "sess-1" [0] "" 0 0
  let _ ← SessionStore.appendTokens (fun _ => none) "sess-1" [7] 1 (.ok 0)
  SessionStore.recordPositionAdvance (fun _ => none) "sess-1" 1 1

/-- The store with that session. -/
def openedStore : SessionStore :=
  (openSession.run { capacity := 2, hasInspector := false, slabPool := none, hasCallback := true }).2

theorem openedStore_consistent : openedStore.Consistent := by
  obtain ⟨s₀, hs₀⟩ : ∃ s₀, SessionStore.create 2 false none true = .ok s₀ := ⟨_, rfl⟩
  obtain ⟨hcons, hnone, -⟩ := SessionStore.create_consistent hs₀ (by simp)
  obtain rfl := Except.ok.inj hs₀
  have hcreated := (SessionStore.createSession_spec hcons (fun _ => none) (hnone "sess-1") [0] "" 0 0).1
  have happended := (SessionStore.appendTokens_lowers (fun _ => none) "sess-1" [7] 1 (.ok 0) _ hcreated).1
  exact (SessionStore.recordPositionAdvance_lowers (fun _ => none) "sess-1" 1 1 _ happended).1

/-- A step of a stream of the session. -/
def overlappingStep (n : Nat) : Move Pull SessionId Request (Server.ServerEvent Empty) :=
  .step ("sess-1", n) ⟨⟨3, none⟩, false⟩

/-- Another session is created. -/
def overlappingBefore : List (Move Pull SessionId Request (Server.ServerEvent Empty)) :=
  [.turn (.createSession "2" [] "" 2 2)]

/-- A second stream of the session starts while the first one is under the guard. -/
def overlappingDuring : List (Move Pull SessionId Request (Server.ServerEvent Empty)) :=
  .start ("sess-1", 1) (2, {}) :: (List.replicate 2 (overlappingStep 1) ++ List.replicate 17 (overlappingStep 0))

/-- Two streams of the session. -/
def overlappingRun : List (Move Pull SessionId Request (Server.ServerEvent Empty)) :=
  overlappingBefore ++ .start ("sess-1", 0) (2, {}) :: [overlappingStep 0] ++ overlappingStep 0 :: overlappingDuring ++
    [overlappingStep 0]

/-- The streams after some moves. -/
abbrev overlapping (moves : List (Move Pull SessionId Request (Server.ServerEvent Empty))) :
    Company (VerifierRegistry (List Token)) Nat Unit :=
  Machine.final (step (VerifierRegistry.backend echoVerifier) (fun _ _ _ => 0)
    (serverTurn (VerifierRegistry.backend echoVerifier) Empty.elim))
    (opened openedStore (VerifierRegistry.initial echoVerifier)) moves

theorem overlappingRun_admitted : Machine.AllSteps
    (step (VerifierRegistry.backend echoVerifier) (fun _ _ _ => 0)
      (serverTurn (VerifierRegistry.backend echoVerifier) Empty.elim))
    (Admitted (serverTurn (VerifierRegistry.backend echoVerifier) Empty.elim))
    (opened openedStore (VerifierRegistry.initial echoVerifier)) overlappingRun := by
  have hrest : ∀ mv ∈ overlappingRun.tail, ∀ e, mv ≠ .turn e := by
    intro mv hmv e
    simp [overlappingRun, overlappingBefore, overlappingDuring, overlappingStep] at hmv
    rcases hmv with rfl | rfl | rfl | rfl | rfl | rfl | rfl <;> nofun
  refine ⟨?_, (Machine.allSteps_of_forall hrest).mono fun p mv hmv e he => absurd he (hmv e)⟩
  rintro e ⟨⟩
  refine turn_undisturbing (VerifierRegistry.backend echoVerifier) Empty.elim
    (m := (opened openedStore (VerifierRegistry.initial echoVerifier)).shared) openedStore_consistent _ ?_
  rintro hex eos label created active ⟨⟩
  refine ⟨?_, List.not_mem_nil⟩
  rintro ⟨x, hx⟩
  have hnone : openedStore.sessions.get? (Server.issueId "2") = none := by decide +kernel
  cases hnone.symm.trans hx

/-- The first stream shows the end token and releases the guard; the second one is turned away. -/
theorem overlapping_streams_keep_protocol :
    ("sess-1" ∉ (overlapping overlappingRun).shared.server.generating ∧
      Fulfils "sess-1" 2 (overlapping (overlappingBefore ++ .start ("sess-1", 0) (2, {}) :: [overlappingStep 0])).shared
        (overlapping overlappingRun).shared) ∧
      ((overlapping overlappingRun).shared.server.store.sessions.get? "sess-1").map Session.historyTokenIds =
        some [7, 0] ∧
      outcome (overlapping overlappingRun) ("sess-1", 1) =
        some (.error (.raised (.busy "Generate already active for session 'sess-1'"))) := by
  obtain ⟨-, -, h⟩ := generate_keeps_protocol (VerifierRegistry.backend echoVerifier) (fun _ _ _ => 0) _
    openedStore_consistent (VerifierRegistry.initial echoVerifier) overlappingRun overlappingRun_admitted
  obtain ⟨hfree, hfulfils⟩ := h ("sess-1", 0) (2, {}) _ (.ok ())
    ⟨overlappingBefore, [overlappingStep 0], overlappingStep 0, overlappingDuring, overlappingStep 0, rfl,
      rfl, rfl, by decide +kernel, by decide +kernel, by decide +kernel, outcome_eq_some.1 (by decide +kernel)⟩
  exact ⟨⟨hfree, hfulfils rfl⟩, by decide +kernel, by decide +kernel⟩

end Stream

end KakeyaEngine
