import KakeyaEngine.Session.StreamProtocol

/-!
# What generated tokens are counted and measured

A stream that ends by an end token or by `max_tokens` reports its count to `on_tokens` and writes the live bytes of the
verifier to the slab of its session; one that ends because it was cancelled does neither.  So the reported counts add up to
the tokens that were committed, and the bytes of the slab are those of the verifier, exactly when no check of the cancel
event comes upon it after a token (`accounts_iff`).
-/

namespace KakeyaEngine

namespace Server

variable {β η ε : Type} (vs : Verifiers β η ε)

/-- An advance that returns leaves the session its history and its slab. -/
theorem recordPosition_ok {sid : SessionId} {verifier : η} {clock : Int} {s s' : Server β ε} (hs : s.store.Consistent)
    (h : (recordPosition vs sid verifier clock).run s = (.ok (), s')) :
    ∃ x y, s.store.sessions.get? sid = some x ∧ s'.store.sessions.get? sid = some y ∧
      y.historyTokenIds = x.historyTokenIds ∧ y.slab = x.slab := by
  unfold recordPosition at h
  rw [Proc.run_get_bind] at h
  have hrun := of_run_callStore_ok h
  unfold SessionStore.recordPositionAdvance at hrun
  rcases SessionStore.getSession_cases hs sid with ⟨x, hget, hx, rfl⟩ | hget
  · rw [Proc.run_bind_ok hget] at hrun
    split at hrun
    · obtain ⟨u, t, hrem, hraise⟩ := Proc.of_run_bind_ok hrun
      cases (Prod.mk.inj hraise).1
    · refine ⟨x, { x with
        nextGlobalPosition := vs.nextGlobalPosition x.sessionId verifier s.verifiers, lastActiveAt := clock },
        hx, ?_, rfl, rfl⟩
      rw [← (Prod.mk.inj hrun).2]
      exact Dict.get?_set_self _ _ _
  · rw [Proc.run_bind_error hget] at hrun
    cases (Prod.mk.inj hrun).1

theorem callVerifier_store {α : Type} (x : Proc β ε α) (s : Server β ε) :
    ((callVerifier x).run s).2.store = s.store := by
  unfold callVerifier
  rw [Proc.run_focus]
  rcases x.run s.verifiers with ⟨e | a, b⟩
  · rfl
  · rfl

end Server

namespace Stream

open Server (Undisturbed Follows Quiet)

variable {β η ε α τ : Type} (vs : Verifiers β η ε) (kvLiveBytes : SessionId → η → β → Int)

/-! ### Calls one after the other -/

/-- A call of `Generate` whose stream its consumer goes through. -/
structure Call where
  sessionId : SessionId
  request : Request
  input : Nat → Pull

/-- What happens in a sequence of calls: a call, or something else between two calls. -/
inductive CallOrTurn (τ : Type)
  | call (c : Call)
  | turn (t : τ)

/-- Runs the stream of a call. -/
def Call.run (c : Call) (m : Metered β ε) : Except (StreamError ε) Unit × Metered β ε :=
  (generate vs kvLiveBytes c.sessionId c.request.1 c.request.2).alone c.input 0 m

/-- The length of the history of a session. -/
def historyLength (sid : SessionId) (m : Metered β ε) : Nat :=
  ((m.server.store.sessions.get? sid).map fun x => x.historyTokenIds.length).getD 0

/-- A step of a sequence of calls, with the number of tokens that it commits to the history of its session. -/
def callStep (turn : τ → Metered β ε → Metered β ε) (m : Metered β ε) : CallOrTurn τ → Nat × Metered β ε
  | .call c =>
    (historyLength c.sessionId (c.run vs kvLiveBytes m).2 - historyLength c.sessionId m, (c.run vs kvLiveBytes m).2)
  | .turn t => (0, turn t m)

/-- `Slab.live_kv_bytes` of the slab of a session. -/
def liveBytes (sid : SessionId) (m : Metered β ε) : Int := (m.slabBytes.get? sid).getD 0

/-- The live bytes of the slab of the session, if it has one, are those of the verifier. -/
def InSync (sid : SessionId) (verifier : η) (m : Metered β ε) : Prop :=
  ∀ x, m.server.store.sessions.get? sid = some x → x.slab ≠ none →
    liveBytes sid m = kvLiveBytes sid verifier m.server.verifiers

/-- The stream of a call ends by itself; what happens between two calls reports no tokens. -/
def Finishes (turn : τ → Metered β ε → Metered β ε) (m : Metered β ε) : CallOrTurn τ → Prop
  | .call c => (c.run vs kvLiveBytes m).1 = .ok ()
  | .turn t => (Sound m → Sound (turn t m)) ∧ (turn t m).reported = m.reported

/-- A check of the cancel event that comes upon it comes before the first token, and the slab needs no new bytes. -/
def Timely (k : StreamLabel η) (i : Pull) (m : Metered β ε) : Prop :=
  ∀ sid verifier count, k = .check sid verifier count → i.cancelled = true → count = 0 ∧ InSync kvLiveBytes sid verifier m

/-- Every check of the call is timely. -/
def OnTime (m : Metered β ε) : CallOrTurn τ → Prop
  | .call c => (generate vs kvLiveBytes c.sessionId c.request.1 c.request.2).Throughout (Timely kvLiveBytes) c.input 0 m
  | .turn _ => True

/-- After the steps the reported counts add up to the tokens that were committed, and after a call the live bytes of the
slab of its session are those of the verifier that it resolved. -/
def Accounted (turn : τ → Metered β ε → Metered β ε) (m : Metered β ε) (steps : List (CallOrTurn τ)) : Prop :=
  (Machine.final (callStep vs kvLiveBytes turn) m steps).reported.sum =
    m.reported.sum + (Machine.outputs (callStep vs kvLiveBytes turn) m steps).sum ∧
  ∀ before c, steps = before ++ [.call c] →
    InSync kvLiveBytes c.sessionId
      (vs.resolve c.sessionId (Machine.final (callStep vs kvLiveBytes turn) m before).server.verifiers).1
      (Machine.final (callStep vs kvLiveBytes turn) m steps)

/-! ### What the steps keep -/

/-- The history of the session has the length `n`, and what is reported is as it is given. -/
structure Books (sid : SessionId) (n : Nat) (slab : Option Nat) (reported : List Nat) (bytes : Dict SessionId Int)
    (m : Metered β ε) : Prop where
  sound : Sound m
  stored : ∃ x, m.server.store.sessions.get? sid = some x ∧ x.historyTokenIds.length = n ∧ x.slab = slab
  reported : m.reported = reported
  bytes : m.slabBytes = bytes

variable {vs kvLiveBytes} {sid : SessionId} {n : Nat} {slab : Option Nat} {reported : List Nat}
  {bytes : Dict SessionId Int} {m : Metered β ε} {input : Nat → Pull} {j : Nat} {P : Prop}

theorem Books.store (h : Books sid n slab reported bytes m) {s : Server β ε} (hs : s.store = m.server.store) :
    Books sid n slab reported bytes { m with server := s } := by
  refine ⟨?_, ?_, h.reported, h.bytes⟩
  · show s.store.Consistent
    rw [hs]
    exact h.sound
  · show ∃ x, s.store.sessions.get? sid = some x ∧ _
    rw [hs]
    exact h.stored

theorem Books.historyLength (h : Books sid n slab reported bytes m) : historyLength sid m = n := by
  obtain ⟨x, hx, hn, -⟩ := h.stored
  unfold Stream.historyLength
  rw [hx]
  exact hn

theorem Books.inSync (h : Books sid n slab reported bytes m) (verifier : η) :
    InSync kvLiveBytes sid verifier m ↔
      (slab ≠ none → (bytes.get? sid).getD 0 = kvLiveBytes sid verifier m.server.verifiers) := by
  obtain ⟨x, hx, -, hslab⟩ := h.stored
  unfold InSync liveBytes
  rw [h.bytes, hx]
  simp [hslab]

/-- A step of the server that returns. -/
theorem serve_traces {x : Moment → ServerProc β ε α} {Q : α → Nat → Metered β ε → Prop → Prop}
    (h : ∀ P', (P' ↔ P) → ∀ a s', (x (input j).toMoment).run m.server = (.ok a, s') →
      Q a (j + 1) { m with server := s' } P') :
    (serve x : StreamProg β η ε α).Traces (Timely kvLiveBytes) input Q j m P := by
  refine Prog.Traces.atomic fun a m' hrun => ?_
  have hok := run_onServer_ok hrun
  rw [run_onServer] at hrun
  rw [← (Prod.mk.inj hrun).2, hok]
  exact h _ (and_iff_left nofun) a m'.server hok

/-- A step that does not check the cancel event. -/
theorem still_traces {k : StreamLabel η} (hk : ∀ sid verifier count, k ≠ .check sid verifier count)
    {x : Pull → StreamProc β ε α} {Q : α → Nat → Metered β ε → Prop → Prop}
    (h : ∀ P', (P' ↔ P) → ∀ a m', (x (input j)).run m = (.ok a, m') → Q a (j + 1) m' P') :
    (.atomic k x : StreamProg β η ε α).Traces (Timely kvLiveBytes) input Q j m P := by
  refine Prog.Traces.atomic fun a m' hrun => h _ (and_iff_left ?_) a m' hrun
  intro id verifier count heq
  exact absurd heq (hk id verifier count)

theorem await_traces {k : StreamLabel η} (hk : ∀ sid verifier count, k ≠ .check sid verifier count)
    {Q : Unit → Nat → Metered β ε → Prop → Prop} (h : ∀ P', (P' ↔ P) → Q () (j + 1) m P') :
    (await k : StreamProg β η ε Unit).Traces (Timely kvLiveBytes) input Q j m P := by
  refine still_traces hk fun P' hP' a m' hrun => ?_
  have hm := await_server (β := β) (ε := ε) (input j) m
  rw [hrun] at hm
  rw [show m' = m from hm]
  exact h P' hP'

/-- What is shown changes nothing that is counted. -/
theorem yieldEvent_traces (h : Books sid n slab reported bytes m) (event : Int → GenerateEvent)
    {Q : Unit → Nat → Metered β ε → Prop → Prop}
    (hQ : ∀ P', (P' ↔ P) → ∀ m', Books sid n slab reported bytes m' → m'.server.verifiers = m.server.verifiers →
      Q () (j + 2) m' P') :
    (yieldEvent sid event : StreamProg β η ε Unit).Traces (Timely kvLiveBytes) input Q j m P := by
  refine Prog.Traces.bind (serve_traces fun P₁ hP₁ _ s' hrun => ?_)
  obtain rfl := (Prod.mk.inj hrun).2
  exact await_traces nofun fun P₂ hP₂ => hQ P₂ (hP₂.trans hP₁) _ (h.store rfl) rfl

theorem Books.callVerifier (h : Books sid n slab reported bytes m) {x : Proc β ε α} {a : Except (OperationError ε) α}
    {s : Server β ε} (hrun : (Server.callVerifier x).run m.server = (a, s)) :
    Books sid n slab reported bytes { m with server := s } := by
  refine h.store ?_
  have hstore := Server.callVerifier_store x m.server
  rw [hrun] at hstore
  exact hstore

theorem Books.storeAppend (h : Books sid n slab reported bytes m) {t : Token} {clock : Int} {k : Nat} {s : Server β ε}
    (hrun : (Server.storeAppend vs sid [t] clock).run m.server = (.ok k, s)) :
    Books sid (n + 1) slab reported bytes { m with server := s } := by
  have hfollows := Server.storeAppend_follows vs sid [t] clock h.sound
  rw [hrun] at hfollows
  obtain ⟨-, x, y, hx, hy, hhist, -, hslab⟩ := Server.storeAppend_appends vs h.sound hrun
  obtain ⟨x', hx', hn, hslab'⟩ := h.stored
  obtain rfl : x = x' := Option.some.inj (hx.symm.trans hx')
  refine ⟨hfollows.consistent, ⟨y, hy, ?_, hslab.trans hslab'⟩, h.reported, h.bytes⟩
  rw [hhist, List.length_append, hn]
  rfl

theorem Books.recordPosition (h : Books sid n slab reported bytes m) {verifier : η} {clock : Int} {s : Server β ε}
    (hrun : (Server.recordPosition vs sid verifier clock).run m.server = (.ok (), s)) :
    Books sid n slab reported bytes { m with server := s } := by
  have hquiet := (Server.recordPosition_quiet vs sid verifier clock m.server h.sound).1
  rw [hrun] at hquiet
  obtain ⟨x, y, hx, hy, hhist, hslab⟩ := Server.recordPosition_ok vs h.sound hrun
  obtain ⟨x', hx', hn, hslab'⟩ := h.stored
  obtain rfl : x = x' := Option.some.inj (hx.symm.trans hx')
  exact ⟨hquiet, ⟨y, hy, by rw [hhist]; exact hn, hslab.trans hslab'⟩, h.reported, h.bytes⟩

theorem Books.mirror (h : Books sid n slab reported bytes m) {verifier : η} {s : Server β ε}
    (hrun : (Server.mirror vs sid verifier).run m.server = (.ok (), s)) :
    Books sid n slab reported bytes { m with server := s } := by
  have hquiet := (Server.mirror_quiet vs sid verifier m.server h.sound).1
  obtain ⟨x, hx, hn, hslab⟩ := h.stored
  have hid := h.sound.keyed sid x hx
  subst hid
  rw [hrun] at hquiet
  rw [Server.run_mirror vs verifier hx] at hrun
  obtain rfl := (Prod.mk.inj hrun).2
  exact ⟨hquiet, ⟨_, Dict.get?_set_self _ _ _, hn, hslab⟩, h.reported, h.bytes⟩

/-! ### A stream -/

variable (kvLiveBytes) in
/-- Since the history had the length `n` and the counts `reported` were reported, `count` tokens were committed; they are
reported, and the bytes of the slab are those of the verifier, exactly if `P` holds. -/
def Settled (sid : SessionId) (verifier : η) (n : Nat) (slab : Option Nat) (reported : List Nat) (m : Metered β ε)
    (P : Prop) : Prop :=
  ∃ count reported' bytes', Books sid (n + count) slab reported' bytes' m ∧
    ((reported'.sum = reported.sum + count ∧ InSync kvLiveBytes sid verifier m) ↔ P)

variable (kvLiveBytes) in
theorem syncSlabBytes_books (h : Books sid n slab reported bytes m) (verifier : η) :
    ∃ bytes', Books sid n slab reported bytes' ((syncSlabBytes kvLiveBytes sid verifier).run m).2 ∧
      (slab ≠ none → (bytes'.get? sid).getD 0 = kvLiveBytes sid verifier m.server.verifiers) := by
  obtain ⟨x, hx, hn, hslab⟩ := h.stored
  unfold syncSlabBytes
  rw [Proc.run_modify]
  dsimp only
  rw [hx, Option.bind_some, hslab]
  cases slab with
  | none => exact ⟨bytes, h, fun hne => absurd rfl hne⟩
  | some i =>
    refine ⟨m.slabBytes.set sid (kvLiveBytes sid verifier m.server.verifiers), ⟨h.sound, ⟨x, hx, hn, hslab⟩, h.reported,
      rfl⟩, fun _ => ?_⟩
    rw [Dict.get?_set_self]
    rfl

theorem finish_traces {count : Nat} (h : Books sid (n + count) slab reported bytes m) (verifier : η) (reason : StopReason)
    (t0 : Int) (hP : P) :
    (finish kvLiveBytes sid verifier reason count t0).Traces (Timely kvLiveBytes) input
      (fun _ _ m' P' => Settled kvLiveBytes sid verifier n slab reported m' P') j m P := by
  refine Prog.Traces.bind (still_traces nofun fun P₁ hP₁ _ m₁ hsync => ?_)
  obtain ⟨bytes', h₁, hbytes⟩ := syncSlabBytes_books kvLiveBytes h verifier
  have hserver := syncSlabBytes_server kvLiveBytes sid verifier m
  rw [hsync] at h₁ hserver
  refine Prog.Traces.bind (still_traces nofun fun P₂ hP₂ _ m₂ htokens => ?_)
  obtain rfl := (Prod.mk.inj htokens).2
  have h₂ : Books sid (n + count) slab (reported ++ [count]) bytes' { m₁ with reported := m₁.reported ++ [count] } :=
    ⟨h₁.sound, h₁.stored, by rw [h₁.reported], h₁.bytes⟩
  refine yieldEvent_traces h₂ _ fun P₃ hP₃ m₃ h₃ hver => ?_
  have hall : P₃ := hP₃.2 (hP₂.2 (hP₁.2 hP))
  have hsynced : InSync kvLiveBytes sid verifier m₃ := by
    rw [h₃.inSync verifier, hver]
    intro hslab
    rw [hbytes hslab, ← hserver]
  exact ⟨count, reported ++ [count], bytes', h₃, fun _ => hall, fun _ => ⟨by simp, hsynced⟩⟩

/-- A check that comes upon the cancel event. -/
theorem timely_check {verifier : η} {count : Nat} {i : Pull} (hi : i.cancelled = true) :
    Timely kvLiveBytes (.check sid verifier count) i m ↔ count = 0 ∧ InSync kvLiveBytes sid verifier m := by
  constructor
  · intro h
    exact h sid verifier count rfl hi
  · rintro h _ _ _ ⟨⟩ -
    exact h

/-- The loop, entered with `count` tokens committed. -/
theorem generateLoop_traces (verifier : η) (eos : List Token) (t0 : Int) (left : Nat) {count : Nat}
    (h : Books sid (n + count) slab reported bytes m) (hP : P) :
    (generateLoop vs kvLiveBytes sid verifier eos t0 left count).Traces (Timely kvLiveBytes) input
      (fun _ _ m' P' => Settled kvLiveBytes sid verifier n slab reported m' P') j m P := by
  induction left generalizing count m j P with
  | zero => exact finish_traces h verifier .maxTokens t0 hP
  | succ left ih =>
    unfold generateLoop
    refine Prog.Traces.bind (Prog.Traces.atomic fun cancelled m₁ hrun => ?_)
    obtain ⟨hcancelled, rfl⟩ := Prod.mk.inj hrun
    split
    · rename_i hset
      refine yieldEvent_traces h _ fun P' hP' m' h' hver => ?_
      have hsync : InSync kvLiveBytes sid verifier m' ↔ InSync kvLiveBytes sid verifier m := by
        rw [h'.inSync, h.inSync, hver]
      have hcheck : Timely kvLiveBytes (.check sid verifier count) (input j) m ↔
          count = 0 ∧ InSync kvLiveBytes sid verifier m := timely_check ((Except.ok.inj hcancelled).trans hset)
      refine ⟨count, reported, bytes, h', ?_⟩
      rw [hP', hcheck, hsync]
      constructor
      · rintro ⟨hsum, hsynced⟩
        exact ⟨hP, by omega, hsynced⟩
      · rintro ⟨-, rfl, hsynced⟩
        exact ⟨rfl, hsynced⟩
    · rename_i hset
      have hP₁ : P ∧ Timely kvLiveBytes (.check sid verifier count) (input j) m := by
        refine ⟨hP, fun _ _ _ _ hc => ?_⟩
        rw [(Except.ok.inj hcancelled).symm.trans hc] at hset
        exact absurd rfl hset
      refine Prog.Traces.bind (serve_traces fun P₂ hP₂ t s₂ hstep => ?_)
      have h₂ := h.callVerifier hstep
      refine Prog.Traces.bind (serve_traces fun P₃ hP₃ _ s₃ hmirror => ?_)
      have h₃ := h₂.mirror hmirror
      refine Prog.Traces.bind (serve_traces fun P₄ hP₄ k s₄ happend => ?_)
      have h₄ := h₃.storeAppend happend
      refine Prog.Traces.bind (serve_traces fun P₅ hP₅ _ s₅ hrecord => ?_)
      have h₅ := h₄.recordPosition hrecord
      refine Prog.Traces.bind (yieldEvent_traces h₅ _ fun P₆ hP₆ m₆ h₆ _ => ?_)
      have hall : P₆ := hP₆.2 (hP₅.2 (hP₄.2 (hP₃.2 (hP₂.2 hP₁))))
      split
      · exact finish_traces (n := n) h₆ verifier .eos t0 hall
      · exact ih h₆ hall

theorem yieldTruncated_traces (h : Books sid n slab reported bytes m) (session : Session)
    {Q : Unit → Nat → Metered β ε → Prop → Prop}
    (hQ : ∀ j' P', (P' ↔ P) → ∀ m', Books sid n slab reported bytes m' → Q () j' m' P') :
    (yieldTruncated sid session : StreamProg β η ε Unit).Traces (Timely kvLiveBytes) input Q j m P := by
  unfold yieldTruncated
  split
  · exact yieldEvent_traces h _ fun P' hP' m' h' _ => hQ _ P' hP' m' h'
  · exact Prog.Traces.pure (hQ j P Iff.rfl m h)

/-- The stream of a call, from the session it found and the verifier it resolved. -/
theorem generate_traces (hm : Sound m) (maxTokens : Int) (sampling : Server.Sampling) (hP : P) :
    (generate vs kvLiveBytes sid maxTokens sampling).Traces (Timely kvLiveBytes) input
      (fun _ _ m' P' => ∃ x, m.server.store.sessions.get? sid = some x ∧
        Settled kvLiveBytes sid (vs.resolve sid m.server.verifiers).1 x.historyTokenIds.length x.slab m.reported m' P')
      j m P := by
  refine Prog.Traces.bind (await_traces nofun fun P₁ hP₁ => ?_)
  refine Prog.Traces.bind (still_traces nofun fun P₂ hP₂ _ m₂ henter => ?_)
  obtain ⟨hstore, hverifiers, hreported⟩ : m₂.server.store = m.server.store ∧
      m₂.server.verifiers = m.server.verifiers ∧ m₂.reported = m.reported := by
    rw [run_onServer, Server.run_enterGuard] at henter
    split at henter
    · cases (Prod.mk.inj henter).1
    · rw [← (Prod.mk.inj henter).2]
      exact ⟨rfl, rfl, rfl⟩
  refine Prog.Traces.andThen ?_ fun e j' m' P' => Prog.Traces.bind (serve_traces fun _ _ _ _ _ => Prog.Traces.raise)
  refine Prog.Traces.bind (serve_traces fun P₃ hP₃ _ s₃ hargs => ?_)
  rw [Proc.run_ofExcept] at hargs
  obtain rfl := (Prod.mk.inj hargs).2
  refine Prog.Traces.bind (serve_traces fun P₄ hP₄ x s₄ hlookup => ?_)
  obtain ⟨hx, rfl⟩ := Server.lookup_ok vs hlookup
  refine Prog.Traces.bind (serve_traces fun P₅ hP₅ verifier s₅ hresolve => ?_)
  obtain ⟨hverifier, rfl⟩ := Prod.mk.inj hresolve
  have hall : P₅ := hP₅.2 (hP₄.2 (hP₃.2 (hP₂.2 (hP₁.2 hP))))
  have h₅ : Books sid x.historyTokenIds.length x.slab m.reported m₂.slabBytes
      { m₂ with server := { m₂.server with verifiers := (vs.resolve sid m₂.server.verifiers).2 } } := by
    refine ⟨?_, ⟨x, hx, rfl, rfl⟩, hreported, rfl⟩
    show m₂.server.store.Consistent
    rw [hstore]
    exact hm
  have hstored : m.server.store.sessions.get? sid = some x := by
    rw [← hstore]
    exact hx
  have hhandle : verifier = (vs.resolve sid m.server.verifiers).1 := by
    rw [← hverifiers]
    exact (Except.ok.inj hverifier).symm
  split
  · exact Prog.Traces.raise
  · refine Prog.Traces.bind (yieldTruncated_traces h₅ x fun j₆ P₆ hP₆ m₆ h₆ => ?_)
    refine Prog.Traces.bind (serve_traces fun P₇ hP₇ t0 s₇ hclock => ?_)
    obtain rfl := (Prod.mk.inj hclock).2
    have h₇ : Books sid (x.historyTokenIds.length + 0) x.slab m.reported m₂.slabBytes m₆ := h₆
    refine Prog.Traces.mono (generateLoop_traces verifier x.eosTokenIds t0 maxTokens.toNat h₇ (hP₇.2 (hP₆.2 hall)))
      fun _ j₈ m₈ P₈ h₈ => ?_
    refine Prog.Traces.bind (serve_traces fun P₉ hP₉ _ s₉ hleave => Prog.Traces.pure ⟨x, hstored, ?_⟩)
    obtain rfl := (Prod.mk.inj hleave).2
    obtain ⟨count, reported', bytes', hbooks, hiff⟩ := h₈
    refine ⟨count, reported', bytes', hbooks.store rfl, ?_⟩
    rw [hP₉, ← hiff, hhandle]
    rfl

/-! ### Sequences of calls -/

variable (vs kvLiveBytes) in
/-- A call whose stream ends by itself is accounted for exactly when its checks are timely. -/
theorem call_accounts (hm : Sound m) {c : Call} (hfin : (c.run vs kvLiveBytes m).1 = .ok ()) :
    Sound (c.run vs kvLiveBytes m).2 ∧
      ((c.run vs kvLiveBytes m).2.reported.sum = m.reported.sum +
          (historyLength c.sessionId (c.run vs kvLiveBytes m).2 - historyLength c.sessionId m) ∧
        InSync kvLiveBytes c.sessionId (vs.resolve c.sessionId m.server.verifiers).1 (c.run vs kvLiveBytes m).2 ↔
      (generate vs kvLiveBytes c.sessionId c.request.1 c.request.2).Throughout (Timely kvLiveBytes) c.input 0 m) := by
  have htraces : (generate vs kvLiveBytes c.sessionId c.request.1 c.request.2).Traces (Timely kvLiveBytes) c.input _ 0 m
      True := generate_traces hm c.request.1 c.request.2 trivial
  obtain ⟨-, x, hx, count, reported', bytes', hbooks, hiff⟩ := htraces.alone (Prod.ext hfin rfl)
  have hbefore : historyLength c.sessionId m = x.historyTokenIds.length := by
    unfold historyLength
    rw [hx]
    rfl
  have hafter : historyLength c.sessionId (c.run vs kvLiveBytes m).2 = x.historyTokenIds.length + count :=
    hbooks.historyLength
  have hreported : (c.run vs kvLiveBytes m).2.reported = reported' := hbooks.reported
  rw [true_and] at hiff
  refine ⟨hbooks.sound, ?_⟩
  rw [hbefore, hafter, hreported, Nat.add_sub_cancel_left]
  exact hiff

variable {turn : τ → Metered β ε → Metered β ε}

variable (vs kvLiveBytes turn) in
/-- A step that is accounted for. -/
def Balanced (m : Metered β ε) (e : CallOrTurn τ) : Prop :=
  (callStep vs kvLiveBytes turn m e).2.reported.sum = m.reported.sum + (callStep vs kvLiveBytes turn m e).1 ∧
    ∀ c, e = .call c → InSync kvLiveBytes c.sessionId (vs.resolve c.sessionId m.server.verifiers).1
      (callStep vs kvLiveBytes turn m e).2

theorem balanced_iff (hm : Sound m) {e : CallOrTurn τ} (hfin : Finishes vs kvLiveBytes turn m e) :
    Sound (callStep vs kvLiveBytes turn m e).2 ∧ (Balanced vs kvLiveBytes turn m e ↔ OnTime vs kvLiveBytes m e) := by
  cases e with
  | call c =>
    obtain ⟨hsound, hiff⟩ := call_accounts vs kvLiveBytes hm hfin
    refine ⟨hsound, Iff.trans ?_ hiff⟩
    refine and_congr Iff.rfl ⟨fun h => h c rfl, ?_⟩
    rintro h _ ⟨⟩
    exact h
  | turn t => exact ⟨hfin.1 hm, fun _ => trivial, fun _ => ⟨congrArg List.sum hfin.2, nofun⟩⟩

theorem accounted_nil (m : Metered β ε) : Accounted vs kvLiveBytes turn m [] := by
  refine ⟨rfl, fun before c h => ?_⟩
  simp at h

/-- What is accounted for after a step that is. -/
theorem accounted_cons {e : CallOrTurn τ} (he : Balanced vs kvLiveBytes turn m e) (steps : List (CallOrTurn τ)) :
    Accounted vs kvLiveBytes turn m (e :: steps) ↔
      Accounted vs kvLiveBytes turn (callStep vs kvLiveBytes turn m e).2 steps := by
  have hsum := he.1
  unfold Accounted
  refine and_congr ?_ ⟨fun h before c hsteps => ?_, fun h before c hsteps => ?_⟩
  · simp only [Machine.final, Machine.outputs, List.sum_cons]
    omega
  · exact h (e :: before) c (by rw [hsteps]; rfl)
  · cases before with
    | nil =>
      obtain ⟨rfl, rfl⟩ := List.cons.inj hsteps
      exact he.2 c rfl
    | cons e' before =>
      obtain ⟨rfl, rfl⟩ := List.cons.inj hsteps
      exact h before c rfl

theorem accounted_single {e : CallOrTurn τ} (h : Accounted vs kvLiveBytes turn m [e]) :
    Balanced vs kvLiveBytes turn m e := by
  refine ⟨?_, fun c hc => h.2 [] c (by rw [hc]; rfl)⟩
  have hsum := h.1
  simp only [Machine.final, Machine.outputs, List.sum_cons, List.sum_nil] at hsum
  omega

/-- Every state that a sequence of calls reaches is accounted for exactly when each of its calls is on time. -/
theorem accounted_iff (hm : Sound m) {steps : List (CallOrTurn τ)}
    (hfin : Machine.AllSteps (callStep vs kvLiveBytes turn) (Finishes vs kvLiveBytes turn) m steps) :
    (∀ before after, steps = before ++ after → Accounted vs kvLiveBytes turn m before) ↔
      Machine.AllSteps (callStep vs kvLiveBytes turn) (OnTime vs kvLiveBytes) m steps := by
  induction steps generalizing m with
  | nil =>
    refine ⟨fun _ => trivial, fun _ before after h => ?_⟩
    obtain ⟨rfl, -⟩ := List.append_eq_nil_iff.1 h.symm
    exact accounted_nil m
  | cons e steps ih =>
    obtain ⟨hsound, hbalanced⟩ := balanced_iff hm hfin.1
    constructor
    · intro h
      have he := accounted_single (h [e] steps rfl)
      refine ⟨hbalanced.1 he, (ih hsound hfin.2).1 fun before after hsteps => ?_⟩
      exact (accounted_cons he before).1 (h (e :: before) after (by rw [hsteps]; rfl))
    · rintro ⟨hontime, hrest⟩ before after hsteps
      cases before with
      | nil => exact accounted_nil m
      | cons e' before =>
        obtain ⟨rfl, hrun⟩ := List.cons.inj hsteps
        exact (accounted_cons (hbalanced.2 hontime) before).2 ((ih hsound hfin.2).2 hrest before after hrun)

/-! ### A cancelled call -/

/-- A store with a slab for each session. -/
def pooledStore : SessionStore where
  capacity := 2
  hasInspector := false
  slabPool := (SlabPool.create 2).toOption
  hasCallback := true

/-- Opens a session with a token of history. -/
def openPooled : SessionProc Unit := do
  let _ ← SessionStore.createSession (fun _ => none) "sess-1" [9] "" 0 0
  let _ ← SessionStore.appendTokens (fun _ => none) "sess-1" [7] 1 (.ok 0)
  SessionStore.recordPositionAdvance (fun _ => none) "sess-1" 1 1

/-- A server with that session. -/
def pooledServer : Metered (VerifierRegistry (List Token)) Unit where
  server := { store := (openPooled.run pooledStore).2, verifiers := VerifierRegistry.initial echoVerifier }

/-- The length of what the verifier of a session holds. -/
def echoBytes (sid : SessionId) (n : Nat) (r : VerifierRegistry (List Token)) : Int := (r.objects sid n).length

/-- A call for two tokens; the cancel event is set from a step on. -/
def twoTokens (cancelFrom : Option Nat) : Call where
  sessionId := "sess-1"
  request := (2, {})
  input n := ⟨⟨n, if cancelFrom.any fun k => k ≤ n then some 0 else none⟩, false⟩

theorem pooledServer_sound : Sound pooledServer := by
  obtain ⟨s₀, hs₀⟩ : ∃ s₀, SessionStore.create 2 false (SlabPool.create 2).toOption true = .ok s₀ := ⟨_, rfl⟩
  have hpool : ∀ p, (SlabPool.create 2).toOption = some p → ∃ n, SlabPool.create n = .ok p := by
    intro p hp
    cases hcreate : SlabPool.create 2 with
    | error e =>
      rw [hcreate] at hp
      cases hp
    | ok p' =>
      rw [hcreate] at hp
      exact ⟨2, hcreate.trans (congrArg Except.ok (Option.some.inj hp))⟩
  obtain ⟨hcons, hnone, -⟩ := SessionStore.create_consistent hs₀ hpool
  obtain rfl := Except.ok.inj hs₀
  have hcreated := (SessionStore.createSession_spec hcons (fun _ => none) (hnone "sess-1") [9] "" 0 0).1
  have happended := (SessionStore.appendTokens_lowers (fun _ => none) "sess-1" [7] 1 (.ok 0) _ hcreated).1
  exact (SessionStore.recordPositionAdvance_lowers (fun _ => none) "sess-1" 1 1 _ happended).1

/-- The state after a call. -/
def afterCall (cancelFrom : Option Nat) : Except (StreamError Unit) Unit × Metered (VerifierRegistry (List Token)) Unit :=
  (twoTokens cancelFrom).run (VerifierRegistry.backend echoVerifier) echoBytes pooledServer

/-- Without a cancellation the two tokens are accounted for. -/
theorem uncancelled_call_accounted :
    Accounted (VerifierRegistry.backend echoVerifier) echoBytes (fun (t : Empty) _ => t.elim) pooledServer [] ∧
      Accounted (VerifierRegistry.backend echoVerifier) echoBytes (fun (t : Empty) _ => t.elim) pooledServer
        [.call (twoTokens none)] := by
  have hfin : Machine.AllSteps
      (callStep (VerifierRegistry.backend echoVerifier) echoBytes fun (t : Empty) _ => t.elim)
      (Finishes (VerifierRegistry.backend echoVerifier) echoBytes fun (t : Empty) _ => t.elim) pooledServer
      [.call (twoTokens none)] := by
    refine ⟨?_, trivial⟩
    show (afterCall none).1 = .ok ()
    decide +kernel
  have hreported : ∀ before after, [CallOrTurn.call (twoTokens none)] = before ++ after →
      Accounted (VerifierRegistry.backend echoVerifier) echoBytes (fun (t : Empty) _ => t.elim) pooledServer before := by
    refine (accounted_iff pooledServer_sound hfin).2 ⟨Prog.throughout_of_forall fun k n m => ?_, trivial⟩
    rintro sid verifier count - ⟨⟩
  exact ⟨hreported [] _ rfl, hreported _ [] rfl⟩

/-- Cancelled after the first token, the call ends by itself, but its token is not reported, and the slab still has no
bytes while the verifier has one. -/
theorem cancelled_call_unaccounted :
    (afterCall (some 15)).1 = .ok () ∧
      ¬ Accounted (VerifierRegistry.backend echoVerifier) echoBytes (fun (t : Empty) _ => t.elim) pooledServer
        [.call (twoTokens (some 15))] ∧
      (afterCall (some 15)).2.reported = [] ∧ historyLength "sess-1" (afterCall (some 15)).2 = 2 ∧
      liveBytes "sess-1" (afterCall (some 15)).2 = 0 ∧
      echoBytes "sess-1" 0 (afterCall (some 15)).2.server.verifiers = 1 := by
  refine ⟨by decide +kernel, fun h => ?_, by decide +kernel, by decide +kernel, by decide +kernel, by decide +kernel⟩
  have hsum := h.1
  revert hsum
  decide +kernel

end Stream

end KakeyaEngine
