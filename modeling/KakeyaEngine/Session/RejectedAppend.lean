import KakeyaEngine.Session.Determinism
import KakeyaEngine.Session.Isolation

/-!
# An append that is refused

`SessionStore.append_tokens` checks that every token is a non-negative integer before it extends the history.  The
coordinator calls it last: by then the verifier has consumed the tokens and the session mirrors its cache.  So the
exception that tells the client of an ill-formed token leaves the verifier and the mirror with tokens that no history
holds, and the next append goes on from there.

`refused_append_unharmed_iff` says when the exception does leave everything as it was: when it cannot be raised, or when
the session is cold and its verifier already holds just these tokens, as after the same append was refused before.
-/

namespace KakeyaEngine

namespace Server

variable {V ε : Type} (lv : LocalVerifier V ε)

/-- The verifier that an operation on the session resolves. -/
def current (s : Server (VerifierRegistry V) ε) (sid : SessionId) : V :=
  s.verifiers.objects sid (VerifierRegistry.get sid s.verifiers).1

/-- The books that a session keeps of its verifier. -/
def books (s : Server (VerifierRegistry V) ε) (sid : SessionId) : Option (List Token × List Token × Int) :=
  (s.store.sessions.get? sid).map fun x => (x.historyTokenIds, x.cachedTokenSequence, x.nextGlobalPosition)

/-- An append to a session on its own. -/
def appended (input : Nat → Moment) (sid : SessionId) (ts : List Token) (s : Server (VerifierRegistry V) ε) :
    Except (OperationError ε) Nat × Server (VerifierRegistry V) ε :=
  (appendTokens (VerifierRegistry.backend lv) sid ts).alone input 0 s

/-- Nothing has happened to a session: its books and its verifier are as they were, and a later valid append returns what
it would have returned and leaves them as it would have. -/
structure Unharmed (sid : SessionId) (s s' : Server (VerifierRegistry V) ε) : Prop where
  books : s'.books sid = s.books sid
  verifier : s'.current sid = s.current sid
  later : ∀ (input : Nat → Moment) (us : List Token), (∀ t ∈ us, 0 ≤ t) →
    (appended lv input sid us s').1 = (appended lv input sid us s).1 ∧
    (appended lv input sid us s').2.books sid = (appended lv input sid us s).2.books sid ∧
    (appended lv input sid us s').2.current sid = (appended lv input sid us s).2.current sid

/-- An append that is refused for an ill-formed token does no harm. -/
def RefusesUnharmed (input : Nat → Moment) (sid : SessionId) (ts : List Token) (s : Server (VerifierRegistry V) ε) :
    Prop :=
  ∀ t s', t ∈ ts → t < 0 →
    appended lv input sid ts s =
      (.error (.store (.valueError ("token_id must be a non-negative int, got " ++ toString t))), s') →
    Unharmed lv sid s s'

/-- What the verifier of a session is asked to do with tokens. -/
def intake (x : Session) (ts : List Token) : Proc V ε Unit :=
  if x.nextGlobalPosition = 0 then lv.prefill ts else lv.append ts

/-- The store does not get to refuse the tokens, or the verifier held them before: the session is cold, and its verifier
is as their prefill leaves it. -/
inductive Spared (input : Nat → Moment) (sid : SessionId) (ts : List Token) (s : Server (VerifierRegistry V) ε)
    (x : Session) : Prop
  | wellFormed (h : ∀ t ∈ ts, 0 ≤ t)
  | cancelled (h : (input 0).cancelled = true ∨ (input 4).cancelled = true)
  | declined (h : ∀ v', (intake lv x ts).run (s.current sid) ≠ (.ok (), v'))
  | held (hcold : x.nextGlobalPosition = 0) (h : (lv.prefill ts).run (s.current sid) = (.ok (), s.current sid))
    (hmirror : x.cachedTokenSequence = lv.cachedTokenSequence (s.current sid))

/-- The position of the verifier advances by the tokens that it appends. -/
def Advances : Prop :=
  ∀ ts v v', (lv.append ts).run v = (.ok (), v') → lv.nextGlobalPosition v' = lv.nextGlobalPosition v + ts.length

variable {lv} {s s' : Server (VerifierRegistry V) ε} {sid : SessionId} {x : Session} {input : Nat → Moment}
  {ts : List Token}

/-! ### The steps of an append -/

/-- The server once the session is resolved. -/
def resolved (s : Server (VerifierRegistry V) ε) (sid : SessionId) : Server (VerifierRegistry V) ε :=
  { s with verifiers := (VerifierRegistry.get sid s.verifiers).2 }

/-- The server once an object of the session is another. -/
def withObject (s : Server (VerifierRegistry V) ε) (sid : SessionId) (n : Nat) (v : V) : Server (VerifierRegistry V) ε :=
  { s with verifiers := { s.verifiers with
    objects := Function.update s.verifiers.objects sid (Function.update (s.verifiers.objects sid) n v) } }

theorem get_registered {r : VerifierRegistry V} {n : Nat} (h : r.verifiers.get? sid = some n) :
    VerifierRegistry.get sid r = (n, r) := by
  unfold VerifierRegistry.get
  rw [h]

theorem registered_get (r : VerifierRegistry V) :
    (VerifierRegistry.get sid r).2.verifiers.get? sid = some (VerifierRegistry.get sid r).1 := by
  cases hr : r.verifiers.get? sid with
  | some n =>
    rw [get_registered hr]
    exact hr
  | none =>
    unfold VerifierRegistry.get
    rw [hr]
    exact Dict.get?_set_self _ _ _

theorem current_resolved : (s.resolved sid).current sid = s.current sid := by
  unfold resolved current
  rw [get_registered (registered_get _), get_objects]

theorem resolved_resolved : (s.resolved sid).resolved sid = s.resolved sid := by
  unfold resolved
  rw [get_registered (registered_get _)]

section

variable {n : Nat} (hn : s.verifiers.verifiers.get? sid = some n)

include hn

theorem current_registered : s.current sid = s.verifiers.objects sid n := by
  unfold current
  rw [get_registered hn]

theorem current_withObject (v : V) : (s.withObject sid n v).current sid = v := by
  rw [current_registered hn (s := s.withObject sid n v)]
  simp [withObject]

theorem withObject_current : s.withObject sid n (s.current sid) = s := by
  rw [current_registered hn]
  simp [withObject]

theorem run_intake {r : Except ε Unit} {v' : V} (h : (intake lv x ts).run (s.current sid) = (r, v')) :
    (callVerifier (VerifierRegistry.onObject sid n (intake lv x ts))).run s =
      (r.mapError .verifier, s.withObject sid n v') := by
  rw [current_registered hn] at h
  unfold callVerifier VerifierRegistry.onObject
  rw [Proc.run_focus, Proc.run_focus, h]
  cases r with
  | error e => rfl
  | ok a => rfl

end

theorem run_cancelled {β : Type} {t : Server β ε} {i : Moment} (hi : i.cancelled = true) (message : String) :
    (checkCancelled message i).run t = (.error (.cancelled message), t) := by
  unfold checkCancelled
  rw [if_pos hi]
  rfl

theorem run_uncancelled {β : Type} {t : Server β ε} {i : Moment} (hi : ¬ i.cancelled = true) (message : String) :
    (checkCancelled message i).run t = (.ok (), t) :=
  run_checkCancelled (show i.cancelled = false by simpa using hi) message

theorem run_resolve : (resolve (VerifierRegistry.backend lv) sid).run s =
    (.ok (VerifierRegistry.get sid s.verifiers).1, s.resolved sid) := rfl

/-- The server after an append that the store refused, once the verifier was left as `v'`. -/
def afterRefusal (lv : LocalVerifier V ε) (s : Server (VerifierRegistry V) ε) (sid : SessionId) (x : Session) (v' : V) :
    Server (VerifierRegistry V) ε :=
  { (s.resolved sid).withObject sid (VerifierRegistry.get sid s.verifiers).1 v' with
    store := s.store.write { x with cachedTokenSequence := lv.cachedTokenSequence v' } }

variable (lv input) in
/-- An append with an ill-formed token: the store refuses it after the verifier has taken it, or it ends before. -/
theorem appended_negative (hx : s.store.sessions.get? sid = some x) (hid : x.sessionId = sid) {t : Token}
    (ht : (ts.find? fun t => decide (t < 0)) = some t) :
    ((input 0).cancelled = false ∧ (input 4).cancelled = false ∧
      ∃ v', (intake lv x ts).run (s.current sid) = (.ok (), v') ∧
        appended lv input sid ts s =
          (.error (.store (.valueError ("token_id must be a non-negative int, got " ++ toString t))),
            afterRefusal lv s sid x v')) ∨
    (((input 0).cancelled = true ∨ (input 4).cancelled = true ∨
        ∀ v', (intake lv x ts).run (s.current sid) ≠ (.ok (), v')) ∧
      ∀ e s', appended lv input sid ts s ≠ (.error (.store e), s')) := by
  have hne : ts ≠ [] := by
    rintro rfl
    cases ht
  unfold appended appendTokens
  by_cases h0 : (input 0).cancelled = true
  · right
    refine ⟨Or.inl h0, fun e s' h => ?_⟩
    rw [Prog.alone_next_error (run_cancelled h0 _)] at h
    cases (Prod.mk.inj h).1
  rw [Prog.alone_next_ok (run_uncancelled h0 _), Prog.alone_next_ok (run_lookup hx),
    Prog.alone_next_ok (x := fun _ => resolve (VerifierRegistry.backend lv) sid) run_resolve, if_neg hne, drive_eq]
  have hn : (s.resolved sid).verifiers.verifiers.get? sid = some (VerifierRegistry.get sid s.verifiers).1 :=
    registered_get s.verifiers
  have hsame : (intake lv x ts).run ((s.resolved sid).current sid) = (intake lv x ts).run (s.current sid) := by
    rw [current_resolved]
  rcases hv : (intake lv x ts).run (s.current sid) with ⟨e' | _, v'⟩
  · right
    refine ⟨Or.inr (Or.inr fun v'' h => by cases (Prod.mk.inj h).1), fun e s' h => ?_⟩
    rw [Prog.alone_next_error (run_intake hn (hsame.trans hv))] at h
    cases (Prod.mk.inj h).1
  rw [Prog.alone_next_ok (run_intake hn (hsame.trans hv))]
  by_cases h4 : (input 4).cancelled = true
  · right
    refine ⟨Or.inr (Or.inl h4), fun e s' h => ?_⟩
    rw [Prog.alone_next_error (run_cancelled h4 _)] at h
    cases (Prod.mk.inj h).1
  left
  refine ⟨by simpa using h0, by simpa using h4, v', rfl, ?_⟩
  have hcached : (VerifierRegistry.backend lv).cachedTokenSequence sid (VerifierRegistry.get sid s.verifiers).1
      ((s.resolved sid).withObject sid (VerifierRegistry.get sid s.verifiers).1 v').verifiers =
        lv.cachedTokenSequence v' := by
    show lv.cachedTokenSequence (((s.resolved sid).withObject sid _ v').verifiers.objects sid _) = _
    rw [← current_registered (s := (s.resolved sid).withObject sid _ v') hn, current_withObject hn]
  have hmirror := run_mirror (VerifierRegistry.backend lv) (VerifierRegistry.get sid s.verifiers).1
    (s := (s.resolved sid).withObject sid (VerifierRegistry.get sid s.verifiers).1 v') hx
  rw [hcached] at hmirror
  have hx' : (afterRefusal lv s sid x v').store.sessions.get? sid =
      some { x with cachedTokenSequence := lv.cachedTokenSequence v' } := by
    simp [afterRefusal, SessionStore.write, hid]
  rw [Prog.alone_next_ok (run_uncancelled h4 _), Prog.alone_next_ok hmirror]
  exact Prog.alone_next_error (run_storeAppend_negative (VerifierRegistry.backend lv) hx' ht _)

/-! ### What a refusal leaves -/

theorem books_afterRefusal (hid : x.sessionId = sid) (v' : V) :
    (afterRefusal lv s sid x v').books sid =
      some (x.historyTokenIds, lv.cachedTokenSequence v', x.nextGlobalPosition) := by
  simp [books, afterRefusal, SessionStore.write, hid]

theorem current_afterRefusal (v' : V) : (afterRefusal lv s sid x v').current sid = v' :=
  current_withObject (s := s.resolved sid) (registered_get s.verifiers) v'

theorem afterRefusal_held (hx : s.store.sessions.get? sid = some x) (hid : x.sessionId = sid)
    (hmirror : x.cachedTokenSequence = lv.cachedTokenSequence (s.current sid)) :
    afterRefusal lv s sid x (s.current sid) = s.resolved sid := by
  have hwrite : s.store.write { x with cachedTokenSequence := lv.cachedTokenSequence (s.current sid) } = s.store := by
    rw [← hmirror]
    subst hid
    exact congrArg (fun d => { s.store with sessions := d }) (Dict.set_of_get? hx)
  have hobject : (s.resolved sid).withObject sid (VerifierRegistry.get sid s.verifiers).1 (s.current sid) =
      s.resolved sid := by
    rw [← current_resolved]
    exact withObject_current (registered_get s.verifiers)
  unfold afterRefusal
  rw [hwrite, hobject]
  rfl

/-- An append does the same whether its session was resolved before or not. -/
theorem appended_resolved (hx : s.store.sessions.get? sid = some x) :
    (appended lv input sid ts (s.resolved sid)).1 = (appended lv input sid ts s).1 ∧
    (appended lv input sid ts (s.resolved sid)).2.books sid = (appended lv input sid ts s).2.books sid ∧
    (appended lv input sid ts (s.resolved sid)).2.current sid = (appended lv input sid ts s).2.current sid := by
  have hx' : (s.resolved sid).store.sessions.get? sid = some x := hx
  unfold appended appendTokens
  by_cases h0 : (input 0).cancelled = true
  · rw [Prog.alone_next_error (run_cancelled h0 _), Prog.alone_next_error (run_cancelled h0 _)]
    exact ⟨rfl, rfl, current_resolved⟩
  · have hagain : (resolve (VerifierRegistry.backend lv) sid).run (s.resolved sid) =
        (.ok (VerifierRegistry.get sid s.verifiers).1, s.resolved sid) := by
      have hget : (VerifierRegistry.get sid (s.resolved sid).verifiers).1 = (VerifierRegistry.get sid s.verifiers).1 :=
        congrArg Prod.fst (get_registered (registered_get s.verifiers))
      rw [run_resolve, resolved_resolved, hget]
    rw [Prog.alone_next_ok (run_uncancelled h0 _), Prog.alone_next_ok (run_uncancelled h0 _),
      Prog.alone_next_ok (x := fun _ => callStore (VerifierRegistry.backend lv) (SessionStore.getSession sid))
        (run_lookup hx'),
      Prog.alone_next_ok (x := fun _ => callStore (VerifierRegistry.backend lv) (SessionStore.getSession sid))
        (run_lookup hx),
      Prog.alone_next_ok (x := fun _ => resolve (VerifierRegistry.backend lv) sid) hagain,
      Prog.alone_next_ok (x := fun _ => resolve (VerifierRegistry.backend lv) sid) run_resolve]
    exact ⟨rfl, rfl, rfl⟩

/-- A refused append does no harm exactly when the store does not get to refuse it, or the session is cold and its
verifier held the tokens before. -/
theorem refused_append_unharmed_iff (lv : LocalVerifier V ε) (hadv : Advances lv)
    {s : Server (VerifierRegistry V) ε} {sid : SessionId} {x : Session} (hx : s.store.sessions.get? sid = some x)
    (hid : x.sessionId = sid) (input : Nat → Moment) (ts : List Token) :
    RefusesUnharmed lv input sid ts s ↔ Spared lv input sid ts s x := by
  cases ht : ts.find? fun t => decide (t < 0) with
  | none =>
    have hall : ∀ t ∈ ts, 0 ≤ t := by
      intro t hmem
      simpa using List.find?_eq_none.1 ht t hmem
    refine ⟨fun _ => .wellFormed hall, fun _ t s' hmem hneg => ?_⟩
    exact absurd (hall t hmem) (Int.not_le.2 hneg)
  | some t =>
    have hmem := List.mem_of_find?_eq_some ht
    have hneg : t < 0 := by simpa using List.find?_some ht
    rcases appended_negative lv input hx hid ht with ⟨h0, h4, v', hv, hrun⟩ | ⟨hend, hother⟩
    · constructor
      · intro h
        obtain ⟨hbooks, hverifier, -⟩ := h t _ hmem hneg hrun
        rw [current_afterRefusal] at hverifier
        rw [books_afterRefusal hid, hverifier] at hbooks
        rw [hverifier] at hv
        by_cases hcold : x.nextGlobalPosition = 0
        · unfold intake at hv
          rw [if_pos hcold] at hv
          refine .held hcold hv ?_
          rw [books, hx] at hbooks
          exact (Prod.mk.inj (Prod.mk.inj (Option.some.inj hbooks)).2).1.symm
        · -- the verifier of a warm session has moved
          unfold intake at hv
          rw [if_neg hcold] at hv
          have hmoved := hadv _ _ _ hv
          have hlen := List.length_pos_of_mem hmem
          omega
      · intro h
        cases h with
        | wellFormed hall => exact absurd (hall t hmem) (Int.not_le.2 hneg)
        | cancelled hc =>
          rw [h0, h4] at hc
          simp at hc
        | declined hd => exact absurd hv (hd v')
        | held hcold hheld hmirror =>
          have hsame : v' = s.current sid := by
            unfold intake at hv
            rw [if_pos hcold, hheld] at hv
            exact (Prod.mk.inj hv).2.symm
          intro u s' _ _ hu
          rw [hrun, hsame, afterRefusal_held hx hid hmirror] at hu
          obtain rfl := (Prod.mk.inj hu).2
          exact ⟨rfl, current_resolved, fun _ _ _ => appended_resolved hx⟩
    · refine ⟨fun _ => ?_, fun _ u s' _ _ hu => absurd hu (hother _ _)⟩
      rcases hend with hc | hc | hd
      · exact .cancelled (Or.inl hc)
      · exact .cancelled (Or.inr hc)
      · exact .declined hd

/-! ### A session of one token -/

/-- A session that has been given one token, with a verifier that keeps all tokens. -/
def oneToken : Server (VerifierRegistry (List Token)) Unit :=
  (appended echoVerifier (fun _ => { clock := 1 }) "sess-1" [1]
    { store :=
        { capacity := 1, hasInspector := true, slabPool := none, hasCallback := true,
          sessions := Dict.empty.set "sess-1"
            { sessionId := "sess-1", eosTokenIds := [], clientLabel := "", createdAt := 0, lastActiveAt := 0 } }
      verifiers := VerifierRegistry.initial echoVerifier }).2

theorem echo_advances : Advances echoVerifier := by
  intro ts v v' h
  obtain rfl := (Prod.mk.inj h).2
  show ((v ++ ts).length : Int) = v.length + ts.length
  rw [List.length_append, Int.natCast_add]

/-- A list of well-formed tokens is refused by nobody. -/
theorem well_formed_append_unharmed : RefusesUnharmed echoVerifier (fun _ => { clock := 2 }) "sess-1" [2, 3] oneToken := by
  have hx : oneToken.store.sessions.get? "sess-1" =
      some
        { sessionId := "sess-1", eosTokenIds := [], clientLabel := "", historyTokenIds := [1],
          cachedTokenSequence := [1], nextGlobalPosition := 1, createdAt := 0, lastActiveAt := 1 } := by
    decide +kernel
  exact (refused_append_unharmed_iff echoVerifier echo_advances hx rfl _ _).2 (.wellFormed (by decide))

/-- The tokens of a refused append are in the verifier and in the mirror, and the next append goes on behind them. -/
theorem refused_append_harms :
    let input : Nat → Moment := fun _ => { clock := 2 }
    let refused := appended echoVerifier input "sess-1" [2, -1] oneToken
    let later := appended echoVerifier input "sess-1" [3] refused.2
    (refused.1 = .error (.store (.valueError "token_id must be a non-negative int, got -1")) ∧
      oneToken.books "sess-1" = some ([1], [1], 1) ∧ refused.2.books "sess-1" = some ([1], [1, 2, -1], 1) ∧
      refused.2.current "sess-1" = [1, 2, -1] ∧ later.1 = .ok 2 ∧
      later.2.books "sess-1" = some ([1, 3], [1, 2, -1, 3], 4)) ∧
    ¬ RefusesUnharmed echoVerifier input "sess-1" [2, -1] oneToken := by
  intro input refused later
  have hrun : refused.1 = .error (.store (.valueError "token_id must be a non-negative int, got -1")) ∧
      oneToken.books "sess-1" = some ([1], [1], 1) ∧ refused.2.books "sess-1" = some ([1], [1, 2, -1], 1) ∧
      refused.2.current "sess-1" = [1, 2, -1] ∧ later.1 = .ok 2 ∧
      later.2.books "sess-1" = some ([1, 3], [1, 2, -1, 3], 4) := by
    decide +kernel
  refine ⟨hrun, fun h => ?_⟩
  have herror : refused.1 =
      .error (.store (.valueError ("token_id must be a non-negative int, got " ++ toString (-1 : Token)))) := by
    decide +kernel
  have hharm := (h (-1) refused.2 (by decide) (by decide) (Prod.ext herror rfl)).books
  rw [hrun.2.1, hrun.2.2.1] at hharm
  exact absurd hharm (by decide)

end Server

end KakeyaEngine
