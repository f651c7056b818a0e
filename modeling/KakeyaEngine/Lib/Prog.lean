import KakeyaEngine.Lib.Dict
import KakeyaEngine.Lib.Machine
import KakeyaEngine.Lib.Proc

/-!
# Programs that run in turns

A `Prog` is what is left of a program that shares a state `σ` with others: it has ended, or its next step changes the
state at once and leaves a program that depends on what the step saw.  A step has a label `κ`, and reads an input `ι` of
the environment, such as the clock.

`Pool` runs any number of programs in any order.  `Preserves` is the rule for what every step keeps, under a condition on
the labelled steps; `Confined` the one for programs that see and change only their own part of the state, which then do in
company what they do alone (`final_confined`).
-/

/-- What is left of a program. -/
inductive Prog (κ ι σ ε α : Type)
  | done (result : Except ε α)
  | step (label : κ) (act : ι → σ → σ) (next : ι → σ → Prog κ ι σ ε α)

namespace Prog

variable {κ ι σ ε α β : Type}

/-- Goes on with `f` when the program returns. -/
def bind : Prog κ ι σ ε α → (α → Prog κ ι σ ε β) → Prog κ ι σ ε β
  | .done (.ok a), f => f a
  | .done (.error e), _ => .done (.error e)
  | .step k act next, f => .step k act fun i s => (next i s).bind f

instance : Monad (Prog κ ι σ ε) where
  pure a := .done (.ok a)
  bind := bind

/-- Raises an exception. -/
def raise (e : ε) : Prog κ ι σ ε α := .done (.error e)

/-- Goes on with `f`, whether the program returns or raises. -/
def andThen : Prog κ ι σ ε α → (Except ε α → Prog κ ι σ ε β) → Prog κ ι σ ε β
  | .done r, f => f r
  | .step k act next, f => .step k act fun i s => (next i s).andThen f

/-- A procedure that runs in one step. -/
def atomic (k : κ) (x : ι → Proc σ ε α) : Prog κ ι σ ε α :=
  .step k (fun i s => ((x i).run s).2) fun i s => .done ((x i).run s).1

/-- Runs a program on a part of the state, with its exceptions wrapped and its steps labelled `k`. -/
def focus {κ' τ ε' : Type} (k : κ) (view : σ → τ) (update : τ → σ → σ) (wrap : ε' → ε) :
    Prog κ' ι τ ε' α → Prog κ ι σ ε α
  | .done r => .done (r.mapError wrap)
  | .step _ act next =>
    .step k (fun i s => update (act i (view s)) s) fun i s => (next i (view s)).focus k view update wrap

/-- Whether the program has ended. -/
def ended : Prog κ ι σ ε α → Bool
  | .done _ => true
  | .step .. => false

/-! ### What every step keeps -/

/-- From states with `I`, every step that meets `C` keeps `I` and makes a change that `R` allows. -/
def Preserves (C : κ → σ → Prop) (I : σ → Prop) (R : σ → σ → Prop) : Prog κ ι σ ε α → Prop
  | .done _ => True
  | .step k act next => ∀ i s, I s → C k s → I (act i s) ∧ R s (act i s) ∧ (next i s).Preserves C I R

/-- Every step makes a change that `R` allows. -/
abbrev Steps (R : σ → σ → Prop) (p : Prog κ ι σ ε α) : Prop := p.Preserves (fun _ _ => True) (fun _ => True) R

section Preserves

variable {C : κ → σ → Prop} {I : σ → Prop} {R : σ → σ → Prop}

theorem Preserves.andThen {p : Prog κ ι σ ε α} {f : Except ε α → Prog κ ι σ ε β} (hp : p.Preserves C I R)
    (hf : ∀ r, (f r).Preserves C I R) : (p.andThen f).Preserves C I R := by
  induction p with
  | done r => exact hf r
  | step k act next ih =>
    intro i s hs hk
    obtain ⟨hact, hrel, hnext⟩ := hp i s hs hk
    exact ⟨hact, hrel, ih i s hnext⟩

theorem Preserves.bind {p : Prog κ ι σ ε α} {f : α → Prog κ ι σ ε β} (hp : p.Preserves C I R)
    (hf : ∀ a, (f a).Preserves C I R) : (p >>= f).Preserves C I R := by
  induction p with
  | done r =>
    cases r with
    | ok a => exact hf a
    | error e => exact trivial
  | step k act next ih =>
    intro i s hs hk
    obtain ⟨hact, hrel, hnext⟩ := hp i s hs hk
    exact ⟨hact, hrel, ih i s hnext⟩

theorem Preserves.atomic {k : κ} {x : ι → Proc σ ε α}
    (hx : ∀ i s, I s → C k s → I ((x i).run s).2 ∧ R s ((x i).run s).2) : (atomic k x).Preserves C I R := by
  intro i s hs hk
  obtain ⟨hact, hrel⟩ := hx i s hs hk
  exact ⟨hact, hrel, trivial⟩

theorem Preserves.focus {κ' τ ε' : Type} {k : κ} {view : σ → τ} {update : τ → σ → σ} {wrap : ε' → ε}
    {S : τ → τ → Prop} {p : Prog κ' ι τ ε' α} (hp : p.Steps S)
    (hI : ∀ s t, I s → S (view s) t → I (update t s) ∧ R s (update t s)) :
    (p.focus k view update wrap).Preserves C I R := by
  induction p with
  | done r => exact trivial
  | step k' act next ih =>
    intro i s hs _
    obtain ⟨-, hact, hnext⟩ := hp i (view s) trivial trivial
    obtain ⟨h, h'⟩ := hI s _ hs hact
    exact ⟨h, h', ih i (view s) hnext⟩

end Preserves

/-! ### A program on its own -/

/-- Runs a program on its own, with the inputs from the `n`-th on. -/
def alone (input : Nat → ι) : Prog κ ι σ ε α → Nat → σ → Except ε α × σ
  | .done r, _, s => (r, s)
  | .step _ act next, n, s => alone input (next (input n) s) (n + 1) (act (input n) s)

theorem alone_next_ok {k : κ} {x : ι → Proc σ ε α} {f : α → Prog κ ι σ ε β} {input : Nat → ι} {n : Nat} {s s' : σ} {a : α}
    (h : (x (input n)).run s = (.ok a, s')) :
    (atomic k x >>= f).alone input n s = (f a).alone input (n + 1) s' := by
  show (Prog.bind (.done ((x (input n)).run s).1) f).alone input (n + 1) ((x (input n)).run s).2 = _
  rw [h]
  rfl

theorem alone_next_error {k : κ} {x : ι → Proc σ ε α} {f : α → Prog κ ι σ ε β} {input : Nat → ι} {n : Nat} {s s' : σ}
    {e : ε} (h : (x (input n)).run s = (.error e, s')) :
    (atomic k x >>= f).alone input n s = (.error e, s') := by
  show (Prog.bind (.done ((x (input n)).run s).1) f).alone input (n + 1) ((x (input n)).run s).2 = _
  rw [h]
  rfl

/-- How a program goes on after `p`, and with which inputs. -/
theorem alone_bind (p : Prog κ ι σ ε α) (input : Nat → ι) (n : Nat) (s : σ) :
    ∃ n', ∀ {β : Type} (f : α → Prog κ ι σ ε β), (p >>= f).alone input n s =
      match p.alone input n s with
      | (.ok a, s') => (f a).alone input n' s'
      | (.error e, s') => (.error e, s') := by
  induction p generalizing n s with
  | done r =>
    refine ⟨n, fun f => ?_⟩
    cases r with
    | ok a => rfl
    | error e => rfl
  | step k act next ih => exact ih (input n) s (n + 1) (act (input n) s)

theorem alone_andThen (p : Prog κ ι σ ε α) (input : Nat → ι) (n : Nat) (s : σ) :
    ∃ n', ∀ {β : Type} (f : Except ε α → Prog κ ι σ ε β), (p.andThen f).alone input n s =
      (f (p.alone input n s).1).alone input n' (p.alone input n s).2 := by
  induction p generalizing n s with
  | done r => exact ⟨n, fun f => rfl⟩
  | step k act next ih => exact ih (input n) s (n + 1) (act (input n) s)

/-- On its own the program can end so, with some inputs. -/
inductive Ends : Prog κ ι σ ε α → σ → Except ε α → σ → Prop
  | done (r : Except ε α) (s : σ) : Ends (.done r) s r s
  | step (k : κ) (act : ι → σ → σ) (next : ι → σ → Prog κ ι σ ε α) (i : ι) (s : σ) {r : Except ε α} {s' : σ}
    (h : Ends (next i s) (act i s) r s') : Ends (.step k act next) s r s'

section Ends

theorem Ends.bind {p : Prog κ ι σ ε α} {f : α → Prog κ ι σ ε β} {s s' s'' : σ} {a : α} {r : Except ε β}
    (h : p.Ends s (.ok a) s') (h' : (f a).Ends s' r s'') : (p >>= f).Ends s r s'' := by
  generalize hr : Except.ok a = r' at h
  induction h with
  | done r' s =>
    subst hr
    exact h'
  | step k act next i s h ih => exact .step k act _ i s (ih h' hr)

theorem Ends.bind_error {p : Prog κ ι σ ε α} {f : α → Prog κ ι σ ε β} {s s' : σ} {e : ε} (h : p.Ends s (.error e) s') :
    (p >>= f).Ends s (.error e) s' := by
  generalize hr : Except.error e = r' at h
  induction h with
  | done r' s =>
    subst hr
    exact .done (.error e) s
  | step k act next i s h ih => exact .step k act _ i s (ih hr)

theorem Ends.andThen {p : Prog κ ι σ ε α} {f : Except ε α → Prog κ ι σ ε β} {s s' s'' : σ} {r : Except ε α}
    {r' : Except ε β} (h : p.Ends s r s') (h' : (f r).Ends s' r' s'') : (p.andThen f).Ends s r' s'' := by
  induction h with
  | done r s => exact h'
  | step k act next i s h ih => exact .step k act _ i s (ih h')

theorem Ends.atomic {k : κ} {x : ι → Proc σ ε α} (i : ι) {s s' : σ} {r : Except ε α} (h : (x i).run s = (r, s')) :
    (Prog.atomic k x).Ends s r s' := by
  refine .step k _ _ i s ?_
  rw [h]
  exact .done r s'

end Ends

/-- On its own, and with inputs that meet `C`, the program ends with a result and in a state that `Q` allows. -/
def Yields (C : ι → Prop) (Q : Except ε α → σ → Prop) : Prog κ ι σ ε α → σ → Prop
  | .done r, s => Q r s
  | .step _ act next, s => ∀ i, C i → (next i s).Yields C Q (act i s)

section Yields

variable {C : ι → Prop}

theorem Yields.alone {Q : Except ε α → σ → Prop} {p : Prog κ ι σ ε α} {s : σ} (h : p.Yields C Q s) {input : Nat → ι}
    (hin : ∀ n, C (input n)) (n : Nat) : Q (p.alone input n s).1 (p.alone input n s).2 := by
  induction p generalizing n s with
  | done r => exact h
  | step k act next ih => exact ih (input n) s (h (input n) (hin n)) (n + 1)

theorem Yields.mono {Q Q' : Except ε α → σ → Prop} {p : Prog κ ι σ ε α} {s : σ} (h : p.Yields C Q s)
    (hQ : ∀ r s', Q r s' → Q' r s') : p.Yields C Q' s := by
  induction p generalizing s with
  | done r => exact hQ r s h
  | step k act next ih => exact fun i hi => ih i s (h i hi)

theorem Yields.andThen {Q : Except ε β → σ → Prop} {p : Prog κ ι σ ε α} {f : Except ε α → Prog κ ι σ ε β} {s : σ}
    (h : p.Yields C (fun r s' => (f r).Yields C Q s') s) : (p.andThen f).Yields C Q s := by
  induction p generalizing s with
  | done r => exact h
  | step k act next ih => exact fun i hi => ih i s (h i hi)

theorem Yields.bind {Q : Except ε β → σ → Prop} {p : Prog κ ι σ ε α} {f : α → Prog κ ι σ ε β} {s : σ}
    (h : p.Yields C (fun r s' => match r with
      | .ok a => (f a).Yields C Q s'
      | .error e => Q (.error e) s') s) : (p >>= f).Yields C Q s := by
  induction p generalizing s with
  | done r =>
    cases r with
    | ok a => exact h
    | error e => exact h
  | step k act next ih => exact fun i hi => ih i s (h i hi)

theorem Yields.atomic {Q : Except ε α → σ → Prop} {k : κ} {x : ι → Proc σ ε α} {s : σ}
    (h : ∀ i, C i → Q ((x i).run s).1 ((x i).run s).2) : (atomic k x).Yields C Q s := h

/-- A step that returns, and what follows it. -/
theorem Yields.next {Q : Except ε β → σ → Prop} {k : κ} {x : ι → Proc σ ε α} {f : α → Prog κ ι σ ε β} {s : σ}
    (h : ∀ i, C i → ∃ a s', (x i).run s = (.ok a, s') ∧ (f a).Yields C Q s') : (Prog.atomic k x >>= f).Yields C Q s := by
  refine Yields.bind (Yields.atomic ?_)
  intro i hi
  obtain ⟨a, s', hrun, hf⟩ := h i hi
  rw [hrun]
  exact hf

theorem Yields.focus_atomic {κ' τ ε' : Type} {Q : Except ε α → σ → Prop} {k : κ} {k' : κ'} {view : σ → τ}
    {update : τ → σ → σ} {wrap : ε' → ε} {x : ι → Proc τ ε' α} {s : σ}
    (h : ∀ i, C i → Q (((x i).run (view s)).1.mapError wrap) (update ((x i).run (view s)).2 s)) :
    ((Prog.atomic k' x).focus k view update wrap).Yields C Q s := h

end Yields

/-! ### The steps of a program on its own -/

/-- Every step that the program makes on its own, with the inputs from the `n`-th on, meets `C`. -/
def Throughout (C : κ → ι → σ → Prop) (input : Nat → ι) : Prog κ ι σ ε α → Nat → σ → Prop
  | .done _, _, _ => True
  | .step k act next, n, s => C k (input n) s ∧ Throughout C input (next (input n) s) (n + 1) (act (input n) s)

theorem throughout_of_forall {C : κ → ι → σ → Prop} {input : Nat → ι} (h : ∀ k n s, C k (input n) s)
    {p : Prog κ ι σ ε α} {n : Nat} {s : σ} : p.Throughout C input n s := by
  induction p generalizing n s with
  | done r => exact trivial
  | step k act next ih => exact ⟨h k n s, ih (input n) s⟩

/-- On its own the program, when it returns, does so with what `Q` allows; `Q` is told whether all steps met `C`, which
they did so far if `P` holds. -/
def Traces (C : κ → ι → σ → Prop) (input : Nat → ι) (Q : α → Nat → σ → Prop → Prop) :
    Prog κ ι σ ε α → Nat → σ → Prop → Prop
  | .done (.ok a), n, s, P => Q a n s P
  | .done (.error _), _, _, _ => True
  | .step k act next, n, s, P => Traces C input Q (next (input n) s) (n + 1) (act (input n) s) (P ∧ C k (input n) s)

section Traces

variable {C : κ → ι → σ → Prop} {input : Nat → ι}

theorem Traces.alone {Q : α → Nat → σ → Prop → Prop} {p : Prog κ ι σ ε α} {n : Nat} {s s' : σ} {P : Prop} {a : α}
    (h : p.Traces C input Q n s P) (hrun : p.alone input n s = (.ok a, s')) :
    ∃ n', Q a n' s' (P ∧ p.Throughout C input n s) := by
  induction p generalizing n s P with
  | done r =>
    obtain ⟨rfl, rfl⟩ := Prod.mk.inj hrun
    exact ⟨n, by rw [Throughout, and_true]; exact h⟩
  | step k act next ih =>
    obtain ⟨n', hn'⟩ := ih (input n) s h hrun
    exact ⟨n', by rw [Throughout, ← and_assoc]; exact hn'⟩

theorem Traces.mono {Q Q' : α → Nat → σ → Prop → Prop} {p : Prog κ ι σ ε α} {n : Nat} {s : σ} {P : Prop}
    (h : p.Traces C input Q n s P) (hQ : ∀ a n' s' P', Q a n' s' P' → Q' a n' s' P') : p.Traces C input Q' n s P := by
  induction p generalizing n s P with
  | done r =>
    cases r with
    | ok a => exact hQ a n s P h
    | error e => exact trivial
  | step k act next ih => exact ih (input n) s h

theorem Traces.pure {Q : α → Nat → σ → Prop → Prop} {a : α} {n : Nat} {s : σ} {P : Prop} (h : Q a n s P) :
    (Pure.pure a : Prog κ ι σ ε α).Traces C input Q n s P := h

theorem Traces.raise {Q : α → Nat → σ → Prop → Prop} {e : ε} {n : Nat} {s : σ} {P : Prop} :
    (Prog.raise e : Prog κ ι σ ε α).Traces C input Q n s P := trivial

theorem Traces.bind {Q : β → Nat → σ → Prop → Prop} {p : Prog κ ι σ ε α} {f : α → Prog κ ι σ ε β} {n : Nat} {s : σ}
    {P : Prop} (h : p.Traces C input (fun a n' s' P' => (f a).Traces C input Q n' s' P') n s P) :
    (p >>= f).Traces C input Q n s P := by
  induction p generalizing n s P with
  | done r =>
    cases r with
    | ok a => exact h
    | error e => exact trivial
  | step k act next ih => exact ih (input n) s h

theorem Traces.andThen {Q : β → Nat → σ → Prop → Prop} {p : Prog κ ι σ ε α} {f : Except ε α → Prog κ ι σ ε β} {n : Nat}
    {s : σ} {P : Prop} (h : p.Traces C input (fun a n' s' P' => (f (.ok a)).Traces C input Q n' s' P') n s P)
    (herror : ∀ e n' s' P', (f (.error e)).Traces C input Q n' s' P') : (p.andThen f).Traces C input Q n s P := by
  induction p generalizing n s P with
  | done r =>
    cases r with
    | ok a => exact h
    | error e => exact herror e n s P
  | step k act next ih => exact ih (input n) s h

theorem Traces.atomic {Q : α → Nat → σ → Prop → Prop} {k : κ} {x : ι → Proc σ ε α} {n : Nat} {s : σ} {P : Prop}
    (h : ∀ a s', (x (input n)).run s = (.ok a, s') → Q a (n + 1) s' (P ∧ C k (input n) s)) :
    (atomic k x).Traces C input Q n s P := by
  show Traces C input Q (.done ((x (input n)).run s).1) (n + 1) ((x (input n)).run s).2 _
  rcases hrun : (x (input n)).run s with ⟨e | a, s'⟩
  · exact trivial
  · exact h a s' hrun

end Traces

/-! ### Programs confined to a part of the state -/

variable {ν π : Type}

/-- With `I`, the steps see and change only the part `v` of the state that `view` shows. -/
def Confined (view : π → σ → ν) (I : σ → Prop) (v : π) : Prog κ ι σ ε α → Prop
  | .done _ => True
  | .step _ act next => ∀ i,
    (∀ s, I s → I (act i s) ∧ ∀ w, w ≠ v → view w (act i s) = view w s) ∧
    (∀ s t, I s → I t → view v s = view v t → view v (act i s) = view v (act i t) ∧ next i s = next i t) ∧
    ∀ s, (next i s).Confined view I v

theorem Confined.andThen {view : π → σ → ν} {I : σ → Prop} {v : π} {p : Prog κ ι σ ε α}
    {f : Except ε α → Prog κ ι σ ε β} (hp : p.Confined view I v) (hf : ∀ r, (f r).Confined view I v) :
    (p.andThen f).Confined view I v := by
  induction p with
  | done r => exact hf r
  | step k act next ih =>
    intro i
    obtain ⟨hothers, hown, hnext⟩ := hp i
    refine ⟨hothers, fun s t hs ht hv => ?_, fun s => ih i s (hnext s)⟩
    obtain ⟨hact, heq⟩ := hown s t hs ht hv
    exact ⟨hact, congrArg (fun q => q.andThen f) heq⟩

theorem Confined.bind {view : π → σ → ν} {I : σ → Prop} {v : π} {p : Prog κ ι σ ε α} {f : α → Prog κ ι σ ε β}
    (hp : p.Confined view I v) (hf : ∀ a, (f a).Confined view I v) : (p >>= f).Confined view I v := by
  induction p with
  | done r =>
    cases r with
    | ok a => exact hf a
    | error e => exact trivial
  | step k act next ih =>
    intro i
    obtain ⟨hothers, hown, hnext⟩ := hp i
    refine ⟨hothers, fun s t hs ht hv => ?_, fun s => ih i s (hnext s)⟩
    obtain ⟨hact, heq⟩ := hown s t hs ht hv
    exact ⟨hact, congrArg (fun q => q >>= f) heq⟩

theorem Confined.atomic {view : π → σ → ν} {I : σ → Prop} {v : π} {k : κ} {x : ι → Proc σ ε α}
    (hothers : ∀ i s, I s → I ((x i).run s).2 ∧ ∀ w, w ≠ v → view w ((x i).run s).2 = view w s)
    (hown : ∀ i s t, I s → I t → view v s = view v t →
      view v ((x i).run s).2 = view v ((x i).run t).2 ∧ ((x i).run s).1 = ((x i).run t).1) :
    (atomic k x).Confined view I v := by
  intro i
  refine ⟨hothers i, fun s t hs ht hv => ?_, fun s => trivial⟩
  obtain ⟨hact, heq⟩ := hown i s t hs ht hv
  exact ⟨hact, congrArg Prog.done heq⟩

end Prog

/-! ### Pools of programs -/

/-- A shared state and the programs in flight on it.  A program is named by the part it works on and a number. -/
structure Pool (κ ι σ ε α π : Type) where
  shared : σ
  programs : Dict (π × Nat) (Prog κ ι σ ε α) := Dict.empty

/-- What happens next in a pool: an operation starts, a program makes a step, or the environment acts. -/
inductive Move (ι π ω τ : Type)
  | start (name : π × Nat) (op : ω)
  | step (name : π × Nat) (input : ι)
  | turn (t : τ)

namespace Pool

variable {κ ι σ ε α π ω τ : Type} [DecidableEq π]

/-- The pool after a move, given the program of an operation and what the environment does.  A name in use starts
nothing, and a program that has ended makes no step. -/
def move (program : π → ω → Prog κ ι σ ε α) (turn : τ → σ → σ) (p : Pool κ ι σ ε α π) (m : Move ι π ω τ) :
    Unit × Pool κ ι σ ε α π :=
  match m with
  | .start n op =>
    if p.programs.contains n then ((), p) else ((), { p with programs := p.programs.set n (program n.1 op) })
  | .step n i =>
    match p.programs.get? n with
    | some (.step _ act next) =>
      ((), { shared := act i p.shared, programs := p.programs.set n (next i p.shared) })
    | _ => ((), p)
  | .turn t => ((), { p with shared := turn t p.shared })

/-- The label of the step that a move makes. -/
def label (p : Pool κ ι σ ε α π) (m : Move ι π ω τ) : Option κ :=
  match m with
  | .step n _ =>
    match p.programs.get? n with
    | some (.step k _ _) => some k
    | _ => none
  | _ => none

/-- The shared state has `I`, and the programs in flight preserve it. -/
def Preserving (C : κ → σ → Prop) (I : σ → Prop) (R : σ → σ → Prop) (p : Pool κ ι σ ε α π) : Prop :=
  I p.shared ∧ ∀ n q, p.programs.get? n = some q → q.Preserves C I R

/-- A move of programs that preserve `I` keeps `I` and makes a change that `R` allows. -/
theorem move_preserving {program : π → ω → Prog κ ι σ ε α} {turn : τ → σ → σ} {C : κ → σ → Prop} {I : σ → Prop}
    {R : σ → σ → Prop} (hprogram : ∀ v op, (program v op).Preserves C I R) (hrefl : ∀ s, R s s) {p : Pool κ ι σ ε α π}
    {m : Move ι π ω τ} (hp : p.Preserving C I R) (hlabel : ∀ k, p.label m = some k → C k p.shared)
    (hturn : ∀ t, m = .turn t → I (turn t p.shared) ∧ R p.shared (turn t p.shared)) :
    (move program turn p m).2.Preserving C I R ∧ R p.shared (move program turn p m).2.shared := by
  obtain ⟨hI, hprogs⟩ := hp
  have hset : ∀ {s : σ} {n : π × Nat} {q : Prog κ ι σ ε α}, I s → q.Preserves C I R →
      Preserving C I R ⟨s, p.programs.set n q⟩ := by
    intro s n q hs hq
    refine ⟨hs, fun n' q' h => ?_⟩
    dsimp only at h
    rw [Dict.get?_set] at h
    split at h
    · rw [← Option.some.inj h]
      exact hq
    · exact hprogs n' q' h
  cases m with
  | start n op =>
    unfold move
    dsimp only
    split
    · exact ⟨⟨hI, hprogs⟩, hrefl _⟩
    · exact ⟨hset hI (hprogram n.1 op), hrefl _⟩
  | step n i =>
    cases hq : p.programs.get? n with
    | none =>
      simp only [move, hq]
      exact ⟨⟨hI, hprogs⟩, hrefl _⟩
    | some q =>
      cases q with
      | done r =>
        simp only [move, hq]
        exact ⟨⟨hI, hprogs⟩, hrefl _⟩
      | step k act next =>
        have hk : C k p.shared := hlabel k (by simp [label, hq])
        obtain ⟨hact, hrel, hnext⟩ := hprogs n _ hq i p.shared hI hk
        simp only [move, hq]
        exact ⟨hset hact hnext, hrel⟩
  | turn t =>
    obtain ⟨h, hrel⟩ := hturn t rfl
    exact ⟨⟨h, hprogs⟩, hrel⟩

/-! ### Company -/

variable {ν : Type}

/-- A move of a program of the part `v`. -/
def Concerns (v : π) : Move ι π ω τ → Bool
  | .start n _ => n.1 = v
  | .step n _ => n.1 = v
  | .turn _ => false

/-- The shared state has `I`, and the programs in flight are confined to their parts. -/
def Confining (view : π → σ → ν) (I : σ → Prop) (p : Pool κ ι σ ε α π) : Prop :=
  I p.shared ∧ ∀ n q, p.programs.get? n = some q → q.Confined view I n.1

/-- Two pools are alike for the programs of the part `v`. -/
structure Alike (view : π → σ → ν) (I : σ → Prop) (v : π) (p q : Pool κ ι σ ε α π) : Prop where
  left : p.Confining view I
  right : q.Confining view I
  views : view v p.shared = view v q.shared
  programs : ∀ k, p.programs.get? (v, k) = q.programs.get? (v, k)

section Company

variable {program : π → ω → Prog κ ι σ ε α} {turn : τ → σ → σ} {view : π → σ → ν} {I : σ → Prop}

theorem Confining.set {p : Pool κ ι σ ε α π} (hp : p.Confining view I) {s : σ} {n : π × Nat} {q : Prog κ ι σ ε α}
    (hs : I s) (hq : q.Confined view I n.1) : Confining view I ⟨s, p.programs.set n q⟩ := by
  refine ⟨hs, fun n' q' h => ?_⟩
  dsimp only at h
  rw [Dict.get?_set] at h
  split at h
  · rename_i heq
    rw [heq, ← Option.some.inj h]
    exact hq
  · exact hp.2 n' q' h

/-- The two pools after a step on the same program of the part `v`. -/
theorem Alike.set {v : π} {p q : Pool κ ι σ ε α π} (h : Alike view I v p q) {s t : σ} (hs : I s) (ht : I t)
    (hv : view v s = view v t) {k : Nat} {x : Prog κ ι σ ε α} (hx : x.Confined view I v) :
    Alike view I v ⟨s, p.programs.set (v, k) x⟩ ⟨t, q.programs.set (v, k) x⟩ := by
  refine ⟨h.left.set hs hx, h.right.set ht hx, hv, fun k' => ?_⟩
  dsimp only
  rw [Dict.get?_set, Dict.get?_set, h.programs]

/-- A move of a program of the part `v` does the same in both pools. -/
theorem Alike.move_own (hprogram : ∀ v op, (program v op).Confined view I v) {v : π} {p q : Pool κ ι σ ε α π}
    (h : Alike view I v p q) {m : Move ι π ω τ} (hm : Concerns v m = true) :
    Alike view I v (move program turn p m).2 (move program turn q m).2 := by
  cases m with
  | turn t => cases hm
  | start n op =>
    obtain ⟨w, k⟩ := n
    obtain rfl : w = v := by simpa [Concerns] using hm
    have hsame : p.programs.contains (w, k) = q.programs.contains (w, k) := by
      unfold Dict.contains
      rw [h.programs]
    unfold move
    dsimp only
    rw [hsame]
    split
    · exact h
    · exact h.set h.left.1 h.right.1 h.views (hprogram w op)
  | step n i =>
    obtain ⟨w, k⟩ := n
    obtain rfl : w = v := by simpa [Concerns] using hm
    have hprog := h.programs k
    unfold move
    dsimp only
    rw [hprog]
    cases hq : q.programs.get? (w, k) with
    | none => exact h
    | some x =>
      cases x with
      | done r => exact h
      | step l act next =>
        obtain ⟨hothers, hown, hnext⟩ := h.right.2 _ _ hq i
        obtain ⟨hview, hsame⟩ := hown p.shared q.shared h.left.1 h.right.1 h.views
        dsimp only
        rw [hsame]
        exact h.set (hothers p.shared h.left.1).1 (hothers q.shared h.right.1).1 hview (hnext q.shared)

/-- Any other move leaves the pool as it is for the programs of the part `v`. -/
theorem Alike.move_other (hprogram : ∀ v op, (program v op).Confined view I v) {v : π} {p q : Pool κ ι σ ε α π}
    (h : Alike view I v p q) {m : Move ι π ω τ} (hm : Concerns v m = false)
    (hturn : ∀ t, m = .turn t → I (turn t p.shared) ∧ view v (turn t p.shared) = view v p.shared) :
    Alike view I v (move program turn p m).2 q := by
  have hother : ∀ {n : π × Nat} (x : Prog κ ι σ ε α), n.1 ≠ v → ∀ k,
      (p.programs.set n x).get? (v, k) = q.programs.get? (v, k) := by
    intro n x hn k
    rw [Dict.get?_set_ne _ (fun heq => hn (congrArg Prod.fst heq).symm)]
    exact h.programs k
  cases m with
  | turn t =>
    obtain ⟨hI, hview⟩ := hturn t rfl
    exact ⟨⟨hI, h.left.2⟩, h.right, hview.trans h.views, h.programs⟩
  | start n op =>
    have hn : n.1 ≠ v := by simpa [Concerns] using hm
    unfold move
    dsimp only
    split
    · exact h
    · exact ⟨h.left.set h.left.1 (hprogram n.1 op), h.right, h.views, hother _ hn⟩
  | step n i =>
    have hn : n.1 ≠ v := by simpa [Concerns] using hm
    unfold move
    dsimp only
    cases hp : p.programs.get? n with
    | none => exact h
    | some x =>
      cases x with
      | done r => exact h
      | step l act next =>
        obtain ⟨hothers, -, hnext⟩ := h.left.2 _ _ hp i
        obtain ⟨hI, hview⟩ := hothers p.shared h.left.1
        exact ⟨h.left.set hI (hnext p.shared), h.right, (hview v hn.symm).trans h.views, hother _ hn⟩

/-- Confined programs do in company what they do alone: a run leaves the programs of the part `v`, and what they see, as
the run of their moves alone does. -/
theorem final_confined (hprogram : ∀ v op, (program v op).Confined view I v) {v : π} (run : List (Move ι π ω τ))
    {p q : Pool κ ι σ ε α π} (h : Alike view I v p q)
    (hturns : Machine.AllSteps (move program turn)
      (fun p m => I p.shared → ∀ t, m = .turn t → I (turn t p.shared) ∧ view v (turn t p.shared) = view v p.shared)
      p run) :
    Alike view I v (Machine.final (move program turn) p run)
      (Machine.final (move program turn) q (run.filter (Concerns v))) := by
  induction run generalizing p q with
  | nil => exact h
  | cons m run ih =>
    obtain ⟨hturn, hrest⟩ := hturns
    cases hm : Concerns v m with
    | true =>
      rw [List.filter_cons_of_pos hm]
      exact ih (h.move_own hprogram hm) hrest
    | false =>
      rw [List.filter_cons_of_neg (by simp [hm])]
      exact ih (h.move_other hprogram hm (hturn h.left.1)) hrest

end Company

end Pool
