import KakeyaEngine.Lib.Prog

/-!
# Programs under interference

A program that runs in turns with others relies on what the others leave alone, and guarantees the same to them.
`Guarantees` says what every step of a program does to the shared state, depending on the label of the step, and `Survives`
that a program ends as it should although before each step the state may change as the label of that step allows.  A
program that survives goes on surviving when others act (`Survives.interfere`) and when it acts (`Survives.step`); on its
own it is not interfered with at all (`Survives.alone`).  `Returns` is survival as far as only what is returned matters.
-/

namespace Prog

variable {κ ι σ ε α β : Type}

/-- The label of the next step, if there is one. -/
def pending : Prog κ ι σ ε α → Option κ
  | .done _ => none
  | .step k _ _ => some k

/-! ### What a program guarantees -/

/-- From states with `I`, every step keeps `I` and makes a change that `G` allows a step of its label. -/
def Guarantees (I : σ → Prop) (G : κ → σ → σ → Prop) : Prog κ ι σ ε α → Prop
  | .done _ => True
  | .step k act next => ∀ i s, I s → I (act i s) ∧ G k s (act i s) ∧ (next i s).Guarantees I G

section Guarantees

variable {I : σ → Prop} {G : κ → σ → σ → Prop}

theorem Guarantees.andThen {p : Prog κ ι σ ε α} {f : Except ε α → Prog κ ι σ ε β} (hp : p.Guarantees I G)
    (hf : ∀ r, (f r).Guarantees I G) : (p.andThen f).Guarantees I G := by
  induction p with
  | done r => exact hf r
  | step k act next ih =>
    intro i s hs
    obtain ⟨hact, hchange, hnext⟩ := hp i s hs
    exact ⟨hact, hchange, ih i s hnext⟩

theorem Guarantees.bind {p : Prog κ ι σ ε α} {f : α → Prog κ ι σ ε β} (hp : p.Guarantees I G)
    (hf : ∀ a, (f a).Guarantees I G) : (p >>= f).Guarantees I G := by
  induction p with
  | done r =>
    cases r with
    | ok a => exact hf a
    | error e => exact trivial
  | step k act next ih =>
    intro i s hs
    obtain ⟨hact, hchange, hnext⟩ := hp i s hs
    exact ⟨hact, hchange, ih i s hnext⟩

theorem Guarantees.atomic {k : κ} {x : ι → Proc σ ε α}
    (hx : ∀ i s, I s → I ((x i).run s).2 ∧ G k s ((x i).run s).2) : (atomic k x).Guarantees I G := by
  intro i s hs
  obtain ⟨hact, hchange⟩ := hx i s hs
  exact ⟨hact, hchange, trivial⟩

theorem Guarantees.focus {κ' τ ε' : Type} {k : κ} {view : σ → τ} {update : τ → σ → σ} {wrap : ε' → ε}
    {p : Prog κ' ι τ ε' α} (hupdate : ∀ s t, I s → I (update t s) ∧ G k s (update t s)) :
    (p.focus k view update wrap).Guarantees I G := by
  induction p with
  | done r => exact trivial
  | step k' act next ih =>
    intro i s hs
    obtain ⟨hact, hchange⟩ := hupdate s (act i (view s)) hs
    exact ⟨hact, hchange, ih i (view s)⟩

end Guarantees

/-! ### What a program survives -/

/-- Although the state changes before each step as `R` allows for its label, the program ends with a result and in a state
that `Q` allows. -/
def Survives (R : κ → σ → σ → Prop) (Q : Except ε α → σ → Prop) : Prog κ ι σ ε α → σ → Prop
  | .done r, s => Q r s
  | .step k act next, s => ∀ t, R k s t → ∀ i, (next i t).Survives R Q (act i t)

section Survives

variable {R : κ → σ → σ → Prop}

/-- Others act. -/
theorem Survives.interfere {Q : Except ε α → σ → Prop} (htrans : ∀ k s t u, R k s t → R k t u → R k s u)
    {p : Prog κ ι σ ε α} {s t : σ} (h : p.Survives R Q s) (hR : ∀ k, p.pending = some k → R k s t)
    (hQ : ∀ r, p = .done r → Q r s → Q r t) : p.Survives R Q t := by
  cases p with
  | done r => exact hQ r rfl h
  | step k act next => exact fun u hu i => h u (htrans k s t u (hR k rfl) hu) i

/-- The program acts. -/
theorem Survives.step {Q : Except ε α → σ → Prop} (hrefl : ∀ k s, R k s s) {k : κ} {act : ι → σ → σ}
    {next : ι → σ → Prog κ ι σ ε α} {s : σ} (h : (Prog.step k act next).Survives R Q s) (i : ι) :
    (next i s).Survives R Q (act i s) := h s (hrefl k s) i

/-- On its own the program meets no interference. -/
theorem Survives.alone {Q : Except ε α → σ → Prop} (hrefl : ∀ k s, R k s s) {p : Prog κ ι σ ε α} {s : σ}
    (h : p.Survives R Q s) (input : Nat → ι) (n : Nat) : Q (p.alone input n s).1 (p.alone input n s).2 := by
  induction p generalizing n s with
  | done r => exact h
  | step k act next ih => exact ih (input n) s (h.step hrefl (input n)) (n + 1)

theorem Survives.mono {Q Q' : Except ε α → σ → Prop} {p : Prog κ ι σ ε α} {s : σ} (h : p.Survives R Q s)
    (hQ : ∀ r s', Q r s' → Q' r s') : p.Survives R Q' s := by
  induction p generalizing s with
  | done r => exact hQ r s h
  | step k act next ih => exact fun t ht i => ih i t (h t ht i)

theorem Survives.andThen {Q : Except ε β → σ → Prop} {p : Prog κ ι σ ε α} {f : Except ε α → Prog κ ι σ ε β} {s : σ}
    (h : p.Survives R (fun r s' => (f r).Survives R Q s') s) : (p.andThen f).Survives R Q s := by
  induction p generalizing s with
  | done r => exact h
  | step k act next ih => exact fun t ht i => ih i t (h t ht i)

theorem Survives.bind {Q : Except ε β → σ → Prop} {p : Prog κ ι σ ε α} {f : α → Prog κ ι σ ε β} {s : σ}
    (h : p.Survives R (fun r s' => match r with
      | .ok a => (f a).Survives R Q s'
      | .error e => Q (.error e) s') s) : (p >>= f).Survives R Q s := by
  induction p generalizing s with
  | done r =>
    cases r with
    | ok a => exact h
    | error e => exact h
  | step k act next ih => exact fun t ht i => ih i t (h t ht i)

theorem Survives.atomic {Q : Except ε α → σ → Prop} {k : κ} {x : ι → Proc σ ε α} {s : σ}
    (h : ∀ t, R k s t → ∀ i, Q ((x i).run t).1 ((x i).run t).2) : (atomic k x).Survives R Q s := h

/-- A step that returns, or raises what `Q` allows, and what follows it. -/
theorem Survives.next {Q : Except ε β → σ → Prop} {k : κ} {x : ι → Proc σ ε α} {f : α → Prog κ ι σ ε β} {s : σ}
    (h : ∀ t, R k s t → ∀ i, (∃ a t', (x i).run t = (.ok a, t') ∧ (f a).Survives R Q t') ∨
      ∃ e t', (x i).run t = (.error e, t') ∧ Q (.error e) t') : (Prog.atomic k x >>= f).Survives R Q s := by
  refine Survives.bind (Survives.atomic ?_)
  intro t ht i
  rcases h t ht i with ⟨a, t', hrun, hf⟩ | ⟨e, t', hrun, hQ⟩
  · rw [hrun]
    exact hf
  · rw [hrun]
    exact hQ

end Survives

/-! ### What a program returns -/

/-- Although the state changes before each step as `R` allows for its label, `Q` holds when the program returns. -/
def Returns (R : κ → σ → σ → Prop) (Q : α → σ → Prop) (p : Prog κ ι σ ε α) (s : σ) : Prop :=
  p.Survives R (fun r t => ∀ a, r = .ok a → Q a t) s

section Returns

variable {R : κ → σ → σ → Prop}

theorem Returns.pure {Q : α → σ → Prop} {a : α} {s : σ} (h : Q a s) :
    (Pure.pure a : Prog κ ι σ ε α).Returns R Q s := by
  intro b hb
  rw [← Except.ok.inj hb]
  exact h

theorem Returns.raise {Q : α → σ → Prop} {e : ε} {s : σ} : (Prog.raise e : Prog κ ι σ ε α).Returns R Q s := nofun

theorem Returns.mono {Q Q' : α → σ → Prop} {p : Prog κ ι σ ε α} {s : σ} (h : p.Returns R Q s)
    (hQ : ∀ a t, Q a t → Q' a t) : p.Returns R Q' s :=
  Survives.mono h fun _ t ht a ha => hQ a t (ht a ha)

theorem Returns.bind {Q : β → σ → Prop} {p : Prog κ ι σ ε α} {f : α → Prog κ ι σ ε β} {s : σ}
    (h : p.Returns R (fun a t => (f a).Returns R Q t) s) : (p >>= f).Returns R Q s := by
  refine Survives.bind (Survives.mono h fun r t ht => ?_)
  cases r with
  | ok a => exact ht a rfl
  | error e => exact nofun

theorem Returns.atomic {Q : α → σ → Prop} {k : κ} {x : ι → Proc σ ε α} {s : σ}
    (h : ∀ t, R k s t → ∀ i a t', (x i).run t = (.ok a, t') → Q a t') : (atomic k x).Returns R Q s :=
  fun t ht i a ha => h t ht i a _ (Prod.ext ha rfl)

end Returns

end Prog
