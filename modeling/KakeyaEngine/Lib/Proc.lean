/-!
# Procedures that return or raise

`Proc σ ε α` is a procedure on a state `σ` that returns an `α` or raises an `ε`.  A raise keeps the state reached so
far, as an exception does in an imperative program: what was assigned before it stays assigned.  `run` and its
equations execute a procedure; `Keeps` and `Ensures` are the rules of pre- and postconditions for it.
-/

/-- A procedure on a state `σ` that returns an `α` or raises an `ε`. -/
def Proc (σ ε α : Type) : Type := σ → Except ε α × σ

namespace Proc

variable {σ ε α β : Type}

/-- Executes a procedure from a state. -/
def run (x : Proc σ ε α) (s : σ) : Except ε α × σ := x s

instance : Monad (Proc σ ε) where
  pure a := fun s => (.ok a, s)
  bind x f := fun s =>
    match x s with
    | (.ok a, s') => f a s'
    | (.error e, s') => (.error e, s')

/-- Reads the state. -/
def get : Proc σ ε σ := fun s => (.ok s, s)

/-- Replaces the state. -/
def modify (f : σ → σ) : Proc σ ε Unit := fun s => (.ok (), f s)

/-- Raises an exception. -/
def raise (e : ε) : Proc σ ε α := fun s => (.error e, s)

/-- Runs `x`, and the handler on the exception that `x` raised, from the state in which it was raised. -/
def handle (x : Proc σ ε α) (h : ε → Proc σ ε α) : Proc σ ε α := fun s =>
  match x s with
  | (.ok a, s') => (.ok a, s')
  | (.error e, s') => h e s'

/-- Returns or raises what a computation without state gave. -/
def ofExcept : Except ε α → Proc σ ε α
  | .ok a => pure a
  | .error e => raise e

/-- Runs a procedure on a part of the state, with its exceptions wrapped. -/
def focus {τ ε' : Type} (view : σ → τ) (update : τ → σ → σ) (wrap : ε' → ε) (x : Proc τ ε' α) : Proc σ ε α := fun s =>
  match x (view s) with
  | (.ok a, t) => (.ok a, update t s)
  | (.error e, t) => (.error (wrap e), update t s)

/-! ### Executing a procedure -/

@[simp] theorem run_pure (a : α) (s : σ) : (pure a : Proc σ ε α).run s = (.ok a, s) := rfl

@[simp] theorem run_get (s : σ) : (get : Proc σ ε σ).run s = (.ok s, s) := rfl

@[simp] theorem run_modify (f : σ → σ) (s : σ) : (modify f : Proc σ ε Unit).run s = (.ok (), f s) := rfl

@[simp] theorem run_raise (e : ε) (s : σ) : (raise e : Proc σ ε α).run s = (.error e, s) := rfl

theorem run_bind (x : Proc σ ε α) (f : α → Proc σ ε β) (s : σ) :
    (x >>= f).run s =
      match x.run s with
      | (.ok a, s') => (f a).run s'
      | (.error e, s') => (.error e, s') := rfl

theorem run_bind_ok {x : Proc σ ε α} {f : α → Proc σ ε β} {s s' : σ} {a : α} (h : x.run s = (.ok a, s')) :
    (x >>= f).run s = (f a).run s' := by
  rw [run_bind, h]

theorem run_bind_error {x : Proc σ ε α} {f : α → Proc σ ε β} {s s' : σ} {e : ε}
    (h : x.run s = (.error e, s')) : (x >>= f).run s = (.error e, s') := by
  rw [run_bind, h]

/-- A procedure whose result is only relabelled returns when it returns. -/
theorem run_map_ok {x : Proc σ ε α} {f : α → β} {s s' : σ} {b : β}
    (h : (x >>= fun a => pure (f a)).run s = (.ok b, s')) : ∃ a, x.run s = (.ok a, s') ∧ f a = b := by
  rw [run_bind] at h
  rcases hx : x.run s with ⟨e | a, t⟩
  · rw [hx] at h
    cases (Prod.mk.inj h).1
  · rw [hx] at h
    obtain ⟨hb, rfl⟩ := Prod.mk.inj h
    exact ⟨a, rfl, Except.ok.inj hb⟩

theorem run_map_error {x : Proc σ ε α} {f : α → β} {s s' : σ} {e : ε}
    (h : (x >>= fun a => pure (f a)).run s = (.error e, s')) : x.run s = (.error e, s') := by
  rw [run_bind] at h
  split at h
  · cases (Prod.mk.inj h).1
  · rename_i hx
    rw [hx, ← (Prod.mk.inj h).2, ← Except.error.inj (Prod.mk.inj h).1]

/-- Relabelling the result. -/
theorem run_map (x : Proc σ ε α) (f : α → β) (s : σ) :
    (x >>= fun a => pure (f a)).run s = ((x.run s).1.map f, (x.run s).2) := by
  rw [run_bind]
  rcases x.run s with ⟨e | a, t⟩
  · rfl
  · rfl

/-- Relabelling the result leaves the state alone. -/
theorem run_map_snd (x : Proc σ ε α) (f : α → β) (s : σ) : ((x >>= fun a => pure (f a)).run s).2 = (x.run s).2 :=
  congrArg Prod.snd (run_map x f s)

theorem run_ofExcept (x : Except ε α) (s : σ) : (ofExcept x : Proc σ ε α).run s = (x, s) := by
  cases x with
  | error e => rfl
  | ok a => rfl

/-- Of two procedures in a row that return, the first one returns. -/
theorem of_run_bind_ok {x : Proc σ ε α} {f : α → Proc σ ε β} {s s' : σ} {b : β} (h : (x >>= f).run s = (.ok b, s')) :
    ∃ a t, x.run s = (.ok a, t) ∧ (f a).run t = (.ok b, s') := by
  rw [run_bind] at h
  rcases hx : x.run s with ⟨e | a, t⟩
  · rw [hx] at h
    cases (Prod.mk.inj h).1
  · rw [hx] at h
    exact ⟨a, t, rfl, h⟩

@[simp] theorem run_get_bind (f : σ → Proc σ ε β) (s : σ) : (get >>= f).run s = (f s).run s := rfl

@[simp] theorem run_modify_bind (g : σ → σ) (f : Unit → Proc σ ε β) (s : σ) :
    (modify g >>= f).run s = (f ()).run (g s) := rfl

@[simp] theorem run_pure_bind (a : α) (f : α → Proc σ ε β) (s : σ) :
    ((pure a : Proc σ ε α) >>= f).run s = (f a).run s := rfl

theorem run_bind_unit (x : Proc σ ε Unit) (s : σ) : (x >>= fun _ => pure ()).run s = x.run s := by
  rw [run_bind]
  rcases x.run s with ⟨e | _, t⟩
  · rfl
  · rfl

theorem run_handle (x : Proc σ ε α) (h : ε → Proc σ ε α) (s : σ) :
    (x.handle h).run s =
      match x.run s with
      | (.ok a, s') => (.ok a, s')
      | (.error e, s') => (h e).run s' := rfl

theorem run_focus {τ ε' : Type} (view : σ → τ) (update : τ → σ → σ) (wrap : ε' → ε) (x : Proc τ ε' α) (s : σ) :
    (focus view update wrap x).run s =
      match x.run (view s) with
      | (.ok a, t) => (.ok a, update t s)
      | (.error e, t) => (.error (wrap e), update t s) := rfl

theorem run_focus_ok {τ ε' : Type} {view : σ → τ} {update : τ → σ → σ} {wrap : ε' → ε} {x : Proc τ ε' α} {s : σ} {t : τ}
    {a : α} (h : x.run (view s) = (.ok a, t)) : (focus view update wrap x).run s = (.ok a, update t s) := by
  rw [run_focus, h]

theorem run_focus_error {τ ε' : Type} {view : σ → τ} {update : τ → σ → σ} {wrap : ε' → ε} {x : Proc τ ε' α} {s : σ}
    {t : τ} {e : ε'} (h : x.run (view s) = (.error e, t)) :
    (focus view update wrap x).run s = (.error (wrap e), update t s) := by
  rw [run_focus, h]

@[simp] theorem run_ite {c : Prop} [Decidable c] (x y : Proc σ ε α) (s : σ) :
    (if c then x else y).run s = if c then x.run s else y.run s := by
  split <;> rfl

/-! ### Pre- and postconditions -/

/-- What holds of the outcome of a procedure: `Q` when it returned, `E` when it raised. -/
def Outcome (Q : α → σ → Prop) (E : ε → σ → Prop) : Except ε α × σ → Prop
  | (.ok a, s) => Q a s
  | (.error e, s) => E e s

/-- From a state satisfying `P` the procedure ends in `Q` when it returns and in `E` when it raises. -/
def Ensures (P : σ → Prop) (x : Proc σ ε α) (Q : α → σ → Prop) (E : ε → σ → Prop) : Prop :=
  ∀ s, P s → Outcome Q E (x.run s)

theorem Ensures.pure {P : σ → Prop} {Q : α → σ → Prop} {E : ε → σ → Prop} {a : α} (h : ∀ s, P s → Q a s) :
    Ensures P (Pure.pure a : Proc σ ε α) Q E := h

theorem Ensures.raise {P : σ → Prop} {Q : α → σ → Prop} {E : ε → σ → Prop} {e : ε} (h : ∀ s, P s → E e s) :
    Ensures P (Proc.raise e : Proc σ ε α) Q E := h

theorem Ensures.modify {P : σ → Prop} {Q : Unit → σ → Prop} {E : ε → σ → Prop} {f : σ → σ}
    (h : ∀ s, P s → Q () (f s)) : Ensures P (Proc.modify f : Proc σ ε Unit) Q E := h

theorem Ensures.bind {P : σ → Prop} {x : Proc σ ε α} {f : α → Proc σ ε β} {Q : α → σ → Prop}
    {R : β → σ → Prop} {E : ε → σ → Prop} (hx : Ensures P x Q E) (hf : ∀ a, Ensures (Q a) (f a) R E) :
    Ensures P (x >>= f) R E := by
  intro s hs
  have h := hx s hs
  rw [run_bind]
  rcases hr : x.run s with ⟨_ | a, s'⟩
  · rw [hr] at h; exact h
  · rw [hr] at h; exact hf a s' h

theorem Ensures.handle {P : σ → Prop} {x : Proc σ ε α} {h : ε → Proc σ ε α} {Q : α → σ → Prop}
    {E E' : ε → σ → Prop} (hx : Ensures P x Q E) (hh : ∀ e, Ensures (E e) (h e) Q E') :
    Ensures P (x.handle h) Q E' := by
  intro s hs
  have h := hx s hs
  rw [run_handle]
  rcases hr : x.run s with ⟨e | a, s'⟩
  · rw [hr] at h; exact hh e s' h
  · rw [hr] at h; exact h

theorem Ensures.mono {P P' : σ → Prop} {x : Proc σ ε α} {Q Q' : α → σ → Prop} {E E' : ε → σ → Prop}
    (h : Ensures P x Q E) (hP : ∀ s, P' s → P s) (hQ : ∀ a s, Q a s → Q' a s) (hE : ∀ e s, E e s → E' e s) :
    Ensures P' x Q' E' := by
  intro s hs
  have h' := h s (hP s hs)
  rcases hr : x.run s with ⟨e | a, s'⟩
  · rw [hr] at h'; exact hE e s' h'
  · rw [hr] at h'; exact hQ a s' h'

/-- A procedure that is ensured never to raise returns. -/
theorem Ensures.returns {P : σ → Prop} {x : Proc σ ε α} {Q : α → σ → Prop} (h : Ensures P x Q fun _ _ => False) {s : σ}
    (hs : P s) : ∃ a s', x.run s = (.ok a, s') ∧ Q a s' := by
  have h' := h s hs
  rcases hr : x.run s with ⟨e | a, s'⟩
  · rw [hr] at h'
    exact h'.elim
  · rw [hr] at h'
    exact ⟨a, s', rfl, h'⟩

/-- Whether it returns or raises, the procedure keeps `I`. -/
def Keeps (I : σ → Prop) (x : Proc σ ε α) : Prop := ∀ s, I s → I (x.run s).2

theorem Keeps.pure {I : σ → Prop} (a : α) : Keeps I (Pure.pure a : Proc σ ε α) := fun _ h => h

theorem Keeps.get {I : σ → Prop} : Keeps I (Proc.get : Proc σ ε σ) := fun _ h => h

theorem Keeps.raise {I : σ → Prop} (e : ε) : Keeps I (Proc.raise e : Proc σ ε α) := fun _ h => h

theorem Keeps.modify {I : σ → Prop} {f : σ → σ} (h : ∀ s, I s → I (f s)) :
    Keeps I (Proc.modify f : Proc σ ε Unit) := h

theorem Keeps.bind {I : σ → Prop} {x : Proc σ ε α} {f : α → Proc σ ε β} (hx : Keeps I x)
    (hf : ∀ a, Keeps I (f a)) : Keeps I (x >>= f) := by
  intro s hs
  have h := hx s hs
  rw [run_bind]
  rcases hr : x.run s with ⟨_ | a, s'⟩
  · rw [hr] at h; exact h
  · rw [hr] at h; exact hf a s' h

theorem Keeps.handle {I : σ → Prop} {x : Proc σ ε α} {h : ε → Proc σ ε α} (hx : Keeps I x)
    (hh : ∀ e, Keeps I (h e)) : Keeps I (x.handle h) := by
  intro s hs
  have h := hx s hs
  rw [run_handle]
  rcases hr : x.run s with ⟨e | a, s'⟩
  · rw [hr] at h; exact hh e s' h
  · rw [hr] at h; exact h

/-- What is kept either way is ensured either way. -/
theorem Keeps.ensures {I : σ → Prop} {x : Proc σ ε α} (h : Keeps I x) :
    Ensures I x (fun _ s => I s) (fun _ s => I s) := by
  intro s hs
  have h' := h s hs
  rcases hr : x.run s with ⟨_ | _, s'⟩
  · rw [hr] at h'; exact h'
  · rw [hr] at h'; exact h'

theorem Keeps.ofExcept {I : σ → Prop} (x : Except ε α) : Keeps I (Proc.ofExcept x : Proc σ ε α) := by
  intro s hs
  rw [run_ofExcept]
  exact hs

/-- Continuations that read the state they start from may use what it satisfies. -/
theorem Keeps.get_bind {I : σ → Prop} {f : σ → Proc σ ε β} (hf : ∀ s, I s → I ((f s).run s).2) :
    Keeps I (Proc.get >>= f) := hf

/-! ### Seen through a view -/

/-- On the state `x` does what `y` does on the view of it. -/
def Follows {τ : Type} (f : σ → τ) (x : Proc σ ε α) (y : Proc τ ε α) : Prop :=
  ∀ s, y.run (f s) = ((x.run s).1, f (x.run s).2)

theorem Follows.pure {τ : Type} {f : σ → τ} (a : α) : Follows f (Pure.pure a : Proc σ ε α) (Pure.pure a) := fun _ => rfl

theorem Follows.bind {τ : Type} {f : σ → τ} {x : Proc σ ε α} {y : Proc τ ε α} {k : α → Proc σ ε β} {l : α → Proc τ ε β}
    (h : Follows f x y) (hrest : ∀ a, Follows f (k a) (l a)) : Follows f (x >>= k) (y >>= l) := by
  intro s
  rw [run_bind, run_bind, h s]
  rcases x.run s with ⟨e | a, t⟩
  · rfl
  · exact hrest a t

/-- Continuations that read the state read the view of it on the other side. -/
theorem Follows.get_bind {τ : Type} {f : σ → τ} {k : σ → Proc σ ε β} {l : τ → Proc τ ε β}
    (h : ∀ s, Follows f (k s) (l (f s))) : Follows f (Proc.get >>= k) (Proc.get >>= l) := fun s => h s s

end Proc
