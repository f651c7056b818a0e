/-!
# Runs of a deterministic machine

A machine is a step function from a state and an input to an output and the next state.  A run feeds it a list of
inputs.  `AllSteps` says that every step of a run meets a condition in the state it starts from, and
`final_of_steps` is the induction rule: what holds initially and is kept by every step that meets the condition
holds at the end of every run whose steps all meet it.
-/

namespace Machine

variable {σ ι ο : Type}

/-- The state after a run. -/
def final (step : σ → ι → ο × σ) : σ → List ι → σ
  | s, [] => s
  | s, i :: is => final step (step s i).2 is

/-- The outputs of a run, one for each input. -/
def outputs (step : σ → ι → ο × σ) : σ → List ι → List ο
  | _, [] => []
  | s, i :: is => (step s i).1 :: outputs step (step s i).2 is

/-- Every step of the run meets `C` in the state it starts from. -/
def AllSteps (step : σ → ι → ο × σ) (C : σ → ι → Prop) : σ → List ι → Prop
  | _, [] => True
  | s, i :: is => C s i ∧ AllSteps step C (step s i).2 is

instance decidableAllSteps (step : σ → ι → ο × σ) (C : σ → ι → Prop) [∀ s i, Decidable (C s i)] :
    (s : σ) → (is : List ι) → Decidable (AllSteps step C s is)
  | _, [] => isTrue trivial
  | s, i :: is =>
    have := decidableAllSteps step C (step s i).2 is
    inferInstanceAs (Decidable (C s i ∧ AllSteps step C (step s i).2 is))

theorem final_append (step : σ → ι → ο × σ) (s : σ) (is js : List ι) :
    final step s (is ++ js) = final step (final step s is) js := by
  induction is generalizing s with
  | nil => rfl
  | cons i is ih => exact ih (step s i).2

theorem allSteps_append (step : σ → ι → ο × σ) (C : σ → ι → Prop) (s : σ) (is js : List ι) :
    AllSteps step C s (is ++ js) ↔ AllSteps step C s is ∧ AllSteps step C (final step s is) js := by
  induction is generalizing s with
  | nil => simp [AllSteps, final]
  | cons i is ih =>
    simp only [List.cons_append, AllSteps, final, ih]
    exact and_assoc.symm

theorem AllSteps.and {step : σ → ι → ο × σ} {C D : σ → ι → Prop} {s : σ} {is : List ι} (hC : AllSteps step C s is)
    (hD : AllSteps step D s is) : AllSteps step (fun s i => C s i ∧ D s i) s is := by
  induction is generalizing s with
  | nil => trivial
  | cons i is ih => exact ⟨⟨hC.1, hD.1⟩, ih hC.2 hD.2⟩

theorem AllSteps.mono {step : σ → ι → ο × σ} {C D : σ → ι → Prop} (h : ∀ s i, C s i → D s i) {s : σ} {is : List ι}
    (hC : AllSteps step C s is) : AllSteps step D s is := by
  induction is generalizing s with
  | nil => trivial
  | cons i is ih => exact ⟨h s i hC.1, ih hC.2⟩

/-- A condition on the inputs alone. -/
theorem allSteps_of_forall {step : σ → ι → ο × σ} {C : ι → Prop} {s : σ} {is : List ι} (h : ∀ i ∈ is, C i) :
    AllSteps step (fun _ i => C i) s is := by
  induction is generalizing s with
  | nil => trivial
  | cons i is ih => exact ⟨h i List.mem_cons_self, ih fun j hj => h j (List.mem_cons_of_mem _ hj)⟩

/-- The run rule: what holds initially and is kept by the steps that meet `C` holds after every run of such
steps. -/
theorem final_of_steps {step : σ → ι → ο × σ} {C : σ → ι → Prop} {I : σ → Prop}
    (hstep : ∀ s i, I s → C s i → I (step s i).2) {s : σ} {is : List ι} (hs : I s)
    (hC : AllSteps step C s is) : I (final step s is) := by
  induction is generalizing s with
  | nil => exact hs
  | cons i is ih => exact ih (hstep s i hs hC.1) hC.2

/-- What holds initially and is kept by the steps that meet `C` holds before every step of a run of such steps. -/
theorem AllSteps.and_of_steps {step : σ → ι → ο × σ} {C : σ → ι → Prop} {I : σ → Prop}
    (hstep : ∀ s i, I s → C s i → I (step s i).2) {s : σ} {is : List ι} (hs : I s)
    (hC : AllSteps step C s is) : AllSteps step (fun s i => I s ∧ C s i) s is := by
  induction is generalizing s with
  | nil => trivial
  | cons i is ih => exact ⟨⟨hs, hC.1⟩, ih (hstep s i hs hC.1) hC.2⟩

/-- The run rule for a condition that no step can miss. -/
theorem final_of_step {step : σ → ι → ο × σ} {I : σ → Prop} (hstep : ∀ s i, I s → I (step s i).2) {s : σ}
    (is : List ι) (hs : I s) : I (final step s is) := by
  induction is generalizing s with
  | nil => exact hs
  | cons i is ih => exact ih (hstep s i hs)

end Machine
