import Mathlib.Data.List.Infix

/-!
# Crashes between and inside the writes of a program

A disk maps paths to contents.  A program writes it by a list of operations, each of which is complete before the next one
starts.  A crash stops the program before an operation or inside one: a write or an append may then be cut short (`Torn`),
a rename and a removal are all or nothing.  `Throughout I ops d` says that `I` holds wherever a crash stops the operations
`ops` from `d`; its equations take a program apart into its operations.
-/

namespace Disk

variable {π χ : Type}

/-- The contents of the files that exist. -/
abbrev Files (π χ : Type) := π → Option (List χ)

inductive Op (π χ : Type)
  /-- replaces the contents of a file -/
  | write (path : π) (content : List χ)
  /-- adds to the end of a file -/
  | append (path : π) (content : List χ)
  /-- moves a file over another one -/
  | replace (source target : π)
  | unlink (path : π)

variable [DecidableEq π]

/-- The disk after an operation. -/
def Op.exec (d : Files π χ) : Op π χ → Files π χ
  | write p t => Function.update d p (some t)
  | append p t => Function.update d p (some ((d p).getD [] ++ t))
  | replace p q =>
    match d p with
    | none => d
    | some t => Function.update (Function.update d q (some t)) p none
  | unlink p => Function.update d p none

/-- What a crash inside an operation may leave. -/
def Op.Torn (d d' : Files π χ) : Op π χ → Prop
  | write p t => ∃ t', t' <+: t ∧ d' = Function.update d p (some t')
  | append p t => ∃ t', t' <+: t ∧ d' = Function.update d p (some ((d p).getD [] ++ t'))
  | replace _ _ => False
  | unlink _ => False

/-- The disk after all operations. -/
def exec (d : Files π χ) : List (Op π χ) → Files π χ
  | [] => d
  | op :: ops => exec (op.exec d) ops

/-- What a crash during the operations may leave. -/
def Crash (d d' : Files π χ) : List (Op π χ) → Prop
  | [] => d' = d
  | op :: ops => d' = d ∨ op.Torn d d' ∨ Crash (op.exec d) d' ops

/-- `I` holds wherever a crash stops the operations. -/
def Throughout (I : Files π χ → Prop) (d : Files π χ) (ops : List (Op π χ)) : Prop := ∀ d', Crash d d' ops → I d'

@[simp] theorem exec_nil (d : Files π χ) : exec d [] = d := rfl

@[simp] theorem exec_cons (d : Files π χ) (op : Op π χ) (ops : List (Op π χ)) :
    exec d (op :: ops) = exec (op.exec d) ops := rfl

theorem exec_replace_none {d : Files π χ} {p q : π} (h : d p = none) : (Op.replace p q).exec d = d := by
  unfold Op.exec
  dsimp only
  rw [h]

theorem exec_replace_some {d : Files π χ} {p q : π} {t : List χ} (h : d p = some t) :
    (Op.replace p q).exec d = Function.update (Function.update d q (some t)) p none := by
  unfold Op.exec
  dsimp only
  rw [h]

theorem exec_append (d : Files π χ) (ops ops' : List (Op π χ)) : exec d (ops ++ ops') = exec (exec d ops) ops' := by
  induction ops generalizing d with
  | nil => rfl
  | cons op ops ih => exact ih (op.exec d)

/-- A crash may come after the last operation. -/
theorem crash_exec (d : Files π χ) (ops : List (Op π χ)) : Crash d (exec d ops) ops := by
  induction ops generalizing d with
  | nil => rfl
  | cons op ops ih => exact .inr (.inr (ih (op.exec d)))

theorem throughout_nil {I : Files π χ → Prop} {d : Files π χ} : Throughout I d [] ↔ I d := by
  constructor
  · intro h
    exact h d rfl
  · rintro h d' rfl
    exact h

theorem throughout_cons {I : Files π χ → Prop} {d : Files π χ} {op : Op π χ} {ops : List (Op π χ)} :
    Throughout I d (op :: ops) ↔ I d ∧ (∀ d', op.Torn d d' → I d') ∧ Throughout I (op.exec d) ops := by
  constructor
  · intro h
    exact ⟨h d (.inl rfl), fun d' ht => h d' (.inr (.inl ht)), fun d' hc => h d' (.inr (.inr hc))⟩
  · rintro ⟨h₀, ht, hrest⟩ d' (rfl | hd | hd)
    · exact h₀
    · exact ht d' hd
    · exact hrest d' hd

theorem Throughout.start {I : Files π χ → Prop} {d : Files π χ} {ops : List (Op π χ)} (h : Throughout I d ops) : I d := by
  cases ops with
  | nil => exact throughout_nil.mp h
  | cons op ops => exact (throughout_cons.mp h).1

/-- Programs one after the other: a crash stops the first one, or the second one after the first is done. -/
theorem throughout_append {I : Files π χ → Prop} {d : Files π χ} {ops ops' : List (Op π χ)} :
    Throughout I d (ops ++ ops') ↔ Throughout I d ops ∧ Throughout I (exec d ops) ops' := by
  induction ops generalizing d with
  | nil =>
    rw [List.nil_append, throughout_nil, exec_nil]
    exact ⟨fun h => ⟨h.start, h⟩, fun h => h.2⟩
  | cons op ops ih =>
    rw [List.cons_append, throughout_cons, throughout_cons, ih, exec_cons]
    tauto

/-! ### Files that an operation does not touch -/

/-- The file that an operation may change. -/
def Op.Touches (p : π) : Op π χ → Prop
  | write q _ => p = q
  | append q _ => p = q
  | replace q r => p = q ∨ p = r
  | unlink q => p = q

theorem exec_untouched {d : Files π χ} {op : Op π χ} {p : π} (h : ¬ op.Touches p) : op.exec d p = d p := by
  cases op with
  | write q t => exact Function.update_of_ne h _ _
  | append q t => exact Function.update_of_ne h _ _
  | replace q r =>
    unfold Op.Touches at h
    rw [not_or] at h
    rcases hq : d q with _ | t
    · rw [exec_replace_none hq]
    · rw [exec_replace_some hq, Function.update_of_ne h.1, Function.update_of_ne h.2]
  | unlink q => exact Function.update_of_ne h _ _

theorem torn_untouched {d d' : Files π χ} {op : Op π χ} {p : π} (ht : op.Torn d d') (h : ¬ op.Touches p) : d' p = d p := by
  cases op with
  | write q t =>
    obtain ⟨t', -, rfl⟩ := ht
    exact Function.update_of_ne h _ _
  | append q t =>
    obtain ⟨t', -, rfl⟩ := ht
    exact Function.update_of_ne h _ _
  | replace q r => exact ht.elim
  | unlink q => exact ht.elim

/-- A property of some files holds throughout operations that do not touch them. -/
theorem throughout_untouched {I : Files π χ → Prop} {d : Files π χ} {ops : List (Op π χ)} {watched : π → Prop}
    (hframe : ∀ d' : Files π χ, (∀ p, watched p → d' p = d p) → I d')
    (h : ∀ op ∈ ops, ∀ p, watched p → ¬ op.Touches p) :
    Throughout I d ops ∧ ∀ p, watched p → exec d ops p = d p := by
  induction ops generalizing d with
  | nil => exact ⟨throughout_nil.mpr (hframe d fun _ _ => rfl), fun _ _ => rfl⟩
  | cons op ops ih =>
    have hop := h op List.mem_cons_self
    have hsame : ∀ p, watched p → op.exec d p = d p := fun p hp => exec_untouched (hop p hp)
    obtain ⟨hrest, hlast⟩ := ih (d := op.exec d)
      (fun d' hd' => hframe d' fun p hp => (hd' p hp).trans (hsame p hp))
      (fun op' hop' => h op' (List.mem_cons_of_mem _ hop'))
    refine ⟨throughout_cons.mpr ⟨hframe d fun _ _ => rfl, fun d' ht => ?_, hrest⟩, fun p hp => ?_⟩
    · exact hframe d' fun p hp => torn_untouched ht (hop p hp)
    · exact (hlast p hp).trans (hsame p hp)

end Disk
