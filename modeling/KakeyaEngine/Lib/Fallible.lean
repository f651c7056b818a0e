import Mathlib.Data.List.Basic

/-!
# Computations that may fail

The rules of `Except` for proofs about programs that read one field after the other: what a sequence that succeeded has
computed on the way, and when a loop over a list succeeds.
-/

namespace Fallible

variable {ε α β : Type}

theorem bind_eq_ok {x : Except ε α} {f : α → Except ε β} {b : β} : (x >>= f) = .ok b ↔ ∃ a, x = .ok a ∧ f a = .ok b := by
  cases x with
  | error e =>
    constructor
    · intro h
      cases h
    · rintro ⟨a, h, -⟩
      cases h
  | ok a =>
    constructor
    · intro h
      exact ⟨a, rfl, h⟩
    · rintro ⟨a', h, h'⟩
      cases h
      exact h'

theorem bind_eq_error {x : Except ε α} {f : α → Except ε β} {e : ε} :
    (x >>= f) = .error e ↔ x = .error e ∨ ∃ a, x = .ok a ∧ f a = .error e := by
  cases x with
  | error e' =>
    constructor
    · intro h
      exact .inl (congrArg _ (Except.error.inj h))
    · rintro (h | ⟨a, h, -⟩)
      · exact congrArg _ (Except.error.inj h)
      · cases h
  | ok a =>
    constructor
    · intro h
      exact .inr ⟨a, rfl, h⟩
    · rintro (h | ⟨a', h, h'⟩)
      · cases h
      · cases h
        exact h'

theorem map_eq_ok {x : Except ε α} {f : α → β} {b : β} : x.map f = .ok b ↔ ∃ a, x = .ok a ∧ f a = b := by
  cases x with
  | error e =>
    constructor
    · intro h
      cases h
    · rintro ⟨a, h, -⟩
      cases h
  | ok a =>
    constructor
    · intro h
      exact ⟨a, rfl, Except.ok.inj h⟩
    · rintro ⟨a', h, rfl⟩
      cases h
      rfl

theorem mapM_cons_eq_ok {f : α → Except ε β} {a : α} {l : List α} {bs : List β} :
    (a :: l).mapM f = .ok bs ↔ ∃ b bs', f a = .ok b ∧ l.mapM f = .ok bs' ∧ bs = b :: bs' := by
  rw [List.mapM_cons, bind_eq_ok]
  constructor
  · rintro ⟨b, hb, h⟩
    obtain ⟨bs', hbs, h⟩ := bind_eq_ok.mp h
    exact ⟨b, bs', hb, hbs, (Except.ok.inj h).symm⟩
  · rintro ⟨b, bs', hb, hbs, rfl⟩
    exact ⟨b, hb, bind_eq_ok.mpr ⟨bs', hbs, rfl⟩⟩

theorem length_of_mapM {f : α → Except ε β} {l : List α} {bs : List β} (h : l.mapM f = .ok bs) : bs.length = l.length := by
  induction l generalizing bs with
  | nil =>
    cases h
    rfl
  | cons a l ih =>
    obtain ⟨b, bs', -, hbs, rfl⟩ := mapM_cons_eq_ok.mp h
    rw [List.length_cons, List.length_cons, ih hbs]

/-- A loop over a list succeeds when every pass does. -/
theorem mapM_succeeds_iff {f : α → Except ε β} {l : List α} :
    (∃ bs, l.mapM f = .ok bs) ↔ ∀ a ∈ l, ∃ b, f a = .ok b := by
  induction l with
  | nil => exact ⟨fun _ => List.forall_mem_nil _, fun _ => ⟨[], rfl⟩⟩
  | cons a l ih =>
    rw [List.forall_mem_cons, ← ih]
    constructor
    · rintro ⟨bs, h⟩
      obtain ⟨b, bs', hb, hbs, -⟩ := mapM_cons_eq_ok.mp h
      exact ⟨⟨b, hb⟩, bs', hbs⟩
    · rintro ⟨⟨b, hb⟩, bs', hbs⟩
      exact ⟨b :: bs', mapM_cons_eq_ok.mpr ⟨b, bs', hb, hbs, rfl⟩⟩

theorem exists_of_mem_mapM {f : α → Except ε β} {l : List α} {bs : List β} (h : l.mapM f = .ok bs) :
    ∀ b ∈ bs, ∃ a ∈ l, f a = .ok b := by
  induction l generalizing bs with
  | nil =>
    cases h
    intro b hb
    cases hb
  | cons a l ih =>
    obtain ⟨b, bs', hb, hbs, rfl⟩ := mapM_cons_eq_ok.mp h
    intro b' hb'
    rcases List.mem_cons.mp hb' with rfl | hb'
    · exact ⟨a, List.mem_cons_self, hb⟩
    · obtain ⟨a', ha', hfa⟩ := ih hbs b' hb'
      exact ⟨a', List.mem_cons_of_mem _ ha', hfa⟩

/-- A loop whose passes change nothing returns its list. -/
theorem mapM_fixed {f : α → Except ε α} {l : List α} (h : ∀ a ∈ l, f a = .ok a) : l.mapM f = .ok l := by
  induction l with
  | nil => rfl
  | cons a l ih =>
    exact mapM_cons_eq_ok.mpr ⟨a, l, h a List.mem_cons_self, ih fun a' ha' => h a' (List.mem_cons_of_mem _ ha'), rfl⟩

/-- A key that every pass keeps. -/
theorem map_mapM {γ : Type} {f : α → Except ε β} {p : α → γ} {q : β → γ} (hf : ∀ a b, f a = .ok b → q b = p a) {l : List α}
    {bs : List β} (h : l.mapM f = .ok bs) : bs.map q = l.map p := by
  induction l generalizing bs with
  | nil =>
    cases h
    rfl
  | cons a l ih =>
    obtain ⟨b, bs', hb, hbs, rfl⟩ := mapM_cons_eq_ok.mp h
    rw [List.map_cons, List.map_cons, hf a b hb, ih hbs]

/-! ### Filling a list from a loop that may fail -/

/-- What the passes in front of the first failure have given, and that failure. -/
def pour (f : α → Except ε β) : List α → List β × Option ε
  | [] => ([], none)
  | a :: l =>
    match f a with
    | .error e => ([], some e)
    | .ok b => (b :: (pour f l).1, (pour f l).2)

theorem pour_of_mapM {f : α → Except ε β} {l : List α} {bs : List β} (h : l.mapM f = .ok bs) : pour f l = (bs, none) := by
  induction l generalizing bs with
  | nil =>
    cases h
    rfl
  | cons a l ih =>
    obtain ⟨b, bs', hb, hbs, rfl⟩ := mapM_cons_eq_ok.mp h
    unfold pour
    rw [hb]
    dsimp only
    rw [ih hbs]

theorem mapM_of_pour {f : α → Except ε β} {l : List α} (h : (pour f l).2 = none) : l.mapM f = .ok (pour f l).1 := by
  induction l with
  | nil => rfl
  | cons a l ih =>
    unfold pour at h ⊢
    cases hb : f a with
    | error e =>
      rw [hb] at h
      cases h
    | ok b =>
      rw [hb] at h
      exact mapM_cons_eq_ok.mpr ⟨b, _, hb, ih h, rfl⟩

/-- A loop whose first pass fails leaves nothing. -/
theorem pour_of_head {f : α → Except ε β} {l : List α} {a : α} {e : ε} (ha : a ∈ l.head?) (h : f a = .error e) :
    pour f l = ([], some e) := by
  cases l with
  | nil => cases ha
  | cons a' l =>
    obtain rfl := Option.some_inj.mp ha
    unfold pour
    rw [h]

/-- A loop that fails has left nothing exactly when its first pass fails. -/
theorem pour_eq_nil_iff {f : α → Except ε β} {l : List α} {e : ε} (h : (pour f l).2 = some e) :
    (pour f l).1 = [] ↔ ∃ a ∈ l.head?, f a = .error e := by
  constructor
  · intro hnil
    cases l with
    | nil => cases h
    | cons a l =>
      unfold pour at h hnil
      cases hb : f a with
      | error e' =>
        rw [hb] at h
        obtain rfl := Option.some_inj.mp h
        exact ⟨a, rfl, hb⟩
      | ok b =>
        rw [hb] at hnil
        cases hnil
  · rintro ⟨a, ha, hfa⟩
    rw [pour_of_head ha hfa]

/-! ### Options -/

theorem map_of_mapM {α β : Type} {f : α → Option β} {l : List α} {bs : List β} (h : l.mapM f = some bs) :
    l.map f = bs.map some := by
  induction l generalizing bs with
  | nil =>
    obtain rfl := Option.some.inj h
    rfl
  | cons a l ih =>
    rw [List.mapM_cons] at h
    obtain ⟨b, hb, h⟩ := Option.bind_eq_some_iff.mp h
    obtain ⟨bs', hbs, h⟩ := Option.bind_eq_some_iff.mp h
    obtain rfl := Option.some.inj h
    rw [List.map_cons, List.map_cons, hb, ih hbs]

theorem mem_of_mapM {α β : Type} {f : α → Option β} {l : List α} {bs : List β} (h : l.mapM f = some bs) {b : β}
    (hb : b ∈ bs) : ∃ a ∈ l, f a = some b := by
  have hmem : some b ∈ l.map f := by
    rw [map_of_mapM h]
    exact List.mem_map_of_mem hb
  exact List.mem_map.mp hmem

end Fallible
