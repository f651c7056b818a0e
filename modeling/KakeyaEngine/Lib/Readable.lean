import Mathlib.Data.List.Infix

/-!
# Unique readability

A `Shape` is a name with arguments, or an operation in parentheses.  Its text puts every argument in parentheses of its
own and a blank on each side of an operator.  If names are made of word characters and operators are not, a text can be
read in one way only: what precedes the first character that cannot continue a shape determines the shape (`text_cancel`).
-/

namespace Readable

inductive Shape
  | apply (name : List Char) (arguments : List Shape)
  | unary (token : Char) (operand : Shape)
  | binary (token : Char) (left right : Shape)

mutual

def text : Shape → List Char
  | .apply name arguments => name ++ argumentText arguments
  | .unary token operand => '(' :: token :: ' ' :: (text operand ++ [')'])
  | .binary token left right => '(' :: (text left ++ ' ' :: token :: ' ' :: (text right ++ [')']))

def argumentText : List Shape → List Char
  | [] => []
  | x :: xs => ' ' :: '(' :: (text x ++ ')' :: argumentText xs)

end

theorem argumentText_eq (xs : List Shape) :
    argumentText xs = (xs.map text).flatMap fun t => ' ' :: '(' :: (t ++ [')']) := by
  induction xs with
  | nil => rfl
  | cons x xs ih =>
    rw [argumentText, ih]
    simp

-- the characters of names
variable (word : Char → Bool)

mutual

/-- Names are words, and operators are not. -/
def Legible : Shape → Prop
  | .apply name arguments => name ≠ [] ∧ name.all word = true ∧ AllLegible arguments
  | .unary token operand => word token = false ∧ token ≠ '(' ∧ Legible operand
  | .binary token left right => word token = false ∧ token ≠ '(' ∧ Legible left ∧ Legible right

def AllLegible : List Shape → Prop
  | [] => True
  | x :: xs => Legible x ∧ AllLegible xs

end

/-- A text that does not begin with a character of a name. -/
def Breaks (rest : List Char) : Prop := ∀ c ∈ rest.head?, word c = false

/-- A text that cannot continue a shape: it begins neither a longer name nor a further argument. -/
def Ends (rest : List Char) : Prop := Breaks word rest ∧ ¬ [' ', '('] <+: rest

variable {word}

/-- A name ends where the word does. -/
theorem name_cancel {s s' r r' : List Char} (hs : s.all word = true) (hs' : s'.all word = true) (hr : Breaks word r)
    (hr' : Breaks word r') (h : s ++ r = s' ++ r') : s = s' ∧ r = r' := by
  induction s generalizing s' with
  | nil =>
    cases s' with
    | nil => exact ⟨rfl, h⟩
    | cons c cs =>
      have hc : word c = true := by
        rw [List.all_cons, Bool.and_eq_true] at hs'
        exact hs'.1
      have hbreak := hr c (by rw [show r = c :: (cs ++ r') from h]; rfl)
      rw [hc] at hbreak
      cases hbreak
  | cons c cs ih =>
    rw [List.all_cons, Bool.and_eq_true] at hs
    cases s' with
    | nil =>
      have hbreak := hr' c (by rw [show r' = c :: (cs ++ r) from h.symm]; rfl)
      rw [hs.1] at hbreak
      cases hbreak
    | cons c' cs' =>
      rw [List.all_cons, Bool.and_eq_true] at hs'
      obtain ⟨rfl, htail⟩ := List.cons.inj h
      obtain ⟨rfl, rfl⟩ := ih hs.2 hs'.2 htail
      exact ⟨rfl, rfl⟩

/-- A shape begins with a name or with a parenthesis. -/
theorem head_text {x : Shape} (h : Legible word x) : ∃ c cs, text x = c :: cs ∧ (word c = true ∨ c = '(') := by
  cases x with
  | apply name arguments =>
    unfold Legible at h
    obtain ⟨c, cs, rfl⟩ := List.exists_cons_of_ne_nil h.1
    refine ⟨c, cs ++ argumentText arguments, rfl, .inl ?_⟩
    have hall := h.2.1
    rw [List.all_cons, Bool.and_eq_true] at hall
    exact hall.1
  | unary token operand => exact ⟨'(', _, rfl, .inr rfl⟩
  | binary token left right => exact ⟨'(', _, rfl, .inr rfl⟩

/-- Parentheses and blanks are not characters of names. -/
structure Delimited (word : Char → Bool) : Prop where
  opening : word '(' = false
  closing : word ')' = false
  blank : word ' ' = false

theorem ends_close (hd : Delimited word) (rest : List Char) : Ends word (')' :: rest) := by
  refine ⟨fun c hc => ?_, fun h => ?_⟩
  · obtain rfl := Option.some.inj hc
    exact hd.closing
  · exact absurd (List.cons_prefix_cons.mp h).1 (by decide)

theorem ends_token (hd : Delimited word) {token : Char} (h : token ≠ '(') (rest : List Char) : Ends word (' ' :: token :: rest) := by
  refine ⟨fun c hc => ?_, fun hp => ?_⟩
  · obtain rfl := Option.some.inj hc
    exact hd.blank
  · exact h (List.cons_prefix_cons.mp (List.cons_prefix_cons.mp hp).2).1.symm

theorem breaks_argumentText (hd : Delimited word) (xs : List Shape) {rest : List Char} (h : Ends word rest) :
    Breaks word (argumentText xs ++ rest) := by
  cases xs with
  | nil => exact h.1
  | cons x xs =>
    intro c hc
    obtain rfl := Option.some.inj hc
    exact hd.blank

/-- A name is not an operation. -/
theorem apply_ne_operation (hd : Delimited word) {name : List Char} {arguments : List Shape} {rest tail : List Char}
    (h : Legible word (.apply name arguments)) : text (.apply name arguments) ++ rest ≠ '(' :: tail := by
  intro heq
  unfold Legible at h
  obtain ⟨c, cs, rfl⟩ := List.exists_cons_of_ne_nil h.1
  have hc := (List.cons.inj heq).1
  have hall := h.2.1
  rw [List.all_cons, Bool.and_eq_true, hc, hd.opening] at hall
  cases hall.1

/-- What follows a parenthesis is an operator or a shape, and not both. -/
theorem token_ne_text {token : Char} {x : Shape} {rest tail : List Char} (htoken : word token = false)
    (hparen : token ≠ '(') (hx : Legible word x) : token :: tail ≠ text x ++ rest := by
  intro heq
  obtain ⟨c, cs, htext, hc⟩ := head_text hx
  rw [htext] at heq
  obtain rfl := (List.cons.inj heq).1
  rcases hc with hc | hc
  · rw [htoken] at hc
    cases hc
  · exact hparen hc

mutual

/-- The text of a shape, up to a text that cannot continue it, determines the shape. -/
theorem text_cancel (hd : Delimited word) (x y : Shape) (r r' : List Char) (hx : Legible word x) (hy : Legible word y) (hr : Ends word r)
    (hr' : Ends word r') (h : text x ++ r = text y ++ r') : x = y ∧ r = r' := by
  match x, y with
  | .apply name arguments, .apply name' arguments' =>
    unfold Legible at hx hy
    unfold text at h
    rw [List.append_assoc, List.append_assoc] at h
    obtain ⟨rfl, hrest⟩ := name_cancel hx.2.1 hy.2.1 (breaks_argumentText hd arguments hr)
      (breaks_argumentText hd arguments' hr') h
    obtain ⟨rfl, rfl⟩ := argumentText_cancel hd arguments arguments' r r' hx.2.2 hy.2.2 hr hr' hrest
    exact ⟨rfl, rfl⟩
  | .apply _ _, .unary _ _ => exact absurd h (apply_ne_operation hd hx)
  | .apply _ _, .binary _ _ _ => exact absurd h (apply_ne_operation hd hx)
  | .unary _ _, .apply _ _ => exact absurd h.symm (apply_ne_operation hd hy)
  | .binary _ _ _, .apply _ _ => exact absurd h.symm (apply_ne_operation hd hy)
  | .unary token operand, .unary token' operand' =>
    unfold Legible at hx hy
    simp only [text, List.cons_append, List.append_assoc, List.nil_append, List.cons.injEq, true_and] at h
    obtain ⟨rfl, h⟩ := h
    obtain ⟨rfl, hrest⟩ := text_cancel hd operand operand' _ _ hx.2.2 hy.2.2 (ends_close hd r) (ends_close hd r') h
    exact ⟨rfl, (List.cons.inj hrest).2⟩
  | .unary token operand, .binary token' left right =>
    unfold Legible at hx hy
    simp only [text, List.cons_append, List.append_assoc, List.cons.injEq, true_and] at h
    exact absurd h (token_ne_text hx.1 hx.2.1 hy.2.2.1)
  | .binary token left right, .unary token' operand =>
    unfold Legible at hx hy
    simp only [text, List.cons_append, List.append_assoc, List.cons.injEq, true_and] at h
    exact absurd h.symm (token_ne_text hy.1 hy.2.1 hx.2.2.1)
  | .binary token left right, .binary token' left' right' =>
    unfold Legible at hx hy
    simp only [text, List.cons_append, List.append_assoc, List.nil_append, List.cons.injEq, true_and] at h
    obtain ⟨rfl, hoperator⟩ := text_cancel hd left left' _ _ hx.2.2.1 hy.2.2.1 (ends_token hd hx.2.1 _)
      (ends_token hd hy.2.1 _) h
    simp only [List.cons.injEq, true_and] at hoperator
    obtain ⟨rfl, hright⟩ := hoperator
    obtain ⟨rfl, hrest⟩ := text_cancel hd right right' _ _ hx.2.2.2 hy.2.2.2 (ends_close hd r) (ends_close hd r')
      hright
    exact ⟨rfl, (List.cons.inj hrest).2⟩

theorem argumentText_cancel (hd : Delimited word) (xs ys : List Shape) (r r' : List Char) (hxs : AllLegible word xs) (hys : AllLegible word ys)
    (hr : Ends word r) (hr' : Ends word r') (h : argumentText xs ++ r = argumentText ys ++ r') : xs = ys ∧ r = r' := by
  match xs, ys with
  | [], [] => exact ⟨rfl, h⟩
  | [], _ :: _ => exact absurd ⟨_, h.symm⟩ hr.2
  | _ :: _, [] => exact absurd ⟨_, h⟩ hr'.2
  | x :: xs, y :: ys =>
    unfold AllLegible at hxs hys
    simp only [argumentText, List.cons_append, List.append_assoc, List.cons.injEq, true_and] at h
    obtain ⟨rfl, hrest⟩ := text_cancel hd x y _ _ hxs.1 hys.1 (ends_close hd _) (ends_close hd _) h
    obtain ⟨rfl, rfl⟩ := argumentText_cancel hd xs ys r r' hxs.2 hys.2 hr hr' (List.cons.inj hrest).2
    exact ⟨rfl, rfl⟩

end

end Readable
