import Mathlib.Data.List.Basic

/-!
# The grammar of JSON texts

`Derives` says that a text is a value, or the inside of an array or of an object, with blanks where the grammar allows them.
The texts are lists of characters; what a value stands for is not recorded.
-/

namespace JsonGrammar

def isBlank (c : Char) : Bool := c == ' ' || c == '\t' || c == '\n' || c == '\r'

def Blanks (t : List Char) : Prop := ∀ c ∈ t, isBlank c = true

def isHexDigit (c : Char) : Bool := c.isDigit || ('a' ≤ c && c ≤ 'f') || ('A' ≤ c && c ≤ 'F')

/-- A string behind its opening quote. -/
inductive StringBody : List Char → Prop
  | close : StringBody ['"']
  | plain {c : Char} {t : List Char} (hquote : c ≠ '"') (hbackslash : c ≠ '\\') (hcontrol : 32 ≤ c.toNat) (h : StringBody t) :
      StringBody (c :: t)
  | escape {c : Char} {t : List Char} (hc : c ∈ "\"\\/bfnrt".toList) (h : StringBody t) : StringBody ('\\' :: c :: t)
  | unicode {a b c d : Char} {t : List Char} (ha : isHexDigit a = true) (hb : isHexDigit b = true) (hc : isHexDigit c = true)
      (hd : isHexDigit d = true) (h : StringBody t) : StringBody ('\\' :: 'u' :: a :: b :: c :: d :: t)

def Digits (t : List Char) : Prop := t ≠ [] ∧ ∀ c ∈ t, c.isDigit = true

/-- Zero, or digits that do not begin with zero. -/
def Whole (t : List Char) : Prop := t = ['0'] ∨ Digits t ∧ t.head? ≠ some '0'

def Fraction (t : List Char) : Prop := t = [] ∨ ∃ ds, Digits ds ∧ t = '.' :: ds

def Exponent (t : List Char) : Prop :=
  t = [] ∨ ∃ e sign ds, (e = 'e' ∨ e = 'E') ∧ (sign = [] ∨ sign = ['+'] ∨ sign = ['-']) ∧ Digits ds ∧ t = e :: (sign ++ ds)

def Number (t : List Char) : Prop :=
  ∃ sign whole fraction exponent, (sign = [] ∨ sign = ['-']) ∧ Whole whole ∧ Fraction fraction ∧ Exponent exponent ∧
    t = sign ++ (whole ++ (fraction ++ exponent))

/-- `elements` and `members` are what stands between the brackets of an array or an object that is not empty. -/
inductive Part
  | value | elements | members
deriving DecidableEq

inductive Derives : Part → List Char → Prop
  | string {t : List Char} (h : StringBody t) : Derives .value ('"' :: t)
  | number {t : List Char} (h : Number t) : Derives .value t
  | literal {t : List Char} (h : t ∈ ["true".toList, "false".toList, "null".toList]) : Derives .value t
  | emptyArray {b : List Char} (h : Blanks b) : Derives .value ('[' :: (b ++ [']']))
  | array {t : List Char} (h : Derives .elements t) : Derives .value ('[' :: (t ++ [']']))
  | emptyObject {b : List Char} (h : Blanks b) : Derives .value ('\x7b' :: (b ++ ['\x7d']))
  | object {t : List Char} (h : Derives .members t) : Derives .value ('\x7b' :: (t ++ ['\x7d']))
  | element {a v b : List Char} (ha : Blanks a) (hv : Derives .value v) (hb : Blanks b) : Derives .elements (a ++ (v ++ b))
  | elements {a v b t : List Char} (ha : Blanks a) (hv : Derives .value v) (hb : Blanks b) (ht : Derives .elements t) :
      Derives .elements (a ++ (v ++ (b ++ ',' :: t)))
  | member {a k b c v d : List Char} (ha : Blanks a) (hk : StringBody k) (hb : Blanks b) (hc : Blanks c)
      (hv : Derives .value v) (hd : Blanks d) : Derives .members (a ++ '"' :: (k ++ (b ++ ':' :: (c ++ (v ++ d)))))
  | members {a k b c v d t : List Char} (ha : Blanks a) (hk : StringBody k) (hb : Blanks b) (hc : Blanks c)
      (hv : Derives .value v) (hd : Blanks d) (ht : Derives .members t) :
      Derives .members (a ++ '"' :: (k ++ (b ++ ':' :: (c ++ (v ++ (d ++ ',' :: t))))))

/-- A value that is an object. -/
def IsObject (t : List Char) : Prop := Derives .value t ∧ t.head? = some '\x7b'

/-! ### Characters without a bracket or a quote -/

/-- Neither a bracket nor a quote. -/
def isPlain (c : Char) : Bool := c != '"' && c != '\x7b' && c != '\x7d' && c != '[' && c != ']'

def AllPlain (t : List Char) : Prop := ∀ c ∈ t, isPlain c = true

theorem allPlain_of_all {t : List Char} (h : t.all isPlain = true) : AllPlain t := List.all_eq_true.mp h

theorem AllPlain.append {s t : List Char} (hs : AllPlain s) (ht : AllPlain t) : AllPlain (s ++ t) :=
  List.forall_mem_append.mpr ⟨hs, ht⟩

theorem allPlain_nil : AllPlain [] := List.forall_mem_nil _

theorem isPlain_of_isBlank {c : Char} (h : isBlank c = true) : isPlain c = true := by
  unfold isBlank at h
  simp only [Bool.or_eq_true, beq_iff_eq] at h
  rcases h with ((rfl | rfl) | rfl) | rfl <;> decide

theorem Blanks.allPlain {t : List Char} (h : Blanks t) : AllPlain t := fun c hc => isPlain_of_isBlank (h c hc)

theorem isPlain_of_isDigit {c : Char} (h : c.isDigit = true) : isPlain c = true := by
  have hne : ∀ d : Char, d.isDigit = false → c ≠ d := by
    rintro d hd rfl
    rw [h] at hd
    cases hd
  unfold isPlain
  simp only [Bool.and_eq_true, bne_iff_ne]
  exact ⟨⟨⟨⟨hne _ (by decide), hne _ (by decide)⟩, hne _ (by decide)⟩, hne _ (by decide)⟩, hne _ (by decide)⟩

theorem Digits.allPlain {t : List Char} (h : Digits t) : AllPlain t := fun c hc => isPlain_of_isDigit (h.2 c hc)

theorem Number.allPlain {t : List Char} (h : Number t) : AllPlain t := by
  obtain ⟨sign, whole, fraction, exponent, hsign, hwhole, hfraction, hexponent, rfl⟩ := h
  refine .append ?_ (.append ?_ (.append ?_ ?_))
  · rcases hsign with rfl | rfl
    · exact allPlain_nil
    · exact allPlain_of_all rfl
  · rcases hwhole with rfl | ⟨hdigits, -⟩
    · exact allPlain_of_all rfl
    · exact hdigits.allPlain
  · rcases hfraction with rfl | ⟨ds, hds, rfl⟩
    · exact allPlain_nil
    · exact List.forall_mem_cons.mpr ⟨by decide, hds.allPlain⟩
  · rcases hexponent with rfl | ⟨e, s, ds, he, hs, hds, rfl⟩
    · exact allPlain_nil
    · refine List.forall_mem_cons.mpr ⟨?_, AllPlain.append ?_ hds.allPlain⟩
      · rcases he with rfl | rfl <;> decide
      · rcases hs with rfl | rfl | rfl <;> exact allPlain_of_all rfl

theorem allPlain_literal {t : List Char} (h : t ∈ ["true".toList, "false".toList, "null".toList]) : AllPlain t := by
  rcases List.mem_cons.mp h with rfl | h
  · exact allPlain_of_all rfl
  rcases List.mem_cons.mp h with rfl | h
  · exact allPlain_of_all rfl
  obtain rfl := List.mem_singleton.mp h
  exact allPlain_of_all rfl

end JsonGrammar
