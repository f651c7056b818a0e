import Mathlib.Algebra.GroupWithZero.Nat

/-!
# Compact JSON text

The text that a JSON encoder writes with sorted keys, without blanks, and with every character outside the
printable ASCII range escaped.  A text is built bottom-up from the texts of its parts.  Strings and integers are
self-delimiting: a text that starts with one of them determines it and the rest (`str_append_inj`,
`int_append_inj`), so an object with fixed keys is determined by its text.
-/

namespace Json

/-! ### Building texts -/

/-- Four lower-case hexadecimal digits. -/
def hex4 (n : Nat) : List Char :=
  [Nat.digitChar (n / 4096 % 16), Nat.digitChar (n / 256 % 16), Nat.digitChar (n / 16 % 16),
    Nat.digitChar (n % 16)]

/-- The escape of one character: a short escape, the character itself when it is printable ASCII, one `\u` escape in
the basic plane, and a surrogate pair above it. -/
def escapeChar (c : Char) : List Char :=
  if c = '"' then ['\\', '"']
  else if c = '\\' then ['\\', '\\']
  else if c = '\n' then ['\\', 'n']
  else if c = '\r' then ['\\', 'r']
  else if c = '\t' then ['\\', 't']
  else if c = '\x0c' then ['\\', 'f']
  else if c = '\x08' then ['\\', 'b']
  else if 32 ≤ c.toNat ∧ c.toNat ≤ 126 then [c]
  else if c.toNat < 65536 then '\\' :: 'u' :: hex4 c.toNat
  else
    '\\' :: 'u' :: hex4 (55296 + (c.toNat - 65536) / 1024) ++
      '\\' :: 'u' :: hex4 (56320 + (c.toNat - 65536) % 1024)

/-- A string. -/
def str (s : String) : List Char := '"' :: (s.toList.flatMap escapeChar ++ ['"'])

/-- A natural number in decimal. -/
def nat (n : Nat) : List Char := Nat.toDigits 10 n

/-- An integer in decimal. -/
def int (n : Int) : List Char := if n < 0 then '-' :: nat n.natAbs else nat n.natAbs

/-- A truth value. -/
def bool (b : Bool) : List Char := if b then ['t', 'r', 'u', 'e'] else ['f', 'a', 'l', 's', 'e']

/-- Texts separated by commas. -/
def commaSep : List (List Char) → List Char
  | [] => []
  | [t] => t
  | t :: ts => t ++ ',' :: commaSep ts

/-- An array. -/
def arr (items : List (List Char)) : List Char := '[' :: (commaSep items ++ [']'])

/-- A member of an object. -/
def member (m : String × List Char) : List Char := str m.1 ++ ':' :: m.2

/-- Puts a member in its place among members sorted by key. -/
def insertMember (m : String × List Char) : List (String × List Char) → List (String × List Char)
  | [] => [m]
  | m' :: ms => if m.1 ≤ m'.1 then m :: m' :: ms else m' :: insertMember m ms

/-- An object, its members sorted by key. -/
def obj (members : List (String × List Char)) : List Char :=
  '{' :: (commaSep ((members.foldr insertMember []).map member) ++ ['}'])

/-! ### Lengths -/

private theorem length_commaSep : ∀ ts : List (List Char), ts ≠ [] →
    (commaSep ts).length + 1 = (ts.map fun t => t.length + 1).sum
  | [], h => absurd rfl h
  | [t], _ => by simp [commaSep]
  | t :: t' :: ts, _ => by
    have ih := length_commaSep (t' :: ts) (by simp)
    simp only [commaSep, List.length_append, List.length_cons, List.map_cons, List.sum_cons] at ih ⊢
    omega

/-- The length of an array: its brackets, its items and the commas between them. -/
theorem length_arr (items : List (List Char)) :
    (arr items).length = 2 + ((items.map List.length).sum + (items.length - 1)) := by
  unfold arr
  rw [List.length_cons, List.length_append, List.length_singleton]
  cases items with
  | nil => rfl
  | cons t ts =>
    have h := length_commaSep (t :: ts) (by simp)
    have hsum : ((t :: ts).map fun t => t.length + 1).sum = ((t :: ts).map List.length).sum + (t :: ts).length := by
      induction t :: ts with
      | nil => rfl
      | cons t ts ih =>
        simp only [List.map_cons, List.sum_cons, List.length_cons, ih]
        omega
    rw [List.length_cons] at hsum ⊢
    omega

private theorem sum_insertMember (f : String × List Char → Nat) (m : String × List Char)
    (ms : List (String × List Char)) : ((insertMember m ms).map f).sum = f m + (ms.map f).sum := by
  induction ms with
  | nil => simp [insertMember]
  | cons m' ms ih =>
    unfold insertMember
    split
    · simp
    · simp only [List.map_cons, List.sum_cons, ih]
      omega

private theorem insertMember_ne_nil (m : String × List Char) (ms : List (String × List Char)) :
    insertMember m ms ≠ [] := by
  cases ms with
  | nil => simp [insertMember]
  | cons m' ms => unfold insertMember; split <;> simp

/-- The length of an object with at least one member does not depend on the order of its members. -/
theorem length_obj (m : String × List Char) (ms : List (String × List Char)) :
    (obj (m :: ms)).length = 1 + ((m :: ms).map fun m => (member m).length + 1).sum := by
  have hs : ∀ l : List (String × List Char),
      ((l.foldr insertMember []).map fun m => (member m).length + 1).sum =
        (l.map fun m => (member m).length + 1).sum := by
    intro l
    induction l with
    | nil => rfl
    | cons a l ih => rw [List.foldr_cons, sum_insertMember, ih, List.map_cons, List.sum_cons]
  have hne : ((m :: ms).foldr insertMember []).map member ≠ [] := by
    simpa using insertMember_ne_nil m _
  have hc := length_commaSep _ hne
  rw [List.map_map] at hc
  have he := hs (m :: ms)
  unfold obj
  simp only [List.length_cons, List.length_append, List.length_nil]
  simp only [Function.comp_def] at hc
  omega

/-! ### Strings are self-delimiting -/

private def hexVal (c : Char) : Nat := if c.toNat < 58 then c.toNat - 48 else c.toNat - 87

private theorem hexVal_digitChar : ∀ d, d < 16 → hexVal (Nat.digitChar d) = d := by decide

private def hexVal4 (a b c d : Char) : Nat := hexVal a * 4096 + hexVal b * 256 + hexVal c * 16 + hexVal d

private theorem hexVal4_hex4 {n : Nat} (h : n < 65536) :
    hexVal4 (Nat.digitChar (n / 4096 % 16)) (Nat.digitChar (n / 256 % 16)) (Nat.digitChar (n / 16 % 16))
      (Nat.digitChar (n % 16)) = n := by
  unfold hexVal4
  rw [hexVal_digitChar _ (Nat.mod_lt _ (by decide)), hexVal_digitChar _ (Nat.mod_lt _ (by decide)),
    hexVal_digitChar _ (Nat.mod_lt _ (by decide)), hexVal_digitChar _ (Nat.mod_lt _ (by decide))]
  omega

/-- Reads one escaped character and returns what follows it. -/
private def unescape : List Char → Option (Char × List Char)
  | '\\' :: 'u' :: a :: b :: c :: d :: rest =>
    if 55296 ≤ hexVal4 a b c d ∧ hexVal4 a b c d < 56320 then
      match rest with
      | _ :: _ :: a' :: b' :: c' :: d' :: rest' =>
        some (Char.ofNat (65536 + (hexVal4 a b c d - 55296) * 1024 + (hexVal4 a' b' c' d' - 56320)), rest')
      | _ => none
    else some (Char.ofNat (hexVal4 a b c d), rest)
  | '\\' :: 'n' :: rest => some ('\n', rest)
  | '\\' :: 'r' :: rest => some ('\r', rest)
  | '\\' :: 't' :: rest => some ('\t', rest)
  | '\\' :: 'f' :: rest => some ('\x0c', rest)
  | '\\' :: 'b' :: rest => some ('\x08', rest)
  | '\\' :: c :: rest => some (c, rest)
  | c :: rest => some (c, rest)
  | [] => none

private theorem toNat_valid (c : Char) : c.toNat < 55296 ∨ (57343 < c.toNat ∧ c.toNat < 1114112) := c.valid

private theorem unescape_escapeChar (c : Char) (rest : List Char) :
    unescape (escapeChar c ++ rest) = some (c, rest) := by
  unfold escapeChar
  by_cases h1 : c = '"'
  · subst h1; simp [unescape]
  by_cases h2 : c = '\\'
  · subst h2; simp [unescape]
  by_cases h3 : c = '\n'
  · subst h3; simp [unescape]
  by_cases h4 : c = '\r'
  · subst h4; simp [unescape]
  by_cases h5 : c = '\t'
  · subst h5; simp [unescape]
  by_cases h6 : c = '\x0c'
  · subst h6; simp [unescape]
  by_cases h7 : c = '\x08'
  · subst h7; simp [unescape]
  simp only [h1, h2, h3, h4, h5, h6, h7, ↓reduceIte]
  have hv := toNat_valid c
  by_cases h8 : 32 ≤ c.toNat ∧ c.toNat ≤ 126
  · simp only [h8, and_self, ↓reduceIte, List.cons_append, List.nil_append]
    rw [unescape.eq_def]
    split <;> simp_all
  · simp only [h8, ↓reduceIte]
    by_cases h9 : c.toNat < 65536
    · simp only [h9, ↓reduceIte, hex4, List.cons_append, List.nil_append, unescape, hexVal4_hex4 h9]
      -- a character of the basic plane is no surrogate
      have hn : ¬ (55296 ≤ c.toNat ∧ c.toNat < 56320) := by omega
      simp only [hn, ↓reduceIte, Char.ofNat_toNat]
    · have hhi : 55296 + (c.toNat - 65536) / 1024 < 65536 := by omega
      have hlo : 56320 + (c.toNat - 65536) % 1024 < 65536 := by omega
      have hs : 55296 ≤ 55296 + (c.toNat - 65536) / 1024 ∧ 55296 + (c.toNat - 65536) / 1024 < 56320 := by
        omega
      simp only [h9, ↓reduceIte, hex4, List.cons_append, List.nil_append, unescape, hexVal4_hex4 hhi,
        hexVal4_hex4 hlo, hs, and_self]
      have e : 65536 + (55296 + (c.toNat - 65536) / 1024 - 55296) * 1024 +
          (56320 + (c.toNat - 65536) % 1024 - 56320) = c.toNat := by omega
      rw [e, Char.ofNat_toNat]

private theorem escapeChar_head_ne_quote (c : Char) (rest : List Char) :
    (escapeChar c ++ rest).head? ≠ some '"' := by
  unfold escapeChar
  by_cases h1 : c = '"'
  · simp [h1]
  · simp only [h1, ↓reduceIte]
    repeat' split
    all_goals simp [h1]

private theorem escaped_append_inj {cs ds r s : List Char}
    (h : cs.flatMap escapeChar ++ '"' :: r = ds.flatMap escapeChar ++ '"' :: s) : cs = ds ∧ r = s := by
  induction cs generalizing ds with
  | nil =>
    cases ds with
    | nil => simpa using h
    | cons d ds =>
      have hq := escapeChar_head_ne_quote d (ds.flatMap escapeChar ++ '"' :: s)
      rw [← List.append_assoc, ← List.flatMap_cons, ← h] at hq
      simp at hq
  | cons c cs ih =>
    cases ds with
    | nil =>
      have hq := escapeChar_head_ne_quote c (cs.flatMap escapeChar ++ '"' :: r)
      rw [← List.append_assoc, ← List.flatMap_cons, h] at hq
      simp at hq
    | cons d ds =>
      rw [List.flatMap_cons, List.flatMap_cons, List.append_assoc, List.append_assoc] at h
      have hu := congrArg unescape h
      rw [unescape_escapeChar, unescape_escapeChar] at hu
      simp only [Option.some.injEq, Prod.mk.injEq] at hu
      obtain ⟨rfl, hrest⟩ := hu
      obtain ⟨rfl, hr⟩ := ih hrest
      exact ⟨rfl, hr⟩

/-- A text that starts with a string determines the string and the rest. -/
theorem str_append_inj {a b : String} {r s : List Char} (h : str a ++ r = str b ++ s) : a = b ∧ r = s := by
  unfold str at h
  simp only [List.cons_append, List.append_assoc, List.nil_append, List.cons.injEq, true_and] at h
  obtain ⟨hl, hr⟩ := escaped_append_inj h
  exact ⟨String.toList_inj.1 hl, hr⟩

/-! ### Integers are self-delimiting before a character that is no digit -/

private theorem span_digits {l l' r s : List Char} (hl : ∀ c ∈ l, c.isDigit) (hl' : ∀ c ∈ l', c.isDigit)
    (hr : ∀ c ∈ r.head?, ¬ c.isDigit) (hs : ∀ c ∈ s.head?, ¬ c.isDigit) (h : l ++ r = l' ++ s) :
    l = l' ∧ r = s := by
  induction l generalizing l' with
  | nil =>
    cases l' with
    | nil => exact ⟨rfl, h⟩
    | cons d l' =>
      exact absurd (hl' d (by simp)) (hr d (by rw [List.nil_append] at h; rw [h]; simp))
  | cons c l ih =>
    cases l' with
    | nil => exact absurd (hl c (by simp)) (hs c (by rw [List.nil_append] at h; rw [← h]; simp))
    | cons d l' =>
      simp only [List.cons_append, List.cons.injEq] at h
      obtain ⟨rfl, h⟩ := h
      obtain ⟨rfl, hrs⟩ := ih (fun x hx => hl x (by simp [hx])) (fun x hx => hl' x (by simp [hx])) h
      exact ⟨rfl, hrs⟩

private theorem isDigit_of_mem_nat {n : Nat} {c : Char} (h : c ∈ nat n) : c.isDigit = true :=
  Nat.isDigit_of_mem_toDigits (by decide) (by decide) h

theorem nat_append_inj {m n : Nat} {r s : List Char} (hr : ∀ c ∈ r.head?, ¬ c.isDigit)
    (hs : ∀ c ∈ s.head?, ¬ c.isDigit) (h : nat m ++ r = nat n ++ s) : m = n ∧ r = s := by
  obtain ⟨hl, hrs⟩ := span_digits (fun _ => isDigit_of_mem_nat) (fun _ => isDigit_of_mem_nat) hr hs h
  refine ⟨?_, hrs⟩
  have := congrArg (Nat.ofDigitChars 10 · 0) hl
  simpa [nat] using this

private theorem nat_ne_minus (n : Nat) (r s : List Char) : nat n ++ r ≠ '-' :: s := by
  intro h
  rcases hn : nat n with _ | ⟨c, l⟩
  · exact Nat.toDigits_ne_nil hn
  · have hc : c.isDigit = true := isDigit_of_mem_nat (n := n) (by rw [hn]; simp)
    rw [hn, List.cons_append, List.cons.injEq] at h
    rw [h.1] at hc
    exact absurd hc (by decide)

/-- A text that starts with an integer, followed by something other than a digit, determines the integer and the
rest. -/
theorem int_append_inj {m n : Int} {r s : List Char} (hr : ∀ c ∈ r.head?, ¬ c.isDigit)
    (hs : ∀ c ∈ s.head?, ¬ c.isDigit) (h : int m ++ r = int n ++ s) : m = n ∧ r = s := by
  unfold int at h
  by_cases hm : m < 0 <;> by_cases hn : n < 0 <;> simp only [hm, hn, ↓reduceIte, List.cons_append] at h
  · obtain ⟨habs, hrs⟩ := nat_append_inj hr hs (List.cons.inj h).2
    exact ⟨by omega, hrs⟩
  · exact absurd h.symm (nat_ne_minus _ _ _)
  · exact absurd h (nat_ne_minus _ _ _)
  · obtain ⟨habs, hrs⟩ := nat_append_inj hr hs h
    exact ⟨by omega, hrs⟩

/-! ### Objects of strings and integers -/

/-- A string or an integer. -/
inductive Scalar
  | string (s : String)
  | integer (n : Int)
deriving DecidableEq

def Scalar.text : Scalar → List Char
  | .string s => str s
  | .integer n => int n

private theorem int_ne_quote (n : Int) (r s : List Char) : int n ++ r ≠ '"' :: s := by
  intro h
  unfold int at h
  split at h
  · simp at h
  · rcases hn : nat n.natAbs with _ | ⟨c, l⟩
    · exact Nat.toDigits_ne_nil hn
    · have hc : c.isDigit = true := isDigit_of_mem_nat (n := n.natAbs) (by rw [hn]; simp)
      rw [hn, List.cons_append, List.cons.injEq] at h
      rw [h.1] at hc
      exact absurd hc (by decide)

private theorem scalar_append_inj {v w : Scalar} {r s : List Char} (hr : ∀ c ∈ r.head?, ¬ c.isDigit)
    (hs : ∀ c ∈ s.head?, ¬ c.isDigit) (h : v.text ++ r = w.text ++ s) : v = w ∧ r = s := by
  cases v with
  | string a =>
    cases w with
    | string b =>
      obtain ⟨rfl, hrs⟩ := str_append_inj h
      exact ⟨rfl, hrs⟩
    | integer n => exact absurd h.symm (int_ne_quote n s _)
  | integer m =>
    cases w with
    | string b => exact absurd h (int_ne_quote m r _)
    | integer n =>
      obtain ⟨rfl, hrs⟩ := int_append_inj hr hs h
      exact ⟨rfl, hrs⟩

/-- What follows the first member of an object. -/
private def moreMembers (ms : List (String × Scalar)) : List Char :=
  ms.flatMap fun m => ',' :: member (m.1, m.2.text)

private theorem commaSep_members (m : String × Scalar) (ms : List (String × Scalar)) :
    commaSep ((m :: ms).map fun m => member (m.1, m.2.text)) = member (m.1, m.2.text) ++ moreMembers ms := by
  induction ms generalizing m with
  | nil => simp [commaSep, moreMembers]
  | cons m' ms ih =>
    have := ih m'
    simp only [List.map_cons] at this ⊢
    simp only [commaSep, this, moreMembers, List.flatMap_cons, List.cons_append]

private theorem moreMembers_head (ms : List (String × Scalar)) (r : List Char) :
    ∀ c ∈ (moreMembers ms ++ '}' :: r).head?, ¬ c.isDigit := by
  cases ms with
  | nil => simp [moreMembers]
  | cons m ms => simp [moreMembers]

private theorem member_append_inj {m m' : String × Scalar} {r s : List Char}
    (hr : ∀ c ∈ r.head?, ¬ c.isDigit) (hs : ∀ c ∈ s.head?, ¬ c.isDigit)
    (h : member (m.1, m.2.text) ++ r = member (m'.1, m'.2.text) ++ s) : m = m' ∧ r = s := by
  unfold member at h
  simp only [List.append_assoc, List.cons_append] at h
  obtain ⟨hk, h⟩ := str_append_inj h
  obtain ⟨hv, hrs⟩ := scalar_append_inj hr hs (List.cons.inj h).2
  exact ⟨Prod.ext hk hv, hrs⟩

private theorem moreMembers_inj {ms ms' : List (String × Scalar)} {r s : List Char}
    (h : moreMembers ms ++ '}' :: r = moreMembers ms' ++ '}' :: s) : ms = ms' := by
  induction ms generalizing ms' with
  | nil =>
    cases ms' with
    | nil => rfl
    | cons m' ms' => simp [moreMembers] at h
  | cons m ms ih =>
    cases ms' with
    | nil => simp [moreMembers] at h
    | cons m' ms' =>
      simp only [moreMembers, List.flatMap_cons, List.cons_append, List.append_assoc, List.cons.injEq,
        true_and] at h
      obtain ⟨rfl, htail⟩ := member_append_inj (moreMembers_head ms r) (moreMembers_head ms' s) h
      rw [ih htail]

/-- The members of an object of strings and integers. -/
def scalarMembers (ms : List (String × Scalar)) : List (String × List Char) := ms.map fun m => (m.1, m.2.text)

/-- The text of an object of strings and integers, its keys in order, determines its members. -/
theorem obj_inj {ms ms' : List (String × Scalar)} (hne : ms ≠ []) (hne' : ms' ≠ [])
    (hs : (scalarMembers ms).foldr insertMember [] = scalarMembers ms)
    (hs' : (scalarMembers ms').foldr insertMember [] = scalarMembers ms')
    (h : obj (scalarMembers ms) = obj (scalarMembers ms')) : ms = ms' := by
  unfold obj at h
  rw [hs, hs'] at h
  unfold scalarMembers at h
  rw [List.map_map, List.map_map] at h
  have hc := (List.cons.inj h).2
  obtain ⟨m, ms, rfl⟩ := List.exists_cons_of_ne_nil hne
  obtain ⟨m', ms', rfl⟩ := List.exists_cons_of_ne_nil hne'
  change commaSep ((m :: ms).map fun m => member (m.1, m.2.text)) ++ ['}'] =
    commaSep ((m' :: ms').map fun m => member (m.1, m.2.text)) ++ ['}'] at hc
  rw [commaSep_members, commaSep_members, List.append_assoc, List.append_assoc] at hc
  obtain ⟨rfl, hm⟩ := member_append_inj (moreMembers_head ms []) (moreMembers_head ms' []) hc
  rw [moreMembers_inj hm]

end Json
