import Mathlib.Data.List.Basic

/-!
# Patterns with backtracking

Regular expressions as scripting languages run them over a text: a pattern is tried at a place of the text, its choices are
made in order, and `hits` lists the outcomes in the order in which backtracking reaches them.  Repetition is over single
characters, which is what keeps every definition structural.  `scan` walks over a text and reports the matches from left
to right, as `finditer` does.  `Matches` forgets the order of the outcomes; its equations are the rules that proofs use.
-/

namespace Regex

/-- The characters that `\s` matches and `str.strip` removes. -/
def isSpace (c : Char) : Bool :=
  (9 ≤ c.toNat && c.toNat ≤ 13) || (28 ≤ c.toNat && c.toNat ≤ 32) || c.toNat == 0x85 || c.toNat == 0xa0 ||
    c.toNat == 0x1680 || (0x2000 ≤ c.toNat && c.toNat ≤ 0x200a) || c.toNat == 0x2028 || c.toNat == 0x2029 ||
    c.toNat == 0x202f || c.toNat == 0x205f || c.toNat == 0x3000

/-- The characters that `\w` matches.  Outside ASCII they are those of the Unicode database in use. -/
structure WordClass where
  isWord : Char → Bool
  ascii : ∀ c : Char, c.toNat < 128 → isWord c = (c.isAlphanum || c == '_')
  not_space : ∀ c, isSpace c = true → isWord c = false

/-- The word characters of ASCII alone. -/
def WordClass.asciiOnly : WordClass where
  isWord c := c.isAlphanum || c == '_'
  ascii _ _ := rfl
  not_space c h := by
    rw [Bool.eq_false_iff]
    intro hw
    have hrange : 48 ≤ c.toNat ∧ c.toNat ≤ 122 := by
      have halphanum : c.isAlphanum = ((decide (65 ≤ c.val ∧ c.val ≤ 90) ||
          (decide (97 ≤ c.val) && decide (c.val ≤ 122))) || (decide (48 ≤ c.val) && decide (c.val ≤ 57))) := rfl
      simp only [halphanum, Bool.or_eq_true, Bool.and_eq_true, decide_eq_true_eq, beq_iff_eq] at hw
      rcases hw with ((hw | hw) | hw) | rfl
      · exact ⟨Nat.le_trans (by decide) hw.1, Nat.le_trans hw.2 (by decide)⟩
      · exact ⟨Nat.le_trans (by decide) hw.1, hw.2⟩
      · exact ⟨hw.1, Nat.le_trans hw.2 (by decide)⟩
      · decide
    simp only [isSpace, Bool.or_eq_true, Bool.and_eq_true, decide_eq_true_eq, beq_iff_eq] at h
    omega

end Regex

/-- A pattern. -/
inductive Regex
  /-- the empty text -/
  | eps
  /-- one character of a class -/
  | cls (p : Char → Bool)
  /-- as many characters of a class as possible -/
  | many (p : Char → Bool)
  /-- at most `n` characters of a class, as many as possible -/
  | upTo (n : Nat) (p : Char → Bool)
  /-- as few characters of a class as possible -/
  | few (p : Char → Bool)
  | seq (r s : Regex)
  | alt (r s : Regex)
  | group (name : String) (r : Regex)
  /-- `^` of a multi-line pattern -/
  | lineStart
  /-- `\A` -/
  | textStart
  /-- `\Z` -/
  | textEnd
  /-- `\b` -/
  | boundary

namespace Regex

/-- What a pattern matched: the number of characters, and the texts of its groups. -/
structure Hit where
  length : Nat
  groups : List (String × List Char) := []

/-- The character before the place that lies `n` characters ahead. -/
def lastAfter (prev : Option Char) (rest : List Char) (n : Nat) : Option Char := if n = 0 then prev else rest[n - 1]?

variable (w : WordClass)

def isWord? (c : Option Char) : Bool := c.any w.isWord

/-- The outcomes of a pattern at a place, given by the character before it and the text after it. -/
def hits : Regex → Option Char → List Char → List Hit
  | eps, _, _ => [⟨0, []⟩]
  | cls p, _, rest => if rest.head?.any p then [⟨1, []⟩] else []
  | many p, _, rest => (List.range ((rest.takeWhile p).length + 1)).reverse.map fun n => ⟨n, []⟩
  | upTo k p, _, rest => (List.range (min k (rest.takeWhile p).length + 1)).reverse.map fun n => ⟨n, []⟩
  | few p, _, rest => (List.range ((rest.takeWhile p).length + 1)).map fun n => ⟨n, []⟩
  | seq r s, prev, rest =>
    (r.hits prev rest).flatMap fun h =>
      (s.hits (lastAfter prev rest h.length) (rest.drop h.length)).map fun k =>
        ⟨h.length + k.length, h.groups ++ k.groups⟩
  | alt r s, prev, rest => r.hits prev rest ++ s.hits prev rest
  | group name r, prev, rest =>
    (r.hits prev rest).map fun h => ⟨h.length, (name, rest.take h.length) :: h.groups⟩
  | lineStart, prev, _ => if prev = none ∨ prev = some '\n' then [⟨0, []⟩] else []
  | textStart, prev, _ => if prev = none then [⟨0, []⟩] else []
  | textEnd, _, rest => if rest = [] then [⟨0, []⟩] else []
  | boundary, prev, rest => if isWord? w prev ≠ isWord? w rest.head? then [⟨0, []⟩] else []

section

variable {w} {r s : Regex} {p : Char → Bool} {prev : Option Char} {rest : List Char}

theorem hits_eps : eps.hits w prev rest = [⟨0, []⟩] := rfl

theorem hits_cls : (cls p).hits w prev rest = if rest.head?.any p then [⟨1, []⟩] else [] := rfl

theorem hits_many :
    (many p).hits w prev rest = (List.range ((rest.takeWhile p).length + 1)).reverse.map fun n => ⟨n, []⟩ := rfl

theorem hits_seq : (seq r s).hits w prev rest = (r.hits w prev rest).flatMap fun h =>
    (s.hits w (lastAfter prev rest h.length) (rest.drop h.length)).map fun k =>
      ⟨h.length + k.length, h.groups ++ k.groups⟩ := rfl

theorem hits_alt : (alt r s).hits w prev rest = r.hits w prev rest ++ s.hits w prev rest := rfl

theorem hits_group {name : String} : (group name r).hits w prev rest =
    (r.hits w prev rest).map fun h => ⟨h.length, (name, rest.take h.length) :: h.groups⟩ := rfl

theorem hits_lineStart :
    lineStart.hits w prev rest = if prev = none ∨ prev = some '\n' then [⟨0, []⟩] else [] := rfl

theorem hits_textStart : textStart.hits w prev rest = if prev = none then [⟨0, []⟩] else [] := rfl

theorem hits_textEnd : textEnd.hits w prev rest = if rest = [] then [⟨0, []⟩] else [] := rfl

theorem hits_boundary :
    boundary.hits w prev rest = if isWord? w prev ≠ isWord? w rest.head? then [⟨0, []⟩] else [] := rfl

end

/-- A match in a text. -/
structure Found where
  start : Nat
  stop : Nat
  groups : List (String × List Char)

def Hit.at (h : Hit) (pos : Nat) : Found := ⟨pos, pos + h.length, h.groups⟩

/-- The matches in a text from a place on, of which `skip` more characters belong to the last match.  After an empty match
the next one at the same place must not be empty. -/
def scan (r : Regex) : Nat → Nat → Option Char → List Char → List Found
  | _, pos, prev, [] => ((r.hits w prev []).head?.map fun h => h.at pos).toList
  | skip + 1, pos, _, c :: rest => scan r skip (pos + 1) (some c) rest
  | 0, pos, prev, c :: rest =>
    match r.hits w prev (c :: rest) with
    | [] => scan r 0 (pos + 1) (some c) rest
    | h :: more =>
      if 0 < h.length then h.at pos :: scan r (h.length - 1) (pos + 1) (some c) rest
      else
        match more.find? fun k => 0 < k.length with
        | some k => h.at pos :: k.at pos :: scan r (k.length - 1) (pos + 1) (some c) rest
        | none => h.at pos :: scan r 0 (pos + 1) (some c) rest

/-- `finditer`. -/
def finditer (r : Regex) (text : List Char) : List Found := r.scan w 0 0 none text

/-- `search`. -/
def search (r : Regex) (text : List Char) : Option Found := (r.finditer w text).head?

/-- `fullmatch`. -/
def fullmatch (r : Regex) (text : List Char) : Option Hit := (r.hits w none text).find? fun h => h.length == text.length

/-! ### Derived patterns -/

/-- One given character. -/
def char (c : Char) : Regex := cls (· == c)

/-- A given text. -/
def lit : List Char → Regex
  | [] => eps
  | c :: cs => seq (char c) (lit cs)

/-- One of several patterns. -/
def oneOf : List Regex → Regex
  | [] => cls fun _ => false
  | r :: rs => alt r (oneOf rs)

/-- At least one character of a class. -/
def many1 (p : Char → Bool) : Regex := seq (cls p) (many p)

/-! ### The rules of matching -/

/-- The pattern can match the next `n` characters. -/
def Matches (r : Regex) (prev : Option Char) (rest : List Char) (n : Nat) : Prop :=
  ∃ h ∈ r.hits w prev rest, h.length = n

variable {w} {r s : Regex} {prev : Option Char} {rest : List Char} {n : Nat}

theorem matches_eps : eps.Matches w prev rest n ↔ n = 0 := by
  simp [Matches, hits_eps, eq_comm]

theorem matches_cls {p : Char → Bool} : (cls p).Matches w prev rest n ↔ n = 1 ∧ ∃ c cs, rest = c :: cs ∧ p c = true := by
  cases rest with
  | nil => simp [Matches, hits_cls]
  | cons c cs =>
    by_cases hp : p c = true
    · simp only [Matches, hits_cls, List.head?_cons, Option.any_some, hp, if_true, List.mem_singleton, exists_eq_left]
      exact ⟨fun h => ⟨h.symm, c, cs, rfl, hp⟩, fun h => h.1.symm⟩
    · simp [Matches, hits_cls, hp]

theorem matches_many {p : Char → Bool} : (many p).Matches w prev rest n ↔ n ≤ (rest.takeWhile p).length := by
  simp [Matches, hits_many, Nat.lt_succ_iff]

theorem matches_seq : (seq r s).Matches w prev rest n ↔
    ∃ i j, r.Matches w prev rest i ∧ s.Matches w (lastAfter prev rest i) (rest.drop i) j ∧ n = i + j := by
  constructor
  · rintro ⟨h, hh, rfl⟩
    simp only [hits_seq, List.mem_flatMap, List.mem_map] at hh
    obtain ⟨a, ha, b, hb, rfl⟩ := hh
    exact ⟨a.length, b.length, ⟨a, ha, rfl⟩, ⟨b, hb, rfl⟩, rfl⟩
  · rintro ⟨i, j, ⟨a, ha, rfl⟩, ⟨b, hb, rfl⟩, rfl⟩
    refine ⟨⟨a.length + b.length, a.groups ++ b.groups⟩, ?_, rfl⟩
    simp only [hits_seq, List.mem_flatMap, List.mem_map]
    exact ⟨a, ha, b, hb, rfl⟩

theorem matches_alt : (alt r s).Matches w prev rest n ↔ r.Matches w prev rest n ∨ s.Matches w prev rest n := by
  unfold Matches
  simp only [hits_alt, List.mem_append, or_and_right, exists_or]

theorem matches_group {name : String} : (group name r).Matches w prev rest n ↔ r.Matches w prev rest n := by
  simp [Matches, hits_group]

theorem matches_lineStart : lineStart.Matches w prev rest n ↔ n = 0 ∧ (prev = none ∨ prev = some '\n') := by
  by_cases h : prev = none ∨ prev = some '\n'
  · simp [Matches, hits_lineStart, h, eq_comm]
  · simp [Matches, hits_lineStart, h]

theorem matches_textStart : textStart.Matches w prev rest n ↔ n = 0 ∧ prev = none := by
  by_cases h : prev = none
  · simp [Matches, hits_textStart, h, eq_comm]
  · simp [Matches, hits_textStart, h]

theorem matches_boundary : boundary.Matches w prev rest n ↔ n = 0 ∧ isWord? w prev ≠ isWord? w rest.head? := by
  by_cases h : isWord? w prev = isWord? w rest.head?
  · simp [Matches, hits_boundary, h]
  · simp [Matches, hits_boundary, h, eq_comm]

theorem matches_lit {t : List Char} : (lit t).Matches w prev rest n ↔ n = t.length ∧ t <+: rest := by
  induction t generalizing prev rest n with
  | nil => simp [lit, matches_eps]
  | cons c cs ih =>
    simp only [lit, char, matches_seq, matches_cls, ih]
    constructor
    · rintro ⟨i, j, ⟨rfl, d, ds, rfl, hd⟩, ⟨rfl, hpre⟩, rfl⟩
      obtain rfl : d = c := by simpa using hd
      refine ⟨by rw [List.length_cons]; omega, ?_⟩
      simpa using hpre
    · rintro ⟨rfl, hpre⟩
      obtain ⟨tail, rfl⟩ := hpre
      refine ⟨1, cs.length, ⟨rfl, c, cs ++ tail, rfl, by simp⟩, ⟨rfl, by simp⟩, ?_⟩
      rw [List.length_cons]
      omega

theorem matches_oneOf {rs : List Regex} : (oneOf rs).Matches w prev rest n ↔ ∃ r ∈ rs, r.Matches w prev rest n := by
  induction rs with
  | nil => simp [oneOf, matches_cls]
  | cons r rs ih => simp [oneOf, matches_alt, ih]

theorem matches_many1 {p : Char → Bool} (h : (many1 p).Matches w prev rest n) : ∃ c cs, rest = c :: cs ∧ p c = true := by
  obtain ⟨i, j, hi, -, -⟩ := matches_seq.1 h
  exact (matches_cls.1 hi).2

/-! ### Matches in a text -/

/-- The character before the place after `l`. -/
def lastOf (prev : Option Char) (l : List Char) : Option Char := l.getLast?.or prev

theorem lastOf_cons (c : Char) (l : List Char) : lastOf prev (c :: l) = lastOf (some c) l := by
  cases l with
  | nil => rfl
  | cons d ds =>
    unfold lastOf
    rw [List.getLast?_cons_cons, List.getLast?_eq_some_getLast (List.cons_ne_nil d ds)]
    rfl

theorem lastAfter_append (l rest : List Char) : lastAfter prev (l ++ rest) l.length = lastOf prev l := by
  unfold lastAfter lastOf
  rcases List.eq_nil_or_concat l with rfl | ⟨xs, x, rfl⟩
  · rfl
  · simp

/-- When a scan finds nothing, the pattern matches nowhere. -/
theorem no_match_of_scan_nil {pos : Nat} (h : r.scan w 0 pos prev rest = []) (A B : List Char) (hAB : rest = A ++ B) :
    ¬ r.Matches w (lastOf prev A) B n := by
  rintro ⟨k, hk, -⟩
  induction rest generalizing prev pos A with
  | nil =>
    obtain ⟨rfl, rfl⟩ := List.append_eq_nil_iff.1 hAB.symm
    have hnil : r.hits w prev [] = [] := by simpa [scan] using h
    rw [show lastOf prev [] = prev from rfl, hnil] at hk
    cases hk
  | cons c cs ih =>
    have hnil : r.hits w prev (c :: cs) = [] := by
      rcases hh : r.hits w prev (c :: cs) with _ | ⟨x, xs⟩
      · rfl
      · rw [scan, hh] at h
        dsimp only at h
        split at h
        · cases h
        · split at h <;> cases h
    cases A with
    | nil =>
      obtain rfl : c :: cs = B := hAB
      rw [show lastOf prev [] = prev from rfl, hnil] at hk
      cases hk
    | cons a A =>
      obtain ⟨rfl, hcs⟩ := List.cons.inj hAB
      rw [scan, hnil] at h
      rw [lastOf_cons] at hk
      exact ih h A hcs hk

/-- The characters that belong to a match are skipped. -/
theorem scan_skip (A B : List Char) (pos : Nat) :
    r.scan w A.length pos prev (A ++ B) = r.scan w 0 (pos + A.length) (lastOf prev A) B := by
  induction A generalizing prev pos with
  | nil => rfl
  | cons a A ih =>
    rw [List.length_cons, List.cons_append, scan, ih, lastOf_cons]
    congr 1
    omega

/-- A scan that starts with a match goes on after it. -/
theorem scan_hit {A B : List Char} (pos : Nat) (hA : A ≠ []) (hlen : ∀ n, r.Matches w prev (A ++ B) n → n = A.length)
    (hm : r.Matches w prev (A ++ B) A.length) :
    ∃ found, r.scan w 0 pos prev (A ++ B) = found :: r.scan w 0 (pos + A.length) (lastOf prev A) B ∧
      found.start = pos ∧ found.stop = pos + A.length := by
  obtain ⟨c, cs, rfl⟩ := List.exists_cons_of_ne_nil hA
  rcases hh : r.hits w prev (c :: cs ++ B) with _ | ⟨x, xs⟩
  · obtain ⟨k, hk, -⟩ := hm
    rw [hh] at hk
    cases hk
  · have hx : x.length = cs.length + 1 := hlen x.length ⟨x, by rw [hh]; exact List.mem_cons_self, rfl⟩
    refine ⟨x.at pos, ?_, rfl, ?_⟩
    · rw [List.cons_append] at hh ⊢
      rw [scan, hh]
      dsimp only
      rw [if_pos (by omega), hx, Nat.add_sub_cancel, scan_skip, lastOf_cons, List.length_cons]
      congr 2
      omega
    · rw [List.length_cons, ← hx]
      rfl

theorem no_match_of_search_none {text : List Char} (h : r.search w text = none) (A B : List Char) (hAB : text = A ++ B) :
    ¬ r.Matches w (lastOf none A) B n :=
  no_match_of_scan_nil (List.head?_eq_none_iff.1 h) A B hAB

/-! ### The first outcome -/

variable (w)

/-- The outcome that backtracking reaches first. -/
def FirstHit (r : Regex) (prev : Option Char) (rest : List Char) (h : Hit) : Prop := (r.hits w prev rest).head? = some h

variable {w} {h k : Hit}

theorem firstHit_iff : FirstHit w r prev rest h ↔ ∃ hs, r.hits w prev rest = h :: hs := by
  unfold FirstHit
  rw [List.head?_eq_some_iff]

theorem firstHit_seq (hr : FirstHit w r prev rest h)
    (hs : FirstHit w s (lastAfter prev rest h.length) (rest.drop h.length) k) :
    FirstHit w (seq r s) prev rest ⟨h.length + k.length, h.groups ++ k.groups⟩ := by
  obtain ⟨hs', hhits⟩ := firstHit_iff.1 hr
  obtain ⟨ks, khits⟩ := firstHit_iff.1 hs
  unfold FirstHit
  rw [hits_seq, hhits, List.flatMap_cons, khits, List.map_cons, List.cons_append, List.head?_cons]

/-- One pattern takes `l`, and the next one goes on behind it. -/
theorem firstHit_append {l : List Char} {groups : List (String × List Char)}
    (hr : FirstHit w r prev (l ++ rest) ⟨l.length, groups⟩) (hs : ∀ prev, FirstHit w s prev rest k) :
    FirstHit w (seq r s) prev (l ++ rest) ⟨l.length + k.length, groups ++ k.groups⟩ := by
  refine firstHit_seq hr ?_
  rw [List.drop_left]
  exact hs _

/-- The same for patterns without groups. -/
theorem firstHit_append_plain {l : List Char} {n : Nat} (hr : FirstHit w r prev (l ++ rest) ⟨l.length, []⟩)
    (hs : ∀ prev, FirstHit w s prev rest ⟨n, []⟩) : FirstHit w (seq r s) prev (l ++ rest) ⟨l.length + n, []⟩ :=
  firstHit_append hr hs

theorem firstHit_alt_left (hr : FirstHit w r prev rest h) : FirstHit w (alt r s) prev rest h := by
  obtain ⟨hs, hhits⟩ := firstHit_iff.1 hr
  unfold FirstHit
  rw [hits_alt, hhits, List.cons_append, List.head?_cons]

theorem firstHit_alt_right (hr : r.hits w prev rest = []) (hs : FirstHit w s prev rest h) : FirstHit w (alt r s) prev rest h := by
  unfold FirstHit
  rw [hits_alt, hr, List.nil_append]
  exact hs

theorem firstHit_cls {p : Char → Bool} {c : Char} {cs : List Char} (hc : p c = true) :
    FirstHit w (cls p) prev (c :: cs) ⟨1, []⟩ := by
  simp [FirstHit, hits_cls, hc]

theorem firstHit_many {p : Char → Bool} {l : List Char} (hl : ∀ c ∈ l, p c = true) (hrest : ∀ c ∈ rest.head?, p c = false) :
    FirstHit w (many p) prev (l ++ rest) ⟨l.length, []⟩ := by
  have htake : (l ++ rest).takeWhile p = l := by
    rw [List.takeWhile_append_of_pos hl]
    cases rest with
    | nil => simp
    | cons c cs => rw [List.takeWhile_cons_of_neg (by rw [hrest c rfl]; decide), List.append_nil]
  unfold FirstHit
  rw [hits_many, htake, List.range_succ, List.reverse_append]
  rfl

theorem firstHit_textStart : FirstHit w textStart none rest ⟨0, []⟩ := by
  simp [FirstHit, hits_textStart]

theorem firstHit_lit {t : List Char} : FirstHit w (lit t) prev (t ++ rest) ⟨t.length, []⟩ := by
  induction t generalizing prev with
  | nil => rfl
  | cons c cs ih =>
    have hc : FirstHit w (char c) prev ([c] ++ (cs ++ rest)) ⟨[c].length, []⟩ := firstHit_cls (beq_self_eq_true c)
    rw [List.length_cons, Nat.add_comm]
    exact firstHit_append hc fun _ => ih

theorem fullmatch_matches {text : List Char} {h : Hit} (hm : r.fullmatch w text = some h) :
    h ∈ r.hits w none text ∧ h.length = text.length := by
  refine ⟨List.mem_of_find?_eq_some hm, ?_⟩
  simpa using List.find?_some hm

end Regex
