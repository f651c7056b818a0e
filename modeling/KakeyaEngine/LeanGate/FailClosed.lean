import KakeyaEngine.LeanGate.Contract

/-!
# What an accepted declaration can contain

The tokens of a text are its maximal runs of identifier characters.  The contract means that an accepted text has one
declaration keyword, at its start, and neither a command nor a placeholder among its tokens (`FailClosed`).  The patterns
look for a command behind a space, for a declaration at a line start and for `sorry` as a whole word, so an accepted text
meets the contract exactly when these are the places where such words can stand in it (`failClosed_iff`).
-/

namespace KakeyaEngine

namespace LeanGate

open Regex

/-- The identifier characters: every word character, and no space. -/
structure IdentClass (w : WordClass) where
  isIdent : Char → Bool
  word : ∀ c, w.isWord c = true → isIdent c = true
  not_space : ∀ c, isSpace c = true → isIdent c = false

/-- The word characters themselves. -/
def IdentClass.ofWord (w : WordClass) : IdentClass w := ⟨w.isWord, fun _ h => h, w.not_space⟩

variable {w : WordClass} (ident : IdentClass w)

/-! ### Tokens -/

/-- The tokens of the rest of a text, each with the text before it; `token` is the run that is being read. -/
def occurrencesFrom : (before token : List Char) → List Char → List (List Char × List Char)
  | before, token, [] => if token = [] then [] else [(before, token)]
  | before, token, c :: rest =>
    if ident.isIdent c then occurrencesFrom before (token ++ [c]) rest
    else (if token = [] then [] else [(before, token)]) ++ occurrencesFrom (before ++ token ++ [c]) [] rest

def occurrences (text : List Char) : List (List Char × List Char) := occurrencesFrom ident [] [] text

def tokens (text : List Char) : List (List Char) := (occurrences ident text).map Prod.snd

def declarationKinds : List (List Char) := ["theorem".toList, "lemma".toList]

def forbiddenTokens : List (List Char) := (commandWords ++ systemWords).map String.toList

/-- The names of a missing proof. -/
def placeholderNames : List (List Char) := ["sorry".toList, "admit".toList, "sorryAx".toList]

/-- One declaration keyword, at the start; no command; no placeholder. -/
structure FailClosed (source : List Char) : Prop where
  declaration : ∃ before kind rest, occurrences ident source = (before, kind) :: rest ∧ (∀ c ∈ before, isSpace c = true) ∧
    kind ∈ declarationKinds ∧ ∀ p ∈ rest, p.2 ∉ declarationKinds
  commands : ∀ t ∈ tokens ident source, t ∉ forbiddenTokens
  placeholders : ∀ t ∈ tokens ident source, t ∉ placeholderNames

/-- Nothing but spaces since the last line break. -/
def blankLine (before : List Char) : Bool := (before.reverse.takeWhile (· != '\n')).all isSpace

/-- The words of the contract stand only where its patterns look for them. -/
structure InSight (source : List Char) : Prop where
  /-- no command stands directly behind punctuation -/
  commands : ∀ p ∈ occurrences ident source, p.2 ∈ commandWords.map String.toList →
    ∀ c ∈ p.1.getLast?, isSpace c = true
  /-- no declaration keyword stands behind other text on its line -/
  declarations : ∀ p ∈ occurrences ident source, p.2 ∈ declarationKinds → blankLine p.1 = true
  /-- `sorryAx` is not named -/
  placeholders : "sorryAx".toList ∉ tokens ident source

variable {ident}

/-- Where a token stands. -/
theorem occurrencesFrom_spec {before token rest b t : List Char} (htok : ∀ c ∈ token, ident.isIdent c = true)
    (hbefore : ∀ c ∈ before.getLast?, ident.isIdent c = false) (h : (b, t) ∈ occurrencesFrom ident before token rest) :
    ∃ after, before ++ token ++ rest = b ++ t ++ after ∧ before <+: b ∧
      (∀ c ∈ b.getLast?, ident.isIdent c = false) ∧ ∀ c ∈ after.head?, ident.isIdent c = false := by
  induction rest generalizing before token with
  | nil =>
    unfold occurrencesFrom at h
    split at h
    · cases h
    · obtain ⟨rfl, rfl⟩ : b = before ∧ t = token := by simpa using h
      exact ⟨[], rfl, List.prefix_rfl, hbefore, by simp⟩
  | cons c rest ih =>
    unfold occurrencesFrom at h
    split at h
    · rename_i hc
      obtain ⟨after, heq, hrest⟩ := ih (by simpa [or_imp, forall_and] using ⟨htok, hc⟩) hbefore h
      exact ⟨after, by rw [← heq]; simp, hrest⟩
    · rename_i hc
      have hc' : ident.isIdent c = false := by simpa using hc
      rcases List.mem_append.1 h with h | h
      · split at h
        · cases h
        · obtain ⟨rfl, rfl⟩ : b = before ∧ t = token := by simpa using h
          exact ⟨c :: rest, rfl, List.prefix_rfl, hbefore, by simpa using hc'⟩
      · obtain ⟨after, heq, hpre, hrest⟩ := ih (by simp) (by simpa using hc') h
        refine ⟨after, by rw [← heq]; simp, ?_, hrest⟩
        refine List.IsPrefix.trans ?_ hpre
        rw [List.append_assoc]
        exact List.prefix_append _ _

/-- Punctuation and spaces are passed over. -/
theorem occurrencesFrom_skip {before gap rest : List Char} (hgap : ∀ c ∈ gap, ident.isIdent c = false) :
    occurrencesFrom ident before [] (gap ++ rest) = occurrencesFrom ident (before ++ gap) [] rest := by
  induction gap generalizing before with
  | nil => simp
  | cons c gap ih =>
    have hc : ident.isIdent c = false := hgap c List.mem_cons_self
    rw [List.cons_append, occurrencesFrom, if_neg (by rw [hc]; simp), if_pos rfl, List.nil_append,
      ih fun d hd => hgap d (List.mem_cons_of_mem c hd)]
    simp

/-- A run of identifier characters is read to its end. -/
theorem occurrencesFrom_read {before token run rest : List Char} (hrun : ∀ c ∈ run, ident.isIdent c = true) :
    occurrencesFrom ident before token (run ++ rest) = occurrencesFrom ident before (token ++ run) rest := by
  induction run generalizing token with
  | nil => simp
  | cons c run ih =>
    rw [List.cons_append, occurrencesFrom, if_pos (hrun c List.mem_cons_self),
      ih fun d hd => hrun d (List.mem_cons_of_mem c hd)]
    simp

theorem occurrences_spec {source b t : List Char} (h : (b, t) ∈ occurrences ident source) :
    ∃ after, source = b ++ t ++ after ∧ (∀ c ∈ b.getLast?, ident.isIdent c = false) ∧
      ∀ c ∈ after.head?, ident.isIdent c = false := by
  obtain ⟨after, heq, -, hb, ha⟩ := occurrencesFrom_spec (by simp) (by simp) h
  exact ⟨after, heq, hb, ha⟩

/-! ### What the patterns find -/

/-- A word of ASCII word characters. -/
def asciiWord (t : List Char) : Bool := t != [] && t.all fun c => decide (c.toNat < 128) && (c.isAlphanum || c == '_')

theorem isWord_of_asciiWord (w : WordClass) {t : List Char} (ht : asciiWord t = true) : ∀ c ∈ t, w.isWord c = true := by
  intro c hc
  simp only [asciiWord, Bool.and_eq_true, List.all_eq_true, decide_eq_true_eq] at ht
  rw [w.ascii c (ht.2 c hc).1]
  exact (ht.2 c hc).2

theorem ne_nil_of_asciiWord {t : List Char} (ht : asciiWord t = true) : t ≠ [] := by
  intro h
  rw [h] at ht
  cases ht

theorem not_isWord? {o : Option Char} (h : ∀ c ∈ o, ident.isIdent c = false) : isWord? w o = false := by
  cases o with
  | none => rfl
  | some c =>
    have hc := h c rfl
    rw [isWord?, Option.any_some, Bool.eq_false_iff]
    intro hw
    rw [ident.word c hw] at hc
    cases hc

/-- A word ends where its token does. -/
theorem boundary_after {prev : Option Char} {t after : List Char} (ht : asciiWord t = true)
    (hafter : ∀ c ∈ after.head?, ident.isIdent c = false) :
    boundary.Matches w (lastAfter prev (t ++ after) t.length) ((t ++ after).drop t.length) 0 := by
  rw [lastAfter_append, List.drop_left, matches_boundary, not_isWord? hafter]
  refine ⟨rfl, ?_⟩
  have hne := ne_nil_of_asciiWord ht
  unfold lastOf isWord?
  rw [List.getLast?_eq_some_getLast hne, Option.some_or, Option.any_some,
    isWord_of_asciiWord w ht _ (List.getLast_mem hne)]
  decide

/-- A word starts where its token does. -/
theorem boundary_before {prev : Option Char} {t after : List Char} (ht : asciiWord t = true)
    (hprev : ∀ c ∈ prev, ident.isIdent c = false) : boundary.Matches w prev (t ++ after) 0 := by
  rw [matches_boundary, not_isWord? hprev]
  refine ⟨rfl, ?_⟩
  obtain ⟨c, cs, rfl⟩ := List.exists_cons_of_ne_nil (ne_nil_of_asciiWord ht)
  have hc := isWord_of_asciiWord w ht c List.mem_cons_self
  simp [isWord?, hc]

theorem matches_words {texts : List String} {prev : Option Char} {rest : List Char} {n : Nat} :
    (words texts).Matches w prev rest n ↔ ∃ t ∈ texts.map String.toList, n = t.length ∧ t <+: rest := by
  unfold words word
  rw [matches_oneOf]
  simp [matches_lit]

/-- A word of a list, up to the end of its token. -/
theorem matches_word_boundary {texts : List String} {prev : Option Char} {t after : List Char}
    (hmem : t ∈ texts.map String.toList) (ht : asciiWord t = true)
    (hafter : ∀ c ∈ after.head?, ident.isIdent c = false) :
    (seq (words texts) boundary).Matches w prev (t ++ after) t.length := by
  rw [matches_seq]
  exact ⟨t.length, 0, matches_words.2 ⟨t, hmem, rfl, List.prefix_append t after⟩, boundary_after ht hafter, by omega⟩

theorem lastOf_none (l : List Char) : lastOf none l = l.getLast? := by
  simp [lastOf]

theorem asciiWord_of_mem {t : List Char}
    (h : t ∈ (commandWords ++ systemWords ++ declarationWords ++ ["sorry", "admit"]).map String.toList) :
    asciiWord t = true := by
  have hall : ∀ t ∈ (commandWords ++ systemWords ++ declarationWords ++ ["sorry", "admit"]).map String.toList,
      asciiWord t = true := by decide
  exact hall t h

/-- A command at the start of the text or behind a space is found. -/
theorem forbidden_finds_command {source b t after : List Char} (hs : source = b ++ t ++ after)
    (ht : t ∈ commandWords.map String.toList) (hb : ∀ c ∈ b.getLast?, isSpace c = true)
    (hafter : ∀ c ∈ after.head?, ident.isIdent c = false) : forbidden.search w source ≠ none := by
  intro hnone
  have hw : asciiWord t = true := asciiWord_of_mem (by simp only [List.map_append, List.mem_append]; tauto)
  rcases List.eq_nil_or_concat b with rfl | ⟨b', c, rfl⟩
  · -- at the start of the text
    refine no_match_of_search_none (n := t.length) hnone [] (t ++ after) hs (matches_oneOf.2 ⟨_, List.mem_cons_self, ?_⟩)
    refine matches_seq.2 ⟨0, t.length, matches_alt.2 (Or.inl (matches_lineStart.2 ⟨rfl, Or.inl rfl⟩)), ?_, by omega⟩
    exact matches_word_boundary ht hw hafter
  · have hc : isSpace c = true := hb c (by simp)
    refine no_match_of_search_none (n := t.length + 1) hnone b' (c :: (t ++ after)) (by rw [hs]; simp)
      (matches_oneOf.2 ⟨_, List.mem_cons_self, ?_⟩)
    refine matches_seq.2 ⟨1, t.length, matches_alt.2 (Or.inr (matches_cls.2 ⟨rfl, c, _, rfl, hc⟩)), ?_, by omega⟩
    exact matches_word_boundary ht hw hafter

/-- A system name is found wherever it is a token. -/
theorem forbidden_finds_system {source b t after : List Char} (hs : source = b ++ t ++ after)
    (ht : t ∈ systemWords.map String.toList) (hb : ∀ c ∈ b.getLast?, ident.isIdent c = false)
    (hafter : ∀ c ∈ after.head?, ident.isIdent c = false) : forbidden.search w source ≠ none := by
  intro hnone
  have hw : asciiWord t = true := asciiWord_of_mem (by simp only [List.map_append, List.mem_append]; tauto)
  refine no_match_of_search_none (n := t.length) hnone b (t ++ after) (by rw [hs, List.append_assoc])
    (matches_oneOf.2 ⟨_, List.mem_cons_of_mem _ (List.mem_cons_of_mem _ List.mem_cons_self), ?_⟩)
  refine matches_seq.2 ⟨0, t.length, boundary_before hw (by rw [lastOf_none]; exact hb), ?_, by omega⟩
  exact matches_word_boundary ht hw hafter

theorem matches_anyCase_self {prev : Option Char} (t rest : List Char) :
    (anyCase t).Matches w prev (t ++ rest) t.length := by
  induction t generalizing prev with
  | nil => exact matches_eps.2 rfl
  | cons c cs ih =>
    have hc : sameLetter c c = true := by simp [sameLetter]
    refine matches_seq.2 ⟨1, cs.length, matches_cls.2 ⟨rfl, c, cs ++ rest, rfl, hc⟩, ih, ?_⟩
    rw [List.length_cons]
    omega

/-- `sorry` and `admit` are found wherever they are tokens. -/
theorem placeholder_finds {source b t after : List Char} (hs : source = b ++ t ++ after)
    (ht : t ∈ ["sorry", "admit"].map String.toList) (hb : ∀ c ∈ b.getLast?, ident.isIdent c = false)
    (hafter : ∀ c ∈ after.head?, ident.isIdent c = false) : (placeholder w).search w source ≠ none := by
  intro hnone
  have hw : asciiWord t = true := asciiWord_of_mem (by simp only [List.map_append, List.mem_append]; tauto)
  have hmem : anyCase t ∈ placeholderWords.map fun t => anyCase t.toList := by
    simp only [List.map_cons, List.map_nil, List.mem_cons, List.not_mem_nil, or_false] at ht
    rcases ht with rfl | rfl
    · exact List.mem_map_of_mem (by decide : "sorry" ∈ placeholderWords)
    · exact List.mem_map_of_mem (by decide : "admit" ∈ placeholderWords)
  refine no_match_of_search_none (n := t.length) hnone b (t ++ after) (by rw [hs, List.append_assoc])
    (matches_oneOf.2 ⟨_, List.mem_cons_self, ?_⟩)
  refine matches_seq.2 ⟨0, t.length, boundary_before hw (by rw [lastOf_none]; exact hb), ?_, by omega⟩
  refine matches_seq.2 ⟨t.length, 0, matches_oneOf.2 ⟨_, hmem, matches_anyCase_self t after⟩, ?_, by omega⟩
  exact boundary_after hw hafter

/-! ### The declaration keyword -/

theorem takeWhile_length_of_all {p : Char → Bool} {l r : List Char} (hl : ∀ c ∈ l, p c = true) :
    l.length ≤ ((l ++ r).takeWhile p).length := by
  rw [List.takeWhile_append_of_pos hl, List.length_append]
  omega

/-- A declaration word on a line that is blank before it is found. -/
theorem declarationLine_finds {prev : Option Char} {line t after : List Char} (hprev : prev = none ∨ prev = some '\n')
    (hline : ∀ c ∈ line, isSpace c = true) (ht : t ∈ declarationWords.map String.toList)
    (hafter : ∀ c ∈ after.head?, ident.isIdent c = false) :
    declarationLine.Matches w prev (line ++ (t ++ after)) (line.length + t.length) := by
  have hw : asciiWord t = true := asciiWord_of_mem (by simp only [List.map_append, List.mem_append]; tauto)
  refine matches_seq.2 ⟨0, line.length + t.length, matches_lineStart.2 ⟨rfl, hprev⟩, ?_, by omega⟩
  refine matches_seq.2 ⟨line.length, t.length, matches_many.2 (takeWhile_length_of_all hline), ?_, rfl⟩
  rw [List.drop_zero, List.drop_left]
  exact matches_word_boundary ht hw hafter

theorem blankLine_split {before : List Char} (h : blankLine before = true) :
    ∃ X line, before = X ++ line ∧ (X.getLast? = none ∨ X.getLast? = some '\n') ∧ ∀ c ∈ line, isSpace c = true := by
  refine ⟨(before.reverse.dropWhile (· != '\n')).reverse, (before.reverse.takeWhile (· != '\n')).reverse, ?_, ?_, ?_⟩
  · rw [← List.reverse_append, List.takeWhile_append_dropWhile, List.reverse_reverse]
  · rw [List.getLast?_reverse]
    rcases hd : before.reverse.dropWhile (· != '\n') with _ | ⟨c, cs⟩
    · exact Or.inl rfl
    · have hc := List.head?_dropWhile_not (· != '\n') before.reverse
      rw [hd] at hc
      right
      simpa using hc
  · intro c hc
    rw [List.mem_reverse] at hc
    exact List.all_eq_true.1 h c hc

theorem not_isSpace_of_asciiWord {t : List Char} (ht : asciiWord t = true) : ∀ c ∈ t, isSpace c = false := by
  intro c hc
  rw [Bool.eq_false_iff]
  intro hs
  have hword := isWord_of_asciiWord WordClass.asciiOnly ht c hc
  rw [WordClass.asciiOnly.not_space c hs] at hword
  cases hword

/-- The text starts with `kind` and a space, behind spaces. -/
structure Opening (source lead kind : List Char) (c : Char) (tail : List Char) : Prop where
  eq : source = lead ++ kind ++ c :: tail
  lead_space : ∀ d ∈ lead, isSpace d = true
  kind_mem : kind ∈ declarationKinds
  space : isSpace c = true

namespace Opening

variable {source lead kind tail : List Char} {c : Char}

theorem asciiWord_kind (h : Opening source lead kind c tail) : asciiWord kind = true := by
  have hall : ∀ t ∈ declarationKinds, asciiWord t = true := by decide
  exact hall kind h.kind_mem

/-- The declaration keyword is the first token. -/
theorem occurrences_eq (h : Opening source lead kind c tail) :
    occurrences ident source = (lead, kind) :: occurrencesFrom ident (lead ++ kind ++ [c]) [] tail := by
  have hlead : ∀ d ∈ lead, ident.isIdent d = false := fun d hd => ident.not_space d (h.lead_space d hd)
  have hkind : ∀ d ∈ kind, ident.isIdent d = true := fun d hd =>
    ident.word d (isWord_of_asciiWord w h.asciiWord_kind d hd)
  unfold occurrences
  rw [h.eq, List.append_assoc, occurrencesFrom_skip hlead, occurrencesFrom_read hkind, occurrencesFrom,
    if_neg (by rw [ident.not_space c h.space]; simp), List.nil_append, List.nil_append,
    if_neg (ne_nil_of_asciiWord h.asciiWord_kind)]
  rfl

/-- The first match of the declaration pattern is the opening. -/
theorem declarationLine_first (h : Opening source lead kind c tail) {n : Nat}
    (hm : declarationLine.Matches w none (lead ++ kind ++ c :: tail) n) : n = (lead ++ kind).length := by
  obtain ⟨_, j, hi, hm₁, rfl⟩ := matches_seq.1 hm
  obtain ⟨rfl, -⟩ := matches_lineStart.1 hi
  obtain ⟨k, l, hk, hm₂, rfl⟩ := matches_seq.1 hm₁
  obtain ⟨l, _, hl, hz, rfl⟩ := matches_seq.1 hm₂
  obtain ⟨rfl, -⟩ := matches_boundary.1 hz
  obtain ⟨t, ht, rfl, hpre⟩ := matches_words.1 hl
  obtain ⟨d, ds, rfl⟩ := List.exists_cons_of_ne_nil (ne_nil_of_asciiWord h.asciiWord_kind)
  have hd : isSpace d = false := not_isSpace_of_asciiWord h.asciiWord_kind d List.mem_cons_self
  have hk' : k ≤ lead.length := by
    rw [matches_many, List.drop_zero, List.append_assoc, List.takeWhile_append_of_pos h.lead_space,
      List.cons_append, List.takeWhile_cons_of_neg (by rw [hd]; simp), List.append_nil] at hk
    exact hk
  have htword : asciiWord t = true := asciiWord_of_mem (by simp only [List.map_append, List.mem_append]; tauto)
  obtain ⟨e, es, rfl⟩ := List.exists_cons_of_ne_nil (ne_nil_of_asciiWord htword)
  have he : isSpace e = false := not_isSpace_of_asciiWord htword e List.mem_cons_self
  have hkeq : k = lead.length := by
    by_contra hne
    -- a space would be the first character of a declaration word
    have hlt : k < lead.length := by omega
    rw [List.drop_zero, List.append_assoc, List.drop_append_of_le_length (by omega), List.drop_eq_getElem_cons hlt,
      List.cons_append, List.cons_prefix_cons] at hpre
    rw [hpre.1, h.lead_space _ (List.getElem_mem hlt)] at he
    cases he
  subst hkeq
  rw [List.drop_zero, List.append_assoc, List.drop_left, List.cons_append, List.cons_prefix_cons] at hpre
  -- no two words that start a declaration have the same first letter as a kind
  have hsame : ∀ kind ∈ declarationKinds, ∀ t ∈ declarationWords.map String.toList, t.head? = kind.head? → t = kind := by
    decide
  have heq := hsame _ h.kind_mem _ ht (by rw [hpre.1]; rfl)
  rw [heq, List.length_append]
  omega

/-- With one match in all, the pattern matches nowhere behind the opening. -/
theorem no_second_match (h : Opening source lead kind c tail) (hcount : (declarationLine.finditer w source).length = 1)
    {A B : List Char} (hAB : c :: tail = A ++ B) {n : Nat} :
    ¬ declarationLine.Matches w (lastOf none (lead ++ kind ++ A)) B n := by
  have hkind : kind ∈ declarationWords.map String.toList := by
    have hall : ∀ t ∈ declarationKinds, t ∈ declarationWords.map String.toList := by decide
    exact hall kind h.kind_mem
  have hfirst : declarationLine.Matches w none (lead ++ kind ++ c :: tail) (lead ++ kind).length := by
    rw [List.append_assoc, List.length_append]
    have hafter : ∀ d ∈ (c :: tail).head?, (IdentClass.ofWord w).isIdent d = false := by
      intro d hd
      obtain rfl : c = d := by simpa using hd
      exact w.not_space c h.space
    exact declarationLine_finds (Or.inl rfl) h.lead_space hkind hafter
  have hne : lead ++ kind ≠ [] := fun hn => ne_nil_of_asciiWord h.asciiWord_kind (List.append_eq_nil_iff.1 hn).2
  obtain ⟨found, hscan, -⟩ := scan_hit 0 hne (fun n hn => h.declarationLine_first hn) hfirst
  have hrest : declarationLine.scan w 0 (0 + (lead ++ kind).length) (lastOf none (lead ++ kind)) (c :: tail) = [] := by
    unfold finditer at hcount
    rw [h.eq, hscan, List.length_cons, Nat.add_eq_right, List.length_eq_zero_iff] at hcount
    exact hcount
  have hlast : lastOf none (lead ++ kind ++ A) = lastOf (lastOf none (lead ++ kind)) A := by
    simp only [lastOf, List.getLast?_append, Option.or_none]
  rw [hlast]
  exact no_match_of_scan_nil hrest A B hAB

/-- A later declaration keyword stands behind other text on its line. -/
theorem not_blankLine (h : Opening source lead kind c tail) (hcount : (declarationLine.finditer w source).length = 1)
    {b t : List Char} (hmem : (b, t) ∈ occurrencesFrom ident (lead ++ kind ++ [c]) [] tail)
    (ht : t ∈ declarationKinds) : blankLine b = false := by
  rw [Bool.eq_false_iff]
  intro hblank
  have hc : ident.isIdent c = false := ident.not_space c h.space
  obtain ⟨after, heq, ⟨mid, rfl⟩, -, hafter⟩ := occurrencesFrom_spec (by simp) (by simpa using hc) hmem
  obtain ⟨X, line, hb, hX, hline⟩ := blankLine_split hblank
  have htail : c :: tail = c :: mid ++ (t ++ after) := by simpa using heq
  have hword : t ∈ declarationWords.map String.toList := by
    have hall : ∀ t ∈ declarationKinds, t ∈ declarationWords.map String.toList := by decide
    exact hall t ht
  -- the blank part of the line does not reach back into the opening
  obtain ⟨A, rfl, hA⟩ : ∃ A, X = lead ++ kind ++ A ∧ c :: mid = A ++ line := by
    have hb' : lead ++ kind ++ c :: mid = X ++ line := by simpa using hb
    rcases List.append_eq_append_iff.1 hb' with ⟨A, hXA, hmid⟩ | ⟨l, hkind, hmid⟩
    · exact ⟨A, hXA, hmid⟩
    · rcases List.eq_nil_or_concat l with rfl | ⟨l', d, rfl⟩
      · exact ⟨[], by simpa using hkind.symm, by simpa using hmid.symm⟩
      · have hd : d ∈ kind := by
          have hlast : (lead ++ kind).getLast? = some d := by rw [hkind]; simp
          rw [List.getLast?_append_of_ne_nil _ (ne_nil_of_asciiWord h.asciiWord_kind)] at hlast
          exact List.mem_of_getLast? hlast
        have hspace : isSpace d = true := hline d (by rw [hmid]; simp)
        rw [not_isSpace_of_asciiWord h.asciiWord_kind d hd] at hspace
        cases hspace
  refine h.no_second_match hcount (A := A) (B := line ++ (t ++ after)) ?_
    (declarationLine_finds (by rw [lastOf_none]; exact hX) hline hword hafter)
  rw [htail, hA, List.append_assoc]

end Opening

/-! ### Accepted texts -/

theorem rstrip_prefix (text : List Char) : rstrip text <+: text := by
  unfold rstrip
  have h := List.reverse_prefix.2 (List.dropWhile_suffix (l := text.reverse) isSpace)
  rwa [List.reverse_reverse] at h

/-- What `checkText` has seen when it lets a text pass. -/
theorem checkText_ok {raw : List Char} (h : checkText w raw = .ok ()) :
    forbidden.search w raw = none ∧ (placeholder w).search w raw = none ∧
      (declarationLine.finditer w raw).length = 1 := by
  unfold checkText at h
  split at h
  · cases h
  split at h
  · cases h
  split at h
  · cases h
  split at h
  · cases h
  split at h
  · cases h
  split at h
  · cases h
  rename_i hforbidden
  split at h
  · cases h
  rename_i hplaceholder
  split at h
  · cases h
  rename_i hcount
  exact ⟨by simpa using hforbidden, by simpa using hplaceholder, by simpa using hcount⟩

/-- A text that the declaration pattern matches opens with a declaration keyword. -/
theorem opening_of_fullmatch {source : List Char} {m : Hit} (h : declaration.fullmatch w (strip source) = some m) :
    ∃ lead kind c tail, Opening source lead kind c tail := by
  obtain ⟨hm, -⟩ := fullmatch_matches h
  obtain ⟨_, j, hi, hrest, -⟩ := matches_seq.1 ⟨m, hm, rfl⟩
  obtain ⟨rfl, -⟩ := matches_textStart.1 hi
  obtain ⟨k, l, hkind, hrest, -⟩ := matches_seq.1 hrest
  obtain ⟨kind, hmem, rfl, r, hr⟩ := matches_words.1 (matches_group.1 hkind)
  obtain ⟨i, _, hspace, -, -⟩ := matches_seq.1 hrest
  obtain ⟨c, cs, hcs, hc⟩ := matches_many1 hspace
  rw [List.drop_zero] at hr hcs
  rw [← hr, List.drop_left] at hcs
  obtain ⟨trail, htrail⟩ := rstrip_prefix (source.dropWhile isSpace)
  refine ⟨source.takeWhile isSpace, kind, c, cs ++ trail, ?_, ?_, hmem, hc⟩
  · have hs : strip source ++ trail = source.dropWhile isSpace := htrail
    conv => lhs; rw [← List.takeWhile_append_dropWhile (p := isSpace) (l := source)]
    rw [← hs, ← hr, hcs]
    simp
  · intro d hd
    exact List.all_eq_true.1 (List.all_takeWhile (p := isSpace) (l := source)) d hd

theorem parse_ok {source : List Char} {signatureOnly allowScaffoldNormalization : Bool}
    {expected : String → Option (List Char)} {d : LeanDeclaration}
    (h : parse w source signatureOnly allowScaffoldNormalization expected = .ok d) :
    checkText w source = .ok () ∧ ∃ lead kind c tail, Opening source lead kind c tail := by
  unfold parse at h
  rcases hcheck : checkText w source with e | u
  · rw [hcheck] at h
    cases h
  · rw [hcheck] at h
    refine ⟨rfl, ?_⟩
    rcases hm : declaration.fullmatch w (strip source) with _ | m
    · simp only [hm] at h
      cases h
    · exact opening_of_fullmatch hm

variable (ident) in
/-- A text that `parse` accepts, in whatever mode, meets the contract exactly when none of its commands stands directly
behind punctuation, none of its declaration keywords behind other text on its line, and `sorryAx` is not named in it. -/
theorem failClosed_iff {source : List Char} {signatureOnly allowScaffoldNormalization : Bool}
    {expected : String → Option (List Char)} {d : LeanDeclaration}
    (h : parse w source signatureOnly allowScaffoldNormalization expected = .ok d) :
    FailClosed ident source ↔ InSight ident source := by
  obtain ⟨hcheck, lead, kind, c, tail, hopen⟩ := parse_ok h
  obtain ⟨hforbidden, hplaceholder, hcount⟩ := checkText_ok hcheck
  constructor
  · rintro ⟨⟨before, kind', rest, hocc, hbefore, -, hrest⟩, hcommands, hplaceholders⟩
    refine ⟨?_, ?_, ?_⟩
    · intro p hp ht
      refine absurd ?_ (hcommands p.2 (List.mem_map_of_mem hp))
      unfold forbiddenTokens
      rw [List.map_append]
      exact List.mem_append_left _ ht
    · intro p hp ht
      rw [hocc] at hp
      rcases List.mem_cons.1 hp with rfl | hp
      · refine List.all_eq_true.2 fun d hd => hbefore d ?_
        exact List.mem_reverse.1 (List.takeWhile_sublist _ |>.subset hd)
      · exact absurd ht (hrest p hp)
    · exact fun hmem => hplaceholders _ hmem (by decide)
  · rintro ⟨hcommands, hdeclarations, hplaceholders⟩
    refine ⟨⟨lead, kind, _, hopen.occurrences_eq, hopen.lead_space, hopen.kind_mem, ?_⟩, ?_, ?_⟩
    · intro p hp ht
      have hblank := hdeclarations p (by rw [hopen.occurrences_eq]; exact List.mem_cons_of_mem _ hp) ht
      rw [hopen.not_blankLine hcount hp ht] at hblank
      cases hblank
    · intro t ht hmem
      obtain ⟨⟨b, t⟩, hp, rfl⟩ := List.mem_map.1 ht
      obtain ⟨after, heq, hb, hafter⟩ := occurrences_spec hp
      unfold forbiddenTokens at hmem
      rw [List.map_append, List.mem_append] at hmem
      rcases hmem with hmem | hmem
      · exact forbidden_finds_command heq hmem (hcommands _ hp hmem) hafter hforbidden
      · exact forbidden_finds_system heq hmem hb hafter hforbidden
    · intro t ht hmem
      obtain ⟨⟨b, t⟩, hp, rfl⟩ := List.mem_map.1 ht
      obtain ⟨after, heq, hb, hafter⟩ := occurrences_spec hp
      have hsplit : ∀ t ∈ placeholderNames, t ∈ ["sorry", "admit"].map String.toList ∨ t = "sorryAx".toList := by decide
      rcases hsplit _ hmem with hmem | hmem
      · exact placeholder_finds heq hmem hb hafter hplaceholder
      · exact hplaceholders (hmem ▸ ht)

/-- A complete proof that keeps the contract. -/
theorem plain_proof_failClosed :
    FailClosed (IdentClass.ofWord .asciiOnly) "theorem one : True := by trivial".toList := by
  have hok : (validateProof .asciiOnly "theorem one : True := by trivial".toList).isOk = true := by decide +kernel
  rcases h : validateProof .asciiOnly "theorem one : True := by trivial".toList with e | d
  · rw [h] at hok
    cases hok
  · exact (failClosed_iff _ h).2 ⟨by decide +kernel, by decide +kernel, by decide +kernel⟩

/-- Three accepted proofs: with an axiom behind a bracket, with a second theorem on the line, and with `sorryAx`. -/
theorem accepted_not_failClosed :
    (validateProof .asciiOnly "theorem one : True := by exact(trivial)axiom bad : False".toList).isOk = true ∧
    ¬ FailClosed (IdentClass.ofWord .asciiOnly) "theorem one : True := by exact(trivial)axiom bad : False".toList ∧
    (validateProof .asciiOnly "theorem one : True := by trivial theorem two : True := one".toList).isOk = true ∧
    ¬ FailClosed (IdentClass.ofWord .asciiOnly) "theorem one : True := by trivial theorem two : True := one".toList ∧
    (validateProof .asciiOnly "theorem one : False := by exact sorryAx False false".toList).isOk = true ∧
    ¬ FailClosed (IdentClass.ofWord .asciiOnly) "theorem one : False := by exact sorryAx False false".toList := by
  refine ⟨by decide +kernel, ?_, by decide +kernel, ?_, by decide +kernel, ?_⟩
  · intro h
    exact h.commands "axiom".toList (by decide +kernel) (by decide)
  · rintro ⟨⟨before, kind, rest, hocc, -, -, hrest⟩, -, -⟩
    have htwo : ∃ p ∈ (occurrences (IdentClass.ofWord .asciiOnly)
        "theorem one : True := by trivial theorem two : True := one".toList).tail, p.2 ∈ declarationKinds := by
      decide +kernel
    obtain ⟨p, hp, hkind⟩ := htwo
    rw [hocc] at hp
    exact hrest p hp hkind
  · intro h
    exact h.placeholders "sorryAx".toList (by decide +kernel) (by decide)

end LeanGate

end KakeyaEngine
