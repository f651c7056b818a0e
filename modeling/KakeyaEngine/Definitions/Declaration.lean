import KakeyaEngine.Definitions.Resolution
import Mathlib.Data.List.Dedup
import Mathlib.Data.String.Basic

/-!
# The declaration of a candidate

`normalizeCandidate` reads the binders of a raw candidate with the helper that it uses for sets of ids: it drops the blank
ones, squeezes their whitespace, removes repetitions and sorts.  `leanSource` prints the binders in that order.  So the
declaration is the one that the raw candidate describes only where the raw binders are already sorted.
-/

namespace KakeyaEngine

namespace Definitions

open Fallible (bind_eq_ok map_eq_ok)
open Orchestration (CheckpointError iterate)

section

variable (quote : String → String)

/-- The binders of a raw candidate in their order, with the whitespace inside each squeezed. -/
def rawBinders (values : List PyValue) : List String :=
  (values.filter fun v => stripped (v.text quote) ≠ "").map fun v => squeezed (v.text quote)

end

/-- The helper keeps a list exactly when it is sorted and has no repetitions. -/
theorem insertionSort_dedup_eq_self {l : List String} :
    l.dedup.insertionSort (· ≤ ·) = l ↔ l.Pairwise (· < ·) := by
  constructor
  · intro h
    have hsorted := List.pairwise_insertionSort (· ≤ ·) l.dedup
    have hnodup : (l.dedup.insertionSort (· ≤ ·)).Nodup := (List.perm_insertionSort _ _).nodup_iff.mpr l.nodup_dedup
    rw [h] at hsorted hnodup
    exact hsorted.imp₂ (fun a b hle hne => lt_of_le_of_ne hle hne) hnodup
  · intro h
    have hdedup : l.dedup = l := List.dedup_eq_self.mpr (h.imp fun hlt => hlt.ne)
    rw [hdedup]
    exact (h.imp fun hlt => hlt.le).insertionSort_eq

/-! ### The declaration -/

/-- The text of a declaration. -/
def declaration (kind name : String) (binders : List String) (codomain expression : String) : String :=
  kind ++ " " ++ name ++ (if " ".intercalate binders ≠ "" then " " ++ " ".intercalate binders else "") ++
    (if codomain ≠ "" then " : " ++ codomain else "") ++ " := " ++ expression

/-- The source of the candidate is a declaration of its name with the given binders, codomain and expression. -/
structure Declares (c : TypedDefinitionCandidate) (binders : List String) (codomain expression : String) : Prop where
  kind : c.declarationKind ∈ ["def", "abbrev"]
  source : leanSource c = .ok (declaration c.declarationKind c.declarationName c.binders c.codomain c.typedExpression)
  binders_eq : c.binders = binders
  codomain_eq : c.codomain = codomain
  expression_eq : c.typedExpression = expression

/-- Among the candidates with a proper kind, the source is a declaration for those that do not refer to an existing one and
have a name. -/
theorem leanSource_eq_declaration {c : TypedDefinitionCandidate} (hkind : c.declarationKind ∈ ["def", "abbrev"]) :
    leanSource c = .ok (declaration c.declarationKind c.declarationName c.binders c.codomain c.typedExpression) ↔
      c.existingReference = "" ∧ c.declarationName ≠ "" := by
  have hhead : ∀ text, "#check " ++ text ≠
      declaration c.declarationKind c.declarationName c.binders c.codomain c.typedExpression := by
    intro text h
    have hfirst := congrArg (fun t : String => t.toList.head?) h
    rcases List.mem_cons.mp hkind with hk | hk
    · rw [declaration, hk] at hfirst
      simp at hfirst
    · rw [declaration, List.mem_singleton.mp hk] at hfirst
      simp at hfirst
  unfold leanSource
  constructor
  · intro h
    split at h
    · exact absurd (Except.ok.inj h) (hhead _)
    · rename_i href
      split at h
      · cases h
      · rename_i hname
        exact ⟨not_not.mp href, hname⟩
  · rintro ⟨href, hname⟩
    rw [if_neg (not_not_intro href), if_neg (not_not_intro hkind), if_neg hname]
    rfl

section

variable {quote : String → String} {query : DefinitionQuery} {provenance : Dict String SourceProvenance} {raw : PyValue}
  {m : Dict String PyValue} {c : TypedDefinitionCandidate} {values : List PyValue}

/-- The fields of a normalized candidate that its source prints. -/
theorem fields_of_normalizeCandidate (hm : mappingOf raw = .ok m)
    (hvalues : iterate ((m.get? "binders").getD (.list [])) = .ok values)
    (h : normalizeCandidate quote query provenance raw = .ok (some c)) :
    c.declarationKind = textField quote m "declaration_kind" "def" ∧
      c.declarationName = stripped (textField quote m "declaration_name" "") ∧
      c.binders = (rawBinders quote values).dedup.insertionSort (· ≤ ·) ∧
      c.codomain = squeezed (textField quote m "codomain" query.codomain) ∧
      c.typedExpression = squeezed (textField quote m "typed_expression" "") ∧
      c.existingReference = squeezed (textField quote m "existing_reference" "") := by
  unfold normalizeCandidate at h
  obtain ⟨m', hm', h⟩ := bind_eq_ok.mp h
  obtain rfl : m = m' := Except.ok.inj (hm.symm.trans hm')
  split at h
  · cases h
  · dsimp only at h
    split at h
    · cases h
    · obtain ⟨binders, hbinders, h⟩ := bind_eq_ok.mp h
      obtain ⟨dependencies, -, h⟩ := bind_eq_ok.mp h
      obtain ⟨claimed, -, h⟩ := bind_eq_ok.mp h
      rw [stableTupleOf, hvalues] at hbinders
      cases hbinders
      cases h
      exact ⟨rfl, rfl, rfl, rfl, rfl, rfl⟩

/-- For every raw candidate that is normalized: the source declares the name with the raw binders in their order, the raw
codomain and the raw expression exactly when the raw binders are sorted without a repetition, codomain and expression have
no whitespace to squeeze, the kind is proper, there is a name and no existing declaration is referred to. -/
theorem normalized_declares_iff (hm : mappingOf raw = .ok m)
    (hvalues : iterate ((m.get? "binders").getD (.list [])) = .ok values)
    (h : normalizeCandidate quote query provenance raw = .ok (some c)) :
    Declares c (rawBinders quote values) (textField quote m "codomain" query.codomain)
        (textField quote m "typed_expression" "") ↔
      (rawBinders quote values).Pairwise (· < ·) ∧
        squeezed (textField quote m "codomain" query.codomain) = textField quote m "codomain" query.codomain ∧
        squeezed (textField quote m "typed_expression" "") = textField quote m "typed_expression" "" ∧
        textField quote m "declaration_kind" "def" ∈ ["def", "abbrev"] ∧
        stripped (textField quote m "declaration_name" "") ≠ "" ∧
        squeezed (textField quote m "existing_reference" "") = "" := by
  obtain ⟨hkind, hname, hbinders, hcodomain, hexpression, hreference⟩ := fields_of_normalizeCandidate hm hvalues h
  constructor
  · intro hd
    obtain ⟨href, hne⟩ := (leanSource_eq_declaration hd.kind).mp hd.source
    exact ⟨insertionSort_dedup_eq_self.mp (hbinders.symm.trans hd.binders_eq), hcodomain.symm.trans hd.codomain_eq,
      hexpression.symm.trans hd.expression_eq, hkind ▸ hd.kind, hname ▸ hne, hreference ▸ href⟩
  · rintro ⟨hsorted, hcod, hexpr, hk, hne, href⟩
    have hkind' : c.declarationKind ∈ ["def", "abbrev"] := hkind ▸ hk
    exact ⟨hkind', (leanSource_eq_declaration hkind').mpr ⟨hreference.trans href, hname ▸ hne⟩,
      hbinders.trans (insertionSort_dedup_eq_self.mpr hsorted), hcodomain.trans hcod, hexpression.trans hexpr⟩

end

/-- A query that asks for nothing in particular. -/
def openQuery : DefinitionQuery where
  conceptId := "c"
  useSites := []
  parentHash := ""
  typedIrHash := ""
  auditorHash := ""
  criticEvidenceHashes := []
  counterexampleEvidenceHashes := []
  domain := ""
  codomain := ""
  requiredProperties := []
  hardProperties := []
  theoremDependencies := []
  environmentHash := ""
  priorFailureHashes := []

/-- The provenance of one source. -/
def oneSource : Dict String SourceProvenance := Dict.ofEntries [("s", ⟨"s", "local", "OK", "", "", "", ""⟩)]

/-- A raw definition with the given binders. -/
def rawDefinition (binders : List String) : Dict String PyValue :=
  Dict.ofEntries [("source_id", .str "s"), ("declaration_name", .str "d"), ("binders", .list (binders.map .str)),
    ("codomain", .str "T"), ("typed_expression", .str "e")]

/-- What is left of it. -/
def normalizedDefinition (binders : List String) : TypedDefinitionCandidate where
  shortId := ""
  conceptId := "c"
  branchId := ""
  declarationName := "d"
  domain := ""
  codomain := "T"
  binders := binders
  typedExpression := "e"
  dependencies := []
  provenance := ⟨"s", "local", "OK", "", "", "", ""⟩
  requiredProperties := []
  claimedProperties := []

theorem normalize_sorted :
    normalizeCandidate id openQuery oneSource (.dict (rawDefinition ["(a : A)", "(b : B)"]).entries) =
      .ok (some (normalizedDefinition ["(a : A)", "(b : B)"])) := by
  decide +kernel

theorem normalize_unsorted :
    normalizeCandidate id openQuery oneSource (.dict (rawDefinition ["(n : N)", "(h : P n)"]).entries) =
      .ok (some (normalizedDefinition ["(h : P n)", "(n : N)"])) := by
  decide +kernel

theorem mappingOf_entries (m : Dict String PyValue) : mappingOf (.dict m.entries) = .ok m := by
  rw [mappingOf, Orchestration.mapping?_entries]

theorem normalized_declares_sorted :
    Declares (normalizedDefinition ["(a : A)", "(b : B)"]) ["(a : A)", "(b : B)"] "T" "e" := by
  have hvalues : iterate (((rawDefinition ["(a : A)", "(b : B)"]).get? "binders").getD (.list [])) =
      .ok [.str "(a : A)", .str "(b : B)"] := rfl
  exact (normalized_declares_iff (mappingOf_entries _) hvalues normalize_sorted).mpr (by decide +kernel)

/-- The hypothesis about `n` comes out before `n`. -/
theorem binders_reordered :
    ¬ ∀ (quote : String → String) (query : DefinitionQuery) (provenance : Dict String SourceProvenance) (raw : PyValue)
        (m : Dict String PyValue) (c : TypedDefinitionCandidate) (values : List PyValue),
      mappingOf raw = .ok m → iterate ((m.get? "binders").getD (.list [])) = .ok values →
      normalizeCandidate quote query provenance raw = .ok (some c) →
      Declares c (rawBinders quote values) (textField quote m "codomain" query.codomain)
        (textField quote m "typed_expression" "") := by
  intro hall
  have hvalues : iterate (((rawDefinition ["(n : N)", "(h : P n)"]).get? "binders").getD (.list [])) =
      .ok [.str "(n : N)", .str "(h : P n)"] := rfl
  have hd := hall id openQuery oneSource _ _ _ _ (mappingOf_entries _) hvalues normalize_unsorted
  have hbinders : (normalizedDefinition ["(h : P n)", "(n : N)"]).binders ≠
      rawBinders id [.str "(n : N)", .str "(h : P n)"] := by
    decide +kernel
  exact hbinders hd.binders_eq

end Definitions

end KakeyaEngine
