import KakeyaEngine.Lib.JsonGrammar
import KakeyaEngine.Lib.Regex

/-!
# The boundary of an artifact

A model's answer is read until the JSON object in it is complete.  The scanner looks for the object behind a marker and
follows its brackets, quotes and escapes only.  That is enough: behind the marker and blanks it finds exactly the object,
whatever follows it, and in every proper beginning of the object it finds nothing and does not fail (`scan_object`), so that
the answer is complete at the closing brace of the object and not before (`complete_object`).
-/

namespace KakeyaEngine

namespace Transport

open Regex (isSpace)

/-! ### The scanner -/

structure ScannedArtifact where
  jsonText : List Char
  start : Nat
  stop : Nat
deriving DecidableEq

/-- `DEFAULT_ARTIFACT_MAX_CHARS`. -/
def defaultArtifactMaxChars : Int := 64 * 1024

structure ScanState where
  stack : List Char
  inString : Bool
  escaped : Bool
deriving DecidableEq

/-- `matching[char]`. -/
def matching (c : Char) : Char := if c = '\x7d' then '\x7b' else '['

/-- One character. -/
def ScanState.step (s : ScanState) (c : Char) : Except String ScanState :=
  if s.inString then
    if s.escaped then .ok { s with escaped := false }
    else if c = '\\' then .ok { s with escaped := true }
    else if c = '"' then .ok { s with inString := false }
    else .ok s
  else if c = '"' then .ok { s with inString := true }
  else if c = '\x7b' ∨ c = '[' then .ok { s with stack := c :: s.stack }
  else if c = '\x7d' ∨ c = ']' then
    match s.stack with
    | [] => .error "unbalanced Artifact JSON"
    | top :: rest => if top = matching c then .ok { s with stack := rest } else .error "unbalanced Artifact JSON"
  else .ok s

/-- The character closes the last bracket that is open. -/
def ScanState.closes (s s' : ScanState) (c : Char) : Bool :=
  !s.inString && (c == '\x7d' || c == ']') && s'.stack.isEmpty

/-- The loop of `scan_artifact_object_prefix`: how many characters the object has, where `count` characters of it are behind. -/
def scanLoop (maxChars : Int) : (count : Nat) → ScanState → List Char → Except String (Option Nat)
  | count, _, [] => if maxChars ≤ count then .error "Artifact exceeds size cap" else .ok none
  | count, s, c :: rest =>
    if maxChars ≤ count then .error "Artifact exceeds size cap"
    else
      match s.step c with
      | .error e => .error e
      | .ok s' => if s.closes s' c then .ok (some (count + 1)) else scanLoop maxChars (count + 1) s' rest

/-- `text.find(marker)`. -/
def find (marker text : List Char) : Option Nat := text.tails.findIdx? marker.isPrefixOf

/-- Where the object may begin, before the blanks. -/
def afterMarker (text : List Char) : Option (List Char) → Option Nat
  | none => some 0
  | some marker => (find marker text).map (· + marker.length)

def scanArtifactObjectPrefix (text : List Char) (marker : Option (List Char)) (maxChars : Int) :
    Except String (Option ScannedArtifact) :=
  if maxChars ≤ 0 then .error "artifact size cap must be > 0"
  else
    match afterMarker text marker with
    | none => .ok none
    | some behind =>
      let start := behind + ((text.drop behind).takeWhile isSpace).length
      match text.drop start with
      | [] => .ok none
      | c :: rest =>
        if c ≠ '\x7b' then .error "Artifact must start with a JSON object"
        else
          match scanLoop maxChars 0 ⟨[], false, false⟩ (c :: rest) with
          | .error e => .error e
          | .ok none => .ok none
          | .ok (some count) => .ok (some ⟨(c :: rest).take count, start, start + count⟩)

/-! ### Inside an object -/

/-- From one state to another a text leaves a bracket open after each of its characters. -/
def Inside : ScanState → List Char → ScanState → Prop
  | s, [], s' => s' = s
  | s, c :: t, s' => ∃ m, s.step c = .ok m ∧ m.stack ≠ [] ∧ Inside m t s'

theorem inside_append {s s' : ScanState} {t u : List Char} : Inside s (t ++ u) s' ↔ ∃ m, Inside s t m ∧ Inside m u s' := by
  induction t generalizing s with
  | nil =>
    constructor
    · exact fun h => ⟨s, rfl, h⟩
    · rintro ⟨m, rfl, h⟩
      exact h
  | cons c t ih =>
    constructor
    · rintro ⟨m, hstep, hopen, h⟩
      obtain ⟨m', ht, hu⟩ := ih.mp h
      exact ⟨m', ⟨m, hstep, hopen, ht⟩, hu⟩
    · rintro ⟨m', ⟨m, hstep, hopen, ht⟩, hu⟩
      exact ⟨m, hstep, hopen, ih.mpr ⟨m', ht, hu⟩⟩

/-- The scanner goes on behind such a text. -/
theorem scanLoop_inside {maxChars : Int} {count : Nat} {s s' : ScanState} {t : List Char} (h : Inside s t s')
    (hcap : (count + t.length : Int) ≤ maxChars) (rest : List Char) :
    scanLoop maxChars count s (t ++ rest) = scanLoop maxChars (count + t.length) s' rest := by
  induction t generalizing count s with
  | nil =>
    obtain rfl := h
    rfl
  | cons c t ih =>
    obtain ⟨m, hstep, hopen, h⟩ := h
    have hcloses : s.closes m c = false := by
      unfold ScanState.closes
      rw [List.isEmpty_eq_false_iff.mpr hopen, Bool.and_false]
    rw [List.length_cons] at hcap ⊢
    rw [List.cons_append, scanLoop, if_neg (by omega), hstep]
    dsimp only
    rw [hcloses, if_neg (by decide), ih h (by push_cast; omega), Nat.add_assoc, Nat.add_comm 1]

/-- At the end of such a text, or of a beginning of it, the scanner waits for more. -/
theorem scanLoop_waits {maxChars : Int} {count : Nat} {s s' : ScanState} {t p : List Char} (h : Inside s t s') (hp : p <+: t)
    (hcap : (count + p.length : Int) < maxChars) : scanLoop maxChars count s p = .ok none := by
  obtain ⟨u, rfl⟩ := hp
  obtain ⟨m, hpre, -⟩ := inside_append.mp h
  have hscan : scanLoop maxChars count s (p ++ []) = _ := scanLoop_inside hpre (by omega) []
  rw [List.append_nil] at hscan
  rw [hscan, scanLoop, if_neg (by push_cast; omega)]

/-! ### The grammar -/

open JsonGrammar

/-- The state between two parts of a value. -/
def ready (stack : List Char) : ScanState := ⟨stack, false, false⟩

theorem inside_plain {t stack : List Char} (ht : AllPlain t) (hstack : stack ≠ []) : Inside (ready stack) t (ready stack) := by
  induction t with
  | nil => rfl
  | cons c t ih =>
    obtain ⟨hc, ht⟩ := List.forall_mem_cons.mp ht
    refine ⟨ready stack, ?_, hstack, ih ht⟩
    unfold isPlain at hc
    simp only [Bool.and_eq_true, bne_iff_ne] at hc
    obtain ⟨⟨⟨⟨hquote, hopen⟩, hclose⟩, hopen'⟩, hclose'⟩ := hc
    unfold ScanState.step ready
    dsimp only
    rw [if_neg (by decide), if_neg hquote, if_neg (by simp [hopen, hopen']), if_neg (by simp [hclose, hclose'])]

theorem inside_single {stack : List Char} {c : Char} (hc : isPlain c = true) (hstack : stack ≠ []) :
    Inside (ready stack) [c] (ready stack) :=
  inside_plain (List.forall_mem_singleton.mpr hc) hstack

/-- A string, behind its opening quote. -/
theorem inside_stringBody {t stack : List Char} (ht : StringBody t) (hstack : stack ≠ []) :
    Inside ⟨stack, true, false⟩ t (ready stack) := by
  have hescaped : ∀ (c : Char) (t : List Char), Inside ⟨stack, true, false⟩ t (ready stack) →
      Inside ⟨stack, true, false⟩ ('\\' :: c :: t) (ready stack) :=
    fun c t h => ⟨⟨stack, true, true⟩, rfl, hstack, ⟨stack, true, false⟩, rfl, hstack, h⟩
  have hplain : ∀ (c : Char) (t : List Char), c ≠ '"' → c ≠ '\\' → Inside ⟨stack, true, false⟩ t (ready stack) →
      Inside ⟨stack, true, false⟩ (c :: t) (ready stack) := by
    intro c t hquote hbackslash h
    refine ⟨⟨stack, true, false⟩, ?_, hstack, h⟩
    unfold ScanState.step
    dsimp only
    rw [if_pos rfl, if_neg (by decide), if_neg hbackslash, if_neg hquote]
  have hhex : ∀ c : Char, isHexDigit c = true → c ≠ '"' ∧ c ≠ '\\' := by
    refine fun c hc => ⟨?_, ?_⟩
    · rintro rfl
      revert hc
      decide
    · rintro rfl
      revert hc
      decide
  induction ht with
  | close => exact ⟨ready stack, rfl, hstack, rfl⟩
  | plain hquote hbackslash _ _ ih => exact hplain _ _ hquote hbackslash ih
  | escape _ _ ih => exact hescaped _ _ ih
  | unicode ha hb hc hd _ ih =>
    refine hescaped _ _ (hplain _ _ (hhex _ ha).1 (hhex _ ha).2 ?_)
    refine hplain _ _ (hhex _ hb).1 (hhex _ hb).2 (hplain _ _ (hhex _ hc).1 (hhex _ hc).2 ?_)
    exact hplain _ _ (hhex _ hd).1 (hhex _ hd).2 ih

theorem inside_quoted {t stack : List Char} (ht : StringBody t) (hstack : stack ≠ []) :
    Inside (ready stack) ('"' :: t) (ready stack) :=
  ⟨⟨stack, true, false⟩, rfl, hstack, inside_stringBody ht hstack⟩

/-- A text between brackets. -/
theorem inside_brackets {t stack : List Char} {o c : Char} (hpair : (o = '\x7b' ∧ c = '\x7d') ∨ (o = '[' ∧ c = ']'))
    (ht : Inside (ready (o :: stack)) t (ready (o :: stack))) (hstack : stack ≠ []) :
    Inside (ready stack) (o :: (t ++ [c])) (ready stack) := by
  rcases hpair with ⟨rfl, rfl⟩ | ⟨rfl, rfl⟩
  · exact ⟨ready _, rfl, List.cons_ne_nil _ _, inside_append.mpr ⟨_, ht, ready stack, rfl, hstack, rfl⟩⟩
  · exact ⟨ready _, rfl, List.cons_ne_nil _ _, inside_append.mpr ⟨_, ht, ready stack, rfl, hstack, rfl⟩⟩

/-- The texts of the grammar leave the brackets around them open. -/
theorem inside_derives {part : Part} {t : List Char} (h : Derives part t) {stack : List Char} (hstack : stack ≠ []) :
    Inside (ready stack) t (ready stack) := by
  induction h generalizing stack with
  | string h => exact inside_quoted h hstack
  | number h => exact inside_plain h.allPlain hstack
  | literal h => exact inside_plain (allPlain_literal h) hstack
  | emptyArray h => exact inside_brackets (.inr ⟨rfl, rfl⟩) (inside_plain h.allPlain (List.cons_ne_nil _ _)) hstack
  | array _ ih => exact inside_brackets (.inr ⟨rfl, rfl⟩) (ih (List.cons_ne_nil _ _)) hstack
  | emptyObject h => exact inside_brackets (.inl ⟨rfl, rfl⟩) (inside_plain h.allPlain (List.cons_ne_nil _ _)) hstack
  | object _ ih => exact inside_brackets (.inl ⟨rfl, rfl⟩) (ih (List.cons_ne_nil _ _)) hstack
  | element ha _ hb ihv =>
    exact inside_append.mpr ⟨_, inside_plain ha.allPlain hstack,
      inside_append.mpr ⟨_, ihv hstack, inside_plain hb.allPlain hstack⟩⟩
  | elements ha _ hb _ ihv iht =>
    refine inside_append.mpr ⟨_, inside_plain ha.allPlain hstack, inside_append.mpr ⟨_, ihv hstack, ?_⟩⟩
    refine inside_append.mpr ⟨_, inside_plain hb.allPlain hstack, ?_⟩
    exact inside_append.mpr ⟨_, inside_single (by decide) hstack, iht hstack⟩
  | member ha hk hb hc _ hd ihv =>
    refine inside_append.mpr ⟨_, inside_plain ha.allPlain hstack, ?_⟩
    refine inside_append.mpr ⟨_, inside_quoted hk hstack, inside_append.mpr ⟨_, inside_plain hb.allPlain hstack, ?_⟩⟩
    refine inside_append.mpr ⟨_, inside_single (by decide) hstack, inside_append.mpr ⟨_, inside_plain hc.allPlain hstack, ?_⟩⟩
    exact inside_append.mpr ⟨_, ihv hstack, inside_plain hd.allPlain hstack⟩
  | members ha hk hb hc _ hd _ ihv iht =>
    refine inside_append.mpr ⟨_, inside_plain ha.allPlain hstack, ?_⟩
    refine inside_append.mpr ⟨_, inside_quoted hk hstack, inside_append.mpr ⟨_, inside_plain hb.allPlain hstack, ?_⟩⟩
    refine inside_append.mpr ⟨_, inside_single (by decide) hstack, inside_append.mpr ⟨_, inside_plain hc.allPlain hstack, ?_⟩⟩
    refine inside_append.mpr ⟨_, ihv hstack, inside_append.mpr ⟨_, inside_plain hd.allPlain hstack, ?_⟩⟩
    exact inside_append.mpr ⟨_, inside_single (by decide) hstack, iht hstack⟩

/-- An object stands between braces, and its inside leaves the first one open. -/
theorem IsObject.cases {j : List Char} (h : IsObject j) :
    ∃ body, j = '\x7b' :: (body ++ ['\x7d']) ∧ Inside (ready ['\x7b']) body (ready ['\x7b']) := by
  obtain ⟨hvalue, hhead⟩ := h
  have hnotPlain : ∀ {t : List Char}, AllPlain t → t.head? ≠ some '\x7b' := by
    intro t ht heq
    have hc := ht _ (List.mem_of_head? heq)
    revert hc
    decide
  cases hvalue with
  | string _ => cases hhead
  | number h => exact absurd hhead (hnotPlain h.allPlain)
  | literal h => exact absurd hhead (hnotPlain (allPlain_literal h))
  | emptyArray _ => cases hhead
  | array _ => cases hhead
  | emptyObject h => exact ⟨_, rfl, inside_plain h.allPlain (List.cons_ne_nil _ _)⟩
  | object h => exact ⟨_, rfl, inside_derives h (List.cons_ne_nil _ _)⟩

/-! ### The boundary -/

/-- The loop stops at the closing brace of an object. -/
theorem scanLoop_object {j : List Char} (hj : IsObject j) {maxChars : Int} (hcap : (j.length : Int) ≤ maxChars)
    (s : List Char) : scanLoop maxChars 0 (ready []) (j ++ s) = .ok (some j.length) := by
  obtain ⟨body, rfl, hbody⟩ := IsObject.cases hj
  rw [List.length_cons, List.length_append, List.length_singleton] at hcap ⊢
  have hopen : (ready []).step '\x7b' = .ok (ready ['\x7b']) := rfl
  have hclose : (ready ['\x7b']).step '\x7d' = .ok (ready []) := rfl
  rw [List.cons_append, scanLoop, if_neg (by omega), hopen]
  dsimp only
  rw [if_neg (by decide), List.append_assoc, scanLoop_inside hbody (by push_cast; omega), List.singleton_append, scanLoop,
    if_neg (by push_cast; omega), hclose]
  dsimp only
  rw [if_pos (show (ready ['\x7b']).closes (ready []) '\x7d' = true from rfl), Nat.zero_add, Nat.add_comm 1]

/-- It waits for more at the end of a proper beginning of an object. -/
theorem scanLoop_beginning {j p : List Char} (hj : IsObject j) {maxChars : Int} (hcap : (j.length : Int) ≤ maxChars)
    (hp : p <+: j) (hne : p ≠ j) : scanLoop maxChars 0 (ready []) p = .ok none := by
  have hlength : p.length < j.length := Nat.lt_of_le_of_ne hp.length_le fun heq => hne (hp.eq_of_length heq)
  obtain ⟨body, rfl, hbody⟩ := IsObject.cases hj
  rw [List.length_cons, List.length_append, List.length_singleton] at hcap hlength
  cases p with
  | nil => rw [scanLoop, if_neg (by omega)]
  | cons c p =>
    obtain ⟨rfl, htail⟩ := List.cons_prefix_cons.mp hp
    rw [List.length_cons] at hlength
    have hpbody : p <+: body := List.prefix_of_prefix_length_le htail (List.prefix_append _ _) (by omega)
    have hopen : (ready []).step '\x7b' = .ok (ready ['\x7b']) := rfl
    rw [scanLoop, if_neg (by omega), hopen]
    dsimp only
    rw [if_neg (by decide)]
    exact scanLoop_waits hbody hpbody (by push_cast; omega)

theorem find_prefix (marker t : List Char) : find marker (marker ++ t) = some 0 := by
  have hprefix : marker.isPrefixOf (marker ++ t) = true := List.isPrefixOf_iff_prefix.mpr (List.prefix_append _ _)
  unfold find
  generalize marker ++ t = text at hprefix ⊢
  cases text with
  | nil => rw [List.tails, List.findIdx?_cons, if_pos hprefix]
  | cons c text => rw [List.tails, List.findIdx?_cons, if_pos hprefix]

theorem afterMarker_prefix (marker : Option (List Char)) (t : List Char) :
    afterMarker (marker.getD [] ++ t) marker = some (marker.getD []).length := by
  cases marker with
  | none => rfl
  | some marker =>
    rw [Option.getD_some, afterMarker, find_prefix, Option.map_some, Nat.zero_add]

/-- The blanks in front of a text that does not begin with one. -/
theorem takeWhile_blanks {ws t : List Char} (hws : ∀ c ∈ ws, isSpace c = true) (ht : ∀ c ∈ t.head?, isSpace c = false) :
    (ws ++ t).takeWhile isSpace = ws := by
  rw [List.takeWhile_append_of_pos hws]
  cases t with
  | nil => rw [List.takeWhile_nil, List.append_nil]
  | cons c t => rw [List.takeWhile_cons_of_neg (by rw [ht c rfl]; decide), List.append_nil]

/-- Behind the marker and blanks the scanner reads what is left, which is nothing or begins with a brace. -/
theorem scan_behind (marker : Option (List Char)) {ws t : List Char} (hws : ∀ c ∈ ws, isSpace c = true) {maxChars : Int}
    (hpos : 0 < maxChars) (ht : ∀ c ∈ t.head?, c = '\x7b') :
    scanArtifactObjectPrefix (marker.getD [] ++ (ws ++ t)) marker maxChars =
      if t = [] then .ok none
      else
        match scanLoop maxChars 0 (ready []) t with
        | .error e => .error e
        | .ok none => .ok none
        | .ok (some count) => .ok (some ⟨t.take count, (marker.getD []).length + ws.length,
            (marker.getD []).length + ws.length + count⟩) := by
  have hblank : ∀ c ∈ t.head?, isSpace c = false := by
    intro c hc
    rw [ht c hc]
    decide
  unfold scanArtifactObjectPrefix
  rw [if_neg (by omega), afterMarker_prefix]
  dsimp only
  rw [List.drop_left, takeWhile_blanks hws hblank, ← List.drop_drop, List.drop_left, List.drop_left]
  cases t with
  | nil => rfl
  | cons c t =>
    obtain rfl := ht c rfl
    dsimp only
    rw [if_neg (by decide), if_neg (List.cons_ne_nil _ _)]
    rfl

/-- A text that an object begins, or that begins an object, begins with a brace. -/
theorem head_of_object {j t : List Char} (hj : IsObject j) (ht : j <+: t ∨ t <+: j) : ∀ c ∈ t.head?, c = '\x7b' := by
  obtain ⟨body, rfl, -⟩ := IsObject.cases hj
  intro c hc
  cases t with
  | nil => cases hc
  | cons d t =>
    obtain rfl : d = c := Option.some_inj.mp hc
    rcases ht with h | h
    · exact (List.cons_prefix_cons.mp h).1.symm
    · exact (List.cons_prefix_cons.mp h).1

/-- Behind the marker and blanks the scanner finds exactly the object, whatever follows, and in a proper beginning of it
nothing. -/
theorem scan_object (marker : Option (List Char)) {ws j : List Char} (hws : ∀ c ∈ ws, isSpace c = true) (hj : IsObject j)
    {maxChars : Int} (hcap : (j.length : Int) ≤ maxChars) :
    (∀ s, scanArtifactObjectPrefix (marker.getD [] ++ (ws ++ (j ++ s))) marker maxChars =
      .ok (some ⟨j, (marker.getD []).length + ws.length, (marker.getD []).length + ws.length + j.length⟩)) ∧
    ∀ p, p <+: j → p ≠ j → scanArtifactObjectPrefix (marker.getD [] ++ (ws ++ p)) marker maxChars = .ok none := by
  have hne : j ≠ [] := by
    obtain ⟨body, rfl, -⟩ := IsObject.cases hj
    exact List.cons_ne_nil _ _
  have hpos : 0 < maxChars := by
    have := List.length_pos_iff.mpr hne
    omega
  constructor
  · intro s
    have hbrace := head_of_object hj (.inl (List.prefix_append j s))
    rw [scan_behind marker hws hpos hbrace, if_neg (List.append_ne_nil_of_left_ne_nil hne s), scanLoop_object hj hcap]
    dsimp only
    rw [List.take_left]
  · intro p hp hpj
    rw [scan_behind marker hws hpos (head_of_object hj (.inr hp)), scanLoop_beginning hj hcap hp hpj, ite_self]

/-! ### The contracts -/

structure StructuredArtifactContract where
  role : String
  heading : Option String
  marker : Option String
  transportStop : Bool

/-- A contract whose artifact stands under a heading. -/
def underHeading (role heading : String) : StructuredArtifactContract := ⟨role, some heading, some "Artifact:", true⟩

/-- `STRUCTURED_ARTIFACT_CONTRACTS`, less the fields of the artifacts. -/
def structuredArtifactContracts : List StructuredArtifactContract :=
  [⟨"strategy", none, none, true⟩,
    ⟨"premise_suspicion", none, some "Evidence artifact:", false⟩,
    underHeading "premise_auditor" "PREMISE_AUDIT",
    underHeading "premise_proponent" "PREMISE_DEFENSE",
    underHeading "definition_auditor" "DEFINITION_AUDIT",
    underHeading "counterexample_worker" "COUNTEREXAMPLE_REPORT",
    underHeading "decomposer" "DECOMPOSITION_PROPOSAL",
    underHeading "formalizer" "FORMALIZATION_BUNDLE",
    underHeading "formalizer_parent_signature" "LEAN_SIGNATURE_UNIT",
    underHeading "formalizer_child_signature" "LEAN_SIGNATURE_UNIT",
    underHeading "formalizer_reduction_signature" "LEAN_SIGNATURE_UNIT",
    underHeading "prover" "PROOF_ATTEMPT",
    underHeading "adversarial_proponent" "DEFENSE_REPORT",
    underHeading "judge" "JUDGE_DECISION"]

def structuredContract (role : String) : Except String StructuredArtifactContract :=
  match structuredArtifactContracts.find? fun contract => contract.role == role with
  | none => .error ("unregistered structured role: " ++ role)
  | some contract => .ok contract

/-- A blank that does not end the line. -/
def isInlineSpace (c : Char) : Bool := isSpace c && c != '\r' && c != '\n'

open Regex in
/-- The heading and the marker under it. -/
def headingPattern (heading : List Char) : Regex :=
  seq textStart <| seq (many isSpace) <| seq (lit ("### ".toList ++ heading)) <| seq (many isInlineSpace) <|
    seq (alt (char '\r') eps) <| seq (char '\n') <| seq (many isInlineSpace) <| seq (lit "Artifact:".toList) (many isInlineSpace)

/-- Where `re.match` ends. -/
def matchEnd (heading text : List Char) : Option Nat :=
  ((headingPattern heading).hits .asciiOnly none text).head?.map (·.length)

def scanStructuredArtifactPrefix (text heading : List Char) (maxChars : Int) : Except String (Option ScannedArtifact) :=
  match matchEnd heading text with
  | none => .ok none
  | some behind =>
    match scanArtifactObjectPrefix (text.drop behind) none maxChars with
    | .error e => .error e
    | .ok none => .ok none
    | .ok (some scanned) => .ok (some ⟨scanned.jsonText, behind + scanned.start, behind + scanned.stop⟩)

/-- The scan that a contract asks for. -/
def scanFor (contract : StructuredArtifactContract) (text : List Char) : Except String (Option ScannedArtifact) :=
  match contract.heading with
  | none => scanArtifactObjectPrefix text (contract.marker.map String.toList) defaultArtifactMaxChars
  | some heading => scanStructuredArtifactPrefix text heading.toList defaultArtifactMaxChars

def structuredTransportComplete (text : List Char) (role : String) : Except String Bool :=
  match structuredContract role with
  | .error e => .error e
  | .ok contract =>
    if !contract.transportStop then .ok false
    else
      match scanFor contract text with
      | .error _ => .ok false
      | .ok none => .ok false
      | .ok (some scanned) => .ok ((text.drop scanned.stop).all isSpace)

/-! ### The streaming stop -/

/-- What an answer has in front of its object: the marker and blanks, under the heading of the contract where it has one. -/
inductive Preamble (contract : StructuredArtifactContract) : List Char → Prop
  | bare {ws : List Char} : contract.heading = none → (∀ c ∈ ws, isSpace c = true) →
      Preamble contract ((contract.marker.map String.toList).getD [] ++ ws)
  | headed {heading : String} {before inline eol inline' ws : List Char} : contract.heading = some heading →
      (∀ c ∈ before, isSpace c = true) → (∀ c ∈ inline, isInlineSpace c = true) → (eol = ['\n'] ∨ eol = ['\r', '\n']) →
      (∀ c ∈ inline', isInlineSpace c = true) → (∀ c ∈ ws, isSpace c = true) →
      Preamble contract (before ++ ("### ".toList ++ heading.toList) ++ inline ++ eol ++ inline' ++ "Artifact:".toList ++ ws)

theorem firstHit_eol {eol t : List Char} (heol : eol = ['\n'] ∨ eol = ['\r', '\n']) {n : Nat} {r : Regex}
    {w : Regex.WordClass} (hr : ∀ prev, Regex.FirstHit w r prev t ⟨n, []⟩) (prev : Option Char) :
    Regex.FirstHit w (.seq (.alt (Regex.char '\r') .eps) (.seq (Regex.char '\n') r)) prev (eol ++ t) ⟨eol.length + n, []⟩ := by
  have hline : ∀ prev, Regex.FirstHit w (.seq (Regex.char '\n') r) prev (['\n'] ++ t) ⟨['\n'].length + n, []⟩ :=
    fun _ => Regex.firstHit_append_plain (Regex.firstHit_cls (beq_self_eq_true _)) hr
  rcases heol with rfl | rfl
  · have hnone : Regex.FirstHit w (.alt (Regex.char '\r') .eps) prev ([] ++ (['\n'] ++ t)) ⟨([] : List Char).length, []⟩ :=
      Regex.firstHit_alt_right rfl rfl
    rw [← Nat.zero_add ([_].length + _)]
    exact Regex.firstHit_append_plain hnone hline
  · have hsome : Regex.FirstHit w (.alt (Regex.char '\r') .eps) prev (['\r'] ++ (['\n'] ++ t)) ⟨['\r'].length, []⟩ :=
      Regex.firstHit_alt_left (Regex.firstHit_cls (beq_self_eq_true _))
    have hlength : ['\r', '\n'].length + n = ['\r'].length + (['\n'].length + n) := by
      simp only [List.length_cons, List.length_nil]
      omega
    rw [hlength]
    exact Regex.firstHit_append_plain hsome hline

/-- Where the match of a heading and its marker ends. -/
theorem matchEnd_headed {heading before inline eol inline' blanks rest : List Char}
    (hbefore : ∀ c ∈ before, isSpace c = true) (hinline : ∀ c ∈ inline, isInlineSpace c = true)
    (heol : eol = ['\n'] ∨ eol = ['\r', '\n']) (hinline' : ∀ c ∈ inline', isInlineSpace c = true)
    (hblanks : ∀ c ∈ blanks, isInlineSpace c = true) (hrest : ∀ c ∈ rest.head?, isInlineSpace c = false) :
    matchEnd heading (before ++ ("### ".toList ++ heading) ++ inline ++ eol ++ inline' ++ "Artifact:".toList ++ blanks ++ rest) =
      some (before ++ ("### ".toList ++ heading) ++ inline ++ eol ++ inline' ++ "Artifact:".toList ++ blanks).length := by
  have hmark : ∀ {l : List Char}, ∀ c ∈ ("### ".toList ++ l).head?, isSpace c = false := by
    rintro l c ⟨⟩
    rfl
  have heol' : ∀ {l : List Char}, ∀ c ∈ (eol ++ l).head?, isInlineSpace c = false := by
    rcases heol with rfl | rfl
    · rintro l c ⟨⟩
      rfl
    · rintro l c ⟨⟩
      rfl
  have hartifact : ∀ {l : List Char}, ∀ c ∈ ("Artifact:".toList ++ l).head?, isInlineSpace c = false := by
    rintro l c ⟨⟩
    rfl
  have hhit : Regex.FirstHit .asciiOnly (headingPattern heading) none
      ([] ++ (before ++ (("### ".toList ++ heading) ++ (inline ++ (eol ++ (inline' ++ ("Artifact:".toList ++ (blanks ++ rest))))))))
      ⟨([] : List Char).length + (before.length + (("### ".toList ++ heading).length + (inline.length + (eol.length +
        (inline'.length + ("Artifact:".toList.length + blanks.length)))))), []⟩ := by
    refine Regex.firstHit_append_plain Regex.firstHit_textStart fun _ => ?_
    refine Regex.firstHit_append_plain (Regex.firstHit_many hbefore (by rw [List.append_assoc]; exact hmark)) fun _ => ?_
    refine Regex.firstHit_append_plain Regex.firstHit_lit fun _ => ?_
    refine Regex.firstHit_append_plain (Regex.firstHit_many hinline heol') (firstHit_eol heol fun _ => ?_)
    refine Regex.firstHit_append_plain (Regex.firstHit_many hinline' hartifact) fun _ => ?_
    exact Regex.firstHit_append_plain Regex.firstHit_lit fun _ => Regex.firstHit_many hblanks hrest
  rw [List.nil_append] at hhit
  simp only [List.append_assoc] at hhit ⊢
  unfold matchEnd
  rw [hhit, Option.map_some]
  simp only [List.length_append, List.length_nil]
  congr 1
  omega

/-- Blanks are blanks of the line, and blanks of which the first one is none. -/
theorem blanks_split {ws : List Char} (hws : ∀ c ∈ ws, isSpace c = true) :
    ∃ a b, ws = a ++ b ∧ (∀ c ∈ a, isInlineSpace c = true) ∧ (∀ c ∈ b, isSpace c = true) ∧
      ∀ c ∈ b.head?, isInlineSpace c = false := by
  induction ws with
  | nil => exact ⟨[], [], rfl, List.forall_mem_nil _, List.forall_mem_nil _, fun _ h => by cases h⟩
  | cons c ws ih =>
    cases hc : isInlineSpace c with
    | true =>
      obtain ⟨a, b, rfl, ha, hb, hfirst⟩ := ih fun d hd => hws d (List.mem_cons_of_mem _ hd)
      exact ⟨c :: a, b, rfl, List.forall_mem_cons.mpr ⟨hc, ha⟩, hb, hfirst⟩
    | false =>
      refine ⟨[], c :: ws, rfl, List.forall_mem_nil _, hws, ?_⟩
      rintro d ⟨⟩
      exact hc

/-- The scan under a heading is the scan of what the match leaves. -/
theorem scanStructured_behind {front t heading : List Char} (hmatch : matchEnd heading (front ++ t) = some front.length)
    (maxChars : Int) :
    scanStructuredArtifactPrefix (front ++ t) heading maxChars =
      match scanArtifactObjectPrefix t none maxChars with
      | .error e => .error e
      | .ok none => .ok none
      | .ok (some scanned) => .ok (some ⟨scanned.jsonText, front.length + scanned.start, front.length + scanned.stop⟩) := by
  unfold scanStructuredArtifactPrefix
  rw [hmatch]
  dsimp only
  rw [List.drop_left]

/-- Behind its preamble the scan of a contract finds exactly the object, and in a proper beginning of it nothing. -/
theorem scanFor_object {contract : StructuredArtifactContract} {front j : List Char} (hfront : Preamble contract front)
    (hj : IsObject j) (hcap : (j.length : Int) ≤ defaultArtifactMaxChars) :
    (∀ s, scanFor contract (front ++ (j ++ s)) = .ok (some ⟨j, front.length, front.length + j.length⟩)) ∧
    ∀ p, p <+: j → p ≠ j → scanFor contract (front ++ p) = .ok none := by
  unfold scanFor
  cases hfront with
  | bare hheading hws =>
    obtain ⟨hfound, hnone⟩ := scan_object (contract.marker.map String.toList) hws hj hcap
    rw [hheading]
    dsimp only
    refine ⟨fun s => ?_, fun p hp hpj => ?_⟩
    · rw [List.append_assoc, hfound, List.length_append]
    · rw [List.append_assoc, hnone p hp hpj]
  | @headed heading before inline eol inline' ws hheading hbefore hinline heol hinline' hws =>
    rw [hheading]
    dsimp only
    -- the match takes the blanks up to the end of the line, and the scanner the others
    obtain ⟨a, b, rfl, ha, hb, hfirst⟩ := blanks_split hws
    obtain ⟨hfound, hnone⟩ := scan_object none hb hj hcap
    simp only [Option.getD_none, List.nil_append, List.length_nil, Nat.zero_add] at hfound hnone
    have hmatch : ∀ {t : List Char}, (j <+: t ∨ t <+: j) → ∀ c ∈ (b ++ t).head?, isInlineSpace c = false := by
      intro t ht c hc
      cases b with
      | nil =>
        obtain rfl := head_of_object hj ht c hc
        rfl
      | cons d b => exact hfirst c hc
    rw [← List.append_assoc _ a b]
    refine ⟨fun s => ?_, fun p hp hpj => ?_⟩
    · rw [List.append_assoc _ b, scanStructured_behind (matchEnd_headed hbefore hinline heol hinline' ha
        (hmatch (.inl (List.prefix_append j s)))), hfound s]
      dsimp only
      rw [@List.length_append _ _ b, ← Nat.add_assoc]
    · rw [List.append_assoc _ b, scanStructured_behind (matchEnd_headed hbefore hinline heol hinline' ha
        (hmatch (.inr hp))), hnone p hp hpj]

/-- The contract of a role under its name. -/
theorem structuredContract_of_mem {contract : StructuredArtifactContract} (h : contract ∈ structuredArtifactContracts) :
    structuredContract contract.role = .ok contract := by
  simp only [structuredArtifactContracts, List.mem_cons, List.not_mem_nil, or_false] at h
  rcases h with rfl | rfl | rfl | rfl | rfl | rfl | rfl | rfl | rfl | rfl | rfl | rfl | rfl | rfl <;> rfl

/-- With a contract that stops the answer it is complete behind its object, and behind blanks after the object, and not in a
proper beginning of the object. -/
theorem complete_object {contract : StructuredArtifactContract} {role : String} (hrole : structuredContract role = .ok contract)
    {front j : List Char} (hfront : Preamble contract front) (hj : IsObject j)
    (hcap : (j.length : Int) ≤ defaultArtifactMaxChars) :
    (∀ s, structuredTransportComplete (front ++ (j ++ s)) role = .ok (contract.transportStop && s.all isSpace)) ∧
    ∀ p, p <+: j → p ≠ j → structuredTransportComplete (front ++ p) role = .ok false := by
  obtain ⟨hfound, hnone⟩ := scanFor_object hfront hj hcap
  unfold structuredTransportComplete
  rw [hrole]
  dsimp only
  cases contract.transportStop with
  | false => exact ⟨fun _ => rfl, fun _ _ _ => rfl⟩
  | true =>
    refine ⟨fun s => ?_, fun p hp hpj => ?_⟩
    · rw [if_neg (by decide), hfound s]
      dsimp only
      rw [← List.drop_drop, List.drop_left, List.drop_left, Bool.true_and]
    · rw [if_neg (by decide), hnone p hp hpj]

/-- The scanner finds the boundary of every object behind its marker, and an answer is complete there and not before. -/
theorem scanner_finds_boundary {j : List Char} (hj : IsObject j) :
    (∀ (marker : Option (List Char)) (ws : List Char) (maxChars : Int), (∀ c ∈ ws, isSpace c = true) →
      (j.length : Int) ≤ maxChars →
      (∀ s, scanArtifactObjectPrefix (marker.getD [] ++ (ws ++ (j ++ s))) marker maxChars =
        .ok (some ⟨j, (marker.getD []).length + ws.length, (marker.getD []).length + ws.length + j.length⟩)) ∧
      ∀ p, p <+: j → p ≠ j → scanArtifactObjectPrefix (marker.getD [] ++ (ws ++ p)) marker maxChars = .ok none) ∧
    ∀ contract ∈ structuredArtifactContracts, ∀ front, Preamble contract front → (j.length : Int) ≤ defaultArtifactMaxChars →
      (∀ s, structuredTransportComplete (front ++ (j ++ s)) contract.role =
        .ok (contract.transportStop && s.all isSpace)) ∧
      ∀ p, p <+: j → p ≠ j → structuredTransportComplete (front ++ p) contract.role = .ok false :=
  ⟨fun marker _ _ hws hcap => scan_object marker hws hj hcap,
    fun _ hmem _ hfront hcap => complete_object (structuredContract_of_mem hmem) hfront hj hcap⟩

/-- `{"a": ["}"]}`. -/
def braceInString : List Char := ['\x7b', '"', 'a', '"', ':', ' ', '[', '"', '\x7d', '"', ']', '\x7d']

theorem isObject_braceInString : IsObject braceInString := by
  have hkey : StringBody ['a', '"'] := .plain (by decide) (by decide) (by decide) .close
  have hbrace : Derives .value ['"', '\x7d', '"'] := .string (.plain (by decide) (by decide) (by decide) .close)
  have hnone : Blanks [] := List.forall_mem_nil _
  have harray : Derives .value ['[', '"', '\x7d', '"', ']'] := .array (.element hnone hbrace hnone)
  exact ⟨.object (.member hnone hkey hnone (List.forall_mem_singleton.mpr rfl) harray hnone), rfl⟩

theorem scanner_at_brace_in_string :
    scanArtifactObjectPrefix ("Artifact:".toList ++ ([' '] ++ (braceInString ++ ['\x7d']))) (some "Artifact:".toList) 64 =
      .ok (some ⟨braceInString, 10, 22⟩) ∧
    structuredTransportComplete ([' '] ++ braceInString.take 9) "strategy" = .ok false := by
  have hblank : ∀ c ∈ [' '], isSpace c = true := List.forall_mem_singleton.mpr rfl
  refine ⟨((scanner_finds_boundary isObject_braceInString).1 (some "Artifact:".toList) [' '] 64 hblank (by decide)).1 _, ?_⟩
  exact ((scanner_finds_boundary isObject_braceInString).2 ⟨"strategy", none, none, true⟩ (List.mem_cons_self ..) [' ']
    (.bare rfl hblank) (by decide)).2 _ (List.take_prefix _ _) (by decide)

end Transport

end KakeyaEngine
