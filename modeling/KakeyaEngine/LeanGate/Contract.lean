import KakeyaEngine.Lib.Regex
import KakeyaEngine.PrefixCache.Hashing

/-!
# The contract of model-written declarations

`LeanSignatureContract` checks the text of one theorem before it is compiled: a list of patterns the text must not contain,
a count of the lines that start a declaration, and a pattern for the whole.  A text is the list of its code points.
-/

namespace KakeyaEngine

namespace LeanGate

open Regex

/-! ### The patterns -/

def word (text : String) : Regex := lit text.toList

def words (texts : List String) : Regex := oneOf (texts.map word)

/-- The commands that may not stand at a line start or after a space. -/
def commandWords : List String :=
  ["import", "axiom", "opaque", "unsafe", "macro", "syntax", "elab", "run_cmd", "run_tac", "set_option", "def", "abbrev",
    "instance", "structure", "inductive", "class", "namespace", "section", "variable", "open", "attribute"]

/-- The names that may not stand anywhere. -/
def systemWords : List String := ["IO", "System", "FilePath"]

/-- `_FORBIDDEN`. -/
def forbidden : Regex :=
  oneOf [seq (alt lineStart (cls isSpace)) (seq (words commandWords) boundary),
    seq (char '#') (words ["eval", "check", "print", "reduce"]),
    seq boundary (seq (words systemWords) boundary)]

def isLetter (c : Char) : Bool := c.isAlpha || c == '_'

/-- `_DECLARATION`. -/
def declaration : Regex :=
  seq textStart (seq (group "kind" (words ["theorem", "lemma"])) (seq (many1 isSpace)
    (seq (group "name" (seq (cls isLetter) (many fun c => isLetter c || c.isDigit || c == '\'')))
      (seq (group "tail" (few fun _ => true)) textEnd))))

/-- The words that start a declaration. -/
def declarationWords : List String :=
  ["theorem", "lemma", "def", "axiom", "opaque", "abbrev", "instance", "structure", "inductive", "class"]

/-- `_DECLARATION_LINE`. -/
def declarationLine : Regex := seq lineStart (seq (many isSpace) (seq (words declarationWords) boundary))

/-- `_SCAFFOLD`. -/
def scaffold : Regex := seq (many isSpace) (seq (word ":=") (seq (many isSpace) (seq (word "by") boundary)))

/-- The characters that a small letter stands for when the case is ignored. -/
def sameLetter (l c : Char) : Bool :=
  c == l || c == l.toUpper || (l == 's' && c == 'ſ') || (l == 'k' && c == '\u212a') ||
    (l == 'i' && (c == 'İ' || c == 'ı'))

/-- A given text in whatever case. -/
def anyCase : List Char → Regex
  | [] => eps
  | l :: ls => seq (cls (sameLetter l)) (anyCase ls)

/-- A letter when the case is ignored. -/
def isAnyLetter (c : Char) : Bool := isLetter c || c == 'ſ' || c == '\u212a' || c == 'İ' || c == 'ı'

/-- The words that stand for a missing part. -/
def placeholderWords : List String := ["sorry", "admit", "placeholder", "todo"]

/-- `_PLACEHOLDER`. -/
def placeholder (w : WordClass) : Regex :=
  oneOf [seq boundary (seq (oneOf (placeholderWords.map fun t => anyCase t.toList)) boundary),
    word "...", char '…',
    seq (char '<') (seq (cls isAnyLetter)
      (seq (upTo 40 fun c => isAnyLetter c || c.isDigit || c == ' ' || c == '-') (char '>'))),
    seq (char '?') (many w.isWord)]

/-- `_LATEX_ESCAPE`. -/
def latexEscape : Regex := alt (seq (char '\\') (many1 Char.isAlpha)) (char '$')

/-! ### Texts -/

/-- `str.rstrip`. -/
def rstrip (text : List Char) : List Char := (text.reverse.dropWhile isSpace).reverse

/-- `str.strip`. -/
def strip (text : List Char) : List Char := rstrip (text.dropWhile isSpace)

/-- The `in` operator. -/
def occursIn (part text : List Char) : Bool := text.tails.any part.isPrefixOf

/-- `" ".join(text.split())`. -/
def squeeze (text : List Char) : List Char := List.intercalate [' '] ((text.splitOnP isSpace).filter (· ≠ []))

def hexDigits (b : UInt8) : List Char :=
  let digit (n : Nat) : Char := "0123456789abcdef".toList.getD n '0'
  [digit (b.toNat / 16), digit (b.toNat % 16)]

/-- `hashlib.sha256(text.encode()).hexdigest()`. -/
def hexdigest (text : List Char) : List Char := (Sha256.sha256 (utf8 text)).flatMap hexDigits

/-! ### Parsing -/

inductive ContractError
  | valueError (message : String)
  | assertionError
deriving DecidableEq

structure LeanDeclaration where
  kind : List Char
  name : List Char
  binders : List Char
  proposition : List Char
  source : List Char
  declarationHash : List Char
  propositionHash : List Char
deriving DecidableEq

/-- The loop of `_split_tail`, with the characters it has passed in `seen`, the last first. -/
def splitTailLoop : (depth : Nat) → (quote escape : Bool) → (seen : List Char) → List Char →
    Except ContractError (List Char × List Char)
  | _, _, _, _, [] => .error (.valueError "declaration is missing a proposition separator `:`")
  | depth, true, true, seen, c :: rest => splitTailLoop depth true false (c :: seen) rest
  | depth, true, false, seen, c :: rest =>
    if c = '\\' then splitTailLoop depth true true (c :: seen) rest
    else splitTailLoop depth (c != '"') false (c :: seen) rest
  | depth, false, escape, seen, c :: rest =>
    if c = '"' then splitTailLoop depth true escape (c :: seen) rest
    else if c = '(' ∨ c = '\x7b' ∨ c = '[' then splitTailLoop (depth + 1) false escape (c :: seen) rest
    else if c = ')' ∨ c = '\x7d' ∨ c = ']' then
      if depth = 0 then .error (.valueError "unbalanced declaration binders")
      else splitTailLoop (depth - 1) false escape (c :: seen) rest
    else if c = ':' ∧ depth = 0 then .ok (strip seen.reverse, strip rest)
    else splitTailLoop depth false escape (c :: seen) rest

/-- `_split_tail`. -/
def splitTail (tail : List Char) : Except ContractError (List Char × List Char) := splitTailLoop 0 false false [] tail

variable (w : WordClass)

/-- The checks of `parse` on the text as a whole. -/
def checkText (raw : List Char) : Except ContractError Unit :=
  if strip raw = [] then .error (.valueError "empty Lean declaration")
  else if 12000 < raw.length then .error (.valueError "Lean declaration is too large")
  else if occursIn "```".toList raw then .error (.valueError "Markdown fences are forbidden")
  else if occursIn "--".toList raw || occursIn "/-".toList raw || occursIn "-/".toList raw then
    .error (.valueError "comments or prose are forbidden")
  else if (latexEscape.search w raw).isSome then .error (.valueError "LaTeX escapes are forbidden in Lean source")
  else if (forbidden.search w raw).isSome then
    .error (.valueError "forbidden Lean command in generated declaration")
  else if ((placeholder w).search w raw).isSome then .error (.valueError "Lean declaration contains a placeholder")
  else if (declarationLine.finditer w raw).length ≠ 1 then
    .error (.valueError "expected exactly one theorem or lemma declaration")
  else .ok ()

/-- The part of the tail before the proof scaffold. -/
def declarationTail (signatureOnly allowScaffoldNormalization : Bool) (tail : List Char) :
    Except ContractError (List Char) :=
  match scaffold.finditer w tail with
  | [] =>
    if allowScaffoldNormalization then .ok (rstrip tail)
    else .error (.valueError "theorem signature must end with `:= by` proof scaffold")
  | [found] =>
    let proofBody := tail.drop found.stop
    if signatureOnly && strip proofBody ≠ [] then
      .error (.valueError "signature proof scaffold must have no proof body")
    else if !signatureOnly && strip proofBody = [] then
      .error (.valueError "complete proof must contain a proof body")
    else .ok (rstrip (tail.take found.start))
  | _ => .error (.valueError "duplicate `:= by` proof scaffold")

/-- The comparison with the expected fields; `expected` looks a field up. -/
def compareExpected (expected : String → Option (List Char)) :
    List (String × List Char) → Except ContractError Unit
  | [] => .ok ()
  | (field, actual) :: rest =>
    match expected field with
    | none => compareExpected expected rest
    | some value =>
      if strip value ≠ actual then .error (.valueError (field ++ " changed during signature transport"))
      else compareExpected expected rest

def capture (m : Hit) (name : String) : List Char := (m.groups.lookup name).getD []

/-- The normalized text is parsed again and must give the same parts. -/
def checkNormalized (normalized name binders proposition propositionHash : List Char) : Except ContractError Unit :=
  match declaration.fullmatch w normalized with
  | none => .error (.valueError "normalized Lean declaration is malformed")
  | some m =>
    match scaffold.search w (capture m "tail") with
    | none => .error .assertionError
    | some found => do
      let parts ← splitTail (rstrip ((capture m "tail").take found.start))
      if capture m "name" ≠ name ∨ parts.1 ≠ binders ∨ parts.2 ≠ proposition ∨ hexdigest parts.2 ≠ propositionHash then
        .error (.valueError "mechanical normalization changed mathematical content")
      else .ok ()

/-- `LeanSignatureContract.parse`. -/
def parse (source : List Char) (signatureOnly allowScaffoldNormalization : Bool)
    (expected : String → Option (List Char)) : Except ContractError LeanDeclaration := do
  checkText w source
  let text := strip source
  match declaration.fullmatch w text with
  | none => .error (.valueError "artifact must contain only one theorem or lemma declaration")
  | some m => do
    let parts ← declarationTail w signatureOnly allowScaffoldNormalization (capture m "tail") >>= splitTail
    let binders := parts.1
    let proposition := parts.2
    if proposition = [] then .error (.valueError "Lean declaration proposition is empty")
    else do
      let kind := capture m "kind"
      let name := capture m "name"
      compareExpected expected [("kind", kind), ("name", name), ("binders", binders), ("proposition", proposition)]
      let declarationCore := kind ++ ' ' :: name ++ (if binders = [] then [] else ' ' :: binders) ++
        " : ".toList ++ proposition
      let normalized := if signatureOnly then declarationCore ++ " := by".toList else text
      let propositionHash := hexdigest proposition
      checkNormalized w normalized name binders proposition propositionHash
      .ok ⟨kind, name, binders, proposition, normalized, hexdigest (squeeze declarationCore), propositionHash⟩

/-- `normalize_signature`. -/
def normalizeSignature (source : List Char) (expected : String → Option (List Char)) :
    Except ContractError LeanDeclaration := parse w source true true expected

/-- `validate_signature`. -/
def validateSignature (source : List Char) (expected : String → Option (List Char)) :
    Except ContractError LeanDeclaration := parse w source true false expected

/-- `validate_proof`. -/
def validateProof (source : List Char) : Except ContractError LeanDeclaration := parse w source false false fun _ => none

end LeanGate

end KakeyaEngine
