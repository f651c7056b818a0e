import Mathlib.Algebra.Order.Floor.Defs
import Mathlib.Data.Rat.Floor
import KakeyaEngine.Lib.Dict

/-!
# Untyped values

The values that a JSON text stands for in a dynamically typed language.  A floating point number is kept as the text that
the language prints for it.  `truthy` is its truth value, `same` its equality, in which numbers compare by their value, and
`text` its conversion to a string, in which the quoting of nested strings is the parameter `quote`.
-/

inductive PyValue where
  | null
  | bool (b : Bool)
  | int (n : Int)
  | float (text : String)
  | str (s : String)
  | list (items : List PyValue)
  | dict (entries : List (String × PyValue))

namespace PyValue

/-- The truth value: zero and what is empty are false. -/
def truthy : PyValue → Bool
  | null => false
  | bool b => b
  | int n => n != 0
  | float t => t != "0.0" && t != "-0.0"
  | str s => s != ""
  | list items => !items.isEmpty
  | dict entries => !entries.isEmpty

/-- The mapping that a value is. -/
def mapping? : PyValue → Option (Dict String PyValue)
  | dict entries => some (Dict.ofEntries entries)
  | _ => none

/-- `value[key]` of a mapping that has the key. -/
def item? (key : String) (v : PyValue) : Option PyValue := v.mapping?.bind (·.get? key)

/-! ### Numbers -/

def digits (cs : List Char) : Nat := cs.foldl (fun n c => 10 * n + (c.toNat - '0'.toNat)) 0

/-- The number that a text such as `12.5e-07` shows, if it shows one. -/
def decimalValue (cs : List Char) : Option ℚ :=
  let whole := cs.takeWhile Char.isDigit
  let rest := cs.drop whole.length
  let fraction := match rest with
    | '.' :: more => more.takeWhile Char.isDigit
    | _ => []
  let rest := if rest.head? = some '.' then rest.drop (fraction.length + 1) else rest
  let mantissa : ℚ := digits (whole ++ fraction) / 10 ^ fraction.length
  if whole = [] then none
  else match rest with
    | [] => some mantissa
    | 'e' :: '-' :: exponent => some (mantissa / 10 ^ digits exponent)
    | 'e' :: '+' :: exponent => some (mantissa * 10 ^ digits exponent)
    | 'e' :: exponent => some (mantissa * 10 ^ digits exponent)
    | _ => none

/-- The value of a finite number. -/
def number? : PyValue → Option ℚ
  | bool b => some (if b then 1 else 0)
  | int n => some n
  | float t =>
    match t.toList with
    | '-' :: cs => (decimalValue cs).map (- ·)
    | cs => decimalValue cs
  | _ => none

/-- Truncation towards zero, as `int(x)` does. -/
def truncate (q : ℚ) : Int := if q < 0 then -⌊-q⌋ else ⌊q⌋

mutual

/-- `a == b`. -/
def same : PyValue → PyValue → Bool
  | null, null => true
  | str s, str t => s = t
  | list xs, list ys => sameItems xs ys
  | dict es, dict fs => es.length = fs.length && sameEntries es fs
  | bool b, v => v.number? = (bool b).number?
  | int n, v => v.number? = (int n).number?
  | float t, v =>
    match (float t).number? with
    | some x => v.number? = some x
    | none =>
      match v with
      | float u => t = u && t != "nan"
      | _ => false
  | _, _ => false

def sameItems : List PyValue → List PyValue → Bool
  | [], [] => true
  | v :: vs, w :: ws => same v w && sameItems vs ws
  | _, _ => false

/-- Every entry of the first list is one of the second. -/
def sameEntries : List (String × PyValue) → List (String × PyValue) → Bool
  | [], _ => true
  | (k, v) :: es, fs =>
    (match fs.lookup k with
      | some w => same v w
      | none => false) && sameEntries es fs

end

section Text

variable (quote : String → String)

mutual

/-- `repr(value)`. -/
def repr : PyValue → String
  | null => "None"
  | bool b => if b then "True" else "False"
  | int n => toString n
  | float t => t
  | str s => quote s
  | list items => "[" ++ ", ".intercalate (reprItems items) ++ "]"
  | dict entries => "\x7b" ++ ", ".intercalate (reprEntries entries) ++ "\x7d"

/-- The items of a list. -/
def reprItems : List PyValue → List String
  | [] => []
  | v :: vs => repr v :: reprItems vs

/-- The entries of a mapping. -/
def reprEntries : List (String × PyValue) → List String
  | [] => []
  | (k, v) :: es => (quote k ++ ": " ++ repr v) :: reprEntries es

end

/-- `str(value)`. -/
def text : PyValue → String
  | str s => s
  | v => repr quote v

end Text

@[simp] theorem text_str (quote : String → String) (s : String) : text quote (str s) = s := rfl

end PyValue
