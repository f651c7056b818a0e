import KakeyaEngine.Lib.PyValue
import KakeyaEngine.Lib.Json

/-!
# JSON texts of untyped values

The text of a value with every character outside the control range written as it is, on one line with a blank after each
separator, compact, or indented by two blanks a level.
-/

namespace PyValue

open Json (hex4 insertMember)

/-- The escape of one character of a string. -/
def escapeChar (c : Char) : List Char :=
  if c = '"' then ['\\', '"']
  else if c = '\\' then ['\\', '\\']
  else if c = '\n' then ['\\', 'n']
  else if c = '\r' then ['\\', 'r']
  else if c = '\t' then ['\\', 't']
  else if c = '\x0c' then ['\\', 'f']
  else if c = '\x08' then ['\\', 'b']
  else if c.toNat < 32 then '\\' :: 'u' :: hex4 c.toNat
  else [c]

def quoted (s : String) : List Char := '"' :: (s.toList.flatMap escapeChar ++ ['"'])

/-- A floating point number. -/
def floatText (text : String) : List Char :=
  if text = "nan" then "NaN".toList
  else if text = "inf" then "Infinity".toList
  else if text = "-inf" then "-Infinity".toList
  else text.toList

/-- Texts with a separator between them. -/
def joined (sep : List Char) (texts : List (List Char)) : List Char := List.intercalate sep texts

/-- The members of an object, sorted by key. -/
def sortMembers (members : List (String × List Char)) : List (String × List Char) := members.foldr insertMember []

/-- One way to write a value: sorted or in the order of the keys, and the two separators. -/
structure Layout where
  sortKeys : Bool
  item : List Char
  key : List Char

def Layout.members (l : Layout) (ms : List (String × List Char)) : List (List Char) :=
  (if l.sortKeys then sortMembers ms else ms).map fun m => quoted m.1 ++ l.key ++ m.2

mutual

/-- The text on one line. -/
def dumps (l : Layout) : PyValue → List Char
  | null => "null".toList
  | bool b => Json.bool b
  | int n => Json.int n
  | float t => floatText t
  | str s => quoted s
  | list items => '[' :: (joined l.item (dumpsItems l items) ++ [']'])
  | dict entries => '\x7b' :: (joined l.item (l.members (dumpsEntries l entries)) ++ ['\x7d'])

def dumpsItems (l : Layout) : List PyValue → List (List Char)
  | [] => []
  | v :: vs => dumps l v :: dumpsItems l vs

def dumpsEntries (l : Layout) : List (String × PyValue) → List (String × List Char)
  | [] => []
  | (k, v) :: es => (k, dumps l v) :: dumpsEntries l es

end

/-- A line break and the indentation of a level. -/
def newline (level : Nat) : List Char := '\n' :: List.replicate (2 * level) ' '

/-- The items of a level between brackets. -/
def block (opening closing : Char) (level : Nat) (texts : List (List Char)) : List Char :=
  if texts = [] then [opening, closing]
  else opening :: (newline (level + 1) ++ joined (',' :: newline (level + 1)) texts ++ newline level ++ [closing])

mutual

/-- The indented text, at a level. -/
def dumpsIndented (level : Nat) : PyValue → List Char
  | null => "null".toList
  | bool b => Json.bool b
  | int n => Json.int n
  | float t => floatText t
  | str s => quoted s
  | list items => block '[' ']' level (indentedItems level items)
  | dict entries => block '\x7b' '\x7d' level (indentedEntries level entries)

def indentedItems (level : Nat) : List PyValue → List (List Char)
  | [] => []
  | v :: vs => dumpsIndented (level + 1) v :: indentedItems level vs

def indentedEntries (level : Nat) : List (String × PyValue) → List (List Char)
  | [] => []
  | (k, v) :: es => (quoted k ++ ": ".toList ++ dumpsIndented (level + 1) v) :: indentedEntries level es

end

example : dumpsIndented 0 (dict [("b", list [int 1, dict []]), ("a", list [])]) =
    "\x7b\n  \"b\": [\n    1,\n    \x7b\x7d\n  ],\n  \"a\": []\n\x7d".toList := by decide

end PyValue
