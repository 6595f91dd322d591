import RequestGuard.Json.Basic
import RequestGuard.Number.Notation
import RequestGuard.Number.Numeral

/-!
# JSON text

The one text of a value: no blanks, members in their order, integers in plain digits, other numbers
in the notation `Notation.json`, and in strings an escape for the quote, the backslash and the
controls below the space and for nothing else.
-/

namespace RequestGuard.Json

/-- A character inside a string. -/
def writeChar (c : Char) : List Char :=
  if c = '"' then ['\\', '"']
  else if c = '\\' then ['\\', '\\']
  else if c = '\x08' then ['\\', 'b']
  else if c = '\t' then ['\\', 't']
  else if c = '\n' then ['\\', 'n']
  else if c = '\x0C' then ['\\', 'f']
  else if c = '\r' then ['\\', 'r']
  else if c.val < 0x20 then
    ['\\', 'u', '0', '0', Nat.digitChar (c.toNat / 16), Nat.digitChar (c.toNat % 16)]
  else [c]

/-- A string. -/
def writeString (s : String) : List Char :=
  '"' :: s.toList.flatMap writeChar ++ ['"']

/-- A number. -/
def Number.write : Number → List Char
  | .integer i _ => Numeral.writeInt i
  | .float x _ => Notation.json.write x

mutual

/-- The text of a value. -/
def write : Json → List Char
  | null => "null".toList
  | boolean true => "true".toList
  | boolean false => "false".toList
  | number n => n.write
  | string s => writeString s
  | array items => '[' :: writeItems items ++ [']']
  | object members => '\x7b' :: writeMembers members ++ ['\x7d']

/-- Items with commas between them. -/
def writeItems : List Json → List Char
  | [] => []
  | [v] => v.write
  | v :: w :: vs => v.write ++ ',' :: writeItems (w :: vs)

/-- Members with commas between them. -/
def writeMembers : List (String × Json) → List Char
  | [] => []
  | [(name, v)] => writeString name ++ ':' :: v.write
  | (name, v) :: m :: ms => writeString name ++ ':' :: v.write ++ ',' :: writeMembers (m :: ms)

end

/-- The text of a value, as a string. -/
def toText (v : Json) : String :=
  String.ofList v.write

end RequestGuard.Json
