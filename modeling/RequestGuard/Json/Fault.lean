import RequestGuard.Json.Written
import RequestGuard.Text.Quoted

/-!
# What is wrong with a JSON text

A reader that stops gives a `Stop`: the fault, and the bytes it had not yet passed. From those and
the whole text comes the place of the fault, a line and a column, where the column counts the bytes
passed in its line. A fault of the byte that comes next passes that byte (`Stop.atNext`), so that
its column is that byte's own.
-/

namespace RequestGuard.Json

/-- What was found where something else was wanted. -/
inductive Found where
  | null
  | boolean (value : Bool)
  | number (value : Number)
  | string (value : String)
  | sequence
deriving DecidableEq

/-- Why a JSON text cannot be read, or cannot be read as what was wanted. -/
inductive Fault where
  | endInArray
  | endInObject
  | endInString
  | endInValue
  | expectedColon
  | expectedArraySeparator
  | expectedObjectSeparator
  | expectedWord
  | expectedValue
  | invalidEscape
  | invalidNumber
  | numberOutOfRange
  | invalidUtf8
  | controlInString
  | nameNotString
  | loneSurrogate
  | unfinishedSurrogatePair
  | trailingComma
  | trailingText
  | tooDeep
  | mismatch (found : Found) (wanted : String)
  | repeated (member : String)
deriving DecidableEq

/-- How a message names what was found. -/
def Found.describe : Found → String
  | null => "null"
  | boolean true => "boolean `true`"
  | boolean false => "boolean `false`"
  | number (.integer i h) => "integer `" ++ String.ofList (Number.integer i h).write ++ "`"
  | number (.float x h) => "floating point `" ++ String.ofList (Number.float x h).write ++ "`"
  | string s => "string " ++ Text.quoted s
  | sequence => "sequence"

/-- The wording of a fault, without its place. -/
def Fault.message : Fault → String
  | endInArray => "EOF while parsing a list"
  | endInObject => "EOF while parsing an object"
  | endInString => "EOF while parsing a string"
  | endInValue => "EOF while parsing a value"
  | expectedColon => "expected `:`"
  | expectedArraySeparator => "expected `,` or `]`"
  | expectedObjectSeparator => "expected `,` or `\x7d`"
  | expectedWord => "expected ident"
  | expectedValue => "expected value"
  | invalidEscape => "invalid escape"
  | invalidNumber => "invalid number"
  | numberOutOfRange => "number out of range"
  | invalidUtf8 => "invalid unicode code point"
  | controlInString => "control character (\\u0000-\\u001F) found while parsing a string"
  | nameNotString => "key must be a string"
  | loneSurrogate => "lone leading surrogate in hex escape"
  | unfinishedSurrogatePair => "unexpected end of hex escape"
  | trailingComma => "trailing comma"
  | trailingText => "trailing characters"
  | tooDeep => "recursion limit exceeded"
  | mismatch found wanted => "invalid type: " ++ found.describe ++ ", expected " ++ wanted
  | repeated member => "duplicate field `" ++ member ++ "`"

/-- A fault and the bytes not passed when it was noticed. -/
structure Stop where
  fault : Fault
  rest : List UInt8

/-- A value read and the bytes after it, or where reading stopped. -/
abbrev Reading (α : Type) := Except Stop (α × List UInt8)

/-- A fault of what has been passed. -/
def Stop.here {α : Type} (fault : Fault) (rest : List UInt8) : Except Stop α :=
  .error ⟨fault, rest⟩

/-- A fault of the byte that comes next, or of the end of the text. -/
def Stop.atNext {α : Type} (fault : Fault) (rest : List UInt8) : Except Stop α :=
  .error ⟨fault, rest.tail⟩

/-- A fault and its place. -/
structure ReadError where
  fault : Fault
  line : Nat
  column : Nat
deriving DecidableEq

/-- The place of a stop in the whole text. -/
def Stop.locate (text : List UInt8) (s : Stop) : ReadError :=
  let passed := text.take (text.length - s.rest.length)
  { fault := s.fault
    line := 1 + passed.count 0x0A
    column := (passed.reverse.takeWhile (· != 0x0A)).length }

/-- The fault with its place. -/
def ReadError.message (e : ReadError) : String :=
  e.fault.message ++ " at line " ++ String.ofList (Nat.toDigits 10 e.line) ++
    " column " ++ String.ofList (Nat.toDigits 10 e.column)

end RequestGuard.Json
