import RequestGuard.Calendar.Spelling
import RequestGuard.Calendar.Timestamp
import RequestGuard.Json.Written

/-!
# Field values

What a field of a request may hold. Query strings and forms give texts; members of a JSON object
keep their kind, and what is neither a text, a truth value nor a number stays JSON. Coercion gives
the other kinds.

`same` is equality as values: a number and an integer are compared as numbers, the integer rounded,
and nothing else crosses kinds.
-/

namespace RequestGuard

/-- The value of a field. -/
inductive FieldValue where
  | text (value : String)
  | number (value : Binary64)
  | integer (value : Int64)
  | boolean (value : Bool)
  | date (value : Instant)
  | json (value : Document)

/-- The 64-bit integer that a whole number is, if it is in range. -/
def Int64.ofInt? (i : Int) : Option Int64 :=
  if -0x8000000000000000 ≤ i ∧ i < 0x8000000000000000 then some (Int64.ofInt i) else none

namespace FieldValue

/-! ## Views -/

/-- The name of the value's kind. -/
def kind : FieldValue → String
  | text _ => "text"
  | number _ => "number"
  | integer _ => "integer"
  | boolean _ => "boolean"
  | date _ => "date"
  | json _ => "json"

/-- The text of a text. -/
def text? : FieldValue → Option String
  | text s => some s
  | _ => none

/-- The number that a number or an integer is, the integer rounded. -/
def number? : FieldValue → Option Binary64
  | number x => some x
  | integer i => some (.ofInt i.toInt)
  | _ => none

/-- The integer of an integer. -/
def integer? : FieldValue → Option Int64
  | integer i => some i
  | _ => none

/-- The truth value of a truth value. -/
def boolean? : FieldValue → Option Bool
  | boolean b => some b
  | _ => none

/-- The instant of a date. -/
def date? : FieldValue → Option Instant
  | date d => some d
  | _ => none

/-! ## Equality -/

/-- Equality as values. -/
def same : FieldValue → FieldValue → Bool
  | text a, text b => a == b
  | integer a, integer b => a == b
  | boolean a, boolean b => a == b
  | date a, date b => a == b
  | json a, json b => a.val.same b.val
  | a, b =>
    match a.number?, b.number? with
    | some x, some y => x.numEq y
    | _, _ => false

/-! ## Dates -/

/-- The instant that a value denotes: a date itself, a number by epoch milliseconds, a text by its
spelling. -/
def instant? : FieldValue → Option Instant
  | date d => some d
  | integer ms => Instant.ofEpochMillis? ms.toInt
  | number ms => Instant.ofBinary64? ms
  | text s => Instant.ofText? s
  | boolean _ => none
  | json _ => none

/-! ## JSON and text -/

/-- The value that a member of a JSON object gives its field. -/
def ofDocument : Document → FieldValue
  | ⟨.string s, _⟩ => text s
  | ⟨.boolean b, _⟩ => boolean b
  | ⟨.number (.integer i _), _⟩ =>
    match Int64.ofInt? i with
    | some i => integer i
    | none => number (.ofInt i)
  | ⟨.number (.float x _), _⟩ => number x
  | d => json d

/-- The value as JSON. A date is its timestamp, and a number without digits is null. -/
def toJson : FieldValue → Json
  | text s => .string s
  | number x =>
    match Json.Number.ofBinary64? x with
    | some n => .number n
    | none => .null
  | integer i =>
    match Json.Number.ofInt? i.toInt with
    | some n => .number n
    | none => .null
  | boolean b => .boolean b
  | date d => .string (String.ofList (Timestamp.write .exact d))
  | json d => d.val

/-- The value as people read it. A JSON string stands without quotes. -/
def display : FieldValue → String
  | text s => s
  | number x => String.ofList (Notation.display.write x)
  | integer i => String.ofList (Numeral.writeInt i.toInt)
  | boolean true => "true"
  | boolean false => "false"
  | date d => String.ofList (Timestamp.write .millis d)
  | json ⟨.string s, _⟩ => s
  | json ⟨v, _⟩ => v.toText

end FieldValue

end RequestGuard
