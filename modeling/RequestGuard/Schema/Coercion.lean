import RequestGuard.Json.Read
import RequestGuard.Request.FieldValue
import RequestGuard.Schema.Mailbox

/-!
# Coercions

The kinds that a schema may ask a field's value to be of. A coercion either gives the value in that
kind or refuses it, and it gives back what it gave once: its results are fixed points. It looks at
the value alone.
-/

namespace RequestGuard

/-- A kind that a field's value can be brought into. -/
inductive Coercion where
  | number
  | integer
  | date
  | json
  | boolean
  | mailbox
deriving DecidableEq, Repr

namespace Coercion

/-- Every coercion. -/
def all : List Coercion := [number, integer, date, json, boolean, mailbox]

/-- The key that names the coercion in a schema. -/
def key : Coercion → String
  | number => "$number"
  | integer => "$int"
  | date => "$date"
  | json => "$json"
  | boolean => "$boolean"
  | mailbox => "$email"

/-- The coercion that a key names. -/
def ofKey? (k : String) : Option Coercion :=
  all.find? fun c => c.key == k

/-- What a message demands of a field. -/
def requirement : Coercion → String
  | number => "must be a number."
  | integer => "must be an integer."
  | date => "must be a valid date."
  | json => "must be in JSON format."
  | boolean => "must be true or false."
  | mailbox => "must be a valid email address."

/-- The finite number that a text is, blanks at its ends aside. -/
def finite? (s : String) : Option Binary64 :=
  (Numeral.binary64? (Text.trim s.toList)).filter Binary64.isFinite

/-- The 64-bit integer that a number without a fraction is. -/
def wholeInteger? (x : Binary64) : Option Int64 :=
  x.whole?.bind Int64.ofInt?

/-- The 64-bit integer that a text is: exactly where it is written as an integer, and by way of a
number otherwise. -/
def integerOfText? (s : String) : Option Int64 :=
  match Numeral.int64? (Text.trim s.toList) with
  | some i => some (Int64.ofInt i)
  | none => (finite? s).bind wholeInteger?

/-- A finite number, or an integer as it is. -/
def toNumber? : FieldValue → Option FieldValue
  | .number x => if x.isFinite then some (.number x) else none
  | .integer i => some (.integer i)
  | .text s => (finite? s).map .number
  | _ => none

/-- A 64-bit integer. -/
def toInteger? : FieldValue → Option FieldValue
  | .integer i => some (.integer i)
  | .number x => (wholeInteger? x).map .integer
  | .text s => (integerOfText? s).map .integer
  | _ => none

/-- JSON: a text is read, and a scalar is taken for what it is. -/
def toJson? : FieldValue → Option FieldValue
  | .text s =>
    match Json.read s.utf8Bytes with
    | .ok d => some (.json d)
    | .error _ => none
  | .json d => some (.json d)
  | .integer i => (Json.Number.ofInt? i.toInt).map fun n => .json (.number n)
  | .number x => (Json.Number.ofBinary64? x).map fun n => .json (.number n)
  | .boolean b => some (.json (.boolean b))
  | .date _ => none

/-- A truth value, which a text has to spell exactly. -/
def toBoolean? : FieldValue → Option FieldValue
  | .boolean b => some (.boolean b)
  | .text s => if s = "true" then some (.boolean true) else if s = "false" then some (.boolean false) else none
  | _ => none

/-- A text that is an address, as it is. -/
def toMailbox? : FieldValue → Option FieldValue
  | .text s => if Mailbox.accepts s.toList then some (.text s) else none
  | _ => none

/-- The value in the kind asked for, if it has one. -/
def coerce? : Coercion → FieldValue → Option FieldValue
  | number, v => toNumber? v
  | integer, v => toInteger? v
  | date, v => v.instant?.map .date
  | json, v => toJson? v
  | boolean, v => toBoolean? v
  | mailbox, v => toMailbox? v

end Coercion

end RequestGuard
