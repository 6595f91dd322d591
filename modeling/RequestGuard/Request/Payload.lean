import RequestGuard.Json.Skip
import RequestGuard.Request.Data

/-!
# Request data as JSON text

Data is written as an object with the members `query` and `body`. It is read from such an object, of
which either member may be missing, neither may be named twice and others are passed over, or from
an array of the two.
-/

namespace RequestGuard.RequestData

open Json (Reading Stop Found skip)

/-- What a value that begins with this byte is, when something else was wanted there. -/
def findAt (limit : Nat) (b : UInt8) (rest : List UInt8) : Reading Found :=
  if b = '['.toUInt8 then .ok (.sequence, b :: rest)
  else
    (Json.valueAt limit none b rest).map fun (d, rest) =>
      match d.val with
      | .boolean v => (.boolean v, rest)
      | .number n => (.number n, rest)
      | .string s => (.string s, rest)
      | _ => (.null, rest)

/-- The fault of a value that begins with this byte where something else was wanted. -/
def mismatch {α : Type} (wanted : String) (limit : Nat) (b : UInt8) (rest : List UInt8) : Except Stop α :=
  match findAt limit b rest with
  | .ok (found, rest) => Stop.here (.mismatch found wanted) rest
  | .error e => .error e

/-- The fields of one source: an object in which arrays and objects lie at most `depth` deep. -/
def readFields (limit depth : Nat) (bs : List UInt8) : Reading Fields :=
  match skip bs with
  | [] => Stop.atNext .endInValue []
  | b :: rest =>
    if b = '\x7b'.toUInt8 then
      (Json.readMembers (Json.readValue limit depth) limit true .empty rest).map fun (ms, rest) =>
        (Fields.empty.insertAll (ms.toList.map fun m => (m.1, FieldValue.ofDocument m.2)), rest)
    else mismatch "a map" limit b rest

/-- How deep arrays and objects may lie in a field's value, given the object and the source around
it. -/
def valueDepth : Nat := Json.maxDepth - 2

/-! ## As an array -/

/-- The next source in the array, or none at its end. -/
def readElement (limit : Nat) (first : Bool) (bs : List UInt8) : Reading (Option Fields) :=
  let one (bs : List UInt8) : Reading (Option Fields) :=
    (readFields limit valueDepth bs).map fun (fs, rest) => (some fs, rest)
  match skip bs with
  | [] => Stop.atNext .endInArray []
  | b :: rest =>
    if b = ']'.toUInt8 then .ok (none, b :: rest)
    else if first then one (b :: rest)
    else if b = ','.toUInt8 then
      match skip rest with
      | [] => Stop.atNext .endInValue []
      | c :: rest => if c = ']'.toUInt8 then Stop.atNext .trailingComma (c :: rest) else one (c :: rest)
    else Stop.atNext .expectedArraySeparator (b :: rest)

/-- The end of the array, after which no element may follow. -/
def closeArray (bs : List UInt8) : Except Stop (List UInt8) :=
  match skip bs with
  | [] => Stop.atNext .endInArray []
  | b :: rest =>
    if b = ']'.toUInt8 then .ok rest
    else if b = ','.toUInt8 then
      match skip rest with
      | c :: rest => Stop.atNext (if c = ']'.toUInt8 then .trailingComma else .trailingText) (c :: rest)
      | [] => Stop.atNext .trailingText []
    else Stop.atNext .trailingText (b :: rest)

/-- Query and body in this order, after the opening bracket. -/
def readArray (limit : Nat) (bs : List UInt8) : Reading RequestData :=
  match readElement limit true bs with
  | .error e => .error e
  | .ok (none, rest) => (closeArray rest).map (RequestData.empty, ·)
  | .ok (some query, rest) =>
    match readElement limit false rest with
    | .error e => .error e
    | .ok (body, rest) => (closeArray rest).map (⟨query, body.getD .empty⟩, ·)

/-! ## As an object -/

/-- The sources read so far. -/
structure Partial where
  query : Option Fields := none
  body : Option Fields := none

/-- Whether a source has been read. -/
def Partial.has (p : Partial) : Source → Bool
  | .query => p.query.isSome
  | .body => p.body.isSome

/-- Puts a source that has been read. -/
def Partial.set (p : Partial) (fs : Fields) : Source → Partial
  | .query => { p with query := some fs }
  | .body => { p with body := some fs }

/-- The source that a member's name stands for. -/
def sourceOfName? (name : String) : Option Source :=
  if name = "query" then some .query else if name = "body" then some .body else none

/-- The bytes at which a member named again is noticed: after the white space behind its name, and
after a closing brace there. -/
def afterRepeated (bs : List UInt8) : List UInt8 :=
  match skip bs with
  | [] => []
  | b :: rest => if b = '\x7d'.toUInt8 then rest else b :: rest

/-- The members of the object, after its opening brace. -/
def readObject (limit : Nat) : Nat → Bool → Partial → List UInt8 → Reading RequestData
  | 0, _, _, bs => Stop.atNext .endInObject bs
  | steps + 1, first, p, bs =>
    match Json.nextName first bs with
    | .error e => .error e
    | .ok (.done rest) => .ok (⟨p.query.getD .empty, p.body.getD .empty⟩, rest)
    | .ok (.name rest) =>
      match Json.readString limit rest with
      | .error e => .error e
      | .ok (name, rest) =>
        match sourceOfName? name with
        | some s =>
          if p.has s then Stop.here (.repeated name) (afterRepeated rest)
          else
            match (Json.colon rest).bind (readFields limit valueDepth) with
            | .error e => .error e
            | .ok (fs, rest) => readObject limit steps false (p.set fs s) rest
        | none =>
          match (Json.colon rest).bind (Json.skipValue limit) with
          | .error e => .error e
          | .ok rest => readObject limit steps false p rest

/-- Request data from the front of a text. -/
def readFrom (limit : Nat) (bs : List UInt8) : Reading RequestData :=
  match skip bs with
  | [] => Stop.atNext .endInValue []
  | b :: rest =>
    if b = '['.toUInt8 then readArray limit rest
    else if b = '\x7b'.toUInt8 then readObject limit limit true {} rest
    else mismatch "struct RequestData" limit b rest

/-- The request data that a text is. -/
def read (text : List UInt8) : Except RequestError RequestData :=
  (Json.wholly (readFrom (2 * text.length + 2) text)).mapError fun s => .unreadable (s.locate text)

end RequestGuard.RequestData
