import RequestGuard.Json.Token

/-!
# Reading JSON

A reader of JSON text, given as bytes, that makes documents. It is strict: nothing may follow the
value, and arrays and objects may lie at most 127 deep in one another (`maxDepth`). A member that is
named again keeps its first place and takes the last value.

`value` reads one level and is handed the reader of the levels below, so that the depth alone bounds
the recursion; the loops over items and members take a limit on their steps, for which the length of
the text is enough.
-/

namespace RequestGuard.Json

/-- How deep arrays and objects may lie in one another. -/
def maxDepth : Nat := 127

/-- The items of an array, after its opening bracket, with those so far in reverse. -/
def readItems (item : List UInt8 → Reading Document) : Nat → List Document → List UInt8 → Reading (List Document)
  | 0, _, bs => Stop.atNext .endInArray bs
  | limit + 1, held, bs =>
    let one (bs : List UInt8) : Reading (List Document) :=
      match item bs with
      | .ok (d, rest) => readItems item limit (d :: held) rest
      | .error e => .error e
    match skip bs with
    | [] => Stop.atNext .endInArray []
    | b :: rest =>
      if b = ']'.toUInt8 then .ok (held.reverse, rest)
      else if held.isEmpty then one (b :: rest)
      else if b = ','.toUInt8 then
        match skip rest with
        | [] => Stop.atNext .endInValue []
        | c :: rest => if c = ']'.toUInt8 then Stop.atNext .trailingComma (c :: rest) else one (c :: rest)
      else Stop.atNext .expectedArraySeparator (b :: rest)

/-- What comes next in an object, after its opening brace or a member: the bytes after the opening
quote of a name, or the end with the bytes after the closing brace. -/
inductive NextName where
  | name (rest : List UInt8)
  | done (rest : List UInt8)

/-- Looks for a member's name; only the first has no comma before it. -/
def nextName (first : Bool) (bs : List UInt8) : Except Stop NextName :=
  match skip bs with
  | [] => Stop.atNext .endInObject []
  | b :: rest =>
    if b = '\x7d'.toUInt8 then .ok (.done rest)
    else if first then
      if b = '"'.toUInt8 then .ok (.name rest) else Stop.atNext .nameNotString (b :: rest)
    else if b = ','.toUInt8 then
      match skip rest with
      | [] => Stop.atNext .endInValue []
      | c :: rest =>
        if c = '"'.toUInt8 then .ok (.name rest)
        else if c = '\x7d'.toUInt8 then Stop.atNext .trailingComma (c :: rest)
        else Stop.atNext .nameNotString (c :: rest)
    else Stop.atNext .expectedObjectSeparator (b :: rest)

/-- The colon between a name and its value. -/
def colon (bs : List UInt8) : Except Stop (List UInt8) :=
  match skip bs with
  | [] => Stop.atNext .endInObject []
  | b :: rest => if b = ':'.toUInt8 then .ok rest else Stop.atNext .expectedColon (b :: rest)

/-- The members of an object, after its opening brace, added to those so far. -/
def readMembers (item : List UInt8 → Reading Document) : Nat → Bool → Members → List UInt8 → Reading Members
  | 0, _, _, bs => Stop.atNext .endInObject bs
  | limit + 1, first, held, bs =>
    match nextName first bs with
    | .error e => .error e
    | .ok (.done rest) => .ok (held, rest)
    | .ok (.name rest) =>
      match readString limit rest with
      | .error e => .error e
      | .ok (name, rest) =>
        match colon rest with
        | .error e => .error e
        | .ok rest =>
          match item rest with
          | .error e => .error e
          | .ok (d, rest) => readMembers item limit false (held.put name d) rest

/-- A value from its first byte, given the reader of the values within it, or none where they would
lie too deep. -/
def valueAt (limit : Nat) (item : Option (List UInt8 → Reading Document)) (b : UInt8) (rest : List UInt8) :
    Reading Document :=
  if b = 'n'.toUInt8 then (word "ull".toList rest).map fun rest => (Document.null, rest)
  else if b = 't'.toUInt8 then (word "rue".toList rest).map fun rest => (Document.boolean true, rest)
  else if b = 'f'.toUInt8 then (word "alse".toList rest).map fun rest => (Document.boolean false, rest)
  else if b = '-'.toUInt8 then (readNumber true rest).map fun (n, rest) => (Document.number n, rest)
  else if isDigit b then (readNumber false (b :: rest)).map fun (n, rest) => (Document.number n, rest)
  else if b = '"'.toUInt8 then (readString limit rest).map fun (s, rest) => (Document.string s, rest)
  else if b = '['.toUInt8 then
    match item with
    | none => Stop.atNext .tooDeep (b :: rest)
    | some item => (readItems item limit [] rest).map fun (ds, rest) => (Document.array ds, rest)
  else if b = '\x7b'.toUInt8 then
    match item with
    | none => Stop.atNext .tooDeep (b :: rest)
    | some item => (readMembers item limit true .empty rest).map fun (ms, rest) => (ms.toDocument, rest)
  else Stop.atNext .expectedValue (b :: rest)

/-- A value, given the reader of the values within it. -/
def value (limit : Nat) (item : Option (List UInt8 → Reading Document)) (bs : List UInt8) : Reading Document :=
  match skip bs with
  | [] => Stop.atNext .endInValue []
  | b :: rest => valueAt limit item b rest

/-- A value in which arrays and objects lie at most `depth` deep. -/
def readValue (limit : Nat) : Nat → List UInt8 → Reading Document
  | 0 => value limit none
  | depth + 1 => value limit (some (readValue limit depth))

/-- What a reader gives when nothing but white space follows. -/
def wholly {α : Type} (r : Reading α) : Except Stop α :=
  match r with
  | .error e => .error e
  | .ok (a, rest) =>
    match skip rest with
    | [] => .ok a
    | b :: rest => Stop.atNext .trailingText (b :: rest)

/-- The document that a text is. -/
def read (text : List UInt8) : Except ReadError Document :=
  (wholly (readValue (text.length + 1) maxDepth text)).mapError (Stop.locate text)

end RequestGuard.Json
