import RequestGuard.Json.Read
import RequestGuard.Service.Failure
import RequestGuard.Service.UrlEncoded

/-!
# Intake

Reading the fields of a request. First the body is taken whole, up to a limit on its length. Then
come the pairs of the query. The body is decoded last, and only for a request whose fields are in
its body: as JSON, as a form, or not at all, by what its first `Content-Type` says. So a body that
is too long or breaks off is the first thing to fail, and a malformed one fails only where it is
asked for.
-/

namespace RequestGuard.Service

/-- What a body is, as far as fields can be read from it. -/
inductive MediaType where
  | json
  | form
  | other
deriving DecidableEq, Repr

namespace MediaType

/-- Whether the byte is an ASCII character that shows, a space or a tab. -/
def isVisible (b : UInt8) : Bool :=
  (0x20 ≤ b && b < 0x7F) || b == 0x09

/-- The media type in a value of `Content-Type`: what stands before the first semicolon, without
blanks at its ends and in lower case. -/
def ofText (cs : List Char) : MediaType :=
  let name := (Text.trim (cs.takeWhile (· ≠ ';'))).map Char.toLower
  if name = "application/json".toList ∨ "+json".toList <:+ name then json
  else if name = "application/x-www-form-urlencoded".toList then form
  else other

/-- The media type of a request's body. A value with other bytes than visible ASCII counts as
empty. -/
def ofRequest (r : Request) : MediaType :=
  match r.header? "content-type" with
  | some value => if value.all isVisible then ofText (value.map fun b => Char.ofNat b.toNat) else other
  | none => other

end MediaType

/-- The failure of a body that is not buffered up to a limit. -/
def Failure.ofUnbuffered (limit : Nat) : Unbuffered → Failure
  | .tooLong => .tooLarge limit
  | .broken => .unreadable .brokenBody

/-- Gives the fields of a source the texts of some pairs in turn. -/
def insertPairs (d : RequestData) (s : Source) (ps : List (String × String)) : RequestData :=
  d.insertAll s (ps.map fun p => (p.1, .text p.2))

/-- Adds the fields of a body to data. An empty body has none, whatever it is said to be. -/
def readBody (type : MediaType) (bytes : List UInt8) (d : RequestData) : Except Unreadable RequestData :=
  if bytes.isEmpty then .ok d
  else
    match type with
    | .json =>
      match Json.read bytes with
      | .ok v => (d.insertJson .body v).mapError .request
      | .error e => .error (.malformedJson e)
    | .form =>
      match (Body.whole bytes).buffer bufferLimit with
      | .ok bytes => .ok (insertPairs d .body (UrlEncoded.pairs bytes))
      | .error why => .error (.unbufferedForm why)
    | .other => .ok d

/-- The fields of a request whose body has these bytes, those of the body only if that is their
source. -/
def readFields (source : Source) (r : Request) (bytes : List UInt8) : Except Unreadable RequestData :=
  let d := insertPairs .empty .query (UrlEncoded.pairs r.target.query)
  match source with
  | .query => .ok d
  | .body => readBody (.ofRequest r) bytes d

/-- Reads a request: its body's bytes and its fields. -/
def Request.read (r : Request) (limit : Nat) (source : Source) : Except Failure (List UInt8 × RequestData) :=
  match r.body.buffer limit with
  | .error why => .error (.ofUnbuffered limit why)
  | .ok bytes =>
    match readFields source r bytes with
    | .error why => .error (.unreadable why)
    | .ok d => .ok (bytes, d)

/-- The bytes that are read of a request are its body. -/
theorem Request.body_eq_of_read {r : Request} {limit : Nat} {source : Source}
    {bytes : List UInt8} {d : RequestData} (h : r.read limit source = .ok (bytes, d)) :
    r.body = .whole bytes := by
  unfold read at h
  split at h
  · cases h
  · rename_i hbuffer
    split at h
    · cases h
    · cases h
      exact Body.eq_whole_of_buffer hbuffer

end RequestGuard.Service
