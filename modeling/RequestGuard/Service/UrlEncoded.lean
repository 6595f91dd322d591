import RequestGuard.Text.Hex
import RequestGuard.Text.Split
import RequestGuard.Text.Utf8

/-!
# Name-value pairs in URL encoding

The form in which query strings and forms write pairs of texts. Ampersands divide the pairs, empty
ones do not count, and the first equals sign divides name and value. In either of them a plus sign
is a space and a percent sign with two hexadecimal digits is a byte; any other percent sign is
itself. The bytes are UTF-8, with U+FFFD for what is not, so that every byte sequence writes some
pairs.

Plus signs are replaced before percent signs are: `%2B` is a plus sign and not a space.
-/

namespace RequestGuard.Service.UrlEncoded

/-- The bytes that stand for themselves or behind a percent sign, with those so far in reverse. -/
def unescapeFrom (held : List UInt8) : List UInt8 → List UInt8
  | b :: h :: l :: rest =>
    if b = '%'.toUInt8 then
      match Text.hexDigit? h, Text.hexDigit? l with
      | some x, some y => unescapeFrom (UInt8.ofNat (16 * x + y) :: held) rest
      | _, _ => unescapeFrom (b :: held) (h :: l :: rest)
    else unescapeFrom (b :: held) (h :: l :: rest)
  | short => held.reverse ++ short
termination_by bs => bs.length

/-- The bytes that stand for themselves or behind a percent sign. -/
def unescape (bs : List UInt8) : List UInt8 :=
  unescapeFrom [] bs

/-- The text that a name or a value writes. -/
def decode (bs : List UInt8) : String :=
  let spaced := bs.map fun b => if b = '+'.toUInt8 then ' '.toUInt8 else b
  String.ofList (Text.Utf8.decodeLossy (unescape spaced))

/-- The pair that a piece between ampersands writes. -/
def pair (piece : List UInt8) : String × String :=
  match Text.splitFirst? '='.toUInt8 piece with
  | some (name, value) => (decode name, decode value)
  | none => (decode piece, "")

/-- The pairs that a byte sequence writes. -/
def pairs (bs : List UInt8) : List (String × String) :=
  ((Text.split '&'.toUInt8 bs).filter fun piece => !piece.isEmpty).map pair

end RequestGuard.Service.UrlEncoded
