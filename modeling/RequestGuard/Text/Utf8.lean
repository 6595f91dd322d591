/-!
# UTF-8

Encoding of characters as bytes, and a decoder that reads a byte at a time. The decoder never stops:
a sequence that is no character gives one hole (`none`) for its longest prefix that could still have
become one, and reading resumes at the byte that broke it. `decode?` asks for no hole at all,
`fromHole` looks for the first one, and `decodeLossy` puts U+FFFD in each.

The table of lead bytes is that of RFC 3629: it leaves out the overlong forms, the surrogates and
all above U+10FFFF by narrowing the range of the second byte.
-/

namespace RequestGuard.Text.Utf8

/-- The bytes of a text. -/
def encode (cs : List Char) : List UInt8 :=
  cs.flatMap String.utf8EncodeChar

/-- A character that has begun: how many bytes it still needs, the range that the next of them must
lie in, and the bits read so far. -/
structure Pending where
  need : Nat
  low : UInt8
  high : UInt8
  bits : Nat

/-- The continuation bytes that a lead byte of two, three or four bytes asks for, or `none` for any
other byte. -/
def Pending.ofLead? (b : UInt8) : Option Pending :=
  if 0xC2 ≤ b && b ≤ 0xDF then some ⟨1, 0x80, 0xBF, b.toNat - 0xC0⟩
  else if b == 0xE0 then some ⟨2, 0xA0, 0xBF, 0⟩
  else if b == 0xED then some ⟨2, 0x80, 0x9F, 0xD⟩
  else if 0xE1 ≤ b && b ≤ 0xEF then some ⟨2, 0x80, 0xBF, b.toNat - 0xE0⟩
  else if b == 0xF0 then some ⟨3, 0x90, 0xBF, 0⟩
  else if 0xF1 ≤ b && b ≤ 0xF3 then some ⟨3, 0x80, 0xBF, b.toNat - 0xF0⟩
  else if b == 0xF4 then some ⟨3, 0x80, 0x8F, 4⟩
  else none

/-- The reader's place between two bytes: the character begun, if any, and what has been read, last
first. -/
structure Place where
  pending : Option Pending
  read : List (Option Char)

/-- A byte that follows no unfinished character. -/
def Place.lead (read : List (Option Char)) (b : UInt8) : Place :=
  if b < 0x80 then ⟨none, some (Char.ofNat b.toNat) :: read⟩
  else match Pending.ofLead? b with
    | some p => ⟨some p, read⟩
    | none => ⟨none, none :: read⟩

/-- One byte. A byte out of the awaited range leaves a hole for what had begun and is then read as a
lead byte. -/
def Place.next (p : Place) (b : UInt8) : Place :=
  match p.pending with
  | none => .lead p.read b
  | some q =>
    if q.low ≤ b && b ≤ q.high then
      let bits := q.bits * 64 + b.toNat % 64
      if q.need ≤ 1 then ⟨none, some (Char.ofNat bits) :: p.read⟩
      else ⟨some ⟨q.need - 1, 0x80, 0xBF, bits⟩, p.read⟩
    else .lead (none :: p.read) b

/-- What has been read in order; an unfinished character at the end is a hole. -/
def Place.finish (p : Place) : List (Option Char) :=
  match p.pending with
  | none => p.read.reverse
  | some _ => (none :: p.read).reverse

/-- The characters and holes of a byte sequence. -/
def symbols (bs : List UInt8) : List (Option Char) :=
  (bs.foldl Place.next ⟨none, []⟩).finish

/-- The characters, when every byte belongs to one. -/
def decode? (bs : List UInt8) : Option (List Char) :=
  (symbols bs).mapM id

/-- The characters before the first hole. -/
def leading (bs : List UInt8) : List Char :=
  ((symbols bs).takeWhile Option.isSome).filterMap id

/-- The bytes from the first one that belongs to no character on. -/
def fromHole (bs : List UInt8) : List UInt8 :=
  bs.drop (encode (leading bs)).length

/-- The characters, with U+FFFD in place of each hole. -/
def decodeLossy (bs : List UInt8) : List Char :=
  (symbols bs).map (·.getD '\uFFFD')

end RequestGuard.Text.Utf8

/-- The bytes of a text in UTF-8. -/
def String.utf8Bytes (s : String) : List UInt8 :=
  RequestGuard.Text.Utf8.encode s.toList
