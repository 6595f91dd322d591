import RequestGuard.Json.Fault
import RequestGuard.Text.Hex
import RequestGuard.Text.Utf8

/-!
# Words, strings and numbers of JSON text

Readers of the pieces that have no pieces. Each takes the bytes that follow what announced it (the
opening quote, the first letter, the minus sign) and gives the value with the bytes after it.

A number that is no integer of 64 bits becomes a binary64 number in two rounded steps: the digits as
far as an unsigned 64-bit word holds them, rounded, and that times or divided by the rounded power
of ten. Digits beyond the word only move the exponent or are dropped. A number too small becomes
zero and one too large is a fault.
-/

namespace RequestGuard.Json

open Text (hexDigit?)

/-- White space between tokens: the space, the tab and the two line controls. -/
def isSpace (b : UInt8) : Bool :=
  b == 0x20 || b == 0x09 || b == 0x0A || b == 0x0D

/-- The text from its next byte that is no white space. -/
def skip (bs : List UInt8) : List UInt8 :=
  bs.dropWhile isSpace

/-- Whether the byte is an ASCII digit. -/
def isDigit (b : UInt8) : Bool :=
  '0'.toUInt8 ≤ b && b ≤ '9'.toUInt8

/-! ## Words -/

/-- The rest of a word that must come next. -/
def word : List Char → List UInt8 → Except Stop (List UInt8)
  | [], bs => .ok bs
  | _ :: _, [] => Stop.here .endInValue []
  | c :: cs, b :: bs => if b = c.toUInt8 then word cs bs else Stop.here .expectedWord bs

/-! ## Strings -/

/-- The number that four hexadecimal digits write. -/
def hex4 : List UInt8 → Reading Nat
  | a :: b :: c :: d :: rest =>
    match hexDigit? a, hexDigit? b, hexDigit? c, hexDigit? d with
    | some a, some b, some c, some d => .ok (((a * 16 + b) * 16 + c) * 16 + d, rest)
    | _, _, _, _ => Stop.here .invalidEscape rest
  | _ => Stop.here .endInString []

/-- The second half of a surrogate pair, after the first. -/
def lowSurrogate (high : Nat) : List UInt8 → Reading Char
  | [] => Stop.here .endInString []
  | b :: bs =>
    if b ≠ '\\'.toUInt8 then Stop.here .unfinishedSurrogatePair bs
    else match bs with
      | [] => Stop.here .endInString []
      | u :: bs =>
        if u ≠ 'u'.toUInt8 then Stop.here .unfinishedSurrogatePair bs
        else match hex4 bs with
          | .error e => .error e
          | .ok (low, rest) =>
            if 0xDC00 ≤ low ∧ low ≤ 0xDFFF then
              .ok (Char.ofNat ((high - 0xD800) * 0x400 + (low - 0xDC00) + 0x10000), rest)
            else Stop.here .loneSurrogate rest

/-- The character of an escape with a code, after the `u`. -/
def codeEscape (bs : List UInt8) : Reading Char :=
  match hex4 bs with
  | .error e => .error e
  | .ok (n, rest) =>
    if 0xDC00 ≤ n ∧ n ≤ 0xDFFF then Stop.here .loneSurrogate rest
    else if 0xD800 ≤ n ∧ n ≤ 0xDBFF then lowSurrogate n rest
    else .ok (Char.ofNat n, rest)

/-- The character that a letter after the backslash stands for. -/
def letterEscape? (b : UInt8) : Option Char :=
  if b = '"'.toUInt8 then some '"'
  else if b = '\\'.toUInt8 then some '\\'
  else if b = '/'.toUInt8 then some '/'
  else if b = 'b'.toUInt8 then some '\x08'
  else if b = 'f'.toUInt8 then some '\x0C'
  else if b = 'n'.toUInt8 then some '\n'
  else if b = 'r'.toUInt8 then some '\r'
  else if b = 't'.toUInt8 then some '\t'
  else none

/-- The character of an escape, after the backslash. -/
def escape : List UInt8 → Reading Char
  | [] => Stop.here .endInString []
  | b :: bs =>
    match letterEscape? b with
    | some c => .ok (c, bs)
    | none => if b = 'u'.toUInt8 then codeEscape bs else Stop.here .invalidEscape bs

/-- The string up to its closing quote, with the bytes of its characters so far in reverse. The
limit bounds the steps; the length of the text is enough.

Whether the bytes are UTF-8 is asked at the closing quote, when escapes have become the bytes they
stand for. The place of the fault is counted back from there over those bytes, so it is that of the
first byte at fault only where no escape follows it. -/
def stringFrom : Nat → List UInt8 → List UInt8 → Reading String
  | _, _, [] => Stop.here .endInString []
  | 0, _, _ => Stop.here .endInString []
  | limit + 1, held, b :: bs =>
    if b = '"'.toUInt8 then
      match Text.Utf8.decode? held.reverse with
      | some cs => .ok (String.ofList cs, bs)
      | none => Stop.atNext .invalidUtf8 (Text.Utf8.fromHole held.reverse ++ b :: bs)
    else if b = '\\'.toUInt8 then
      match escape bs with
      | .ok (c, rest) => stringFrom limit ((String.utf8EncodeChar c).reverse ++ held) rest
      | .error e => .error e
    else if b < 0x20 then Stop.here .controlInString bs
    else stringFrom limit (b :: held) bs

/-- A string, after its opening quote. -/
def readString (limit : Nat) (bs : List UInt8) : Reading String :=
  stringFrom limit [] bs

/-! ## Numbers -/

/-- The digits of a number, as read. -/
structure Digits where
  /-- The leading digits, as far as an unsigned word holds them. -/
  leading : Nat
  /-- The power of ten that they are to be multiplied by. -/
  exponent : Int
  /-- Whether digits before the point did not fit. -/
  isLong : Bool

/-- Whether another digit fits an unsigned word of 64 bits. -/
def wordHolds (leading : Nat) (digit : UInt8) : Bool :=
  leading * 10 + (digit.toNat - 0x30) < UInt64.size

/-- The digits before the point. Once one does not fit, it and all after it only raise the
exponent. -/
def Digits.addWhole (d : Digits) (b : UInt8) : Digits :=
  if d.isLong || !wordHolds d.leading b then { d with exponent := d.exponent + 1, isLong := true }
  else { d with leading := d.leading * 10 + (b.toNat - 0x30) }

/-- The digits after the point. Once one does not fit, it and all after it are dropped. -/
def Digits.addFraction (d : Digits) : List UInt8 → Digits
  | [] => d
  | b :: bs =>
    if wordHolds d.leading b then
      Digits.addFraction { d with leading := d.leading * 10 + (b.toNat - 0x30), exponent := d.exponent - 1 } bs
    else d

/-- A power of ten, rounded. -/
def powerOfTen (k : Nat) : Binary64 :=
  Binary64.ofDecimal false 1 k

/-- The product `x · 10^exponent` in rounded steps, by at most `10^308` at a time; `none` when it is
too large. Three steps down turn any word into zero. -/
def scaled? : Nat → Binary64 → Int → Option Binary64
  | steps, x, exponent =>
    if exponent.natAbs ≤ 308 then
      if 0 ≤ exponent then
        let y := x * powerOfTen exponent.toNat
        if y.isFinite then some y else none
      else some (x / powerOfTen exponent.natAbs)
    else if x.numEq (Binary64.zero false) then some x
    else if 0 ≤ exponent then none
    else match steps with
      | 0 => some (Binary64.zero false)
      | steps + 1 => scaled? steps (x / powerOfTen 308) (exponent + 308)

/-- The number that digits write with a sign, when it is to be a binary64 number. -/
def Digits.float? (negative : Bool) (d : Digits) : Option Number :=
  match scaled? 3 (Binary64.ofInt d.leading) d.exponent with
  | some x => Number.ofBinary64? (if negative then -x else x)
  | none => none

/-- The number that digits without point and exponent write: an integer where 64 bits hold it, and
minus zero is no integer. -/
def Digits.plain? (negative : Bool) (d : Digits) : Option Number :=
  if d.isLong then d.float? negative
  else if negative then
    if d.leading = 0 ∨ 0x8000000000000000 < d.leading then d.float? true else Number.ofInt? (-(d.leading : Int))
  else Number.ofInt? d.leading

/-- A number or, where none was made, the fault of one out of range. -/
def inRange (n : Option Number) (rest : List UInt8) : Reading Number :=
  match n with
  | some n => .ok (n, rest)
  | none => Stop.here .numberOutOfRange rest

/-- The digits of an exponent, after the first, kept to a signed word of 32 bits: the value with the
rest, or the rest at the digit that is too many. -/
def exponentDigits : Nat → List UInt8 → (Nat × List UInt8) ⊕ List UInt8
  | n, [] => .inl (n, [])
  | n, b :: bs =>
    if isDigit b then
      let next := n * 10 + (b.toNat - 0x30)
      if next < 0x80000000 then exponentDigits next bs else .inr bs
    else .inl (n, b :: bs)

/-- The exponent part, after its letter. One that is too long makes the number zero, or out of range
if its sign is plus and the digits are not all zero. -/
def exponentPart (negative : Bool) (d : Digits) (bs : List UInt8) : Reading Number :=
  let (down, bs) := match bs with
    | b :: r => if b = '+'.toUInt8 then (false, r) else if b = '-'.toUInt8 then (true, r) else (false, b :: r)
    | [] => (false, [])
  match bs with
  | [] => Stop.here .endInValue []
  | b :: bs =>
    if !isDigit b then Stop.here .invalidNumber bs
    else match exponentDigits (b.toNat - 0x30) bs with
      | .inl (n, rest) =>
        inRange (Digits.float? negative { d with exponent := if down then d.exponent - n else d.exponent + n }) rest
      | .inr rest =>
        if d.leading ≠ 0 ∧ ¬ down then Stop.here .numberOutOfRange rest
        else inRange (Number.ofBinary64? (Binary64.zero negative)) (rest.dropWhile isDigit)

/-- The exponent part if one comes next, else the number without it. -/
def afterFraction (negative : Bool) (d : Digits) (bs : List UInt8) : Reading Number :=
  match bs with
  | b :: r =>
    if b = 'e'.toUInt8 ∨ b = 'E'.toUInt8 then exponentPart negative d r else inRange (d.float? negative) bs
  | [] => inRange (d.float? negative) []

/-- What follows the digits before the point. -/
def afterWhole (negative : Bool) (d : Digits) (bs : List UInt8) : Reading Number :=
  match bs with
  | b :: r =>
    if b = '.'.toUInt8 then
      let fraction := r.takeWhile isDigit
      let rest := r.dropWhile isDigit
      if fraction.isEmpty then Stop.atNext (if rest.isEmpty then .endInValue else .invalidNumber) rest
      else afterFraction negative (d.addFraction fraction) rest
    else if b = 'e'.toUInt8 ∨ b = 'E'.toUInt8 then exponentPart negative d r
    else inRange (d.plain? negative) bs
  | [] => inRange (d.plain? negative) []

/-- A number, after its minus sign if it has one. No further digit may follow a leading zero. -/
def readNumber (negative : Bool) : List UInt8 → Reading Number
  | [] => Stop.here .endInValue []
  | b :: bs =>
    if b = '0'.toUInt8 then
      match bs with
      | c :: _ => if isDigit c then Stop.atNext .invalidNumber bs else afterWhole negative ⟨0, 0, false⟩ bs
      | [] => afterWhole negative ⟨0, 0, false⟩ []
    else if isDigit b then
      afterWhole negative ((b :: bs.takeWhile isDigit).foldl Digits.addWhole ⟨0, 0, false⟩) (bs.dropWhile isDigit)
    else Stop.here .invalidNumber bs

end RequestGuard.Json
