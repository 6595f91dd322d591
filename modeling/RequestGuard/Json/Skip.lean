import RequestGuard.Json.Read

/-!
# Passing over JSON values

A value that nobody asked for is passed over rather than read: its form is checked, but it may lie
as deep as it likes, its numbers may have any size, and the codes in its strings need not be
characters. The open arrays and objects are kept on a stack.
-/

namespace RequestGuard.Json

/-- An array or an object that has begun. -/
inductive Bracket where
  | array
  | object
deriving DecidableEq

/-- The fault of a text that ends within a bracket. -/
def Bracket.endFault : Bracket → Fault
  | array => .endInArray
  | object => .endInObject

/-- The fault of something other than a comma or the bracket's end after a value in it. -/
def Bracket.separatorFault : Bracket → Fault
  | array => .expectedArraySeparator
  | object => .expectedObjectSeparator

/-- The byte that ends a bracket. -/
def Bracket.close : Bracket → UInt8
  | array => ']'.toUInt8
  | object => '\x7d'.toUInt8

/-- Passes over an escape, after the backslash. -/
def skipEscape : List UInt8 → Except Stop (List UInt8)
  | [] => Stop.here .endInString []
  | b :: bs =>
    if (letterEscape? b).isSome then .ok bs
    else if b = 'u'.toUInt8 then (hex4 bs).map Prod.snd
    else Stop.here .invalidEscape bs

/-- Passes over a string, after its opening quote. -/
def skipString : Nat → List UInt8 → Except Stop (List UInt8)
  | _, [] => Stop.here .endInString []
  | 0, _ => Stop.here .endInString []
  | limit + 1, b :: bs =>
    if b = '"'.toUInt8 then .ok bs
    else if b = '\\'.toUInt8 then
      match skipEscape bs with
      | .ok rest => skipString limit rest
      | .error e => .error e
    else if b < 0x20 then Stop.here .controlInString (b :: bs)
    else skipString limit bs

/-- Passes over the exponent part of a number, after its letter. -/
def skipExponent (bs : List UInt8) : Except Stop (List UInt8) :=
  let bs := match bs with
    | b :: r => if b = '+'.toUInt8 ∨ b = '-'.toUInt8 then r else b :: r
    | [] => []
  match bs with
  | [] => Stop.here .invalidNumber []
  | b :: bs => if isDigit b then .ok (bs.dropWhile isDigit) else Stop.here .invalidNumber bs

/-- Passes over what follows the digits before the point. -/
def skipAfterWhole (bs : List UInt8) : Except Stop (List UInt8) :=
  match bs with
  | [] => .ok []
  | b :: r =>
    if b = '.'.toUInt8 then
      if (r.takeWhile isDigit).isEmpty then Stop.atNext .invalidNumber r
      else match r.dropWhile isDigit with
        | c :: r => if c = 'e'.toUInt8 ∨ c = 'E'.toUInt8 then skipExponent r else .ok (c :: r)
        | [] => .ok []
    else if b = 'e'.toUInt8 ∨ b = 'E'.toUInt8 then skipExponent r
    else .ok (b :: r)

/-- Passes over a number, after its minus sign if it has one. -/
def skipNumber : List UInt8 → Except Stop (List UInt8)
  | [] => Stop.here .invalidNumber []
  | b :: bs =>
    if b = '0'.toUInt8 then
      match bs with
      | c :: _ => if isDigit c then Stop.atNext .invalidNumber bs else skipAfterWhole bs
      | [] => .ok []
    else if isDigit b then skipAfterWhole (bs.dropWhile isDigit)
    else Stop.here .invalidNumber bs

/-- Where the passing over stands: before a value, or behind something in the innermost bracket. -/
inductive Phase where
  | atValue
  | inBracket (afterValue : Bool)

/-- Passes over a scalar; a bracket that begins is given with the bytes after it. -/
def skipScalar (limit : Nat) (b : UInt8) (rest : List UInt8) : Except Stop (Option Bracket × List UInt8) :=
  if b = 'n'.toUInt8 then (word "ull".toList rest).map (none, ·)
  else if b = 't'.toUInt8 then (word "rue".toList rest).map (none, ·)
  else if b = 'f'.toUInt8 then (word "alse".toList rest).map (none, ·)
  else if b = '-'.toUInt8 then (skipNumber rest).map (none, ·)
  else if isDigit b then (skipNumber (b :: rest)).map (none, ·)
  else if b = '"'.toUInt8 then (skipString limit rest).map (none, ·)
  else if b = '['.toUInt8 then .ok (some .array, rest)
  else if b = '\x7b'.toUInt8 then .ok (some .object, rest)
  else Stop.atNext .expectedValue (b :: rest)

/-- Passes over the name and the colon that come before a value in a bracket, if it is an object. -/
def skipName (limit : Nat) (k : Bracket) (bs : List UInt8) : Except Stop (List UInt8) :=
  match k with
  | .array => .ok bs
  | .object =>
    match skip bs with
    | [] => Stop.atNext .endInObject []
    | b :: rest =>
      if b = '"'.toUInt8 then
        match skipString limit rest with
        | .ok rest => colon rest
        | .error e => .error e
      else Stop.atNext .nameNotString (b :: rest)

/-- Passes over values until the outermost one is over. -/
def skipFrom : Nat → List Bracket → Phase → List UInt8 → Except Stop (List UInt8)
  | 0, _, _, bs => Stop.atNext .endInValue bs
  | limit + 1, stack, .atValue, bs =>
    match skip bs with
    | [] => Stop.atNext .endInValue []
    | b :: rest =>
      match skipScalar limit b rest with
      | .error e => .error e
      | .ok (some k, rest) => skipFrom limit (k :: stack) (.inBracket false) rest
      | .ok (none, rest) => skipFrom limit stack (.inBracket true) rest
  | _ + 1, [], .inBracket _, bs => .ok bs
  | limit + 1, k :: stack, .inBracket afterValue, bs =>
    let next (bs : List UInt8) : Except Stop (List UInt8) :=
      match skipName limit k bs with
      | .ok rest => skipFrom limit (k :: stack) .atValue rest
      | .error e => .error e
    match skip bs with
    | [] => Stop.atNext k.endFault []
    | b :: rest =>
      if b = ','.toUInt8 ∧ afterValue then next rest
      else if b = k.close then skipFrom limit stack (.inBracket true) rest
      else if afterValue then Stop.atNext k.separatorFault (b :: rest)
      else next (b :: rest)

/-- Passes over one value. The limit bounds the steps; twice the length of the text is enough. -/
def skipValue (limit : Nat) (bs : List UInt8) : Except Stop (List UInt8) :=
  skipFrom limit [] .atValue bs

end RequestGuard.Json
