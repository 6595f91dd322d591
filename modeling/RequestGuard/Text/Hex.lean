/-!
# Hexadecimal digits

The digits of base sixteen among bytes, in either case. Escapes in JSON strings and in forms are
written with them.
-/

namespace RequestGuard.Text

/-- The value of a hexadecimal digit. -/
def hexDigit? (b : UInt8) : Option Nat :=
  if '0'.toUInt8 ≤ b ∧ b ≤ '9'.toUInt8 then some (b.toNat - 0x30)
  else if 'a'.toUInt8 ≤ b ∧ b ≤ 'f'.toUInt8 then some (b.toNat - 0x57)
  else if 'A'.toUInt8 ≤ b ∧ b ≤ 'F'.toUInt8 then some (b.toNat - 0x37)
  else none

end RequestGuard.Text
