import RequestGuard.Text.Unprinted

/-!
# Quoted text

How a message shows a text that somebody else supplied: between double quotes, with the quote, the
backslash, the line controls and NUL written as two-character escapes and any other character that
would not show as `\u` and its code point in braces. Everything else stands for itself, a single
quote included.
-/

namespace RequestGuard.Text

/-- A character as it stands between the quotes. -/
def quotedChar (c : Char) : List Char :=
  if c = '\x00' then ['\\', '0']
  else if c = '\t' then ['\\', 't']
  else if c = '\r' then ['\\', 'r']
  else if c = '\n' then ['\\', 'n']
  else if c = '\\' then ['\\', '\\']
  else if c = '"' then ['\\', '"']
  else if isUnprinted c then ['\\', 'u', '\x7b'] ++ Nat.toDigits 16 c.toNat ++ ['\x7d']
  else [c]

/-- The text between double quotes. -/
def quoted (s : String) : String :=
  String.ofList ('"' :: s.toList.flatMap quotedChar ++ ['"'])

end RequestGuard.Text
