import RequestGuard.Text.Blank
import RequestGuard.Text.Split

/-!
# Mailboxes

The e-mail addresses that are accepted: a local part, an at sign and a domain. The local part is
dotted atoms or a text between double quotes, which may hold at signs, dots and quotes but no line
feed. The domain is four groups of one to three digits between brackets, or dotted labels that end
in two or more letters. No domain holds an at sign, so the last one is the one that divides.
-/

namespace RequestGuard.Mailbox

open Text (split splitLast? isBlank)

/-- Whether the character may stand in an atom. -/
def isAtomChar (c : Char) : Bool :=
  !isBlank c && !"<>()[]\\.,;:@\"".toList.contains c

/-- Whether the text is one or more atoms with single dots between them. -/
def isDotted (cs : List Char) : Bool :=
  (split '.' cs).all fun atom => !atom.isEmpty && atom.all isAtomChar

/-- Whether the text is one or more characters other than a line feed between double quotes. -/
def isQuoted : List Char → Bool
  | '"' :: cs => cs.getLast? == some '"' && cs.dropLast != [] && cs.dropLast.all (· != '\n')
  | _ => false

/-- Whether the text is an address of four groups of digits in brackets. -/
def isBracketed : List Char → Bool
  | '[' :: cs =>
    let groups := split '.' cs.dropLast
    cs.getLast? == some ']' && groups.length == 4 &&
      groups.all fun g => 1 ≤ g.length && g.length ≤ 3 && g.all Char.isDigit
  | _ => false

/-- Whether the text is a label of a domain name. -/
def isLabel (cs : List Char) : Bool :=
  !cs.isEmpty && cs.all fun c => c.isAlphanum || c == '-'

/-- Whether the text is a label that may come last in a domain name. -/
def isTopLabel (cs : List Char) : Bool :=
  2 ≤ cs.length && cs.all Char.isAlpha

/-- Whether the text is a domain name of two or more labels. -/
def isDomainName (cs : List Char) : Bool :=
  match (split '.' cs).reverse with
  | top :: label :: labels => isTopLabel top && (label :: labels).all isLabel
  | _ => false

/-- Whether the text is an address. -/
def accepts (cs : List Char) : Bool :=
  match splitLast? '@' cs with
  | some (localPart, domain) =>
    (isDotted localPart || isQuoted localPart) && (isBracketed domain || isDomainName domain)
  | none => false

end RequestGuard.Mailbox
