/-!
# Lines of a text

A line ends at a line feed, with or without a carriage return before it. A text that ends in a line
feed has no empty line after it, while a carriage return that no line feed follows belongs to its
line.
-/

namespace RequestGuard.Text

/-- A line without the carriage return that ended it. -/
def dropReturn (line : List Char) : List Char :=
  if line.getLast? = some '\r' then line.dropLast else line

/-- The lines of a text, with the characters of the line under way in reverse. -/
def linesFrom : List Char → List Char → List (List Char)
  | [], [] => []
  | held, [] => [held.reverse]
  | held, c :: cs => if c = '\n' then dropReturn held.reverse :: linesFrom [] cs else linesFrom (c :: held) cs

/-- The lines of a text. -/
def lines (s : String) : List String :=
  (linesFrom [] s.toList).map String.ofList

end RequestGuard.Text
