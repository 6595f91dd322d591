import RequestGuard.Schema.Node

/-!
# Reports

What is wrong with a request, line by line. A line is a remark about one field or the heading of a
group of which nothing held, and it stands at a depth: under each heading, one deeper than the
heading itself. A report without lines says that nothing is wrong.

`Remark.text` is the only place where the wording of remarks is spelled out.
-/

namespace RequestGuard

/-- What is wrong with one field. -/
inductive Remark where
  /-- A required field is not there; the source is named, or none is. -/
  | missingField (field : String) (source : Option Source)
  /-- A field that admits certain values is not there. -/
  | missingValue (field : String)
  /-- A field matches none of its alternatives, of which one or more are transforms. -/
  | invalidFormat (field : String)
  /-- A field is none of the values listed. -/
  | notOneOf (field : String) (listed : List String)
  /-- A field is not there or not of the kind asked for. -/
  | unmet (coercion : Coercion) (field : String)
  /-- A remark in the host's own words. -/
  | note (text : String)
deriving DecidableEq

/-- The wording of a remark. -/
def Remark.text : Remark → String
  | missingField f (some s) => f ++ " must be given as " ++ s.name ++ " parameter."
  | missingField f none => f ++ " must be given."
  | missingValue f => f ++ " must be given."
  | invalidFormat f => f ++ " must be valid format."
  | notOneOf f listed => f ++ " must be one of following: " ++ ", ".intercalate listed ++ "."
  | unmet c f => f ++ " " ++ c.requirement
  | note text => text

/-- What stands in a line. -/
inductive Entry where
  /-- The heading of a group of which one node had to hold and none did. -/
  | heading
  | remark (r : Remark)
deriving DecidableEq

/-- The wording of an entry. -/
def Entry.text : Entry → String
  | heading => "At least one of the following."
  | remark r => r.text

/-- A line of a report. -/
structure Line where
  depth : Nat
  entry : Entry
deriving DecidableEq

namespace Line

/-- A remark that stands under no heading. -/
def ofRemark (r : Remark) : Line := ⟨0, .remark r⟩

/-- The line one deeper. -/
def indent (l : Line) : Line := { l with depth := l.depth + 1 }

/-- What an indented text begins with. -/
def indentation : Nat → String
  | 0 => ""
  | n + 1 => "  " ++ indentation n

/-- The line with two spaces for each step of its depth. -/
def text (l : Line) : String := indentation l.depth ++ l.entry.text

end Line

/-- The lines about a request, in the order of the schema. -/
abbrev Report := List Line

namespace Report

/-- A report of one remark. -/
def ofRemark (r : Remark) : Report := [Line.ofRemark r]

/-- The report of a group of which nothing held: its heading and all lines under it. -/
def underHeading (r : Report) : Report := ⟨0, .heading⟩ :: r.map Line.indent

/-- The wording line by line. -/
def texts (r : Report) : List String := r.map Line.text

/-- The lines one below the other. -/
def text (r : Report) : String := "\n".intercalate r.texts

/-- The text of a report that has lines. -/
def message? (r : Report) : Option String := if r.isEmpty then none else some r.text

end Report

end RequestGuard
