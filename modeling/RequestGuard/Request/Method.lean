import RequestGuard.Text.Blank
import RequestGuard.Text.Quoted

/-!
# Methods and sources

A request's verb and the place its fields are read from. Verbs are compared without regard to ASCII
case: reading one lower-cases it, and a verb without a constructor of its own is kept by its
lower-cased name. Only `post` and `put` carry their data in the body.
-/

namespace RequestGuard

/-- Where fields are read from. -/
inductive Source where
  | query
  | body
deriving DecidableEq, Repr

/-- The name of a source. -/
def Source.name : Source → String
  | query => "query"
  | body => "body"

/-- A request's verb. -/
inductive Method where
  | get
  | post
  | put
  | patch
  | delete
  | head
  | options
  | other (name : String)
deriving DecidableEq, Repr

namespace Method

/-- A text in lower case, as far as it is ASCII. -/
def lowercase (s : String) : String :=
  String.ofList (s.toList.map Char.toLower)

/-- A text in upper case, as far as it is ASCII. -/
def uppercase (s : String) : String :=
  String.ofList (s.toList.map Char.toUpper)

/-- The verb of a name in lower case. -/
def ofLowercase (name : String) : Method :=
  if name = "get" then get
  else if name = "post" then post
  else if name = "put" then put
  else if name = "patch" then patch
  else if name = "delete" then delete
  else if name = "head" then head
  else if name = "options" then options
  else other name

/-- The verb that a text names. A text that is empty or has white space in it names none. -/
def ofText? (s : String) : Option Method :=
  if s.toList.isEmpty || s.toList.any Text.isBlank then none else some (ofLowercase (lowercase s))

/-- The name in lower case. -/
def name : Method → String
  | get => "get"
  | post => "post"
  | put => "put"
  | patch => "patch"
  | delete => "delete"
  | head => "head"
  | options => "options"
  | other name => name

/-- The name in upper case, as logs and counters show it. -/
def label (m : Method) : String :=
  uppercase m.name

/-- Whether requests of this verb carry their data in the body. -/
def carriesBody : Method → Bool
  | post => true
  | put => true
  | _ => false

/-- Where a request of this verb has its fields. -/
def source (m : Method) : Source :=
  if m.carriesBody then .body else .query

end Method

end RequestGuard
