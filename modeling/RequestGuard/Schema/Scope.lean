import RequestGuard.Schema.Node

/-!
# Scopes

What a group of nodes inherits from what is around it: the source of its fields, whether a missing
field's source goes unnamed, and whether one node that holds is enough. A scope is passed down by
value; nothing below changes it for what comes after.
-/

namespace RequestGuard

/-- Where a group of nodes stands. -/
structure Scope where
  /-- Where fields are read from. -/
  source : Source
  /-- Whether the remark about a missing field leaves out the source. -/
  brief : Bool
  /-- Whether one node that holds is enough. -/
  anySuffices : Bool
deriving DecidableEq, Repr

namespace Scope

/-- The outermost scope for a request, when no verb is asked for: a verb with a body reads the body,
and any other reads the query, whose fields need no source named. -/
def ofRequest (m : Method) : Scope := ⟨m.source, !m.carriesBody, false⟩

/-- The outermost scope for a verb that is asked for. -/
def ofVerb (m : Method) : Scope := ⟨m.source, false, false⟩

/-- Within a plain group. -/
def conjunctive (s : Scope) : Scope := { s with anySuffices := false }

/-- Within a group with a combinator. -/
def combined (s : Scope) (c : Combinator) : Scope := { s with anySuffices := c == .any }

/-- Within a group about one source; whether one node is enough stays as it was. -/
def sourced (s : Scope) (source : Source) : Scope := { s with source := source, brief := false }

end Scope

end RequestGuard
