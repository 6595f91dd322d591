import RequestGuard.Request.Data
import RequestGuard.Schema.Coercion

/-!
# Schemas

A schema is an ordered list of nodes. A node requires a field, coerces fields, restricts a field to
admitted values, or groups other nodes: conjunctively, by a combinator, or under another source.
What a node means is fixed when it is built; `Schema.Run` gives the meaning.
-/

namespace RequestGuard

/-- How a group joins its nodes. -/
inductive Combinator where
  | any
  | all
deriving DecidableEq, Repr

/-- Why a transform could not decide. -/
structure TransformFailure where
  reason : String
deriving DecidableEq, Repr

/-- A function of the value given and the whole data: the value to store, none when it does not
match, or a failure. -/
abbrev Transform := FieldValue → RequestData → Except TransformFailure (Option FieldValue)

/-- One thing that a field is admitted for. -/
inductive Alternative where
  /-- A value that is the same. -/
  | literal (value : FieldValue)
  /-- A value for which the function gives one. -/
  | transform (apply : Transform)

/-- An alternative as messages list it. -/
def Alternative.display : Alternative → String
  | literal v => v.display
  | transform _ => "<transform>"

/-- Whether the alternative is a transform. -/
def Alternative.isTransform : Alternative → Bool
  | literal _ => false
  | transform _ => true

/-- A node of a schema. -/
inductive Node where
  /-- The field must be there. -/
  | field (name : String)
  /-- Every node must hold. -/
  | group (nodes : List Node)
  /-- Nodes joined by a combinator. -/
  | combined (combinator : Combinator) (nodes : List Node)
  /-- Nodes about the fields of one source. -/
  | sourced (source : Source) (nodes : List Node)
  /-- Every field must be there and is brought into a kind. -/
  | coerced (coercion : Coercion) (fields : List String)
  /-- The field must be there and match an alternative. -/
  | oneOf (field : String) (alternatives : List Alternative)

end RequestGuard
