import RequestGuard.Schema.Node

/-!
# Schemas written as JSON

A group is an array, a lone name or a lone object. In an array a string requires a field, an array
is a nested group and an object has one node for each member. A member's key is that of a combinator
or a source, whose value is a group; that of a coercion, whose value is a field's name or an array
of names; or the name of a field, whose value is an array of the values admitted. Transforms cannot
be written.

Reading stops at the first position that does not fit, in document order, and says which it is.
-/

namespace RequestGuard

/-- A step from a JSON value into one of its parts. -/
inductive PathStep where
  | item (index : Nat)
  | member (key : String)
deriving DecidableEq, Repr

/-- The text of a path from the root: a slash before each step, or a slash alone for the root. -/
def pathText : List PathStep → String
  | [] => "/"
  | steps => String.join (steps.map fun
    | .item index => "/" ++ String.ofList (Nat.toDigits 10 index)
    | .member key => "/" ++ key)

/-- Why a JSON value is no schema: the first part that does not fit, by what its position called
for. -/
inductive SchemaError where
  /-- Neither a name, a group nor an object. -/
  | node (path : List PathStep) (kind : String)
  /-- Not the name of a field or an array of names. -/
  | operand (coercion : Coercion) (path : List PathStep)
  /-- Not an array of admitted values. -/
  | alternatives (field : String) (path : List PathStep)
deriving DecidableEq

/-- The wording of an error. -/
def SchemaError.message : SchemaError → String
  | node path kind =>
    "invalid schema node at " ++ pathText path ++ ": expected a field name, group, or keyed object, got " ++ kind
  | operand coercion path =>
    "invalid operand for " ++ coercion.key ++ " at " ++ pathText path ++
      ": expected a field name or an array of field names"
  | alternatives field path =>
    "invalid alternatives for field '" ++ field ++ "' at " ++ pathText path ++ ": expected an array"

/-- The key of a combinator. -/
def Combinator.key : Combinator → String
  | any => "$or"
  | all => "$and"

/-- The key of a source. -/
def Source.key : Source → String
  | query => "$query"
  | body => "$body"

namespace Schema

/-- The name that each item of an array is; the items must all be strings. -/
def names? : List Json → Option (List String)
  | [] => some []
  | .string s :: vs => (names? vs).map (s :: ·)
  | _ :: _ => none

/-- The fields that a coercion is asked for. -/
def operand (c : Coercion) (path : List PathStep) : Json → Except SchemaError (List String)
  | .string s => .ok [s]
  | .array items =>
    match names? items with
    | some names => .ok names
    | none => .error (.operand c path)
  | _ => .error (.operand c path)

/-- The values of an array's items. -/
def literals : (items : List Json) → Json.AllNamesUnique items → List Alternative
  | [], _ => []
  | v :: vs, h => .literal (.ofDocument ⟨v, h.1⟩) :: literals vs h.2

/-- The values that a field is admitted for. -/
def alternatives (field : String) (path : List PathStep) :
    (v : Json) → v.NamesUnique → Except SchemaError (List Alternative)
  | .array items, h => .ok (literals items h)
  | _, _ => .error (.alternatives field path)

mutual

/-- The nodes of a group. -/
def group (path : List PathStep) : (v : Json) → v.NamesUnique → Except SchemaError (List Node)
  | .array vs, h => items path 0 vs h
  | .string name, _ => .ok [.field name]
  | .object ms, h => members path ms h.2
  | .null, _ => .error (.node path "null")
  | .boolean _, _ => .error (.node path "boolean")
  | .number _, _ => .error (.node path "number")

/-- The nodes of a group's items, counted from `index`. -/
def items (path : List PathStep) (index : Nat) :
    (vs : List Json) → Json.AllNamesUnique vs → Except SchemaError (List Node)
  | [], _ => .ok []
  | v :: vs, h => do
    let nodes ← group (path ++ [.item index]) v h.1
    let rest ← items path (index + 1) vs h.2
    match v with
    | .array _ => .ok (.group nodes :: rest)
    | _ => .ok (nodes ++ rest)

/-- The nodes of an object's members. -/
def members (path : List PathStep) :
    (ms : List (String × Json)) → Json.MembersNamesUnique ms → Except SchemaError (List Node)
  | [], _ => .ok []
  | (key, v) :: ms, h => do
    let inner := path ++ [.member key]
    let node ←
      if key = Combinator.any.key then (group inner v h.1).map (.combined .any)
      else if key = Combinator.all.key then (group inner v h.1).map (.combined .all)
      else if key = Source.body.key then (group inner v h.1).map (.sourced .body)
      else if key = Source.query.key then (group inner v h.1).map (.sourced .query)
      else match Coercion.ofKey? key with
        | some c => (operand c inner v).map (.coerced c)
        | none => (alternatives key inner v h.1).map (.oneOf key)
    let rest ← members path ms h.2
    .ok (node :: rest)

end

/-- The schema that a JSON document writes. -/
def read (d : Document) : Except SchemaError (List Node) :=
  group [] d.val d.property

end Schema

end RequestGuard
