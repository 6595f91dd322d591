import RequestGuard.Schema.Report
import RequestGuard.Schema.Scope

/-!
# Running a schema

`Schema.run` takes a schema over the data of a request. It brings fields into their kinds, takes
away those that cannot be, and reports what is wrong in the order of the schema. Every node runs,
whatever the nodes before it found: grouping decides what is reported and never what is done.

A group is given by its children, each with a flag for whether its silence satisfies the group and
with what it reported. `conclude` makes the group's report of them: nothing when a child that may
satisfy it is silent, else all lines, under a heading where one node was enough.
-/

namespace RequestGuard.Schema

/-! ## Leaves -/

/-- Requires a field. -/
def requireField (scope : Scope) (name : String) (d : RequestData) : Report :=
  if d.contains scope.source name then []
  else .ofRemark (.missingField name (if scope.brief then none else some scope.source))

/-- Brings one field into a kind, or takes it away. -/
def coerceField (c : Coercion) (s : Source) (name : String) (d : RequestData) : RequestData × Report :=
  match (d.get? s name).bind c.coerce? with
  | some v => (d.insert s name v, [])
  | none => (d.erase s name, .ofRemark (.unmet c name))

/-- Brings fields into a kind one after another. -/
def coerceFields (c : Coercion) (s : Source) : List String → RequestData → RequestData × Report
  | [], d => (d, [])
  | name :: names, d =>
    let (d, r) := coerceField c s name d
    let (d, rs) := coerceFields c s names d
    (d, r ++ rs)

/-- How an alternative takes a value. -/
inductive Match where
  /-- It is the same as a literal. -/
  | same
  /-- A transform made another of it. -/
  | made (value : FieldValue)

/-- Whether and how an alternative takes a value. A transform that fails does not. -/
def matchOne? (given : FieldValue) (d : RequestData) : Alternative → Option Match
  | .literal v => if v.same given then some .same else none
  | .transform f =>
    match f given d with
    | .ok (some v) => some (.made v)
    | _ => none

/-- How the first alternative that takes a value takes it. -/
def firstMatch? (given : FieldValue) (d : RequestData) (as : List Alternative) : Option Match :=
  as.findSome? (matchOne? given d)

/-- Restricts a field to admitted values, or takes it away. -/
def restrictField (name : String) (as : List Alternative) (s : Source) (d : RequestData) : RequestData × Report :=
  match d.get? s name with
  | none => (d, .ofRemark (.missingValue name))
  | some given =>
    match firstMatch? given d as with
    | some .same => (d, [])
    | some (.made v) => (d.insert s name v, [])
    | none =>
      (d.erase s name, .ofRemark (if as.any Alternative.isTransform then .invalidFormat name
        else .notOneOf name (as.map Alternative.display)))

/-! ## Groups -/

/-- What a node reported, and whether its silence satisfies the group around it. -/
structure Child where
  satisfies : Bool
  report : Report

/-- The report of a group. -/
def conclude (anySuffices : Bool) (children : List Child) : Report :=
  if children.any fun c => c.satisfies && c.report.isEmpty then []
  else
    let all := children.flatMap Child.report
    if anySuffices then Report.underHeading all else all

/-- Whether a node's silence satisfies the group around it: in a group where one is enough always,
and elsewhere only that of a group in which one is enough. -/
def satisfies (scope : Scope) : Node → Bool
  | .combined .any _ => true
  | _ => scope.anySuffices

/-- Data with the report of the group whose nodes have run over it. -/
def concluded (scope : Scope) (ran : RequestData × List Child) : RequestData × Report :=
  (ran.1, conclude scope.anySuffices ran.2)

mutual

/-- Runs a node. -/
def runNode : Node → Scope → RequestData → RequestData × Report
  | .field name, scope, d => (d, requireField scope name d)
  | .group nodes, scope, d => concluded scope.conjunctive (runChildren nodes scope.conjunctive d)
  | .combined c nodes, scope, d => concluded (scope.combined c) (runChildren nodes (scope.combined c) d)
  | .sourced s nodes, scope, d => concluded (scope.sourced s) (runChildren nodes (scope.sourced s) d)
  | .coerced c names, scope, d => coerceFields c scope.source names d
  | .oneOf name as, scope, d => restrictField name as scope.source d

/-- Runs nodes one after another. -/
def runChildren : List Node → Scope → RequestData → RequestData × List Child
  | [], _, d => (d, [])
  | n :: ns, scope, d =>
    let (d, r) := runNode n scope d
    let (d, rs) := runChildren ns scope d
    (d, ⟨satisfies scope n, r⟩ :: rs)

end

/-- Runs a schema over the data of a request. -/
def run (nodes : List Node) (scope : Scope) (d : RequestData) : RequestData × Report :=
  concluded scope (runChildren nodes scope d)

end RequestGuard.Schema
