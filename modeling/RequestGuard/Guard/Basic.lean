import RequestGuard.Schema.Run

/-!
# Guards

A guard is a schema and, optionally, the one verb it is for. It decides for each request whether it
may proceed, and it leaves the data normalised either way. A guard with a verb lets requests of any
other verb pass as they are.

Where it looks, and how it words a missing field, goes by a verb. With no verb of its own a guard takes
that of the request: under `post` and `put` it looks at the body and its wording names the body, under
any other verb it looks at the query and its wording names no source. A guard with a verb looks where
requests of that verb have their fields, and its wording names the source.
-/

namespace RequestGuard

/-- A schema with the verb it is for, if it is for one only. -/
structure Guard where
  schema : List Node
  verb : Option Method

/-- What a guard decides. -/
inductive Verdict where
  | proceed
  | violation (message : String)
deriving DecidableEq, Repr

/-- The message of a violation. -/
def Verdict.message? : Verdict → Option String
  | proceed => none
  | violation message => some message

/-- The verdict on a request with this report. -/
def Verdict.ofReport (r : Report) : Verdict :=
  match r.message? with
  | some message => violation message
  | none => proceed

namespace Guard

/-- The outermost scope for a request, or none when the guard does not cover its verb. -/
def scopeFor? (g : Guard) (m : Method) : Option Scope :=
  match g.verb with
  | none => some (.ofRequest m)
  | some v => if v = m then some (.ofVerb v) else none

/-- Whether the guard looks at requests of a verb. -/
def covers (g : Guard) (m : Method) : Bool := (g.scopeFor? m).isSome

/-- Runs the schema over a request, if the guard covers its verb. -/
def diagnose (g : Guard) (m : Method) (d : RequestData) : RequestData × Report :=
  match g.scopeFor? m with
  | some scope => Schema.run g.schema scope d
  | none => (d, [])

/-- Decides whether a request may proceed. -/
def check (g : Guard) (m : Method) (d : RequestData) : RequestData × Verdict :=
  let (d, r) := g.diagnose m d
  (d, .ofReport r)

end Guard

/-! ## Deciding -/

theorem Verdict.ofReport_eq_proceed_iff (r : Report) : Verdict.ofReport r = .proceed ↔ r = [] := by
  cases r with
  | nil => exact ⟨fun _ => rfl, fun _ => rfl⟩
  | cons l r => exact ⟨fun h => absurd h (by simp [ofReport, Report.message?]), fun h => nomatch h⟩

namespace Guard

variable {g : Guard} {m : Method} {scope : Scope}

/-- With or without a verb of its own, a guard looks where requests of that verb have their fields. -/
theorem source_of_scopeFor? (h : g.scopeFor? m = some scope) : scope.source = m.source := by
  unfold scopeFor? at h
  split at h
  · cases h
    rfl
  · obtain ⟨rfl, hscope⟩ := Option.ite_none_right_eq_some.1 h
    cases hscope
    rfl

/-- At the root of a schema everything has to hold. -/
theorem anySuffices_of_scopeFor? (h : g.scopeFor? m = some scope) : scope.anySuffices = false := by
  unfold scopeFor? at h
  split at h
  · cases h
    rfl
  · obtain ⟨-, hscope⟩ := Option.ite_none_right_eq_some.1 h
    cases hscope
    rfl

theorem check_of_covers (h : g.scopeFor? m = some scope) (d : RequestData) :
    g.check m d = ((Schema.run g.schema scope d).1, .ofReport (Schema.run g.schema scope d).2) := by
  simp [check, diagnose, h]

theorem check_of_not_covers (h : g.scopeFor? m = none) (d : RequestData) :
    g.check m d = (d, .proceed) := by
  simp [check, diagnose, h, Verdict.ofReport, Report.message?]

end Guard

end RequestGuard
