import RequestGuard.Guard.Basic
import RequestGuard.Service.Intake
import RequestGuard.Service.Tally

/-!
# Gates

A guard in front of what would answer a request. A gate that covers the verb checks the request, and
either answers it in place of what lies behind or passes it on with the data as the check left it.
The first gate to check reads the request; the gates behind it check what the one before left, and
the body goes on with the bytes it came with. A gate that does not cover the verb passes everything
on as it is.

`mount` puts gates one in front of another: the guard listed last stands outermost and looks first.

What a gate does to a request, it does by `Steps`: it reads by the one and checks by the other, and
neither in any other way. The steps may have effects of their own in a monad; the service's gates
take them plain, without any (`Steps.plain`).
-/

namespace RequestGuard.Service

/-- A request on its way in, with the data that the gates passed so far have left, if one has read
it. -/
structure Passage where
  request : Request
  data : Option RequestData

/-- What answers a request, counting as it goes. -/
abbrev Stage := Passage → Tally → Response × Tally

/-- A stage with effects. -/
abbrev StageIn (μ : Type → Type) := Passage → Tally → μ (Response × Tally)

/-- What gates do to a request: they read its query and body for a guard, and have a guard check
data. -/
structure Steps (μ : Type → Type) where
  read : Guard → Request → Source → μ (Except Failure (List UInt8 × RequestData))
  check : Guard → Method → RequestData → μ (RequestData × Verdict)

/-- Steps with no effects. -/
def Steps.plain (limit : Nat) : Steps Id where
  read _ r source := r.read limit source
  check g m d := g.check m d

section

variable {μ : Type → Type} [Monad μ] (steps : Steps μ)

/-- The data that a gate checks, with the passage it goes on with: what is there, or what is read of
the request. -/
def Passage.takeBy (g : Guard) (source : Source) (p : Passage) :
    μ (Except Failure (Request × RequestData)) :=
  match p.data with
  | some d => pure (.ok (p.request, d))
  | none => do
    match ← steps.read g p.request source with
    | .ok (bytes, d) => pure (.ok ({ p.request with body := .whole bytes }, d))
    | .error f => pure (.error f)

/-- What becomes of a request that has been checked: it goes on to what lies behind with the data that
the check left, or it is answered. -/
def followVerdict (m : Method) (request : Request) (inner : StageIn μ) (t : Tally) :
    RequestData × Verdict → μ (Response × Tally)
  | (d, .proceed) => inner ⟨request, some d⟩ (t.addCheck m.label)
  | (_, .violation message) =>
    pure ((Failure.violation message).response, (t.addCheck m.label).addViolation m.label)

/-- A guard in front of a stage. -/
def gateBy (g : Guard) (inner : StageIn μ) : StageIn μ := fun p t =>
  match Method.read p.request.verb with
  | .error e => pure ((Failure.unreadable (.request e)).response, t)
  | .ok m =>
    match g.scopeFor? m with
    | none => inner p t
    | some scope => do
      match ← p.takeBy steps g scope.source with
      | .error f => pure (f.response, t)
      | .ok (request, d) => followVerdict m request inner t (← steps.check g m d)

/-- Guards in front of a stage, the last one outermost. -/
def mountBy (guards : List Guard) (inner : StageIn μ) : StageIn μ :=
  guards.foldl (fun stage g => gateBy steps g stage) inner

end

/-- A guard in front of a stage, which reads bodies up to a limit. -/
def gate (limit : Nat) (g : Guard) (inner : Stage) : Stage :=
  gateBy (.plain limit) g inner

/-- Guards in front of a stage, the last one outermost. -/
def mount (limit : Nat) (guards : List Guard) (inner : Stage) : Stage :=
  mountBy (.plain limit) guards inner

/-- Each guard mounted stands in front of those mounted before it. -/
theorem mountBy_concat {μ : Type → Type} [Monad μ] (steps : Steps μ) (guards : List Guard)
    (g : Guard) (inner : StageIn μ) :
    mountBy steps (guards ++ [g]) inner = gateBy steps g (mountBy steps guards inner) := by
  unfold mountBy
  rw [List.foldl_append]
  rfl

end RequestGuard.Service
