import RequestGuard.Guard.Basic

/-!
# Interceptors

A guard in front of a handler, for hosts of any kind. The host supplies what is to happen on a
violation, as a function that is also given the handler and may go on to it.
-/

namespace RequestGuard

/-- A request under way, with the host's response to it. -/
structure Exchange (σ : Type) where
  method : Method
  data : RequestData
  response : σ

/-- A guard with what is to happen on a violation: a function of the message, the exchange and the
handler. -/
structure Interceptor (σ : Type) where
  guard : Guard
  onViolation : String → Exchange σ → (Exchange σ → Exchange σ) → Exchange σ

/-- Checks an exchange and goes on to the handler, or to what is to happen on a violation. The data
is normalised before either. -/
def Interceptor.handle {σ : Type} (i : Interceptor σ) (x : Exchange σ) (proceed : Exchange σ → Exchange σ) :
    Exchange σ :=
  let (d, verdict) := i.guard.check x.method x.data
  let x := { x with data := d }
  match verdict with
  | .proceed => proceed x
  | .violation message => i.onViolation message x proceed

end RequestGuard
