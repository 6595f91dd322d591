import RequestGuard.Service.Gate

/-!
# Resources

What stands at a path: the handlers for its verbs behind its guards. Verbs are compared exactly
here, though guards compare them without regard to case, so a guard may check a request that no
handler is there for. `HEAD` is served by the handler for `GET`, whose body does not go out; a guard
for `GET` does not cover it. A request without a handler is told which verbs have one, be it turned
away by a guard or not.

A service is a number of resources. What is asked of any other path is not found.
-/

namespace RequestGuard.Service

/-- What answers a request that the gates let through. It may look at the counters and does not
count. -/
abbrev Handler := Passage → Tally → Response

/-- A handler that needs the data of the request. Without a gate that has read it the service is at
fault. -/
def Handler.ofData (respond : RequestData → Response) : Handler := fun p _ =>
  match p.data with
  | some d => respond d
  | none => (Failure.internal "no guard has read the request").response

/-- The handlers of a resource. -/
inductive Handlers where
  /-- One for every verb. -/
  | every (handler : Handler)
  /-- One for each verb listed. -/
  | each (handlers : List (String × Handler))

namespace Handlers

/-- The handler for a verb. -/
def find? (verb : String) : Handlers → Option Handler
  | every handler => some handler
  | each handlers => handlers.lookup (if verb = "HEAD" then "GET" else verb)

/-- The verbs that have a handler, between commas. -/
def allow : Handlers → String
  | every _ => ""
  | each handlers => ",".intercalate (handlers.flatMap fun h => if h.1 = "GET" then ["GET", "HEAD"] else [h.1])

/-- Answers what the gates let through. -/
def serve (hs : Handlers) : Stage := fun p t =>
  match hs.find? p.request.verb with
  | some handler => (handler p t, t)
  | none => (.bare .methodNotAllowed, t)

end Handlers

/-- Handlers and the guards in front of them, the last one outermost. -/
structure Resource where
  handlers : Handlers
  guards : List Guard

/-- Answers a request for a resource. -/
def Resource.answer (resource : Resource) (limit : Nat) (r : Request) (t : Tally) : Response × Tally :=
  let (response, t) := mount limit resource.guards resource.handlers.serve ⟨r, none⟩ t
  let response := match resource.handlers.find? r.verb with
    | some _ => response
    | none => { response with allow := some resource.handlers.allow }
  (response.forVerb r.verb, t)

end RequestGuard.Service

namespace RequestGuard

/-- Resources by path, and the limit on the length of bodies that their gates take. -/
structure Service where
  bodyLimit : Nat
  resources : List (String × Service.Resource)

namespace Service

/-- Answers a request. -/
def answer (service : Service) (r : Request) (t : Tally) : Response × Tally :=
  match service.resources.lookup r.target.path with
  | some resource => resource.answer service.bodyLimit r t
  | none => ((Response.bare .notFound).forVerb r.verb, t)

/-- Answers requests one after another. -/
def answerAll (service : Service) : List Request → Tally → List Response × Tally
  | [], t => ([], t)
  | r :: rs, t =>
    let (response, t) := service.answer r t
    let (responses, t) := service.answerAll rs t
    (response :: responses, t)

end Service

end RequestGuard
