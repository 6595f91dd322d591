import RequestGuard.Service.Resource

/-!
# Inspection

A service that shows what gets through a list of guards: under `/echo` the data they leave, as JSON,
and under `/raw` the body that comes through, byte by byte. Both serve every verb.
-/

namespace RequestGuard.Service

/-- Shows the data that the guards leave. -/
def echo : Handler := .ofData fun d => .json .ok d.toJson

/-- Shows the body that comes through. It buffers the body as any handler does that sets no limit of
its own, and a body that is not buffered is refused in plain text. -/
def raw : Handler := fun p _ =>
  match p.request.body.buffer bufferLimit with
  | .ok bytes => .octets bytes
  | .error .tooLong => .text .contentTooLarge Unbuffered.tooLong.message
  | .error .broken => .text .badRequest Unbuffered.broken.message

/-- The service that shows what gets through some guards, the last one outermost. -/
def inspection (bodyLimit : Nat) (guards : List Guard) : Service where
  bodyLimit := bodyLimit
  resources := [("/echo", ⟨.every echo, guards⟩), ("/raw", ⟨.every raw, guards⟩)]

end RequestGuard.Service
