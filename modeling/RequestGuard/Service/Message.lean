import RequestGuard.Json.Written
import RequestGuard.Request.Method
import RequestGuard.Text.Split
import RequestGuard.Text.Utf8

/-!
# Messages

Requests and responses of the service. A request's verb keeps its case, for routing compares it
exactly; names of headers are compared without regard to ASCII case and several headers of one name
keep their order. A body is what a stream gave before it ended or broke.
-/

namespace RequestGuard.Service

/-! ## Requests -/

/-- Where a request goes: the path, and the bytes of the query, none when there is no query. -/
structure Target where
  path : String
  query : List UInt8
deriving DecidableEq

/-- The target that a text writes. A question mark divides path and query, and what follows a number
sign does not reach the service. -/
def Target.ofText (s : String) : Target :=
  let sent := s.toList.takeWhile (· ≠ '#')
  match Text.splitFirst? '?' sent with
  | some (path, query) => ⟨String.ofList path, Text.Utf8.encode query⟩
  | none => ⟨String.ofList sent, []⟩

/-- What a body's stream gave, and whether it broke off there. -/
structure Body where
  bytes : List UInt8
  broken : Bool
deriving DecidableEq

/-- A body whose stream ended as it should. -/
def Body.whole (bytes : List UInt8) : Body := ⟨bytes, false⟩

/-- How many bytes of a body are buffered at most where nothing else limits it. -/
def bufferLimit : Nat := 2097152

/-- Why a body is not buffered. -/
inductive Unbuffered where
  | tooLong
  | broken
deriving DecidableEq, Repr

/-- The wording of a reason. -/
def Unbuffered.message : Unbuffered → String
  | tooLong => "Failed to buffer the request body: length limit exceeded"
  | broken => "Failed to buffer the request body: broken"

/-- The bytes of a body, if there are no more than a limit and the stream did not break. -/
def Body.buffer (limit : Nat) (b : Body) : Except Unbuffered (List UInt8) :=
  if limit < b.bytes.length then .error .tooLong
  else if b.broken then .error .broken
  else .ok b.bytes

/-- A body that is buffered did not break, so its bytes are all of it. -/
theorem Body.eq_whole_of_buffer {limit : Nat} {b : Body} {bytes : List UInt8}
    (h : b.buffer limit = .ok bytes) : b = .whole bytes := by
  obtain ⟨given, broken⟩ := b
  unfold buffer at h
  split at h
  · cases h
  · split at h
    · cases h
    · rename_i hbroken
      cases h
      cases broken
      · rfl
      · exact absurd rfl hbroken

/-- A request. -/
structure Request where
  verb : String
  target : Target
  headers : List (String × List UInt8)
  body : Body
deriving DecidableEq

/-- The value of the first header of a name, which is given in lower case. -/
def Request.header? (r : Request) (name : String) : Option (List UInt8) :=
  (r.headers.find? fun h => Method.lowercase h.1 = name).map Prod.snd

/-! ## Responses -/

/-- How a request was answered. -/
inductive Status where
  | ok
  | created
  | badRequest
  | notFound
  | methodNotAllowed
  | contentTooLarge
  | unprocessable
  | internalError
deriving DecidableEq, Repr

namespace Status

/-- The number of a status. -/
def code : Status → Nat
  | ok => 200
  | created => 201
  | badRequest => 400
  | notFound => 404
  | methodNotAllowed => 405
  | contentTooLarge => 413
  | unprocessable => 422
  | internalError => 500

/-- No two have one number. -/
theorem code_inj {s t : Status} : s.code = t.code ↔ s = t := by
  cases s <;> cases t <;> decide

/-- Whether the request was served. -/
def isSuccess : Status → Bool
  | ok => true
  | created => true
  | _ => false

end Status

/-- A response: its status, what its body is, the verbs it says are allowed, and the body. -/
structure Response where
  status : Status
  contentType : Option String
  allow : Option String
  body : List UInt8
deriving DecidableEq

namespace Response

/-- A response that has a status only. -/
def bare (status : Status) : Response :=
  ⟨status, none, none, []⟩

/-- A response in plain text. -/
def text (status : Status) (s : String) : Response :=
  ⟨status, some "text/plain; charset=utf-8", none, s.utf8Bytes⟩

/-- A response in JSON. -/
def json (status : Status) (v : Json) : Response :=
  ⟨status, some "application/json", none, v.toText.utf8Bytes⟩

/-- A response of bytes about which nothing is said. -/
def octets (bytes : List UInt8) : Response :=
  ⟨.ok, some "application/octet-stream", none, bytes⟩

/-- The response as it goes out to a request with this verb: without its body to `HEAD`, and to a
`CONNECT` that was served. -/
def forVerb (r : Response) (verb : String) : Response :=
  if verb = "HEAD" ∨ (verb = "CONNECT" ∧ r.status.isSuccess) then { r with body := [] } else r

@[simp] theorem status_forVerb (r : Response) (verb : String) : (r.forVerb verb).status = r.status := by
  unfold forVerb
  split <;> rfl

end Response

end RequestGuard.Service
