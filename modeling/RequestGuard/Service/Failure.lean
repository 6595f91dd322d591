import RequestGuard.Request.Data
import RequestGuard.Service.Message
import RequestGuard.Text.Lines

/-!
# Failures

Why a request is not served, and the response that says so. The response is a JSON object with a
code for programs and a message for people; a request that violates a schema gets the lines of the
report one by one as well. What went wrong inside the service is not told to the one who asked.
-/

namespace RequestGuard.Service

/-- Why the data of a request cannot be read. -/
inductive Unreadable where
  /-- The verb, or a body that is JSON and no object, cannot describe a request. -/
  | request (error : RequestError)
  /-- The stream of the body broke. -/
  | brokenBody
  /-- The body says that it is JSON and is not. -/
  | malformedJson (error : Json.ReadError)
  /-- The body is a form that is not buffered. -/
  | unbufferedForm (why : Unbuffered)
  /-- A reason in the host's own words. -/
  | note (text : String)
deriving DecidableEq

/-- The wording of a reason. -/
def Unreadable.message : Unreadable → String
  | request e => e.message
  | brokenBody => "request body could not be read"
  | malformedJson e => "malformed JSON body: " ++ e.message
  | unbufferedForm why => "malformed form body: " ++ why.message
  | note text => text

/-- Why a request is not served. -/
inductive Failure where
  /-- It violates a schema, as the message says line by line. -/
  | violation (message : String)
  /-- Its data cannot be read. -/
  | unreadable (why : Unreadable)
  /-- Its body is longer than the limit. -/
  | tooLarge (limit : Nat)
  /-- The service is at fault. -/
  | internal (reason : String)
deriving DecidableEq

namespace Failure

/-- The status of the response. -/
def status : Failure → Status
  | violation _ => .unprocessable
  | unreadable _ => .unprocessable
  | tooLarge _ => .contentTooLarge
  | internal _ => .internalError

/-- The code for programs. -/
def code : Failure → String
  | violation _ => "VALIDATION_ERROR"
  | unreadable _ => "BAD_REQUEST"
  | tooLarge _ => "PAYLOAD_TOO_LARGE"
  | internal _ => "INTERNAL_ERROR"

/-- The whole wording, for those who run the service. -/
def message : Failure → String
  | violation message => message
  | unreadable why => "bad request: " ++ why.message
  | tooLarge limit => "request body exceeds " ++ String.ofList (Nat.toDigits 10 limit) ++ " bytes"
  | internal reason => "internal error: " ++ reason

/-- The wording for the one who asked, which leaves out what happened inside. -/
def publicMessage : Failure → String
  | internal _ => "An internal error occurred"
  | f => f.message

/-- The lines of a report, one by one. -/
def details? : Failure → Option (List String)
  | violation message => some (Text.lines message)
  | _ => none

/-- The object that the response holds. -/
def toJson (f : Failure) : Json :=
  let details := match f.details? with
    | some lines => [("details", Json.array (lines.map Json.string))]
    | none => []
  .object [("error", .object ([("code", .string f.code), ("message", .string f.publicMessage)] ++ details))]

/-- The response to a request that is not served. -/
def response (f : Failure) : Response :=
  .json f.status f.toJson

end Failure

end RequestGuard.Service
