import RequestGuard.Number.Numeral
import RequestGuard.Text.Blank
import RequestGuard.Text.Quoted

/-!
# Settings

What the service is told by its environment: the port it listens on and the limit on the length of
bodies. Each has a default, so an empty environment gives settings. The limit is looked at first and
may not be zero.
-/

namespace RequestGuard.Service

/-- The port and the limit on the length of bodies, in bytes. -/
structure Settings where
  port : Nat
  bodyLimit : Nat
  port_lt : port < UInt16.size
  bodyLimit_pos : 0 < bodyLimit
  bodyLimit_lt : bodyLimit < UInt64.size
deriving DecidableEq

/-- Why an environment gives no settings. -/
inductive SettingsError where
  /-- A variable whose value is no number in range. -/
  | invalid (variableName : String) (value : String)
  /-- A limit of zero. -/
  | zeroBodyLimit
deriving DecidableEq

/-- The wording of an error. -/
def SettingsError.message : SettingsError → String
  | invalid variableName value => "invalid value for " ++ variableName ++ ": " ++ Text.quoted value
  | zeroBodyLimit => "REQCHECK_BODY_LIMIT must be greater than zero"

namespace Settings

/-- The number below a bound that a variable holds, blanks at its ends aside, or the default where
it is not set. -/
def number (environment : String → Option String) (name : String) (bound default : Nat) (h : default < bound) :
    Except SettingsError { n : Nat // n < bound } :=
  match environment name with
  | none => .ok ⟨default, h⟩
  | some raw =>
    match Numeral.nat? (bound - 1) (Text.trim raw.toList) with
    | some n => if h : n < bound then .ok ⟨n, h⟩ else .error (.invalid name raw)
    | none => .error (.invalid name raw)

/-- The settings that an environment gives. A variable whose value is no text counts as not set. -/
def read (environment : String → Option String) : Except SettingsError Settings := do
  let limit ← number environment "REQCHECK_BODY_LIMIT" UInt64.size 2097152 (by decide)
  if h : 0 < limit.val then
    let port ← number environment "PORT" UInt16.size 8080 (by decide)
    .ok ⟨port.val, limit.val, port.property, h, limit.property⟩
  else .error .zeroBodyLimit

end Settings

end RequestGuard.Service
