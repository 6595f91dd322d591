import RequestGuard.Schema.Literal
import RequestGuard.Service.Resource

/-!
# Accounts

The resource for accounts, with a guard for each of its two verbs. `POST` creates an account from
the body, which names an address, a plan, a number of seats, a phone or a postal address, and a
currency. `GET` searches accounts by the query, which has a search text, a page and an owner or a
plan. Both answer with the fields as the guard left them.

The alternative between two fields stands in a group of its own each time. Were it beside the other
requirements, a field that satisfies it would satisfy them all.
-/

namespace RequestGuard.Service.Accounts

/-- The plans that an account may be on. -/
def plans : List String := ["free", "team", "enterprise"]

/-- The code of a currency: three ASCII letters, brought into upper case. -/
def currencyCode? (s : String) : Option String :=
  if s.utf8Bytes.length = 3 ∧ s.toList.all Char.isAlpha then some (Method.uppercase s) else none

/-- A currency as a value of a field. -/
def currency : Transform := fun given _ =>
  .ok ((given.text?.bind currencyCode?).map .text)

/-- What the creation of an account requires. -/
def creation : List Node :=
  [.sourced .body [
    .field "email",
    .coerced .mailbox ["email"],
    .oneOf "plan" (plans.map fun plan => .literal (.text plan)),
    .coerced .integer ["seats"],
    .group [.combined .any [.field "phone", .field "address"]],
    .oneOf "currency" [.transform currency]]]

/-- What a search for accounts requires. -/
def search : List Node :=
  [.field "q", .field "page", .coerced .integer ["page"],
    .sourced .query [.combined .any [.field "owner", .field "plan"]]]

/-- An object with one member. -/
def single (name : String) (v : Document) : Document := (Members.empty.put name v).toDocument

/-- The same as it is written:
`["q", "page", {"$int": "page"}, {"$query": [{"$or": ["owner", "plan"]}]}]`. -/
def searchLiteral : Document :=
  .array [.string "q", .string "page", single "$int" (.string "page"),
    single "$query" (.array [single "$or" (.array [.string "owner", .string "plan"])])]

theorem read_searchLiteral : Schema.read searchLiteral = .ok search := rfl

/-- The guard for creation. -/
def creationGuard : Guard := ⟨creation, some .post⟩

/-- The guard for searches. -/
def searchGuard : Guard := ⟨search, some .get⟩

/-- Accounts. -/
def resource : Resource where
  handlers := .each [
    ("GET", .ofData fun d => .json .ok d.query.toJson),
    ("POST", .ofData fun d => .json .created d.body.toJson)]
  guards := [creationGuard, searchGuard]

end RequestGuard.Service.Accounts
