import RequestGuard.Json.Fault
import RequestGuard.Request.Fields
import RequestGuard.Request.Method

/-!
# Request data

The fields of a request, those of the query and those of the body. The two sources never meet: an
operation on one leaves the other alone. `RequestError` holds what can be wrong with the material
that data is made of.
-/

namespace RequestGuard

/-- Why a request cannot be described. -/
inductive RequestError where
  /-- A verb that is empty or has white space in it. -/
  | invalidMethod (text : String)
  /-- Data for a source that is no JSON object but of another kind. -/
  | notObject (source : Source) (kind : String)
  /-- A text that cannot be read as request data. -/
  | unreadable (error : Json.ReadError)
deriving DecidableEq

/-- The wording of an error. -/
def RequestError.message : RequestError → String
  | invalidMethod text => "invalid request method: " ++ Text.quoted text
  | notObject source kind => source.name ++ " data must be an object, got " ++ kind
  | unreadable error => "serialization error: " ++ error.message

/-- The verb that a text names, or the error of one that names none. -/
def Method.read (s : String) : Except RequestError Method :=
  match Method.ofText? s with
  | some m => .ok m
  | none => .error (.invalidMethod s)

/-- The fields of a request by source. -/
@[ext] structure RequestData where
  query : Fields
  body : Fields

namespace RequestData

/-- No fields. -/
def empty : RequestData := ⟨.empty, .empty⟩

/-- The fields of a source. -/
def fields (d : RequestData) : Source → Fields
  | .query => d.query
  | .body => d.body

/-- Puts other fields in the place of a source's. -/
def setFields (d : RequestData) (s : Source) (fs : Fields) : RequestData :=
  match s with
  | .query => { d with query := fs }
  | .body => { d with body := fs }

/-- The value of a field. -/
def get? (d : RequestData) (s : Source) (name : String) : Option FieldValue :=
  (d.fields s).get? name

/-- Whether a field has a value. -/
def contains (d : RequestData) (s : Source) (name : String) : Bool :=
  (d.fields s).contains name

/-- Gives a field a value. -/
def insert (d : RequestData) (s : Source) (name : String) (v : FieldValue) : RequestData :=
  d.setFields s ((d.fields s).insert name v)

/-- Takes a field away. -/
def erase (d : RequestData) (s : Source) (name : String) : RequestData :=
  d.setFields s ((d.fields s).erase name)

/-- Gives a source's fields the values of some pairs in turn. -/
def insertAll (d : RequestData) (s : Source) (es : List (String × FieldValue)) : RequestData :=
  d.setFields s ((d.fields s).insertAll es)

/-- Gives a source's fields the values of the members of a JSON object. -/
def insertJson (d : RequestData) (s : Source) (v : Document) : Except RequestError RequestData :=
  match v.members? with
  | some ms => .ok (d.insertAll s (ms.toList.map fun m => (m.1, FieldValue.ofDocument m.2)))
  | none => .error (.notObject s v.val.kind)

/-- The data with the two sources exchanged. -/
def swap (d : RequestData) : RequestData := ⟨d.body, d.query⟩

/-- The data as JSON. -/
def toJson (d : RequestData) : Json :=
  .object [("query", d.query.toJson), ("body", d.body.toJson)]

/-! ## Look-up -/

@[simp] theorem fields_setFields (d : RequestData) (s t : Source) (fs : Fields) :
    (d.setFields s fs).fields t = if t = s then fs else d.fields t := by
  cases s <;> cases t <;> rfl

theorem contains_eq_isSome (d : RequestData) (s : Source) (name : String) :
    d.contains s name = (d.get? s name).isSome := rfl

theorem get?_insert (d : RequestData) (s t : Source) (name n : String) (v : FieldValue) :
    (d.insert s name v).get? t n = if t = s ∧ n = name then some v else d.get? t n := by
  unfold insert get?
  by_cases h : t = s
  · subst h
    simp [Fields.get?_insert]
  · simp [h]

theorem get?_erase (d : RequestData) (s t : Source) (name n : String) :
    (d.erase s name).get? t n = if t = s ∧ n = name then none else d.get? t n := by
  unfold erase get?
  by_cases h : t = s
  · subst h
    simp [Fields.get?_erase]
  · simp [h]

/-- Extensionality: data that answers every look-up alike is equal. -/
theorem ext_get? {d e : RequestData} (h : ∀ s name, d.get? s name = e.get? s name) : d = e :=
  RequestData.ext (Fields.ext_get? (h .query)) (Fields.ext_get? (h .body))

end RequestData

end RequestGuard
