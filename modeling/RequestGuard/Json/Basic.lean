import RequestGuard.Number.Binary64

/-!
# JSON values

A `Json` is a tree whose objects keep the order of their members. A `Document` is such a tree in
which no object names a member twice; reading makes documents only, and everything that holds JSON
holds a document. `Members` is an object under construction: naming a member again replaces its
value in place.

A number is an integer, from the least signed to the greatest unsigned one of 64 bits, or a finite
binary64 number. The two kinds stay apart: `Json.same`, equality of values, never identifies an
integer with a floating-point number. Member order does not count for it.
-/

namespace RequestGuard

/-- A number of a JSON value. -/
inductive Json.Number where
  | integer (value : Int) (fits : -0x8000000000000000 ≤ value ∧ value < 0x10000000000000000)
  | float (value : Binary64) (finite : value.isFinite = true)
deriving DecidableEq

/-- A JSON value. -/
inductive Json where
  | null
  | boolean (value : Bool)
  | number (value : Json.Number)
  | string (value : String)
  | array (items : List Json)
  | object (members : List (String × Json))

namespace Json

/-- The kind of a value, as messages name it. -/
def kind : Json → String
  | null => "null"
  | boolean _ => "boolean"
  | number _ => "number"
  | string _ => "string"
  | array _ => "array"
  | object _ => "object"

/-- An integer as a number, if it is in range. -/
def Number.ofInt? (i : Int) : Option Number :=
  if h : -0x8000000000000000 ≤ i ∧ i < 0x10000000000000000 then some (.integer i h) else none

/-- A binary64 number as a number, if it is finite. -/
def Number.ofBinary64? (x : Binary64) : Option Number :=
  if h : x.isFinite = true then some (.float x h) else none

/-! ## Unique names -/

mutual

/-- No object within the value names a member twice. -/
def NamesUnique : Json → Prop
  | array items => AllNamesUnique items
  | object members => (members.map Prod.fst).Nodup ∧ MembersNamesUnique members
  | _ => True

/-- Every item has `NamesUnique`. -/
def AllNamesUnique : List Json → Prop
  | [] => True
  | v :: vs => v.NamesUnique ∧ AllNamesUnique vs

/-- Every member has a value with `NamesUnique`. -/
def MembersNamesUnique : List (String × Json) → Prop
  | [] => True
  | (_, v) :: ms => v.NamesUnique ∧ MembersNamesUnique ms

end

/-! ## Equality -/

/-- Equality of numbers of one kind. -/
def Number.same : Number → Number → Bool
  | .integer i _, .integer j _ => i == j
  | .float x _, .float y _ => x.numEq y
  | _, _ => false

mutual

/-- Equality of values, in which the order of members does not count. -/
def same : Json → Json → Bool
  | null, null => true
  | boolean a, boolean b => a == b
  | number a, number b => a.same b
  | string a, string b => a == b
  | array as, array bs => sameItems as bs
  | object as, object bs => as.length == bs.length && sameMembers as bs
  | _, _ => false

/-- Equality item by item. -/
def sameItems : List Json → List Json → Bool
  | [], [] => true
  | a :: as, b :: bs => same a b && sameItems as bs
  | _, _ => false

/-- Whether each of the first members has a value that the second ones give the same name. -/
def sameMembers : List (String × Json) → List (String × Json) → Bool
  | [], _ => true
  | (name, a) :: as, bs =>
    (match bs.lookup name with
      | some b => same a b
      | none => false) && sameMembers as bs

end

end Json

/-! ## Documents -/

/-- A JSON value in which no object names a member twice. -/
abbrev Document := { v : Json // v.NamesUnique }

namespace Document

/-- The document without content. -/
def null : Document := ⟨.null, trivial⟩

/-- A truth value. -/
def boolean (b : Bool) : Document := ⟨.boolean b, trivial⟩

/-- A number. -/
def number (n : Json.Number) : Document := ⟨.number n, trivial⟩

/-- A string. -/
def string (s : String) : Document := ⟨.string s, trivial⟩

theorem allNamesUnique_map_val (ds : List Document) : Json.AllNamesUnique (ds.map Subtype.val) := by
  induction ds with
  | nil => trivial
  | cons d ds ih => exact ⟨d.property, ih⟩

/-- The array of some documents. -/
def array (items : List Document) : Document :=
  ⟨.array (items.map Subtype.val), allNamesUnique_map_val items⟩

end Document

/-! ## Members -/

namespace Json

/-- Gives a name a value: in place where the name is known, else at the end. -/
def putMember (name : String) (v : Json) : List (String × Json) → List (String × Json)
  | [] => [(name, v)]
  | (n, w) :: ms => if n = name then (name, v) :: ms else (n, w) :: putMember name v ms

theorem mem_names_putMember {name n : String} {v : Json} {ms : List (String × Json)} :
    n ∈ (putMember name v ms).map Prod.fst ↔ n = name ∨ n ∈ ms.map Prod.fst := by
  induction ms with
  | nil => simp [putMember]
  | cons m ms ih =>
    obtain ⟨k, w⟩ := m
    by_cases h : k = name
    · subst h
      simp [putMember]
    · simp only [putMember, h, if_false, List.map_cons, List.mem_cons, ih]
      exact or_left_comm

theorem nodup_names_putMember {name : String} {v : Json} {ms : List (String × Json)}
    (h : (ms.map Prod.fst).Nodup) : ((putMember name v ms).map Prod.fst).Nodup := by
  induction ms with
  | nil => simp [putMember]
  | cons m ms ih =>
    obtain ⟨k, w⟩ := m
    simp only [List.map_cons, List.nodup_cons] at h
    by_cases hk : k = name
    · subst hk
      simpa [putMember] using h
    · simp only [putMember, hk, if_false, List.map_cons, List.nodup_cons]
      refine ⟨fun hm => ?_, ih h.2⟩
      rcases mem_names_putMember.1 hm with rfl | hm
      · exact hk rfl
      · exact h.1 hm

theorem membersNamesUnique_putMember {name : String} {v : Json} {ms : List (String × Json)}
    (hv : v.NamesUnique) (h : MembersNamesUnique ms) : MembersNamesUnique (putMember name v ms) := by
  induction ms with
  | nil => exact ⟨hv, trivial⟩
  | cons m ms ih =>
    obtain ⟨k, w⟩ := m
    by_cases hk : k = name
    · simp only [putMember, hk, if_true]
      exact ⟨hv, h.2⟩
    · simp only [putMember, hk, if_false]
      exact ⟨h.1, ih h.2⟩

end Json

/-- The members of an object under construction. -/
abbrev Members := { ms : List (String × Json) // (ms.map Prod.fst).Nodup ∧ Json.MembersNamesUnique ms }

namespace Members

/-- No members. -/
def empty : Members := ⟨[], by simp [Json.MembersNamesUnique]⟩

/-- Gives a name a value: in place where the name is known, else at the end. -/
def put (ms : Members) (name : String) (d : Document) : Members :=
  ⟨Json.putMember name d.val ms.val, Json.nodup_names_putMember ms.property.1,
    Json.membersNamesUnique_putMember d.property ms.property.2⟩

/-- The object with these members. -/
def toDocument (ms : Members) : Document :=
  ⟨.object ms.val, ms.property⟩

/-- Names with their documents, given that the values are documents. -/
def pairs : (ms : List (String × Json)) → Json.MembersNamesUnique ms → List (String × Document)
  | [], _ => []
  | (name, v) :: ms, h => (name, ⟨v, h.1⟩) :: pairs ms h.2

/-- Names with their documents, in order. -/
def toList (ms : Members) : List (String × Document) :=
  pairs ms.val ms.property.2

end Members

/-- The members of a document that is an object. -/
def Document.members? : Document → Option Members
  | ⟨.object ms, h⟩ => some ⟨ms, h⟩
  | _ => none

end RequestGuard
