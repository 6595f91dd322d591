import RequestGuard.Json.Basic

/-!
# The structure of a JSON value

Induction over a JSON value, through the lists that arrays and objects hold (`Json.induct`), and what
it means for the names of a value's objects to be unique, array by array and object by object. An
object is looked up in as a list of pairs, like any table with names for keys.
-/

namespace RequestGuard

/-! ## Looking up a name -/

/-- What is found under a name stands there with the name. -/
theorem mem_of_lookup_eq_some {α : Type} {key : String} {value : α} {table : List (String × α)}
    (h : table.lookup key = some value) : (key, value) ∈ table := by
  obtain ⟨before, after, rfl, -⟩ := List.lookup_eq_some_iff.mp h
  exact List.mem_append_right before List.mem_cons_self

/-- Where no name stands twice, each value is found under its own. -/
theorem lookup_of_mem {α : Type} {key : String} {value : α} {table : List (String × α)}
    (hnodup : (table.map Prod.fst).Nodup) (h : (key, value) ∈ table) : table.lookup key = some value := by
  obtain ⟨front, back, rfl⟩ := List.append_of_mem h
  rw [List.lookup_eq_some_iff]
  refine ⟨front, back, rfl, ?_⟩
  intro m hm
  rw [bne_iff_ne]
  rintro rfl
  rw [List.map_append, List.nodup_append] at hnodup
  exact hnodup.2.2 m.1 (List.mem_map_of_mem hm) m.1 List.mem_cons_self rfl

namespace Json

/-! ## Induction -/

/-- Induction over a value: what holds of an array's items holds of the array, and what holds of the
values of an object's members holds of the object. -/
@[elab_as_elim]
theorem induct {motive : Json → Prop} (null : motive null) (boolean : ∀ b, motive (boolean b))
    (number : ∀ n, motive (number n)) (string : ∀ s, motive (string s))
    (array : ∀ vs, (∀ v ∈ vs, motive v) → motive (array vs))
    (object : ∀ ms, (∀ m ∈ ms, motive m.2) → motive (object ms)) : ∀ v, motive v
  | .null => null
  | .boolean b => boolean b
  | .number n => number n
  | .string s => string s
  | .array vs => array vs fun v _ => induct null boolean number string array object v
  | .object ms => object ms fun m _ => induct null boolean number string array object m.2
termination_by v => sizeOf v
decreasing_by
  · have hsize := List.sizeOf_lt_of_mem ‹v ∈ vs›
    simp only [Json.array.sizeOf_spec]
    omega
  · have hsize := List.sizeOf_lt_of_mem ‹m ∈ ms›
    obtain ⟨n, w⟩ := m
    simp only [Prod.mk.sizeOf_spec] at hsize
    simp only [Json.object.sizeOf_spec]
    omega

/-! ## Unique names -/

theorem allNamesUnique_iff {vs : List Json} : AllNamesUnique vs ↔ ∀ v ∈ vs, v.NamesUnique := by
  induction vs with
  | nil => simp [AllNamesUnique]
  | cons v vs ih => rw [AllNamesUnique, ih, List.forall_mem_cons]

theorem membersNamesUnique_iff {ms : List (String × Json)} :
    MembersNamesUnique ms ↔ ∀ m ∈ ms, m.2.NamesUnique := by
  induction ms with
  | nil => simp [MembersNamesUnique]
  | cons m ms ih => rw [MembersNamesUnique, ih, List.forall_mem_cons]

end Json

end RequestGuard
