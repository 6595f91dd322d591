import RequestGuard.Proofs.Json.Structure
import RequestGuard.Proofs.Schema.Grammar

/-!
# The first place that does not fit

A JSON value has places at which a schema calls for something: a node, the operand of a coercion or
the alternatives of a field. `places` lists them in document order, depth first, each with the path
to it and with what stands there. Nothing is skipped behind a place that does not fit, so the list
does not depend on where reading stops.

Reading stops at the first place of the list that does not fit and blames it (`fault?_group`). If
there is none the value has the shape of a group (`isGroup_iff`). The paths are those of the value:
following one from the root leads to what stands at its place (`at?_of_mem_places`).
-/

namespace RequestGuard

/-! ## Paths -/

/-- The step as a path spells it. -/
def PathStep.text : PathStep → String
  | item index => String.ofList (Nat.toDigits 10 index)
  | member key => key

/-- What is found by following a path. -/
def Json.at? : Json → List PathStep → Option Json
  | v, [] => some v
  | .array items, .item index :: path => items[index]?.bind (·.at? path)
  | .object members, .member key :: path => (members.lookup key).bind (·.at? path)
  | _, _ :: _ => none

theorem Json.at?_append (v : Json) (path rest : List PathStep) :
    v.at? (path ++ rest) = (v.at? path).bind (·.at? rest) := by
  induction path generalizing v with
  | nil => simp [at?]
  | cons step path ih =>
    cases v with
    | array items => cases step <;> simp [at?, ih, Option.bind_assoc]
    | object members => cases step <;> simp [at?, ih, Option.bind_assoc]
    | _ => simp [at?]

/-- A path with a step has a slash before each step and nothing else. -/
theorem pathText_eq_join {path : List PathStep} (h : path ≠ []) :
    pathText path = String.join (path.map fun step => "/" ++ step.text) := by
  cases path with
  | nil => exact absurd rfl h
  | cons step path =>
    rw [pathText]
    · congr 1
      apply List.map_congr_left
      intro step _
      cases step <;> rfl
    · exact List.cons_ne_nil step path

namespace Schema

/-! ## Places -/

/-- What a schema calls for at a place. -/
inductive Slot where
  /-- A name, a group or an object. -/
  | node
  /-- The name of a field or an array of names. -/
  | operand (coercion : Coercion)
  /-- An array of admitted values. -/
  | alternatives (field : String)

/-- What the value of a member has to be. -/
def Slot.ofKey (key : String) : Slot :=
  if key ∈ groupKeys then node
  else match Coercion.ofKey? key with
    | some c => operand c
    | none => alternatives key

/-- Whether the value is a string. -/
def isString : Json → Bool
  | .string _ => true
  | _ => false

/-- Whether a value fits, leaving aside the places within it. -/
def Slot.fits : Slot → Json → Bool
  | node, .string _ => true
  | node, .array _ => true
  | node, .object _ => true
  | operand _, .string _ => true
  | operand _, .array items => items.all isString
  | alternatives _, .array _ => true
  | _, _ => false

/-- A place of a JSON value: the path to it, what is called for there, and what stands there. -/
structure Place where
  path : List PathStep
  slot : Slot
  value : Json

/-- Whether the value fits the place. -/
def Place.fits (p : Place) : Bool := p.slot.fits p.value

/-- The error that blames the place. -/
def Place.error : Place → SchemaError
  | ⟨path, .node, v⟩ => .node path v.kind
  | ⟨path, .operand c, _⟩ => .operand c path
  | ⟨path, .alternatives field, _⟩ => .alternatives field path

mutual

/-- The places of a group at the end of a path: its own, and then those of its items or members. -/
def places (path : List PathStep) : Json → List Place
  | .array vs => ⟨path, .node, .array vs⟩ :: itemPlaces path 0 vs
  | .object ms => ⟨path, .node, .object ms⟩ :: memberPlaces path ms
  | v => [⟨path, .node, v⟩]

/-- The places of items, counted from `index`. -/
def itemPlaces (path : List PathStep) (index : Nat) : List Json → List Place
  | [] => []
  | v :: vs => places (path ++ [.item index]) v ++ itemPlaces path (index + 1) vs

/-- The places of members. Only one that calls for a node has more places within it. -/
def memberPlaces (path : List PathStep) : List (String × Json) → List Place
  | [] => []
  | (key, v) :: ms =>
    (match Slot.ofKey key with
      | .node => places (path ++ [.member key]) v
      | slot => [⟨path ++ [.member key], slot, v⟩]) ++ memberPlaces path ms

end

/-- The places of one member. -/
def placesUnder (path : List PathStep) (key : String) (v : Json) : List Place :=
  match Slot.ofKey key with
  | .node => places (path ++ [.member key]) v
  | slot => [⟨path ++ [.member key], slot, v⟩]

theorem memberPlaces_cons (path : List PathStep) (key : String) (v : Json)
    (ms : List (String × Json)) :
    memberPlaces path ((key, v) :: ms) = placesUnder path key v ++ memberPlaces path ms := rfl

theorem placesUnder_group {key : String} (h : key ∈ groupKeys) (path : List PathStep) (v : Json) :
    placesUnder path key v = places (path ++ [.member key]) v := by
  rw [placesUnder, Slot.ofKey, if_pos h]

theorem placesUnder_coercion (c : Coercion) (path : List PathStep) (v : Json) :
    placesUnder path c.key v = [⟨path ++ [.member c.key], .operand c, v⟩] := by
  rw [placesUnder, Slot.ofKey, if_neg (not_mem_groupKeys_coercion c), ofKey?_key]

theorem placesUnder_field {key : String} (h : key ∉ reservedKeys) (path : List PathStep)
    (v : Json) : placesUnder path key v = [⟨path ++ [.member key], .alternatives key, v⟩] := by
  rw [placesUnder, Slot.ofKey, if_neg (not_mem_groupKeys h), ofKey?_eq_none h]

theorem all_isString_iff {items : List Json} :
    items.all isString = true ↔ ∃ names : List String, items = names.map .string := by
  constructor
  · intro h
    induction items with
    | nil => exact ⟨[], rfl⟩
    | cons v vs ih =>
      rw [List.all_cons, Bool.and_eq_true] at h
      obtain ⟨names, rfl⟩ := ih h.2
      cases v with
      | string s => exact ⟨s :: names, rfl⟩
      | _ => exact absurd h.1 Bool.false_ne_true
  · rintro ⟨names, rfl⟩
    rw [List.all_eq_true]
    intro v hv
    obtain ⟨name, -, rfl⟩ := List.mem_map.mp hv
    rfl

/-! ## Where reading stops -/

/-- The error of a computation that has one. -/
def fault? {ε α : Type} : Except ε α → Option ε
  | .error e => some e
  | .ok _ => none

/-- The error that blames the first place that does not fit. -/
def firstFault (ps : List Place) : Option SchemaError :=
  (ps.find? fun p => !p.fits).map Place.error

theorem fault?_map {ε α β : Type} (f : α → β) (x : Except ε α) : fault? (x.map f) = fault? x := by
  cases x <;> rfl

theorem fault?_bind_bind {ε α β γ : Type} (x : Except ε α) (y : Except ε β) (f : α → β → γ) :
    fault? (do let a ← x; let b ← y; .ok (f a b)) = (fault? x).or (fault? y) := by
  cases x with
  | error e => rfl
  | ok a => cases y <;> rfl

theorem firstFault_append (ps qs : List Place) :
    firstFault (ps ++ qs) = (firstFault ps).or (firstFault qs) := by
  rw [firstFault, List.find?_append, Option.map_or]
  rfl

theorem firstFault_cons_of_fits {p : Place} (h : p.fits = true) (ps : List Place) :
    firstFault (p :: ps) = firstFault ps := by
  rw [firstFault, List.find?_cons_of_neg (by rw [h]; exact Bool.false_ne_true)]
  rfl

theorem firstFault_singleton_of_not_fits {p : Place} (h : p.fits = false) :
    firstFault [p] = some p.error := by
  rw [firstFault, List.find?_cons_of_pos (by rw [h]; rfl)]
  rfl

theorem fault?_operand (c : Coercion) (path : List PathStep) (v : Json) :
    fault? (operand c path v) = firstFault [⟨path, .operand c, v⟩] := by
  cases v with
  | array items =>
    cases hfits : items.all isString with
    | true =>
      have hplace : Place.fits ⟨path, .operand c, .array items⟩ = true := hfits
      obtain ⟨names, rfl⟩ := all_isString_iff.mp hfits
      rw [operand_eq_ok_iff.mpr (.inr rfl), firstFault_cons_of_fits hplace]
      rfl
    | false =>
      have hnone : names? items = none := by
        cases hnames : names? items with
        | none => rfl
        | some names =>
          have hall : items.all isString = true :=
            all_isString_iff.mpr ⟨names, names?_eq_some_iff.mp hnames⟩
          rw [hfits] at hall
          cases hall
      have hplace : Place.fits ⟨path, .operand c, .array items⟩ = false := hfits
      rw [operand, hnone, firstFault_singleton_of_not_fits hplace]
      rfl
  | _ => rfl

theorem fault?_alternatives (field : String) (path : List PathStep) (v : Json)
    (h : v.NamesUnique) :
    fault? (alternatives field path v h) = firstFault [⟨path, .alternatives field, v⟩] := by
  cases v <;> rfl

theorem fault?_readMember {v : Json} {h : v.NamesUnique}
    (hgroup : ∀ path, fault? (group path v h) = firstFault (places path v))
    (path : List PathStep) (key : String) :
    fault? (readMember path key v h) = firstFault (placesUnder path key v) := by
  obtain ⟨c, rfl⟩ | ⟨s, rfl⟩ | ⟨c, rfl⟩ | hkey := key_cases key
  · rw [readMember_combinator, fault?_map, hgroup, placesUnder_group (mem_groupKeys_combinator c)]
  · rw [readMember_source, fault?_map, hgroup, placesUnder_group (mem_groupKeys_source s)]
  · rw [readMember_coercion, fault?_map, fault?_operand, placesUnder_coercion]
  · rw [readMember_field path v h hkey, fault?_map, fault?_alternatives, placesUnder_field hkey]

mutual

/-- Reading a group stops at the first place that does not fit. -/
theorem fault?_group : ∀ (v : Json) (h : v.NamesUnique) (path : List PathStep),
    fault? (group path v h) = firstFault (places path v)
  | .null, _, _ => rfl
  | .boolean _, _, _ => rfl
  | .number _, _, _ => rfl
  | .string _, _, _ => rfl
  | .array vs, h, path => by
    rw [group, places, firstFault_cons_of_fits rfl]
    exact fault?_items vs h path 0
  | .object ms, h, path => by
    rw [group, places, firstFault_cons_of_fits rfl]
    exact fault?_members ms h.2 path

theorem fault?_items : ∀ (vs : List Json) (h : Json.AllNamesUnique vs) (path : List PathStep)
    (index : Nat), fault? (items path index vs h) = firstFault (itemPlaces path index vs)
  | [], _, _, _ => rfl
  | v :: vs, h, path, index => by
    rw [items_cons, fault?_bind_bind, itemPlaces, firstFault_append, fault?_group v h.1,
      fault?_items vs h.2]

theorem fault?_members : ∀ (ms : List (String × Json)) (h : Json.MembersNamesUnique ms)
    (path : List PathStep), fault? (members path ms h) = firstFault (memberPlaces path ms)
  | [], _, _ => rfl
  | (key, v) :: ms, h, path => by
    rw [members_cons, fault?_bind_bind, memberPlaces_cons, firstFault_append,
      fault?_readMember (fault?_group v h.1), fault?_members ms h.2]

end

/-! ## Where every place fits -/

section

variable {key : String} {v : Json}

theorem isMember_iff_of_group (hkey : key ∈ groupKeys) : IsMember key v ↔ IsGroup v := by
  constructor
  · intro h
    cases h with
    | group _ hgroup => exact hgroup
    | name c s hc => exact absurd (hc ▸ hkey) (not_mem_groupKeys_coercion c)
    | names c names hc => exact absurd (hc ▸ hkey) (not_mem_groupKeys_coercion c)
    | alternatives items hfield => exact absurd hkey (not_mem_groupKeys hfield)
  · exact .group hkey

theorem isMember_iff_of_coercion {c : Coercion} (hkey : key = c.key) :
    IsMember key v ↔ (Slot.operand c).fits v = true := by
  have hgroup : key ∉ groupKeys := hkey ▸ not_mem_groupKeys_coercion c
  constructor
  · intro h
    cases h with
    | group hmem _ => exact absurd hmem hgroup
    | name _ s _ => rfl
    | names _ names _ => exact all_isString_iff.mpr ⟨names, rfl⟩
    | alternatives items hfield => exact absurd (hkey ▸ mem_reservedKeys_coercion c) hfield
  · intro h
    cases v with
    | string s => exact .name c s hkey
    | array items =>
      obtain ⟨names, rfl⟩ := all_isString_iff.mp h
      exact .names c names hkey
    | _ => exact absurd h Bool.false_ne_true

theorem isMember_iff_of_field (hkey : key ∉ reservedKeys) :
    IsMember key v ↔ (Slot.alternatives key).fits v = true := by
  have hcoercion (c : Coercion) (hc : key = c.key) : False :=
    hkey (hc ▸ mem_reservedKeys_coercion c)
  constructor
  · intro h
    cases h with
    | group hmem _ => exact absurd hmem (not_mem_groupKeys hkey)
    | name c _ hc => exact (hcoercion c hc).elim
    | names c _ hc => exact (hcoercion c hc).elim
    | alternatives items _ => rfl
  · intro h
    cases v with
    | array items => exact .alternatives items hkey
    | _ => exact absurd h Bool.false_ne_true

theorem isMember_iff (hgroup : ∀ path, IsGroup v ↔ ∀ p ∈ places path v, p.fits = true)
    (path : List PathStep) :
    IsMember key v ↔ ∀ p ∈ placesUnder path key v, p.fits = true := by
  obtain ⟨c, rfl⟩ | ⟨s, rfl⟩ | ⟨c, rfl⟩ | hkey := key_cases key
  · have hmem := mem_groupKeys_combinator c
    rw [isMember_iff_of_group hmem, placesUnder_group hmem]
    exact hgroup _
  · have hmem := mem_groupKeys_source s
    rw [isMember_iff_of_group hmem, placesUnder_group hmem]
    exact hgroup _
  · rw [isMember_iff_of_coercion rfl, placesUnder_coercion, List.forall_mem_singleton]
    rfl
  · rw [isMember_iff_of_field hkey, placesUnder_field hkey, List.forall_mem_singleton]
    rfl

end

mutual

/-- A value has the shape of a group if all its places fit. -/
theorem isGroup_iff : ∀ (v : Json) (path : List PathStep),
    IsGroup v ↔ ∀ p ∈ places path v, p.fits = true
  | .null, _ => iff_of_false nofun fun h => Bool.false_ne_true (h _ List.mem_cons_self)
  | .boolean _, _ => iff_of_false nofun fun h => Bool.false_ne_true (h _ List.mem_cons_self)
  | .number _, _ => iff_of_false nofun fun h => Bool.false_ne_true (h _ List.mem_cons_self)
  | .string s, _ => iff_of_true (.name s) (List.forall_mem_singleton.mpr rfl)
  | .array vs, path => by
    have hitems : IsGroup (.array vs) ↔ ∀ v ∈ vs, IsGroup v := by
      constructor
      · intro h
        cases h
        assumption
      · exact .array
    rw [hitems, forall_isGroup_iff vs path 0, places, List.forall_mem_cons]
    exact (and_iff_right rfl).symm
  | .object ms, path => by
    have hmembers : IsGroup (.object ms) ↔ ∀ m ∈ ms, IsMember m.1 m.2 := by
      constructor
      · intro h
        cases h
        assumption
      · exact .object
    rw [hmembers, forall_isMember_iff ms path, places, List.forall_mem_cons]
    exact (and_iff_right rfl).symm

theorem forall_isGroup_iff : ∀ (vs : List Json) (path : List PathStep) (index : Nat),
    (∀ v ∈ vs, IsGroup v) ↔ ∀ p ∈ itemPlaces path index vs, p.fits = true
  | [], _, _ => iff_of_true nofun nofun
  | v :: vs, path, index => by
    rw [List.forall_mem_cons, isGroup_iff v (path ++ [.item index]),
      forall_isGroup_iff vs path (index + 1), itemPlaces, List.forall_mem_append]

theorem forall_isMember_iff : ∀ (ms : List (String × Json)) (path : List PathStep),
    (∀ m ∈ ms, IsMember m.1 m.2) ↔ ∀ p ∈ memberPlaces path ms, p.fits = true
  | [], _ => iff_of_true nofun nofun
  | (key, v) :: ms, path => by
    rw [List.forall_mem_cons, isMember_iff (isGroup_iff v) path, forall_isMember_iff ms path,
      memberPlaces_cons, List.forall_mem_append]

end

/-! ## Where the places are -/

section

variable {root : Json}

mutual

theorem at?_of_mem_group : ∀ (v : Json) (_ : v.NamesUnique) {path : List PathStep}
    (_ : root.at? path = some v), ∀ p ∈ places path v, root.at? p.path = some p.value
  | .null, _, _, h => List.forall_mem_singleton.mpr h
  | .boolean _, _, _, h => List.forall_mem_singleton.mpr h
  | .number _, _, _, h => List.forall_mem_singleton.mpr h
  | .string _, _, _, h => List.forall_mem_singleton.mpr h
  | .array vs, hv, path, h => by
    rw [places, List.forall_mem_cons]
    refine ⟨h, at?_of_mem_items vs hv ?_⟩
    intro i v hi
    simp [Json.at?_append, h, Json.at?, hi]
  | .object ms, hv, path, h => by
    rw [places, List.forall_mem_cons]
    refine ⟨h, at?_of_mem_members ms hv.2 ?_⟩
    intro key v hmem
    simp [Json.at?_append, h, Json.at?, lookup_of_mem hv.1 hmem]

theorem at?_of_mem_items : ∀ (vs : List Json) (_ : Json.AllNamesUnique vs)
    {path : List PathStep} {index : Nat}
    (_ : ∀ i v, vs[i]? = some v → root.at? (path ++ [.item (index + i)]) = some v),
    ∀ p ∈ itemPlaces path index vs, root.at? p.path = some p.value
  | [], _, _, _, _ => nofun
  | v :: vs, hvs, path, index, h => by
    rw [itemPlaces, List.forall_mem_append]
    refine ⟨at?_of_mem_group v hvs.1 (h 0 v rfl), at?_of_mem_items vs hvs.2 ?_⟩
    intro i w hi
    rw [Nat.add_assoc, Nat.add_comm 1 i]
    exact h (i + 1) w hi

theorem at?_of_mem_members : ∀ (ms : List (String × Json)) (_ : Json.MembersNamesUnique ms)
    {path : List PathStep}
    (_ : ∀ key v, (key, v) ∈ ms → root.at? (path ++ [.member key]) = some v),
    ∀ p ∈ memberPlaces path ms, root.at? p.path = some p.value
  | [], _, _, _ => nofun
  | (key, v) :: ms, hms, path, h => by
    have hfirst := h key v List.mem_cons_self
    rw [memberPlaces_cons, List.forall_mem_append]
    refine ⟨?_, at?_of_mem_members ms hms.2 fun key v hmem => h key v (List.mem_cons_of_mem _ hmem)⟩
    unfold placesUnder
    split
    · exact at?_of_mem_group v hms.1 hfirst
    · exact List.forall_mem_singleton.mpr hfirst

end

/-- Following the path of a place leads to what stands there. -/
theorem at?_of_mem_places (d : Document) :
    ∀ p ∈ places [] d.val, d.val.at? p.path = some p.value :=
  at?_of_mem_group d.val d.property rfl

end

/-! ## Reading -/

theorem firstFault_eq_some_iff {ps : List Place} {e : SchemaError} :
    firstFault ps = some e ↔
      ∃ front p back, ps = front ++ p :: back ∧ (∀ q ∈ front, q.fits = true) ∧ p.fits = false ∧
        p.error = e := by
  rw [firstFault, Option.map_eq_some_iff]
  simp only [List.find?_eq_some_iff_append, Bool.not_eq_true', Bool.not_not]
  constructor
  · rintro ⟨p, ⟨hp, front, back, hps, hfront⟩, he⟩
    exact ⟨front, p, back, hps, hfront, hp, he⟩
  · rintro ⟨front, p, back, hps, hfront, hp, he⟩
    exact ⟨p, ⟨hp, front, back, hps, hfront⟩, he⟩

theorem firstFault_eq_none_iff {ps : List Place} :
    firstFault ps = none ↔ ∀ p ∈ ps, p.fits = true := by
  simp [firstFault]

theorem fault?_eq_some_iff {ε α : Type} {x : Except ε α} {e : ε} :
    fault? x = some e ↔ x = .error e := by
  cases x <;> simp [fault?]

theorem fault?_eq_none_iff {ε α : Type} {x : Except ε α} :
    fault? x = none ↔ ∃ a, x = .ok a := by
  cases x <;> simp [fault?]

/-- **Reading accepts the grammar and blames the first place that does not fit.** A JSON value is
read as a schema if it is a group, and then its nodes are those that it writes, in document order.
Otherwise the error blames the first of its places, in document order and depth first, that does not
fit what is called for there: by what that is, and by the path from the root, along which the place
is found. The text of a path is a slash for the root, and else a slash before the index or the key of
each step. -/
theorem read_grammar (d : Document) :
    ((∃ nodes, read d = .ok nodes) ↔ IsGroup d.val) ∧
      (∀ nodes, read d = .ok nodes ↔ GroupWrites d.val nodes) ∧
      (∀ e, read d = .error e ↔
        ∃ front p back, places [] d.val = front ++ p :: back ∧ (∀ q ∈ front, q.fits = true) ∧
          p.fits = false ∧ p.error = e) ∧
      (∀ p ∈ places [] d.val, d.val.at? p.path = some p.value) ∧
      pathText [] = "/" ∧
      ∀ path : List PathStep, path ≠ [] →
        pathText path = String.join (path.map fun step => "/" ++ step.text) := by
  have hfault : fault? (read d) = firstFault (places [] d.val) := fault?_group d.val d.property []
  refine ⟨?accepts, ?writes, ?blames, at?_of_mem_places d, rfl, fun path => pathText_eq_join⟩
  case accepts =>
    rw [← fault?_eq_none_iff, hfault, firstFault_eq_none_iff, isGroup_iff d.val []]
  case writes =>
    intro nodes
    exact group_eq_ok_iff d.val d.property [] nodes
  case blames =>
    intro e
    rw [← fault?_eq_some_iff, hfault, firstFault_eq_some_iff]

/-- An operand with an item that is no name stands before a group that is none, and is blamed. -/
theorem read_grammar_operand :
    let operand : Json := .array [.string "age", .null]
    let root : Json := .array [.string "name", .object [("$int", operand), ("$or", .null)]]
    let path : List PathStep := [.item 1, .member "$int"]
    ∃ h : root.NamesUnique, read ⟨root, h⟩ = .error (.operand .integer path) ∧ ¬ IsGroup root ∧
      root.at? path = some operand ∧ path ≠ [] ∧ pathText path = "/1/$int" := by
  intro operand root path
  have h : root.NamesUnique := by
    simp [root, operand, Json.NamesUnique, Json.AllNamesUnique, Json.MembersNamesUnique]
  obtain ⟨haccepts, -, hblames, hplaces, -, htext⟩ := read_grammar ⟨root, h⟩
  have hpath : path ≠ [] := List.cons_ne_nil _ _
  let blamed : Place := ⟨path, .operand .integer, operand⟩
  have hwhere : places [] root =
      [⟨[], .node, root⟩, ⟨[.item 0], .node, .string "name"⟩, ⟨[.item 1], .node, _⟩] ++
        blamed :: [⟨[.item 1, .member "$or"], .node, .null⟩] := rfl
  have hread : read ⟨root, h⟩ = .error (.operand .integer path) := by
    rw [hblames]
    refine ⟨_, blamed, _, hwhere, ?_, rfl, rfl⟩
    simp [root, Place.fits, Slot.fits]
  refine ⟨h, hread, ?_, hplaces blamed ?_, hpath, htext path hpath⟩
  · rw [← haccepts]
    rintro ⟨nodes, hnodes⟩
    rw [hread] at hnodes
    cases hnodes
  · rw [hwhere]
    exact List.mem_append_right _ List.mem_cons_self

end Schema

end RequestGuard
