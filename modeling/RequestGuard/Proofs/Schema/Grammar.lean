import Mathlib.Data.List.Forall2
import RequestGuard.Schema.Literal

/-!
# The grammar of schemas

What it takes for a JSON value to be a schema, and which nodes it then writes. `IsGroup` and
`IsMember` are the shape: a group is a name, an array of groups or an object, and the key of a member
decides what its value has to be. `GroupWrites` gives the nodes, in document order: one for each
string and each array in an array, and one for each member of an object, be the object in an array
or alone.

Reading gives the nodes that a value writes, and no others (`group_eq_ok_iff`). The keys divide into
those of combinators, sources and coercions, and all others, which are names of fields; `readMember`
is what reading does with one member, and each kind of key has its lemma.
-/

namespace RequestGuard.Schema

/-! ## Shape -/

/-- The keys whose value is a group. -/
def groupKeys : List String :=
  [Combinator.any.key, Combinator.all.key, Source.body.key, Source.query.key]

/-- The keys that name no field. -/
def reservedKeys : List String := groupKeys ++ Coercion.all.map Coercion.key

mutual

/-- The value is a group. The items of an array are strings, arrays that are groups themselves and
objects. -/
inductive IsGroup : Json → Prop where
  | name (s : String) : IsGroup (.string s)
  | array {items : List Json} : (∀ v ∈ items, IsGroup v) → IsGroup (.array items)
  | object {members : List (String × Json)} :
      (∀ m ∈ members, IsMember m.1 m.2) → IsGroup (.object members)

/-- The value is one that the key calls for. -/
inductive IsMember : String → Json → Prop where
  | group {key : String} {v : Json} : key ∈ groupKeys → IsGroup v → IsMember key v
  | name (c : Coercion) {key : String} (s : String) : key = c.key → IsMember key (.string s)
  | names (c : Coercion) {key : String} (names : List String) :
      key = c.key → IsMember key (.array (names.map .string))
  | alternatives {key : String} (items : List Json) :
      key ∉ reservedKeys → IsMember key (.array items)

end

/-! ## Nodes -/

/-- Each alternative is the literal of the item in its place. -/
def Literals (items : List Json) (as : List Alternative) : Prop :=
  List.Forall₂ (fun v a => ∃ h : v.NamesUnique, a = .literal (.ofDocument ⟨v, h⟩)) items as

mutual

/-- The value is a group that writes these nodes. -/
inductive GroupWrites : Json → List Node → Prop where
  | name (s : String) : GroupWrites (.string s) [.field s]
  | array {items : List Json} {nodes : List Node} :
      ItemsWrite items nodes → GroupWrites (.array items) nodes
  | object {members : List (String × Json)} {nodes : List Node} :
      MembersWrite members nodes → GroupWrites (.object members) nodes

/-- The items of an array write these nodes: one for each string and each array, and those of its
members for each object. -/
inductive ItemsWrite : List Json → List Node → Prop where
  | nil : ItemsWrite [] []
  | string (s : String) {vs : List Json} {rest : List Node} :
      ItemsWrite vs rest → ItemsWrite (.string s :: vs) (.field s :: rest)
  | array {items vs : List Json} {nodes rest : List Node} :
      ItemsWrite items nodes → ItemsWrite vs rest →
      ItemsWrite (.array items :: vs) (.group nodes :: rest)
  | object {members : List (String × Json)} {vs : List Json} {nodes rest : List Node} :
      MembersWrite members nodes → ItemsWrite vs rest →
      ItemsWrite (.object members :: vs) (nodes ++ rest)

/-- The members of an object write these nodes, one each. -/
inductive MembersWrite : List (String × Json) → List Node → Prop where
  | nil : MembersWrite [] []
  | cons {key : String} {v : Json} {ms : List (String × Json)} {n : Node} {rest : List Node} :
      MemberWrites key v n → MembersWrite ms rest → MembersWrite ((key, v) :: ms) (n :: rest)

/-- A key and its value write this node. -/
inductive MemberWrites : String → Json → Node → Prop where
  | combined (c : Combinator) {key : String} {v : Json} {nodes : List Node} :
      key = c.key → GroupWrites v nodes → MemberWrites key v (.combined c nodes)
  | sourced (s : Source) {key : String} {v : Json} {nodes : List Node} :
      key = s.key → GroupWrites v nodes → MemberWrites key v (.sourced s nodes)
  | name (c : Coercion) {key : String} (s : String) :
      key = c.key → MemberWrites key (.string s) (.coerced c [s])
  | names (c : Coercion) {key : String} (names : List String) :
      key = c.key → MemberWrites key (.array (names.map .string)) (.coerced c names)
  | oneOf {key : String} {items : List Json} {as : List Alternative} :
      key ∉ reservedKeys → Literals items as → MemberWrites key (.array items) (.oneOf key as)

end

/-! ## Keys -/

theorem key_cases (key : String) :
    (∃ c : Combinator, key = c.key) ∨ (∃ s : Source, key = s.key) ∨ (∃ c : Coercion, key = c.key) ∨
      key ∉ reservedKeys := by
  by_cases h : key ∈ reservedKeys
  · rw [reservedKeys, List.mem_append] at h
    obtain hgroup | hcoercion := h
    · simp only [groupKeys, List.mem_cons, List.not_mem_nil, or_false] at hgroup
      obtain h | h | h | h := hgroup
      · exact .inl ⟨.any, h⟩
      · exact .inl ⟨.all, h⟩
      · exact .inr (.inl ⟨.body, h⟩)
      · exact .inr (.inl ⟨.query, h⟩)
    · obtain ⟨c, -, hc⟩ := List.mem_map.mp hcoercion
      exact .inr (.inr (.inl ⟨c, hc.symm⟩))
  · exact .inr (.inr (.inr h))

theorem mem_groupKeys_combinator (c : Combinator) : c.key ∈ groupKeys := by
  cases c <;> decide

theorem mem_groupKeys_source (s : Source) : s.key ∈ groupKeys := by
  cases s <;> decide

theorem not_mem_groupKeys_coercion (c : Coercion) : c.key ∉ groupKeys := by
  cases c <;> decide

theorem mem_reservedKeys_coercion (c : Coercion) : c.key ∈ reservedKeys := by
  cases c <;> decide

theorem ofKey?_key (c : Coercion) : Coercion.ofKey? c.key = some c := by
  cases c <;> rfl

theorem not_mem_groupKeys {key : String} (h : key ∉ reservedKeys) : key ∉ groupKeys := by
  intro hmem
  exact h (List.mem_append_left _ hmem)

theorem ofKey?_eq_none {key : String} (h : key ∉ reservedKeys) : Coercion.ofKey? key = none := by
  rw [Coercion.ofKey?, List.find?_eq_none]
  intro c _ hkey
  have hc : c.key = key := beq_iff_eq.mp hkey
  exact h (hc ▸ mem_reservedKeys_coercion c)

/-! ## Reading a member -/

/-- The node of one member, as `members` reads it. -/
def readMember (path : List PathStep) (key : String) (v : Json) (h : v.NamesUnique) :
    Except SchemaError Node :=
  let inner := path ++ [.member key]
  if key = Combinator.any.key then (group inner v h).map (.combined .any)
  else if key = Combinator.all.key then (group inner v h).map (.combined .all)
  else if key = Source.body.key then (group inner v h).map (.sourced .body)
  else if key = Source.query.key then (group inner v h).map (.sourced .query)
  else match Coercion.ofKey? key with
    | some c => (operand c inner v).map (.coerced c)
    | none => (alternatives key inner v h).map (.oneOf key)

section

variable (path : List PathStep) (v : Json) (h : v.NamesUnique)

theorem readMember_combinator (c : Combinator) :
    readMember path c.key v h = (group (path ++ [.member c.key]) v h).map (.combined c) := by
  cases c <;> rfl

theorem readMember_source (s : Source) :
    readMember path s.key v h = (group (path ++ [.member s.key]) v h).map (.sourced s) := by
  cases s <;> rfl

theorem readMember_coercion (c : Coercion) :
    readMember path c.key v h = (operand c (path ++ [.member c.key]) v).map (.coerced c) := by
  cases c <;> rfl

theorem readMember_field {key : String} (hkey : key ∉ reservedKeys) :
    readMember path key v h = (alternatives key (path ++ [.member key]) v h).map (.oneOf key) := by
  have hgroup := not_mem_groupKeys hkey
  simp only [groupKeys, List.mem_cons, List.not_mem_nil, or_false, not_or] at hgroup
  obtain ⟨hany, hall, hbody, hquery⟩ := hgroup
  simp only [readMember, if_neg hany, if_neg hall, if_neg hbody, if_neg hquery,
    ofKey?_eq_none hkey]

theorem members_nil (hms : Json.MembersNamesUnique []) : members path [] hms = .ok [] :=
  rfl

theorem members_cons (key : String) (ms : List (String × Json))
    (hms : Json.MembersNamesUnique ((key, v) :: ms)) :
    members path ((key, v) :: ms) hms = (do
      let node ← readMember path key v hms.1
      let rest ← members path ms hms.2
      .ok (node :: rest)) := by
  -- Each branch on the key is followed by the reading of the rest, which stands behind them all.
  change (if key = Combinator.any.key then _ else _ : Except SchemaError (List Node)) = _
  unfold readMember
  split
  · rfl
  split
  · rfl
  split
  · rfl
  split
  · rfl
  cases Coercion.ofKey? key <;> rfl

end

/-! ## Reading is the grammar -/

theorem map_eq_ok_iff {ε α β : Type} {f : α → β} {x : Except ε α} {b : β} :
    x.map f = .ok b ↔ ∃ a, x = .ok a ∧ f a = b := by
  cases x <;> simp [Except.map]

theorem names?_eq_some_iff {items : List Json} {names : List String} :
    names? items = some names ↔ items = names.map .string := by
  induction items generalizing names with
  | nil => cases names <;> simp [names?]
  | cons v vs ih =>
    cases v with
    | string s =>
      rw [names?, Option.map_eq_some_iff]
      constructor
      · rintro ⟨rest, hrest, rfl⟩
        rw [ih.mp hrest, List.map_cons]
      · intro h
        cases names with
        | nil => cases h
        | cons name names =>
          obtain ⟨hs, hvs⟩ := List.cons.inj h
          cases hs
          exact ⟨names, ih.mpr hvs, rfl⟩
    | _ => cases names <;> simp [names?]

theorem operand_eq_ok_iff {c : Coercion} {path : List PathStep} {v : Json} {names : List String} :
    operand c path v = .ok names ↔
      (∃ s, v = .string s ∧ names = [s]) ∨ v = .array (names.map .string) := by
  cases v with
  | string s => simp [operand, eq_comm]
  | array items =>
    rw [operand]
    cases hnames : names? items with
    | none =>
      have hne : items ≠ names.map .string := by
        intro h
        rw [names?_eq_some_iff.mpr h] at hnames
        cases hnames
      simp [hne]
    | some found =>
      have hitems := names?_eq_some_iff.mp hnames
      constructor
      · intro h
        cases h
        exact .inr (congrArg _ hitems)
      · rintro (⟨s, h, -⟩ | h)
        · cases h
        · have hsame : names? items = some names := names?_eq_some_iff.mpr (Json.array.inj h)
          rw [hnames] at hsame
          cases hsame
          rfl
  | _ => simp [operand]

theorem literals_spec : ∀ (items : List Json) (h : Json.AllNamesUnique items)
    {as : List Alternative}, literals items h = as ↔ Literals items as
  | [], _, as => by
    rw [literals, Literals, List.forall₂_nil_left_iff, eq_comm]
  | v :: vs, h, as => by
    rw [literals, Literals, List.forall₂_cons_left_iff]
    constructor
    · rintro rfl
      exact ⟨_, _, ⟨h.1, rfl⟩, (literals_spec vs h.2).mp rfl, rfl⟩
    · rintro ⟨a, rest, ⟨_, rfl⟩, hrest, rfl⟩
      rw [(literals_spec vs h.2).mpr hrest]

theorem alternatives_eq_ok_iff {field : String} {path : List PathStep} {v : Json}
    {h : v.NamesUnique} {as : List Alternative} :
    alternatives field path v h = .ok as ↔ ∃ items, v = .array items ∧ Literals items as := by
  cases v with
  | array items =>
    constructor
    · intro hread
      cases hread
      exact ⟨items, rfl, (literals_spec items h).mp rfl⟩
    · rintro ⟨found, hitems, hliterals⟩
      cases hitems
      exact congrArg _ ((literals_spec items h).mpr hliterals)
  | _ => simp [alternatives]

/-- Given that reading a value as a group follows the grammar, so does reading it as a member. -/
theorem readMember_eq_ok_iff {path : List PathStep} {key : String} {v : Json} {h : v.NamesUnique}
    {n : Node}
    (hgroup : ∀ path nodes, group path v h = .ok nodes ↔ GroupWrites v nodes) :
    readMember path key v h = .ok n ↔ MemberWrites key v n := by
  constructor
  · intro hread
    obtain ⟨c, rfl⟩ | ⟨s, rfl⟩ | ⟨c, rfl⟩ | hkey := key_cases key
    · rw [readMember_combinator, map_eq_ok_iff] at hread
      obtain ⟨nodes, hnodes, rfl⟩ := hread
      exact .combined c rfl ((hgroup _ nodes).mp hnodes)
    · rw [readMember_source, map_eq_ok_iff] at hread
      obtain ⟨nodes, hnodes, rfl⟩ := hread
      exact .sourced s rfl ((hgroup _ nodes).mp hnodes)
    · rw [readMember_coercion, map_eq_ok_iff] at hread
      obtain ⟨names, hnames, rfl⟩ := hread
      obtain ⟨s, rfl, rfl⟩ | rfl := operand_eq_ok_iff.mp hnames
      · exact .name c s rfl
      · exact .names c names rfl
    · rw [readMember_field path v h hkey, map_eq_ok_iff] at hread
      obtain ⟨as, has, rfl⟩ := hread
      obtain ⟨items, rfl, hliterals⟩ := alternatives_eq_ok_iff.mp has
      exact .oneOf hkey hliterals
  · intro hwrites
    cases hwrites with
    | combined c hkey hnodes =>
      subst hkey
      rw [readMember_combinator, (hgroup _ _).mpr hnodes]
      rfl
    | sourced s hkey hnodes =>
      subst hkey
      rw [readMember_source, (hgroup _ _).mpr hnodes]
      rfl
    | name c s hkey =>
      subst hkey
      rw [readMember_coercion]
      rfl
    | names c names hkey =>
      subst hkey
      rw [readMember_coercion, operand_eq_ok_iff.mpr (.inr rfl)]
      rfl
    | oneOf hkey hliterals =>
      rw [readMember_field path _ h hkey, alternatives_eq_ok_iff.mpr ⟨_, rfl, hliterals⟩]
      rfl

/-- The nodes of an item in front of those of the items behind it, as `items` puts them. -/
def before (v : Json) (nodes rest : List Node) : List Node :=
  match v with
  | .array _ => .group nodes :: rest
  | _ => nodes ++ rest

theorem items_cons (path : List PathStep) (index : Nat) (v : Json) (vs : List Json)
    (h : Json.AllNamesUnique (v :: vs)) :
    items path index (v :: vs) h = (do
      let nodes ← group (path ++ [.item index]) v h.1
      let rest ← items path (index + 1) vs h.2
      .ok (before v nodes rest)) := by
  rw [items]
  cases v <;> rfl

theorem bind_bind_eq_ok_iff {ε α β γ : Type} {x : Except ε α} {y : Except ε β} {f : α → β → γ}
    {c : γ} :
    (do let a ← x; let b ← y; .ok (f a b)) = Except.ok c ↔
      ∃ a b, x = .ok a ∧ y = .ok b ∧ c = f a b := by
  cases x with
  | error e => simp [bind, Except.bind]
  | ok a =>
    cases y with
    | error e => simp [bind, Except.bind]
    | ok b => simp [bind, Except.bind, eq_comm]

theorem itemsWrite_cons_iff {v : Json} {vs : List Json} {nodes : List Node} :
    ItemsWrite (v :: vs) nodes ↔
      ∃ first rest, GroupWrites v first ∧ ItemsWrite vs rest ∧ nodes = before v first rest := by
  constructor
  · intro h
    cases h with
    | string s hrest => exact ⟨_, _, .name s, hrest, rfl⟩
    | array hitems hrest => exact ⟨_, _, .array hitems, hrest, rfl⟩
    | object hmembers hrest => exact ⟨_, _, .object hmembers, hrest, rfl⟩
  · rintro ⟨first, rest, hfirst, hrest, rfl⟩
    cases hfirst with
    | name s => exact .string s hrest
    | array hitems => exact .array hitems hrest
    | object hmembers => exact .object hmembers hrest

mutual

/-- Reading a value as a group gives the nodes that it writes. -/
theorem group_eq_ok_iff : ∀ (v : Json) (h : v.NamesUnique) (path : List PathStep)
    (nodes : List Node), group path v h = .ok nodes ↔ GroupWrites v nodes
  | .null, _, _, _ => iff_of_false nofun nofun
  | .boolean _, _, _, _ => iff_of_false nofun nofun
  | .number _, _, _, _ => iff_of_false nofun nofun
  | .string s, _, _, nodes => by
    rw [group, Except.ok.injEq]
    constructor
    · rintro rfl
      exact .name s
    · intro h
      cases h
      rfl
  | .array vs, h, path, nodes => by
    rw [group, items_eq_ok_iff vs h path 0 nodes]
    constructor
    · exact .array
    · intro h
      cases h
      assumption
  | .object ms, h, path, nodes => by
    rw [group, members_eq_ok_iff ms h.2 path nodes]
    constructor
    · exact .object
    · intro h
      cases h
      assumption

theorem items_eq_ok_iff : ∀ (vs : List Json) (h : Json.AllNamesUnique vs) (path : List PathStep)
    (index : Nat) (nodes : List Node), items path index vs h = .ok nodes ↔ ItemsWrite vs nodes
  | [], _, _, _, nodes => by
    rw [items, Except.ok.injEq]
    constructor
    · rintro rfl
      exact .nil
    · intro h
      cases h
      rfl
  | v :: vs, h, path, index, nodes => by
    rw [items_cons, bind_bind_eq_ok_iff, itemsWrite_cons_iff]
    simp only [group_eq_ok_iff v h.1, items_eq_ok_iff vs h.2]

theorem members_eq_ok_iff : ∀ (ms : List (String × Json)) (h : Json.MembersNamesUnique ms)
    (path : List PathStep) (nodes : List Node),
    members path ms h = .ok nodes ↔ MembersWrite ms nodes
  | [], _, _, nodes => by
    rw [members_nil, Except.ok.injEq]
    constructor
    · rintro rfl
      exact .nil
    · intro h
      cases h
      rfl
  | (key, v) :: ms, h, path, nodes => by
    rw [members_cons, bind_bind_eq_ok_iff]
    simp only [readMember_eq_ok_iff (group_eq_ok_iff v h.1), members_eq_ok_iff ms h.2]
    constructor
    · rintro ⟨n, rest, hn, hrest, rfl⟩
      exact .cons hn hrest
    · intro h
      cases h with
      | cons hn hrest => exact ⟨_, _, hn, hrest, rfl⟩

end

end RequestGuard.Schema
