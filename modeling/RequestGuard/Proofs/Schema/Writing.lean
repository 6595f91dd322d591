import RequestGuard.Proofs.Request.FromJson
import RequestGuard.Proofs.Schema.Grammar

/-!
# Writing schemas as JSON

Every kind of node has a written form: a field is its name, a group is an array, and any other node
is an object of one member, whose key says which kind it is and whose value is an array. Nodes one
after another are an array, so that a whole schema is written as a group. Only a transform has no
written form.

Not all that can be built can be expressed in JSON. A field that is called like a key of the grammar
cannot be given alternatives, and a literal has to be a value that JSON gives. `Expressible` says so,
and it is exact: these are the schemas that some JSON value writes, and of each the written form is
one that does (`read_write`).
-/

namespace RequestGuard

/-- The JSON that an alternative is written as, if it is a literal. -/
def Alternative.write? : Alternative → Option Json
  | literal v => some v.toJson
  | transform _ => none

/-- The alternative is a literal that JSON gives. -/
def Alternative.Expressible : Alternative → Prop
  | literal v => v.FromJson
  | transform _ => False

namespace Schema

mutual

/-- The JSON that a node is written as. -/
def writeNode? : Node → Option Json
  | .field name => some (.string name)
  | .group nodes => (writeNodes? nodes).map .array
  | .combined c nodes => (writeNodes? nodes).map fun vs => .object [(c.key, .array vs)]
  | .sourced s nodes => (writeNodes? nodes).map fun vs => .object [(s.key, .array vs)]
  | .coerced c names => some (.object [(c.key, .array (names.map .string))])
  | .oneOf name as => (as.mapM Alternative.write?).map fun vs => .object [(name, .array vs)]

/-- The JSON that nodes are written as, one item each. -/
def writeNodes? : List Node → Option (List Json)
  | [] => some []
  | n :: ns => do
    let v ← writeNode? n
    let vs ← writeNodes? ns
    some (v :: vs)

end

/-- The JSON that a schema is written as. -/
def write? (nodes : List Node) : Option Json := (writeNodes? nodes).map .array

mutual

/-- The node can be expressed in JSON: no field with alternatives is called like a key of the
grammar, and all alternatives are literals that JSON gives. -/
def NodeExpressible : Node → Prop
  | .field _ => True
  | .group nodes => Expressible nodes
  | .combined _ nodes => Expressible nodes
  | .sourced _ nodes => Expressible nodes
  | .coerced _ _ => True
  | .oneOf name as => name ∉ reservedKeys ∧ ∀ a ∈ as, a.Expressible

/-- Every node can be expressed in JSON. -/
def Expressible : List Node → Prop
  | [] => True
  | n :: ns => NodeExpressible n ∧ Expressible ns

end

/-! ## What JSON writes is expressible -/

theorem expressible_append {ns ms : List Node} (hns : Expressible ns) (hms : Expressible ms) :
    Expressible (ns ++ ms) := by
  induction ns with
  | nil => exact hms
  | cons n ns ih => exact ⟨hns.1, ih hns.2⟩

theorem expressible_of_literals {items : List Json} {as : List Alternative}
    (h : Literals items as) : ∀ a ∈ as, a.Expressible := by
  induction h with
  | nil => exact fun a ha => absurd ha List.not_mem_nil
  | cons hliteral _ ih =>
    obtain ⟨hv, rfl⟩ := hliteral
    exact List.forall_mem_cons.mpr ⟨FieldValue.fromJson_ofDocument ⟨_, hv⟩, ih⟩

mutual

theorem expressible_of_groupWrites : ∀ {v : Json} {nodes : List Node}, GroupWrites v nodes →
    Expressible nodes
  | _, _, .name _ => ⟨trivial, trivial⟩
  | _, _, .array hitems => expressible_of_itemsWrite hitems
  | _, _, .object hmembers => expressible_of_membersWrite hmembers

theorem expressible_of_itemsWrite : ∀ {vs : List Json} {nodes : List Node}, ItemsWrite vs nodes →
    Expressible nodes
  | _, _, .nil => trivial
  | _, _, .string _ hrest => ⟨trivial, expressible_of_itemsWrite hrest⟩
  | _, _, .array hitems hrest => ⟨expressible_of_itemsWrite hitems, expressible_of_itemsWrite hrest⟩
  | _, _, .object hmembers hrest =>
    expressible_append (expressible_of_membersWrite hmembers) (expressible_of_itemsWrite hrest)

theorem expressible_of_membersWrite : ∀ {ms : List (String × Json)} {nodes : List Node},
    MembersWrite ms nodes → Expressible nodes
  | _, _, .nil => trivial
  | _, _, .cons hmember hrest =>
    ⟨nodeExpressible_of_memberWrites hmember, expressible_of_membersWrite hrest⟩

theorem nodeExpressible_of_memberWrites : ∀ {key : String} {v : Json} {n : Node},
    MemberWrites key v n → NodeExpressible n
  | _, _, _, .combined _ _ hgroup => expressible_of_groupWrites hgroup
  | _, _, _, .sourced _ _ hgroup => expressible_of_groupWrites hgroup
  | _, _, _, .name _ _ _ => trivial
  | _, _, _, .names _ _ _ => trivial
  | _, _, _, .oneOf hkey hliterals => ⟨hkey, expressible_of_literals hliterals⟩

end

/-! ## What is expressible is written -/

theorem namesUnique_member {key : String} {v : Json} (h : v.NamesUnique) :
    (Json.object [(key, v)]).NamesUnique :=
  ⟨List.pairwise_singleton _ key, h, trivial⟩

theorem allNamesUnique_strings (names : List String) :
    Json.AllNamesUnique (names.map .string) := by
  induction names with
  | nil => trivial
  | cons name names ih => exact ⟨trivial, ih⟩

/-- The value is a document, and as the item of an array it writes the node. -/
structure WritesNode (v : Json) (n : Node) : Prop where
  namesUnique : v.NamesUnique
  cons {vs : List Json} {rest : List Node} : ItemsWrite vs rest → ItemsWrite (v :: vs) (n :: rest)

/-- An object of one member writes the node of that member. -/
theorem WritesNode.ofMember {key : String} {v : Json} {n : Node} (hv : v.NamesUnique)
    (h : MemberWrites key v n) : WritesNode (.object [(key, v)]) n := by
  refine ⟨namesUnique_member hv, ?_⟩
  intro vs rest hrest
  exact .object (.cons h .nil) hrest

theorem exists_write_alternatives {as : List Alternative} (h : ∀ a ∈ as, a.Expressible) :
    ∃ vs, as.mapM Alternative.write? = some vs ∧ Json.AllNamesUnique vs ∧ Literals vs as := by
  induction as with
  | nil => exact ⟨[], rfl, trivial, .nil⟩
  | cons a as ih =>
    obtain ⟨ha, has⟩ := List.forall_mem_cons.mp h
    obtain ⟨vs, hwrite, hunique, hliterals⟩ := ih has
    cases a with
    | transform f => exact ha.elim
    | literal v =>
      have hback : FieldValue.ofDocument v.toDocument = v := FieldValue.ofDocument_toDocument ha
      refine ⟨v.toJson :: vs, ?_, ⟨v.namesUnique_toJson, hunique⟩,
        .cons ⟨v.namesUnique_toJson, ?_⟩ hliterals⟩
      · rw [List.mapM_cons, hwrite]
        rfl
      · exact congrArg Alternative.literal hback.symm

mutual

/-- A node that is expressible has a written form, which writes it. -/
theorem exists_writeNode : ∀ n : Node, NodeExpressible n →
    ∃ v, writeNode? n = some v ∧ WritesNode v n
  | .field name, _ => ⟨.string name, rfl, trivial, .string name⟩
  | .group nodes, h => by
    obtain ⟨vs, hwrite, hunique, hitems⟩ := exists_writeNodes nodes h
    refine ⟨.array vs, ?_, hunique, .array hitems⟩
    rw [writeNode?, hwrite, Option.map_some]
  | .combined c nodes, h => by
    obtain ⟨vs, hwrite, hunique, hitems⟩ := exists_writeNodes nodes h
    refine ⟨.object [(c.key, .array vs)], ?_, .ofMember hunique (.combined c rfl (.array hitems))⟩
    rw [writeNode?, hwrite, Option.map_some]
  | .sourced s nodes, h => by
    obtain ⟨vs, hwrite, hunique, hitems⟩ := exists_writeNodes nodes h
    refine ⟨.object [(s.key, .array vs)], ?_, .ofMember hunique (.sourced s rfl (.array hitems))⟩
    rw [writeNode?, hwrite, Option.map_some]
  | .coerced c names, _ =>
    ⟨_, rfl, .ofMember (allNamesUnique_strings names) (.names c names rfl)⟩
  | .oneOf name as, h => by
    obtain ⟨hname, has⟩ := h
    obtain ⟨vs, hwrite, hunique, hliterals⟩ := exists_write_alternatives has
    refine ⟨.object [(name, .array vs)], ?_, .ofMember hunique (.oneOf hname hliterals)⟩
    rw [writeNode?, hwrite, Option.map_some]

theorem exists_writeNodes : ∀ nodes : List Node, Expressible nodes →
    ∃ vs, writeNodes? nodes = some vs ∧ Json.AllNamesUnique vs ∧ ItemsWrite vs nodes
  | [], _ => ⟨[], rfl, trivial, .nil⟩
  | n :: ns, h => by
    obtain ⟨v, hv, hwrites⟩ := exists_writeNode n h.1
    obtain ⟨vs, hvs, hunique, hitems⟩ := exists_writeNodes ns h.2
    refine ⟨v :: vs, ?_, ⟨hwrites.namesUnique, hunique⟩, hwrites.cons hitems⟩
    rw [writeNodes?, hv, hvs]
    rfl

end

/-- **A schema that JSON can express is read back from its written form.** It is written as a
document, and reading that gives the same nodes in the same order. No other schema is ever read, from
whatever document. -/
theorem read_write (nodes : List Node) :
    (Expressible nodes → ∃ d : Document, write? nodes = some d.val ∧ read d = .ok nodes) ∧
      ∀ d, read d = .ok nodes → Expressible nodes := by
  constructor
  · intro h
    obtain ⟨vs, hwrite, hunique, hitems⟩ := exists_writeNodes nodes h
    refine ⟨⟨.array vs, hunique⟩, ?_, ?_⟩
    · rw [write?, hwrite, Option.map_some]
    · exact (group_eq_ok_iff (.array vs) hunique [] nodes).mpr (.array hitems)
  · intro d hread
    exact expressible_of_groupWrites ((group_eq_ok_iff d.val d.property [] nodes).mp hread)

/-- A group within an any-of, no fields to bring into a kind, and one value in each form that JSON
gives, of which one is a whole number that is no integer. -/
theorem read_write_nested :
    let half : Binary64 := .finite false 0x18000000000000 (-52) (by decide)
    let five : Binary64 := .finite false 0x14000000000000 (-50) (by decide)
    let nodes : List Node :=
      [.field "$or", .combined .any [.group [.field "a", .group []], .coerced .integer []],
        .sourced .body [.coerced .date ["from", "to"],
          .oneOf "plan" [.literal (.text "free"), .literal (.number half), .literal (.number five),
            .literal (.integer 5), .literal (.boolean true),
            .literal (.json (.array [.null, .string "b"]))]]]
    let written : Json := .array [.string "$or",
      .object [("$or", .array [.array [.string "a", .array []], .object [("$int", .array [])]])],
      .object [("$body", .array [.object [("$date", .array [.string "from", .string "to"])],
        .object [("plan", .array [.string "free", .number (.float half rfl),
          .number (.float five rfl), .number (.integer 5 (by decide)), .boolean true,
          .array [.null, .string "b"]])]])]]
    Expressible nodes ∧ write? nodes = some written ∧
      ∃ h : written.NamesUnique, read ⟨written, h⟩ = .ok nodes := by
  intro half five nodes written
  have hexpressible : Expressible nodes := by
    have hkey : "plan" ∉ reservedKeys := by decide
    have hhalf : half.isFinite = true := rfl
    have hfive : five.isFinite = true := rfl
    have hjson : (Document.array [.null, .string "b"]).val.staysJson = true := rfl
    simp [nodes, Expressible, NodeExpressible, hkey, Alternative.Expressible, FieldValue.FromJson,
      hhalf, hfive, hjson]
  have hwritten : write? nodes = some written := by rfl
  obtain ⟨d, hwrite, hread⟩ := (read_write nodes).1 hexpressible
  obtain ⟨v, hv⟩ := d
  obtain rfl : written = v := Option.some.inj (hwritten.symm.trans hwrite)
  exact ⟨hexpressible, hwritten, hv, hread⟩

end Schema

end RequestGuard
