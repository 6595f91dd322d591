import Mathlib.Logic.Relation
import RequestGuard.Proofs.Schema.Outcome

/-!
# Flattening

A schema may be rewritten into one with fewer groups. A group of `all` is a plain group. Where
everything has to hold, the nodes of a plain group may stand in the place of the group, unless one
of them is itself a group in which one node is enough: its silence would then satisfy the nodes
around the place. And there, too, a coercion of several fields may be made one of each field in
turn.

`Flattens` is one such step at any place of a schema. It is told whether one node is enough in the
list that it is made in, and passes that on to the lists within it as a scope does. A group asks two
things of its nodes together: whether one of them satisfies it, and what they report
(`gather`). A step keeps both, and the data, wherever the list stands
(`interchangeable_of_flattens`), so any number of steps leaves a run as it was.
-/

namespace RequestGuard.Schema

/-! ## What a group asks of its nodes -/

/-- Whether one of the children is silent and by that satisfies its group, and all lines of them. -/
def gather (cs : List Child) : Bool × Report :=
  (cs.any fun c => c.satisfies && c.report.isEmpty, cs.flatMap Child.report)

theorem gather_append (cs ds : List Child) :
    gather (cs ++ ds) = ((gather cs).1 || (gather ds).1, (gather cs).2 ++ (gather ds).2) := by
  unfold gather
  rw [List.any_append, List.flatMap_append]

/-- A group asks nothing else of them. -/
theorem conclude_congr {cs ds : List Child} (h : gather cs = gather ds) (anySuffices : Bool) :
    conclude anySuffices cs = conclude anySuffices ds := by
  obtain ⟨hsilent, hlines⟩ := Prod.mk.inj h
  unfold conclude
  rw [hsilent, hlines]

/-- Where everything has to hold and no child makes up for the others, all lines are reported. -/
theorem conclude_false_eq_gather {cs : List Child} (h : (gather cs).1 = false) :
    conclude false cs = (gather cs).2 := by
  unfold conclude
  rw [if_neg]
  · rfl
  · exact Bool.eq_false_iff.mp h

/-- Where everything has to hold, only a group in which one node is enough can make up for others. -/
theorem gather_fst_of_not_anyOf {ns : List Node} (h : ns.any isAnyOf = false) {scope : Scope}
    (hscope : scope.anySuffices = false) (d : RequestData) :
    (gather (runChildren ns scope d).2).1 = false := by
  induction ns generalizing d with
  | nil => rfl
  | cons n ns ih =>
    obtain ⟨hn, hns⟩ := Bool.or_eq_false_iff.mp (List.any_cons.symm.trans h)
    have hfirst : satisfies scope n = false := by rw [satisfies_eq, hscope, hn, Bool.false_or]
    have hrest := ih hns (runNode n scope d).1
    rw [runChildren_cons_snd, gather, List.any_cons, hfirst]
    exact hrest

/-! ## Interchangeable lists -/

/-- One list of nodes may stand in the place of the other, in any group in which one node is enough
just if `anySuffices` says so: they leave the same data, and the group asks the same of them. -/
def Interchangeable (anySuffices : Bool) (ns ms : List Node) : Prop :=
  ∀ scope : Scope, scope.anySuffices = anySuffices → ∀ d : RequestData,
    (runChildren ms scope d).1 = (runChildren ns scope d).1 ∧
      gather (runChildren ms scope d).2 = gather (runChildren ns scope d).2

namespace Interchangeable

variable {anySuffices : Bool} {ns ms : List Node}

/-- The groups of interchangeable lists leave and report the same. -/
theorem concluded_eq (h : Interchangeable anySuffices ns ms) (scope : Scope)
    (hscope : scope.anySuffices = anySuffices) (d : RequestData) :
    concluded scope (runChildren ms scope d) = concluded scope (runChildren ns scope d) := by
  obtain ⟨hdata, hgather⟩ := h scope hscope d
  exact Prod.ext hdata (conclude_congr hgather scope.anySuffices)

/-- A node that runs as another does and satisfies what the other satisfies may take its place. -/
theorem head {n m : Node} (hany : isAnyOf m = isAnyOf n)
    (hrun : ∀ scope, scope.anySuffices = anySuffices → ∀ d, runNode m scope d = runNode n scope d)
    (rest : List Node) :
    Interchangeable anySuffices (n :: rest) (m :: rest) := by
  intro scope hscope d
  have hsame : runChildren (m :: rest) scope d = runChildren (n :: rest) scope d := by
    simp only [runChildren, hrun scope hscope, satisfies_eq, hany]
  rw [hsame]
  exact ⟨rfl, rfl⟩

/-- What stands before a list makes no difference. -/
theorem behind (h : Interchangeable anySuffices ns ms) (n : Node) :
    Interchangeable anySuffices (n :: ns) (n :: ms) := by
  intro scope hscope d
  obtain ⟨hdata, hgather⟩ := h scope hscope (runNode n scope d).1
  refine ⟨hdata, ?_⟩
  have hcons (ks : List Node) : (runChildren (n :: ks) scope d).2 =
      [⟨satisfies scope n, (runNode n scope d).2⟩] ++
        (runChildren ks scope (runNode n scope d).1).2 := rfl
  rw [hcons, hcons, gather_append, gather_append, hgather]

theorem group (h : Interchangeable false ns ms) (rest : List Node) :
    Interchangeable anySuffices (.group ns :: rest) (.group ms :: rest) := by
  refine head ?_ ?_ rest
  · rfl
  intro scope _ d
  exact h.concluded_eq scope.conjunctive rfl d

theorem combined {c : Combinator} (h : Interchangeable (c == .any) ns ms) (rest : List Node) :
    Interchangeable anySuffices (.combined c ns :: rest) (.combined c ms :: rest) := by
  refine head ?_ ?_ rest
  · cases c <;> rfl
  intro scope _ d
  exact h.concluded_eq (scope.combined c) rfl d

/-- Within a source one node is enough just where it is around it. -/
theorem sourced (h : Interchangeable anySuffices ns ms) (s : Source) (rest : List Node) :
    Interchangeable anySuffices (.sourced s ns :: rest) (.sourced s ms :: rest) := by
  refine head ?_ ?_ rest
  · rfl
  intro scope hscope d
  exact h.concluded_eq (scope.sourced s) hscope d

theorem trans {ks : List Node} (h : Interchangeable anySuffices ns ms)
    (h' : Interchangeable anySuffices ms ks) : Interchangeable anySuffices ns ks := by
  intro scope hscope d
  obtain ⟨hdata, hgather⟩ := h scope hscope d
  obtain ⟨hdata', hgather'⟩ := h' scope hscope d
  exact ⟨hdata'.trans hdata, hgather'.trans hgather⟩

/-! ## The rewritings -/

/-- A group of `all` is a plain group. -/
theorem plain (ns rest : List Node) :
    Interchangeable anySuffices (.combined .all ns :: rest) (.group ns :: rest) := by
  refine head ?_ ?_ rest
  · rfl
  intro scope _ d
  rfl

/-- The nodes of a plain group in its place. -/
theorem splice (h : ns.any isAnyOf = false) (rest : List Node) :
    Interchangeable false (.group ns :: rest) (ns ++ rest) := by
  intro scope hscope d
  -- The group passes on the scope that it is in.
  have hconjunctive : scope.conjunctive = scope := by
    obtain ⟨source, brief, anySuffices⟩ := scope
    cases hscope
    rfl
  have hsilent : (gather (runChildren ns scope d).2).1 = false :=
    gather_fst_of_not_anyOf h hscope d
  have hnode : runNode (.group ns) scope d =
      ((runChildren ns scope d).1, (gather (runChildren ns scope d).2).2) := by
    rw [runNode, hconjunctive, concluded, hscope, conclude_false_eq_gather hsilent]
  -- Its report is that of one child that satisfies nothing.
  have hchild (r : Report) : gather [⟨satisfies scope (.group ns), r⟩] = (false, r) := by
    have hsatisfies : satisfies scope (.group ns) = false := hscope
    rw [hsatisfies, gather, List.flatMap_singleton]
    rfl
  have hgroup : runChildren (.group ns :: rest) scope d =
      ((runChildren rest scope (runChildren ns scope d).1).1,
        [⟨satisfies scope (.group ns), (gather (runChildren ns scope d).2).2⟩] ++
          (runChildren rest scope (runChildren ns scope d).1).2) := by
    rw [runChildren, hnode]
    rfl
  rw [runChildren_append, hgroup]
  refine ⟨rfl, ?_⟩
  rw [gather_append, gather_append, hchild, hsilent]

end Interchangeable

/-- The coercions of one field each that a coercion of several fields amounts to. -/
def eachField (c : Coercion) (names : List String) : List Node :=
  names.map fun name => .coerced c [name]

theorem runChildren_eachField (c : Coercion) (names : List String) (scope : Scope)
    (d : RequestData) :
    (runChildren (eachField c names) scope d).1 = (coerceFields c scope.source names d).1 ∧
      (gather (runChildren (eachField c names) scope d).2).2 =
        (coerceFields c scope.source names d).2 := by
  induction names generalizing d with
  | nil => exact ⟨rfl, rfl⟩
  | cons name names ih =>
    obtain ⟨hdata, hlines⟩ := ih (coerceField c scope.source name d).1
    refine ⟨hdata, ?_⟩
    have hone : (runNode (.coerced c [name]) scope d).2 = (coerceField c scope.source name d).2 :=
      List.append_nil _
    have hcons : (gather (runChildren (eachField c (name :: names)) scope d).2).2 =
        (runNode (.coerced c [name]) scope d).2 ++ (gather (runChildren (eachField c names) scope
          (coerceField c scope.source name d).1).2).2 := rfl
    rw [hcons, hone, hlines]
    rfl

theorem not_anyOf_eachField (c : Coercion) (names : List String) :
    (eachField c names).any isAnyOf = false := by
  rw [eachField, List.any_map, List.any_eq_false]
  intro name _
  exact Bool.false_ne_true

/-- A coercion of several fields is a plain group of coercions of one. -/
theorem interchangeable_eachField (anySuffices : Bool) (c : Coercion) (names : List String)
    (rest : List Node) :
    Interchangeable anySuffices (.coerced c names :: rest)
      (.group (eachField c names) :: rest) := by
  refine Interchangeable.head ?_ ?_ rest
  · rfl
  intro scope _ d
  obtain ⟨hdata, hlines⟩ := runChildren_eachField c names scope.conjunctive d
  have hsilent : (gather (runChildren (eachField c names) scope.conjunctive d).2).1 = false :=
    gather_fst_of_not_anyOf (not_anyOf_eachField c names) rfl d
  exact Prod.ext hdata ((conclude_false_eq_gather hsilent).trans hlines)

/-! ## Steps at any place -/

/-- One rewriting at one place of a list of nodes, in which one node is enough just if `anySuffices`
says so. -/
inductive Flattens : Bool → List Node → List Node → Prop
  /-- A group of `all` becomes a plain group. -/
  | plain {anySuffices : Bool} {ns rest : List Node} :
    Flattens anySuffices (.combined .all ns :: rest) (.group ns :: rest)
  /-- The nodes of a plain group take its place. -/
  | spliceGroup {ns rest : List Node} (h : ns.any isAnyOf = false) :
    Flattens false (.group ns :: rest) (ns ++ rest)
  /-- The nodes of a group of `all` take its place. -/
  | spliceAll {ns rest : List Node} (h : ns.any isAnyOf = false) :
    Flattens false (.combined .all ns :: rest) (ns ++ rest)
  /-- A coercion of several fields, or none, becomes one of each in turn. -/
  | split {c : Coercion} {names : List String} {rest : List Node} :
    Flattens false (.coerced c names :: rest) (eachField c names ++ rest)
  /-- The place is behind the first node. -/
  | behind {anySuffices : Bool} {n : Node} {ns ms : List Node} (h : Flattens anySuffices ns ms) :
    Flattens anySuffices (n :: ns) (n :: ms)
  /-- The place is within the first node, a plain group. -/
  | group {anySuffices : Bool} {ns ms rest : List Node} (h : Flattens false ns ms) :
    Flattens anySuffices (.group ns :: rest) (.group ms :: rest)
  /-- The place is within the first node, a group with a combinator. -/
  | combined {anySuffices : Bool} {c : Combinator} {ns ms rest : List Node}
    (h : Flattens (c == .any) ns ms) :
    Flattens anySuffices (.combined c ns :: rest) (.combined c ms :: rest)
  /-- The place is within the first node, which is about one source. -/
  | sourced {anySuffices : Bool} {s : Source} {ns ms rest : List Node}
    (h : Flattens anySuffices ns ms) :
    Flattens anySuffices (.sourced s ns :: rest) (.sourced s ms :: rest)

/-- What is rewritten may stand in the place of what was there. -/
theorem interchangeable_of_flattens {anySuffices : Bool} {ns ms : List Node}
    (h : Flattens anySuffices ns ms) : Interchangeable anySuffices ns ms := by
  induction h with
  | plain => exact .plain _ _
  | spliceGroup h => exact .splice h _
  | spliceAll h => exact (Interchangeable.plain _ _).trans (.splice h _)
  | split => exact (interchangeable_eachField _ _ _ _).trans (.splice (not_anyOf_eachField _ _) _)
  | behind _ ih => exact ih.behind _
  | group _ ih => exact ih.group _
  | combined _ ih => exact ih.combined _
  | sourced _ ih => exact ih.sourced _ _

/-- **Flattening keeps the meaning.** However often a schema is rewritten, and wherever in it, it
leaves the same data and reports the same lines as before, in every scope in which everything has to
hold. -/
theorem run_of_flattens {ns ms : List Node} (h : Relation.ReflTransGen (Flattens false) ns ms)
    {scope : Scope} (hscope : scope.anySuffices = false) (d : RequestData) :
    run ms scope d = run ns scope d := by
  induction h with
  | refl => rfl
  | tail _ hstep ih =>
    have hlast := (interchangeable_of_flattens hstep).concluded_eq scope hscope d
    exact hlast.trans ih

/-- Four steps: a coercion of two fields is split within a group, which is then spliced, and two
groups of `all` become plain, one of them within a group in which one node is enough. -/
theorem run_of_flattens_steps :
    let ns : List Node := [.combined .all [.coerced .integer ["n", "m"], .combined .all [.field "q"]],
      .combined .any [.combined .all [.field "k"], .sourced .body [.field "k"]]]
    let ms : List Node := [.coerced .integer ["n"], .coerced .integer ["m"], .group [.field "q"],
      .combined .any [.group [.field "k"], .sourced .body [.field "k"]]]
    let scope : Scope := ⟨.query, true, false⟩
    let d := RequestData.empty.insert .query "n" (.text "x")
    Relation.ReflTransGen (Flattens false) ns ms ∧ scope.anySuffices = false ∧
      run ms scope d = run ns scope d ∧
      (run ms scope d).2.texts = ["n must be an integer.", "m must be an integer.",
        "q must be given.", "At least one of the following.", "  k must be given.",
        "  At least one of the following.", "    k must be given as body parameter."] := by
  intro ns ms scope d
  have hsteps : Relation.ReflTransGen (Flattens false) ns ms := by
    refine .head (.combined .split) ?_
    refine .head (.spliceAll rfl) ?_
    refine .head (.behind (.behind .plain)) ?_
    exact .single (.behind (.behind (.behind (.combined .plain))))
  exact ⟨hsteps, rfl, run_of_flattens hsteps rfl d, by decide⟩

/-- The nodes of a group do not stand in its place where one of them makes up for others. -/
example :
    (run [.field "a", .group [.combined .any [.field "b"]]] ⟨.query, true, false⟩
        (RequestData.empty.insert .query "b" (.boolean true))).2.texts = ["a must be given."] ∧
      (run [.field "a", .combined .any [.field "b"]] ⟨.query, true, false⟩
        (RequestData.empty.insert .query "b" (.boolean true))).2.texts = [] := by
  decide

end RequestGuard.Schema
