import RequestGuard.Schema.Run

/-!
# The leaf visits of a schema

Forget every grouping of a schema and what is left is a list of visits: one for each field that a
leaf names, in the order in which the leaves stand, each to the source that the nearest node around
it forces. `visits` is that list, and `perform` carries visits out from the first to the last and
never stops early.

The main statement is that a run does just that to the data: what groups decide is what is reported,
and nothing of it reaches the fields. The invariant that carries the induction is `runNode_fst`, one
node at a time.
-/

namespace RequestGuard.Schema

/-! ## Visits -/

/-- What a leaf demands of a field. -/
inductive Demand where
  /-- That it is there; `forced` says whether a node around the leaf forces the source. -/
  | given (forced : Bool)
  /-- That it can be brought into a kind. -/
  | ofKind (coercion : Coercion)
  /-- That it matches an alternative. -/
  | among (alternatives : List Alternative)

/-- The visit of a leaf to one field. -/
structure Visit where
  source : Source
  name : String
  demand : Demand

namespace Visit

/-- The data that a visit leaves. -/
def effect : Visit → RequestData → RequestData
  | ⟨_, _, .given _⟩, d => d
  | ⟨s, name, .ofKind c⟩, d => (coerceField c s name d).1
  | ⟨s, name, .among as⟩, d => (restrictField name as s d).1

/-- Whether the leaf is one that may change its field. -/
def writes : Visit → Bool
  | ⟨_, _, .given _⟩ => false
  | ⟨_, _, .ofKind _⟩ => true
  | ⟨_, _, .among _⟩ => true

theorem effect_of_not_writes {v : Visit} (h : v.writes = false) (d : RequestData) :
    v.effect d = d := by
  obtain ⟨s, name, demand⟩ := v
  cases demand with
  | given forced => rfl
  | ofKind c => exact absurd h (by simp [writes])
  | among as => exact absurd h (by simp [writes])

end Visit

mutual

/-- The visits of a node that stands under a source; `forced` says whether a node around it forces
that source. -/
def nodeVisits : Node → Source → Bool → List Visit
  | .field name, s, forced => [⟨s, name, .given forced⟩]
  | .group nodes, s, forced => visits nodes s forced
  | .combined _ nodes, s, forced => visits nodes s forced
  | .sourced s nodes, _, _ => visits nodes s true
  | .coerced c names, s, _ => names.map fun name => ⟨s, name, .ofKind c⟩
  | .oneOf name as, s, _ => [⟨s, name, .among as⟩]

/-- The visits of nodes one after another. -/
def visits : List Node → Source → Bool → List Visit
  | [], _, _ => []
  | n :: ns, s, forced => nodeVisits n s forced ++ visits ns s forced

end

theorem visits_append (ns ms : List Node) (s : Source) (forced : Bool) :
    visits (ns ++ ms) s forced = visits ns s forced ++ visits ms s forced := by
  induction ns with
  | nil => rfl
  | cons n ns ih => simp only [List.cons_append, visits, ih, List.append_assoc]

/-! ## Carrying visits out -/

/-- The data that visits leave, carried out one after another. -/
def perform (vs : List Visit) (d : RequestData) : RequestData :=
  vs.foldl (fun d v => v.effect d) d

@[simp] theorem perform_nil (d : RequestData) : perform [] d = d := rfl

@[simp] theorem perform_cons (v : Visit) (vs : List Visit) (d : RequestData) :
    perform (v :: vs) d = perform vs (v.effect d) := rfl

@[simp] theorem perform_append (vs ws : List Visit) (d : RequestData) :
    perform (vs ++ ws) d = perform ws (perform vs d) :=
  List.foldl_append

/-- A visit that writes nothing may be left out. -/
theorem perform_filter_writes (vs : List Visit) (d : RequestData) :
    perform (vs.filter Visit.writes) d = perform vs d := by
  induction vs generalizing d with
  | nil => rfl
  | cons v vs ih =>
    cases hv : v.writes with
    | true => rw [List.filter_cons_of_pos hv, perform_cons, perform_cons, ih]
    | false =>
      rw [List.filter_cons_of_neg (by rw [hv]; exact Bool.false_ne_true), perform_cons, ih,
        Visit.effect_of_not_writes hv]

/-! ## A run as its visits -/

theorem coerceFields_fst (c : Coercion) (s : Source) (names : List String) (d : RequestData) :
    (coerceFields c s names d).1 = perform (names.map fun name => ⟨s, name, .ofKind c⟩) d := by
  induction names generalizing d with
  | nil => rfl
  | cons name names ih =>
    -- The fields that are left are visited on what the visit to the first one leaves.
    have hrest := ih (coerceField c s name d).1
    rw [List.map_cons, perform_cons]
    exact hrest

mutual

/-- A node does to the data what its visits do, whatever the scope makes of their outcomes. -/
theorem runNode_fst : ∀ (n : Node) (scope : Scope) (forced : Bool) (d : RequestData),
    (runNode n scope d).1 = perform (nodeVisits n scope.source forced) d
  | .field _, _, _, _ => rfl
  | .group nodes, scope, forced, d => runChildren_fst nodes scope.conjunctive forced d
  | .combined c nodes, scope, forced, d => runChildren_fst nodes (scope.combined c) forced d
  | .sourced s nodes, scope, _, d => runChildren_fst nodes (scope.sourced s) true d
  | .coerced c names, scope, _, d => coerceFields_fst c scope.source names d
  | .oneOf _ _, _, _, _ => rfl

theorem runChildren_fst : ∀ (ns : List Node) (scope : Scope) (forced : Bool) (d : RequestData),
    (runChildren ns scope d).1 = perform (visits ns scope.source forced) d
  | [], _, _, _ => rfl
  | n :: ns, scope, forced, d => by
    have hn := runNode_fst n scope forced d
    have hns := runChildren_fst ns scope forced (runNode n scope d).1
    rw [visits, perform_append, ← hn]
    exact hns

end

theorem run_fst (nodes : List Node) (scope : Scope) (d : RequestData) :
    (run nodes scope d).1 = perform (visits nodes scope.source false) d :=
  runChildren_fst nodes scope false d

/-- **Control flow never touches the data.** A run leaves what the visits that may write leave,
carried out one after another to the last. So neither the wording nor whether one node is enough
makes a difference to the data, and a group with a combinator, satisfied or not, does to it what its
nodes do when they stand in its place. -/
theorem run_fst_eq_perform_writes (nodes : List Node) (scope : Scope) (d : RequestData) :
    (run nodes scope d).1 =
        perform ((visits nodes scope.source false).filter Visit.writes) d ∧
      (∀ brief anySuffices : Bool,
        (run nodes ⟨scope.source, brief, anySuffices⟩ d).1 = (run nodes scope d).1) ∧
      ∀ (c : Combinator) (before inner after : List Node),
        (run (before ++ .combined c inner :: after) scope d).1 =
          (run (before ++ inner ++ after) scope d).1 := by
  refine ⟨?_, ?_, ?_⟩
  · rw [perform_filter_writes, run_fst]
  · intro brief anySuffices
    rw [run_fst, run_fst]
  · intro c before inner after
    -- The group leaves no trace in the list of visits.
    have hinner : nodeVisits (.combined c inner) scope.source false =
        visits inner scope.source false := by
      rw [nodeVisits]
    have hvisits : visits (before ++ .combined c inner :: after) scope.source false =
        visits (before ++ inner ++ after) scope.source false := by
      rw [visits_append, visits, hinner, visits_append, visits_append, List.append_assoc]
    rw [run_fst, run_fst, hvisits]

end RequestGuard.Schema
