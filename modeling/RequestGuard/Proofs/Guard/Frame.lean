import RequestGuard.Guard.Basic
import RequestGuard.Proofs.Schema.Footprint

/-!
# What checks leave alone

Data goes through checks, made by any guards for any verbs one after another, whatever each of them
decides. Where may it come out changed? A guard that covers the verb may write a field where a leaf
of its schema brings the field into a kind or restricts it, in the source that the nearest node
around the leaf forces, or else in the source of the verb. `Stands` finds the leaves of a tree with
their sources, and `Guard.MayWrite` says which fields they give.

Every other field keeps its value, or its absence (`Guard.get?_check_of_not_mayWrite`), and no field
comes up that was not there (`Guard.contains_of_contains_check`). Transforms make no difference to
that: they see the whole request, and what they give still goes to the one field of their leaf.
-/

namespace RequestGuard

/-! ## Leaves -/

/-- The fields that a leaf brings into a kind or restricts, and so may change. -/
def Node.changes : Node → List String
  | .field _ => []
  | .group _ => []
  | .combined _ _ => []
  | .sourced _ _ => []
  | .coerced _ names => names
  | .oneOf name _ => [name]

namespace Schema

/-- A node stands among others that are under a source, at any depth, and is itself under the source
`t`: that of the nearest node around it that forces one, and else the one they are all under. -/
inductive Stands (n : Node) (t : Source) : List Node → Source → Prop where
  | here {nodes : List Node} : n ∈ nodes → Stands n t nodes t
  | group {nodes inner : List Node} {s : Source} :
      .group inner ∈ nodes → Stands n t inner s → Stands n t nodes s
  | combined {nodes inner : List Node} {s : Source} {c : Combinator} :
      .combined c inner ∈ nodes → Stands n t inner s → Stands n t nodes s
  | sourced {nodes inner : List Node} {s forced : Source} :
      .sourced forced inner ∈ nodes → Stands n t inner forced → Stands n t nodes s

theorem Stands.mono {n : Node} {t s : Source} {nodes others : List Node} (h : Stands n t nodes s)
    (hsub : ∀ m ∈ nodes, m ∈ others) : Stands n t others s := by
  cases h with
  | here hmem => exact .here (hsub n hmem)
  | group hmem hinner => exact .group (hsub _ hmem) hinner
  | combined hmem hinner => exact .combined (hsub _ hmem) hinner
  | sourced hmem hinner => exact .sourced (hsub _ hmem) hinner

theorem mem_targets_iff {vs : List Visit} {t : Source} {name : String} :
    (t, name) ∈ targets vs ↔ ∃ v ∈ vs, v.writes = true ∧ v.target = (t, name) := by
  simp [targets, and_assoc]

theorem targets_append (vs ws : List Visit) : targets (vs ++ ws) = targets vs ++ targets ws := by
  simp [targets]

mutual

theorem exists_stands_of_mem_node : ∀ (n : Node) (s : Source) (forced : Bool) {t : Source}
    {name : String}, (t, name) ∈ targets (nodeVisits n s forced) →
    ∃ leaf, Stands leaf t [n] s ∧ name ∈ leaf.changes
  | .field _, _, _, _, _, h => by
    obtain ⟨v, hv, hwrites, -⟩ := mem_targets_iff.mp h
    cases List.mem_singleton.mp hv
    exact absurd hwrites Bool.false_ne_true
  | .group nodes, s, forced, _, _, h => by
    obtain ⟨leaf, hstands, hchange⟩ := exists_stands_of_mem nodes s forced h
    exact ⟨leaf, .group List.mem_cons_self hstands, hchange⟩
  | .combined _ nodes, s, forced, _, _, h => by
    obtain ⟨leaf, hstands, hchange⟩ := exists_stands_of_mem nodes s forced h
    exact ⟨leaf, .combined List.mem_cons_self hstands, hchange⟩
  | .sourced s nodes, _, _, _, _, h => by
    obtain ⟨leaf, hstands, hchange⟩ := exists_stands_of_mem nodes s true h
    exact ⟨leaf, .sourced List.mem_cons_self hstands, hchange⟩
  | .coerced c names, s, _, _, _, h => by
    obtain ⟨v, hv, -, htarget⟩ := mem_targets_iff.mp h
    obtain ⟨name, hname, rfl⟩ := List.mem_map.mp hv
    cases htarget
    exact ⟨.coerced c names, .here List.mem_cons_self, hname⟩
  | .oneOf name as, s, _, _, _, h => by
    obtain ⟨v, hv, -, htarget⟩ := mem_targets_iff.mp h
    cases List.mem_singleton.mp hv
    cases htarget
    exact ⟨.oneOf name as, .here List.mem_cons_self, List.mem_singleton_self name⟩

/-- What visits may write comes from a leaf that stands under the source it is written in. -/
theorem exists_stands_of_mem : ∀ (nodes : List Node) (s : Source) (forced : Bool) {t : Source}
    {name : String}, (t, name) ∈ targets (visits nodes s forced) →
    ∃ leaf, Stands leaf t nodes s ∧ name ∈ leaf.changes
  | [], _, _, _, _, h => by cases h
  | n :: ns, s, forced, _, _, h => by
    rw [visits, targets_append, List.mem_append] at h
    obtain hfirst | hrest := h
    · obtain ⟨leaf, hstands, hchange⟩ := exists_stands_of_mem_node n s forced hfirst
      refine ⟨leaf, hstands.mono ?_, hchange⟩
      intro m hm
      rw [List.mem_singleton.mp hm]
      exact List.mem_cons_self
    · obtain ⟨leaf, hstands, hchange⟩ := exists_stands_of_mem ns s forced hrest
      exact ⟨leaf, hstands.mono fun m hm => List.mem_cons_of_mem n hm, hchange⟩

end

/-- What the visits of one of some nodes may write, the visits of all of them may write. -/
theorem mem_targets_visits {n : Node} {nodes : List Node} (h : n ∈ nodes) {s : Source}
    {forced : Bool} {target : Source × String} (htarget : target ∈ targets (nodeVisits n s forced)) :
    target ∈ targets (visits nodes s forced) := by
  induction nodes with
  | nil => cases h
  | cons m nodes ih =>
    rw [visits, targets_append, List.mem_append]
    obtain rfl | hrest := List.mem_cons.mp h
    · exact .inl htarget
    · exact .inr (ih hrest)

/-- The fields that visits may write are those that the leaves of the tree give. -/
theorem mem_targets_visits_iff {nodes : List Node} {s t : Source} {forced : Bool} {name : String} :
    (t, name) ∈ targets (visits nodes s forced) ↔
      ∃ leaf, Stands leaf t nodes s ∧ name ∈ leaf.changes := by
  constructor
  · exact exists_stands_of_mem nodes s forced
  · rintro ⟨leaf, hstands, hchange⟩
    induction hstands generalizing forced with
    | here hmem =>
      refine mem_targets_visits hmem ?_
      cases leaf with
      | field _ => cases hchange
      | group _ => cases hchange
      | combined _ _ => cases hchange
      | sourced _ _ => cases hchange
      | coerced c names =>
        exact mem_targets_iff.mpr ⟨_, List.mem_map.mpr ⟨name, hchange, rfl⟩, rfl, rfl⟩
      | oneOf restricted as =>
        obtain rfl := List.mem_singleton.mp hchange
        exact mem_targets_iff.mpr ⟨_, List.mem_singleton_self _, rfl, rfl⟩
    | group hmem _ ih => exact mem_targets_visits hmem ih
    | combined hmem _ ih => exact mem_targets_visits hmem ih
    | sourced hmem _ ih => exact mem_targets_visits hmem ih

/-- Visits make no field that was not there. -/
theorem contains_of_contains_perform {vs : List Visit} {d : RequestData} {s : Source} {n : String}
    (h : (perform vs d).contains s n = true) : d.contains s n = true := by
  induction vs generalizing d with
  | nil => exact h
  | cons v vs ih => exact contains_of_contains_effect (ih h)

end Schema

/-! ## Checks -/

namespace Guard

open Schema

/-- A check by the guard, of a request of this verb, may write this field. -/
def MayWrite (g : Guard) (m : Method) (s : Source) (name : String) : Prop :=
  g.covers m = true ∧ ∃ leaf, Stands leaf s g.schema m.source ∧ name ∈ leaf.changes

/-- The data that checks leave, made one after another, whatever each of them decides. -/
def checkEach : List (Guard × Method) → RequestData → RequestData
  | [], d => d
  | (g, m) :: checks, d => checkEach checks (g.check m d).1

section

variable {g : Guard} {m : Method}

theorem check_eq_of_not_covers (h : g.covers m = false) (d : RequestData) :
    g.check m d = (d, .proceed) :=
  check_of_not_covers (Option.isNone_iff_eq_none.mp (Option.isSome_eq_false_iff.mp h)) d

/-- A check leaves what the visits of the schema leave, which begin in the source of the verb. -/
theorem check_fst_of_covers (h : g.covers m = true) (d : RequestData) :
    (g.check m d).1 = perform (visits g.schema m.source false) d := by
  obtain ⟨scope, hscope⟩ := Option.isSome_iff_exists.mp h
  rw [check_of_covers hscope, run_fst, source_of_scopeFor? hscope]

variable {d : RequestData} {s : Source} {n : String}

theorem contains_of_contains_check (h : (g.check m d).1.contains s n = true) :
    d.contains s n = true := by
  cases hg : g.covers m with
  | true =>
    rw [check_fst_of_covers hg] at h
    exact contains_of_contains_perform h
  | false =>
    rw [check_eq_of_not_covers hg] at h
    exact h

theorem get?_check_of_not_mayWrite (h : ¬ g.MayWrite m s n) :
    (g.check m d).1.get? s n = d.get? s n := by
  cases hg : g.covers m with
  | true =>
    have hfree : (s, n) ∉ targets (visits g.schema m.source false) := by
      intro hmem
      exact h ⟨hg, mem_targets_visits_iff.mp hmem⟩
    rw [check_fst_of_covers hg, get?_perform_of_not_mem_targets hfree]
  | false => rw [check_eq_of_not_covers hg]

end

section

variable {checks : List (Guard × Method)} {d : RequestData} {s : Source} {n : String}

theorem contains_of_contains_checkEach (h : (checkEach checks d).contains s n = true) :
    d.contains s n = true := by
  induction checks generalizing d with
  | nil => exact h
  | cons check checks ih => exact contains_of_contains_check (ih h)

theorem get?_checkEach_of_not_mayWrite
    (h : ∀ check ∈ checks, ¬ check.1.MayWrite check.2 s n) :
    (checkEach checks d).get? s n = d.get? s n := by
  induction checks generalizing d with
  | nil => rfl
  | cons check checks ih =>
    obtain ⟨hfirst, hrest⟩ := List.forall_mem_cons.mp h
    rw [checkEach, ih hrest, get?_check_of_not_mayWrite hfirst]

end

/-- Checks for verbs that the guard does not cover may be left out. -/
theorem checkEach_filter_covers (checks : List (Guard × Method)) (d : RequestData) :
    checkEach (checks.filter fun check => check.1.covers check.2) d = checkEach checks d := by
  induction checks generalizing d with
  | nil => rfl
  | cons check checks ih =>
    obtain ⟨g, m⟩ := check
    cases hg : g.covers m with
    | true =>
      simp only [List.filter_cons, hg, if_true, checkEach]
      exact ih (g.check m d).1
    | false =>
      simp only [List.filter_cons, hg, Bool.false_eq_true, if_false, checkEach,
        check_eq_of_not_covers hg]
      exact ih d

/-- **Checks shrink and rewrite what schemas name, and nothing else.** However many guards check
data one after another, for whatever verbs: every field that is there at the end was there at the
start; every field that no leaf of a covering guard may write, in the source that the leaf is under,
is as it was; and a guard that does not cover the verb lets the data pass as it is, so that its check
might as well not have been made. -/
theorem checkEach_frame (checks : List (Guard × Method)) (d : RequestData) :
    (∀ s n, (checkEach checks d).contains s n = true → d.contains s n = true) ∧
      (∀ s n, (∀ check ∈ checks, ¬ check.1.MayWrite check.2 s n) →
        (checkEach checks d).get? s n = d.get? s n) ∧
      (∀ (g : Guard) (m : Method), g.covers m = false → ∀ e, g.check m e = (e, .proceed)) ∧
      checkEach (checks.filter fun check => check.1.covers check.2) d = checkEach checks d := by
  refine ⟨?created, ?kept, ?exempt, checkEach_filter_covers checks d⟩
  case created =>
    intro s n h
    exact contains_of_contains_checkEach h
  case kept =>
    intro s n h
    exact get?_checkEach_of_not_mayWrite h
  case exempt =>
    intro g m hg e
    exact check_eq_of_not_covers hg e

/-- A guard for `POST` turns to the query for a field that it restricts, by a transform that copies a
field of the body, and takes away a field of the body that is no number; a guard for `PUT` would do
more. Of the four fields two are written, and the two of the same names in the other source are
not. -/
theorem checkEach_frame_copied :
    let copy : Transform := fun _ d => .ok (d.get? .body "a")
    let posted : Guard :=
      ⟨[.sourced .query [.combined .any [.oneOf "a" [.transform copy]]], .coerced .number ["b"]],
        some .post⟩
    let put : Guard := ⟨[.coerced .integer ["a", "b"]], some .put⟩
    let checks : List (Guard × Method) := [(posted, .post), (put, .post), (posted, .post)]
    let d := (((RequestData.empty.insert .query "a" (.text "1")).insert .query "b" (.text "2")).insert
      .body "a" (.text "3")).insert .body "b" (.text "x")
    (∀ check ∈ checks, ¬ check.1.MayWrite check.2 .query "b") ∧
      (∀ check ∈ checks, ¬ check.1.MayWrite check.2 .body "a") ∧
      (checkEach checks d).get? .query "b" = d.get? .query "b" ∧
      (checkEach checks d).get? .body "a" = d.get? .body "a" ∧
      (checkEach checks d).get? .query "a" = some (.text "3") ∧
      (checkEach checks d).contains .body "b" = false := by
  intro copy posted put checks d
  have hfree (s : Source) (n : String)
      (h : (s, n) ∉ targets (visits posted.schema .body false)) :
      ∀ check ∈ checks, ¬ check.1.MayWrite check.2 s n := by
    have hposted : ¬ posted.MayWrite .post s n := by
      rintro ⟨-, hstands⟩
      exact h (mem_targets_visits_iff.mpr hstands)
    have hput : ¬ put.MayWrite .post s n := by
      rintro ⟨hcovers, -⟩
      exact absurd hcovers (by decide)
    intro check hmem
    simp only [checks, List.mem_cons, List.not_mem_nil, or_false] at hmem
    obtain rfl | rfl | rfl := hmem
    · exact hposted
    · exact hput
    · exact hposted
  have hquery := hfree .query "b" (by decide)
  have hbody := hfree .body "a" (by decide)
  have hframe := (checkEach_frame checks d).2.1
  exact ⟨hquery, hbody, hframe .query "b" hquery, hframe .body "a" hbody, by rfl, by rfl⟩

end Guard

end RequestGuard
