import RequestGuard.Proofs.Schema.Outcome

/-!
# Where the lines of a report come from

Groups make no remarks of their own. They put headings above the lines of their nodes, move them in
and leave them out, and what a line says is untouched by that. So every line of a report is a heading
or the remark that some visit makes of the data which the visits before it left
(`exists_visit_of_mem_run`). What is true of all remarks of visits, and of the heading, is so true of
all lines.

Which remarks those are, and what is wrong where they are made, is listed by `Objection`.
-/

namespace RequestGuard.Schema

/-- The line is a heading, or its remark is one of these. -/
def StemsFrom (os : List (Option Remark)) (l : Line) : Prop :=
  l.entry = .heading ∨ ∃ r, some r ∈ os ∧ l.entry = .remark r

theorem StemsFrom.mono {os ps : List (Option Remark)} {l : Line} (h : StemsFrom os l)
    (hsub : ∀ o ∈ os, o ∈ ps) : StemsFrom ps l := by
  obtain h | ⟨r, hr, h⟩ := h
  · exact .inl h
  · exact .inr ⟨r, hsub _ hr, h⟩

/-! ## Through groups -/

theorem stemsFrom_of_mem_leafReport {os : List (Option Remark)} {l : Line}
    (h : l ∈ leafReport os) : StemsFrom os l := by
  obtain ⟨r, hr, rfl⟩ := List.mem_map.mp h
  exact .inr ⟨r, List.reduceOption_mem_iff.mp hr, rfl⟩

theorem stemsFrom_of_mem_underHeading {os : List (Option Remark)} {r : Report}
    (hr : ∀ l ∈ r, StemsFrom os l) : ∀ l ∈ r.underHeading, StemsFrom os l := by
  intro l hl
  rcases List.mem_cons.mp hl with rfl | hl
  · exact .inl rfl
  · obtain ⟨inner, hinner, rfl⟩ := List.mem_map.mp hl
    exact hr inner hinner

/-- A group has no lines but its heading and those of its nodes. -/
theorem stemsFrom_of_mem_conclude {os : List (Option Remark)} {anySuffices : Bool}
    {cs : List Child} (hcs : ∀ c ∈ cs, ∀ l ∈ c.report, StemsFrom os l) :
    ∀ l ∈ conclude anySuffices cs, StemsFrom os l := by
  have hall : ∀ l ∈ cs.flatMap Child.report, StemsFrom os l := by
    intro l hl
    obtain ⟨c, hc, hl⟩ := List.mem_flatMap.mp hl
    exact hcs c hc l hl
  unfold conclude
  split
  · exact nofun
  · cases anySuffices with
    | true => exact stemsFrom_of_mem_underHeading hall
    | false => exact hall

mutual

theorem stemsFrom_of_mem_runNode {brief : Bool} : ∀ (n : Node) (scope : Scope) {forced : Bool}
    (_ : scope.brief = (brief && !forced)) (d : RequestData),
    ∀ l ∈ (runNode n scope d).2, StemsFrom (outcomes brief (nodeVisits n scope.source forced) d) l
  | .field name, _, _, h, d => fun l hl => by
    rw [runNode, requireField_eq_leafReport h] at hl
    exact stemsFrom_of_mem_leafReport hl
  | .group nodes, scope, _, h, d =>
    stemsFrom_of_mem_conclude (stemsFrom_of_mem_runChildren nodes scope.conjunctive h d)
  | .combined c nodes, scope, _, h, d =>
    stemsFrom_of_mem_conclude (stemsFrom_of_mem_runChildren nodes (scope.combined c) h d)
  | .sourced s nodes, scope, _, _, d =>
    stemsFrom_of_mem_conclude
      (stemsFrom_of_mem_runChildren nodes (scope.sourced s) (brief_sourced scope s brief) d)
  | .coerced c names, scope, _, _, d => fun l hl => by
    rw [runNode, coerceFields_snd brief] at hl
    exact stemsFrom_of_mem_leafReport hl
  | .oneOf name as, scope, _, _, d => fun l hl => by
    rw [runNode, restrictField_snd brief] at hl
    exact stemsFrom_of_mem_leafReport hl

theorem stemsFrom_of_mem_runChildren {brief : Bool} : ∀ (ns : List Node) (scope : Scope)
    {forced : Bool} (_ : scope.brief = (brief && !forced)) (d : RequestData),
    ∀ c ∈ (runChildren ns scope d).2, ∀ l ∈ c.report,
      StemsFrom (outcomes brief (visits ns scope.source forced) d) l
  | [], _, _, _, _ => nofun
  | n :: ns, scope, forced, h, d => by
    have hn := stemsFrom_of_mem_runNode n scope h d
    have hns := stemsFrom_of_mem_runChildren ns scope h (runNode n scope d).1
    rw [runNode_fst n scope forced] at hns
    rw [runChildren_cons_snd, List.forall_mem_cons, visits, outcomes_append]
    constructor
    · intro l hl
      exact (hn l hl).mono fun o ho => List.mem_append_left _ ho
    · intro c hc l hl
      rw [runNode_fst n scope forced] at hc
      exact (hns c hc l hl).mono fun o ho => List.mem_append_right _ ho

end

/-! ## Back to the visits -/

/-- What a visit finds wrong with the data, under a root that is `brief` or is not. -/
inductive Objection (brief : Bool) (d : RequestData) : Visit → Remark → Prop where
  /-- A field is not there, and its source is left out. -/
  | unnamed {s : Source} {f : String} : brief = true → d.contains s f = false →
      Objection brief d ⟨s, f, .given false⟩ (.missingField f none)
  /-- A field is not there. -/
  | named {s : Source} {f : String} {forced : Bool} : (brief && !forced) = false →
      d.contains s f = false →
      Objection brief d ⟨s, f, .given forced⟩ (.missingField f (some s))
  /-- A field is not there or cannot be brought into a kind. -/
  | unmet {s : Source} {f : String} {c : Coercion} : (d.get? s f).bind c.coerce? = none →
      Objection brief d ⟨s, f, .ofKind c⟩ (.unmet c f)
  /-- A field that has alternatives is not there. -/
  | absent {s : Source} {f : String} {as : List Alternative} : d.get? s f = none →
      Objection brief d ⟨s, f, .among as⟩ (.missingValue f)
  /-- A field matches no alternative, and one or more are transforms. -/
  | malformed {s : Source} {f : String} {as : List Alternative} {given : FieldValue} :
      d.get? s f = some given → firstMatch? given d as = none →
      as.any Alternative.isTransform = true →
      Objection brief d ⟨s, f, .among as⟩ (.invalidFormat f)
  /-- A field is none of the literals. -/
  | unlisted {s : Source} {f : String} {as : List Alternative} {given : FieldValue} :
      d.get? s f = some given → firstMatch? given d as = none →
      as.any Alternative.isTransform = false →
      Objection brief d ⟨s, f, .among as⟩ (.notOneOf f (as.map Alternative.display))

theorem objection_of_remark? {brief : Bool} {v : Visit} {d : RequestData} {r : Remark}
    (h : v.remark? brief d = some r) : Objection brief d v r := by
  obtain ⟨s, f, demand⟩ := v
  cases demand with
  | given forced =>
    rw [Visit.remark?] at h
    split_ifs at h with hthere hbrief
    · cases h
      rw [Bool.and_eq_true, Bool.not_eq_true'] at hbrief
      obtain ⟨rfl, rfl⟩ := hbrief
      exact .unnamed rfl (Bool.eq_false_iff.mpr hthere)
    · cases h
      exact .named (Bool.eq_false_iff.mpr hbrief) (Bool.eq_false_iff.mpr hthere)
  | ofKind c =>
    rw [Visit.remark?] at h
    split_ifs at h with hmet
    cases h
    exact .unmet (Option.not_isSome_iff_eq_none.mp hmet)
  | among as =>
    rw [Visit.remark?] at h
    cases hgiven : d.get? s f with
    | none =>
      rw [hgiven] at h
      cases h
      exact .absent hgiven
    | some given =>
      simp only [hgiven] at h
      split_ifs at h with hmatch htransform
      · cases h
        exact .malformed hgiven (Option.not_isSome_iff_eq_none.mp hmatch) htransform
      · cases h
        exact .unlisted hgiven (Option.not_isSome_iff_eq_none.mp hmatch)
          (Bool.eq_false_iff.mpr htransform)

/-- A remark among the outcomes is made by a visit, of the data that the visits before it left. -/
theorem exists_visit_of_mem_outcomes {brief : Bool} {vs : List Visit} {d : RequestData}
    {o : Option Remark} (h : o ∈ outcomes brief vs d) :
    ∃ before v after, vs = before ++ v :: after ∧ v.remark? brief (perform before d) = o := by
  induction vs generalizing d with
  | nil => cases h
  | cons v vs ih =>
    rcases List.mem_cons.mp h with rfl | h
    · exact ⟨[], v, vs, rfl, rfl⟩
    · obtain ⟨before, w, after, rfl, ho⟩ := ih h
      exact ⟨v :: before, w, after, rfl, ho⟩

/-- A line of a report is a heading, or the remark that a visit makes of the data which the visits
before it left. -/
theorem exists_visit_of_mem_run {nodes : List Node} {scope : Scope} {d : RequestData} {l : Line}
    (h : l ∈ (run nodes scope d).2) :
    l.entry = .heading ∨ ∃ before v after r, visits nodes scope.source false = before ++ v :: after ∧
      v.remark? scope.brief (perform before d) = some r ∧ l.entry = .remark r := by
  have hbrief : scope.brief = (scope.brief && !false) := (Bool.and_true _).symm
  have hstems : StemsFrom (outcomes scope.brief (visits nodes scope.source false) d) l :=
    stemsFrom_of_mem_conclude (stemsFrom_of_mem_runChildren nodes scope hbrief d) l h
  obtain hheading | ⟨r, hr, hentry⟩ := hstems
  · exact .inl hheading
  · obtain ⟨before, v, after, hvs, hremark⟩ := exists_visit_of_mem_outcomes hr
    exact .inr ⟨before, v, after, r, hvs, hremark, hentry⟩

end RequestGuard.Schema
