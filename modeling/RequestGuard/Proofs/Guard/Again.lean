import RequestGuard.Guard.Basic
import RequestGuard.Proofs.Schema.FixedPoint
import RequestGuard.Proofs.Schema.Forgiveness

/-!
# Checking again

What a guard says of data that it has let through before. Let no two visits write one field. Then
the second check leaves the data as the first one left it, since what a visit made of a field it
gives back.

The verdict is another matter. A node may require a field, find it, and by that satisfy a group in
which one node is enough; then a coercion fails and takes the field away, and the group forgives the
remark. The second check misses the field: `check_again_misses_field` is such a request. It is the
only way in which the verdict turns. As long as no field goes away that is required before a visit
that may write it (`KeepsRequired`), the second time no visit ends worse than the first time
(`milder_outcomes_perform`), and forgiveness is monotone.
-/

namespace RequestGuard

namespace Schema

/-- Of the fields that are required before a visit that may write them, each that the first data has
is in the second as well. -/
def KeepsRequired (d e : RequestData) (vs : List Visit) : Prop :=
  vs.Pairwise fun v w => v.writes = false → w.writes = true → w.target = v.target →
    d.contains v.source v.name = true → e.contains v.source v.name = true

instance (d e : RequestData) (vs : List Visit) : Decidable (KeepsRequired d e vs) :=
  inferInstanceAs (Decidable (vs.Pairwise _))

/-- A visit that found nothing wrong finds nothing wrong at the end, where its field is still what
it made of it, or where it only requires the field and that is there. -/
theorem remark?_perform_eq_none {u : Visit} {vs : List Visit}
    (hu : u.demand.hasTransform = false) (hsingle : (targets (u :: vs)).Nodup) (brief : Bool)
    {d : RequestData} (hkeep : KeepsRequired d (perform (u :: vs) d) (u :: vs))
    (hd : u.remark? brief d = none) : u.remark? brief (perform (u :: vs) d) = none := by
  rw [remark?_eq_none_iff hu] at hd ⊢
  obtain ⟨w, hw⟩ := Option.isSome_iff_exists.mp hd
  obtain ⟨given, hgiven, hresult⟩ := Option.bind_eq_some_iff.mp hw
  by_cases hlater : u.target ∈ targets vs
  · -- The field is written behind this visit, so this one does not write it as well.
    obtain ⟨x, hx, hxwrites, hxtarget⟩ := exists_of_mem_targets hlater
    have hreads : u.writes = false := by
      cases hwrites : u.writes with
      | false => rfl
      | true => exact absurd hlater (target_not_mem_targets hsingle hwrites)
    have hthere : d.contains u.source u.name = true := by
      rw [RequestData.contains_eq_isSome, hgiven, Option.isSome_some]
    have hkept : (perform (u :: vs) d).contains u.source u.name = true :=
      (List.pairwise_cons.mp hkeep).1 x hx hreads hxwrites hxtarget hthere
    rw [RequestData.contains_eq_isSome] at hkept
    obtain ⟨left, hleft⟩ := Option.isSome_iff_exists.mp hkept
    rw [hleft, Option.bind_some, result?_of_not_writes hreads, Option.isSome_some]
  · have hleft : (perform (u :: vs) d).get? u.source u.name = some w := by
      rw [perform_cons, get?_perform_of_not_mem_targets hlater, get?_effect hu,
        if_pos ⟨rfl, rfl⟩, hw]
    rw [hleft, Option.bind_some, Demand.result?_of_result? hresult, Option.isSome_some]

theorem milder_outcomes_map {vs : List Visit} (hfree : ∀ v ∈ vs, v.demand.hasTransform = false)
    (hsingle : (targets vs).Nodup) (brief : Bool) {d : RequestData}
    (hkeep : KeepsRequired d (perform vs d) vs) :
    List.Forall₂ Milder (outcomes brief vs d)
      (vs.map fun v => v.remark? brief (perform vs d)) := by
  induction vs generalizing d with
  | nil => exact .nil
  | cons u vs ih =>
    obtain ⟨hu, hvs⟩ := List.forall_mem_cons.mp hfree
    -- What the first visit leaves has no field that was not there before.
    have hrest : KeepsRequired (u.effect d) (perform vs (u.effect d)) vs := by
      refine (List.pairwise_cons.mp hkeep).2.imp ?_
      intro v w hvw hv hw htarget hthere
      exact hvw hv hw htarget (contains_of_contains_effect hthere)
    exact .cons (remark?_perform_eq_none hu hsingle brief hkeep)
      (ih hvs (nodup_targets_of_cons hsingle) hrest)

/-- The second time no visit ends worse than the first time. -/
theorem milder_outcomes_perform {vs : List Visit}
    (hfree : ∀ v ∈ vs, v.demand.hasTransform = false) (hsingle : (targets vs).Nodup) (brief : Bool)
    {d : RequestData} (hkeep : KeepsRequired d (perform vs d) vs) :
    List.Forall₂ Milder (outcomes brief vs d) (outcomes brief vs (perform vs d)) := by
  rw [outcomes_perform hfree hsingle]
  exact milder_outcomes_map hfree hsingle brief hkeep

end Schema

namespace Guard

open Schema

/-- **A request that was let through, checked again.** Where no two visits write one field, the
second check leaves the data unchanged; and it lets the request through as well, unless a field went
away that is required before a visit that may write it. -/
theorem check_again {g : Guard} (hfree : hasTransform g.schema = false) {m : Method}
    (hsingle : ∀ scope, g.scopeFor? m = some scope →
      (targets (visits g.schema scope.source false)).Nodup)
    {d : RequestData} (hproceed : (g.check m d).2 = .proceed) :
    (g.check m (g.check m d).1).1 = (g.check m d).1 ∧
      ((∀ scope, g.scopeFor? m = some scope →
          KeepsRequired d (g.check m d).1 (visits g.schema scope.source false)) →
        (g.check m (g.check m d).1).2 = .proceed) := by
  cases hscope : g.scopeFor? m with
  | none =>
    rw [check_of_not_covers hscope, check_of_not_covers hscope]
    exact ⟨rfl, fun _ => rfl⟩
  | some scope =>
    have hvs := not_hasTransform_of_mem_visits hfree scope.source false
    have hone := hsingle scope hscope
    rw [check_of_covers hscope] at hproceed ⊢
    have hfirst : (run g.schema scope d).2 = [] :=
      (Verdict.ofReport_eq_proceed_iff _).mp hproceed
    rw [check_of_covers hscope, run_fst g.schema scope d]
    refine ⟨?_, ?_⟩
    · rw [run_fst, perform_perform hvs hone]
    · intro hkeep
      have hmilder := milder_outcomes_perform hvs hone scope.brief (hkeep scope rfl)
      exact (Verdict.ofReport_eq_proceed_iff _).mpr (run_snd_eq_nil_of_milder hmilder hfirst)

/-- A number that is none, which the first check takes away since another field makes up for it, and
a field that is required before it is restricted. -/
theorem check_again_forgiven_number :
    let g : Guard := ⟨[.combined .any [.coerced .integer ["n"], .field "k"], .field "c",
      .oneOf "c" [.literal (.text "a")]], none⟩
    let d := ((RequestData.empty.insert .query "n" (.text "x")).insert .query "k"
      (.boolean true)).insert .query "c" (.text "a")
    hasTransform g.schema = false ∧
      (targets (visits g.schema .query false)).Nodup ∧
      KeepsRequired d (g.check .get d).1 (visits g.schema .query false) ∧
      (g.check .get d).2 = .proceed ∧ (g.check .get d).1.contains .query "n" = false ∧
      (g.check .get (g.check .get d).1).1 = (g.check .get d).1 ∧
      (g.check .get (g.check .get d).1).2 = .proceed := by
  intro g d
  have hfree : hasTransform g.schema = false := rfl
  have hsingle : (targets (visits g.schema .query false)).Nodup := by decide
  have hkeep : KeepsRequired d (g.check .get d).1 (visits g.schema .query false) := by decide
  have hproceed : (g.check .get d).2 = .proceed := by decide
  have hscope : ∀ scope, g.scopeFor? .get = some scope → scope.source = .query := by
    intro scope h
    exact source_of_scopeFor? h
  have hagain := check_again hfree
    (fun scope h => by rw [hscope scope h]; exact hsingle) hproceed
  refine ⟨hfree, hsingle, hkeep, hproceed, by decide, hagain.1, hagain.2 ?_⟩
  intro scope h
  rw [hscope scope h]
  exact hkeep

/-- A request that is let through once and not twice. The field satisfies the group, and then the
coercion takes it away. -/
theorem check_again_misses_field :
    let g : Guard := ⟨[.combined .any [.field "n", .coerced .integer ["n"]]], none⟩
    let d := RequestData.empty.insert .query "n" (.text "x")
    hasTransform g.schema = false ∧
      (∀ scope, g.scopeFor? .get = some scope →
        (targets (visits g.schema scope.source false)).Nodup) ∧
      (g.check .get d).2 = .proceed ∧
      (g.check .get (g.check .get d).1).2 = .violation
        "At least one of the following.\n  n must be given.\n  n must be an integer." := by
  intro g d
  have hsingle : (targets (visits g.schema .query false)).Nodup := by decide
  refine ⟨rfl, ?_, by decide, by decide⟩
  intro scope h
  rw [source_of_scopeFor? h]
  exact hsingle

end Guard

end RequestGuard
