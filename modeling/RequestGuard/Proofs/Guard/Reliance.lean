import RequestGuard.Guard.Basic
import RequestGuard.Proofs.Schema.Conjunction
import RequestGuard.Proofs.Schema.FixedPoint

/-!
# What a handler may rely on

A guard whose schema has no group in which one node is enough lets a request through just when every
visit succeeded. What the handler then gets is more than that each visit succeeded in its turn: a
later visit to a field could have undone what an earlier one found. `Reliable` says what is true of
the data at the end. No field is gone, every field that is named is there, the last coercion of a
field takes the value that the field ends up with, and so does every restriction behind it.

One visit that succeeds keeps all fields (`contains_effect`) and gives its own field what its demand
makes of it (`get?_effect_of_succeeds`). The rest is read off the visits behind it: as long as none
of them is a coercion, they leave the value alone (`get?_perform_of_uncoerced`).
-/

namespace RequestGuard.Schema

/-! ## Visits that succeed -/

/-- Whether the visit brings its field into a kind. -/
def Visit.coerces : Visit → Bool
  | ⟨_, _, .given _⟩ => false
  | ⟨_, _, .ofKind _⟩ => true
  | ⟨_, _, .among _⟩ => false

/-- Every visit succeeds, each on the data that the ones before it left. -/
def AllSucceed (vs : List Visit) (brief : Bool) (d : RequestData) : Prop :=
  ∀ o ∈ outcomes brief vs d, o = none

theorem allSucceed_cons {v : Visit} {vs : List Visit} {brief : Bool} {d : RequestData} :
    AllSucceed (v :: vs) brief d ↔ v.remark? brief d = none ∧ AllSucceed vs brief (v.effect d) := by
  unfold AllSucceed
  rw [outcomes, List.forall_mem_cons]

theorem allSucceed_append {vs ws : List Visit} {brief : Bool} {d : RequestData} :
    AllSucceed (vs ++ ws) brief d ↔ AllSucceed vs brief d ∧ AllSucceed ws brief (perform vs d) := by
  unfold AllSucceed
  rw [outcomes_append, List.forall_mem_append]

section

variable {v : Visit} {brief : Bool} {d : RequestData}

/-- A visit that succeeds found a value and left what its demand makes of it. -/
theorem get?_effect_of_succeeds (hfree : v.demand.hasTransform = false)
    (h : v.remark? brief d = none) :
    ∃ given w, d.get? v.source v.name = some given ∧ v.demand.result? given = some w ∧
      (v.effect d).get? v.source v.name = some w := by
  obtain ⟨w, hw⟩ := Option.isSome_iff_exists.mp ((remark?_eq_none_iff hfree brief d).mp h)
  obtain ⟨given, hgiven, hresult⟩ := Option.bind_eq_some_iff.mp hw
  refine ⟨given, w, hgiven, hresult, ?_⟩
  rw [get?_effect hfree, if_pos ⟨rfl, rfl⟩, hw]

/-- A visit that succeeds takes no field away. -/
theorem contains_effect (hfree : v.demand.hasTransform = false) (h : v.remark? brief d = none)
    {s : Source} {n : String} (hn : d.contains s n = true) : (v.effect d).contains s n = true := by
  rw [RequestData.contains_eq_isSome] at hn ⊢
  by_cases htarget : v.target = (s, n)
  · obtain ⟨rfl, rfl⟩ := Prod.mk.inj htarget
    obtain ⟨given, w, -, -, hleft⟩ := get?_effect_of_succeeds hfree h
    rw [hleft, Option.isSome_some]
  · rw [get?_effect_of_ne htarget]
    exact hn

/-- A visit that succeeds and is no coercion leaves the value of its field as it was. -/
theorem result?_eq_self_of_not_coerces (hv : v.coerces = false) {given w : FieldValue}
    (h : v.demand.result? given = some w) : w = given := by
  obtain ⟨s, n, demand⟩ := v
  cases demand with
  | given forced =>
    cases h
    rfl
  | ofKind c => exact absurd hv Bool.noConfusion
  | among as =>
    obtain ⟨-, hw⟩ := Option.ite_none_right_eq_some.mp h
    cases hw
    rfl

end

section

variable {vs : List Visit} {brief : Bool} {d : RequestData} {s : Source} {n : String}

theorem contains_perform (hfree : ∀ v ∈ vs, v.demand.hasTransform = false)
    (h : AllSucceed vs brief d) (hn : d.contains s n = true) :
    (perform vs d).contains s n = true := by
  induction vs generalizing d with
  | nil => exact hn
  | cons v vs ih =>
    obtain ⟨hv, hvs⟩ := List.forall_mem_cons.mp hfree
    obtain ⟨hfirst, hrest⟩ := allSucceed_cons.mp h
    exact ih hvs hrest (contains_effect hv hfirst hn)

/-- Visits that succeed and do not coerce a field leave its value as it was. -/
theorem get?_perform_of_uncoerced (hfree : ∀ v ∈ vs, v.demand.hasTransform = false)
    (h : AllSucceed vs brief d) (hvs : ∀ v ∈ vs, v.target = (s, n) → v.coerces = false) :
    (perform vs d).get? s n = d.get? s n := by
  induction vs generalizing d with
  | nil => rfl
  | cons v vs ih =>
    obtain ⟨hv, hfree⟩ := List.forall_mem_cons.mp hfree
    obtain ⟨hfirst, hrest⟩ := allSucceed_cons.mp h
    obtain ⟨huncoerced, hvs⟩ := List.forall_mem_cons.mp hvs
    rw [perform_cons, ih hfree hrest hvs]
    by_cases htarget : v.target = (s, n)
    · obtain ⟨given, w, hgiven, hresult, hleft⟩ := get?_effect_of_succeeds hv hfirst
      have hw : w = given := result?_eq_self_of_not_coerces (huncoerced htarget) hresult
      obtain ⟨rfl, rfl⟩ := Prod.mk.inj htarget
      rw [hleft, hgiven, hw]
    · exact get?_effect_of_ne htarget d

end

/-! ## What is true at the end -/

/-- The visit is one of the visits, and none behind it is a coercion of its field. -/
def HasLastWord (vs : List Visit) (v : Visit) : Prop :=
  ∃ before after, vs = before ++ v :: after ∧ ∀ w ∈ after, w.target = v.target → w.coerces = false

/-- What may be relied on where visits have brought the first data into the second. -/
structure Reliable (vs : List Visit) (d e : RequestData) : Prop where
  /-- No field is gone. -/
  kept : ∀ s n, d.contains s n = true → e.contains s n = true
  /-- Every field that is named is there. -/
  present : ∀ v ∈ vs, e.contains v.source v.name = true
  /-- The last coercion of a field takes the field's value as it is, which is one that it gives. -/
  coerced : ∀ s n c, HasLastWord vs ⟨s, n, .ofKind c⟩ →
    ∃ w, e.get? s n = some w ∧ c.coerce? w = some w ∧ c.gives w = true
  /-- A restriction behind the last coercion of its field lists a literal that is the same as the
  field's value. -/
  admitted : ∀ s n as, HasLastWord vs ⟨s, n, .among as⟩ →
    ∃ w, e.get? s n = some w ∧ ∃ v, .literal v ∈ as ∧ v.same w = true

section

variable {vs : List Visit} (hfree : ∀ v ∈ vs, v.demand.hasTransform = false) {brief : Bool}
  {d : RequestData} (h : AllSucceed vs brief d)

include hfree h

theorem contains_perform_of_mem {v : Visit} (hv : v ∈ vs) :
    (perform vs d).contains v.source v.name = true := by
  obtain ⟨before, after, rfl⟩ := List.append_of_mem hv
  obtain ⟨-, hcons⟩ := allSucceed_append.mp h
  obtain ⟨hsucceeds, hafter⟩ := allSucceed_cons.mp hcons
  obtain ⟨-, hfree⟩ := List.forall_mem_append.mp hfree
  obtain ⟨hfree, hfreeAfter⟩ := List.forall_mem_cons.mp hfree
  obtain ⟨given, w, -, -, hleft⟩ := get?_effect_of_succeeds hfree hsucceeds
  rw [perform_append, perform_cons]
  refine contains_perform hfreeAfter hafter ?_
  rw [RequestData.contains_eq_isSome, hleft, Option.isSome_some]

/-- The value at the end of a field is what a visit made of it that had the last word on it. -/
theorem get?_perform_of_hasLastWord {v : Visit} (hlast : HasLastWord vs v) :
    ∃ given w, v.demand.result? given = some w ∧
      (perform vs d).get? v.source v.name = some w := by
  obtain ⟨before, after, rfl, huncoerced⟩ := hlast
  obtain ⟨-, hcons⟩ := allSucceed_append.mp h
  obtain ⟨hsucceeds, hafter⟩ := allSucceed_cons.mp hcons
  obtain ⟨-, hfree⟩ := List.forall_mem_append.mp hfree
  obtain ⟨hfree, hfreeAfter⟩ := List.forall_mem_cons.mp hfree
  obtain ⟨given, w, -, hresult, hleft⟩ := get?_effect_of_succeeds hfree hsucceeds
  refine ⟨given, w, hresult, ?_⟩
  rw [perform_append, perform_cons, get?_perform_of_uncoerced hfreeAfter hafter huncoerced, hleft]

/-- Where every visit succeeded, the data at the end can be relied on. -/
theorem reliable_perform : Reliable vs d (perform vs d) where
  kept _ _ hn := contains_perform hfree h hn
  present _ hv := contains_perform_of_mem hfree h hv
  coerced s n c hlast := by
    obtain ⟨given, w, hresult, hw⟩ := get?_perform_of_hasLastWord hfree h hlast
    have hgives : c.gives w = true := Coercion.gives_of_coerce? hresult
    exact ⟨w, hw, Coercion.coerce?_of_gives hgives, hgives⟩
  admitted s n as hlast := by
    obtain ⟨given, w, hresult, hw⟩ := get?_perform_of_hasLastWord hfree h hlast
    obtain ⟨hany, hgiven⟩ := Option.ite_none_right_eq_some.mp hresult
    cases hgiven
    obtain ⟨a, ha, hadmits⟩ := List.any_eq_true.mp hany
    cases a with
    | literal v => exact ⟨given, hw, v, ha, hadmits⟩
    | transform f => exact absurd hadmits Bool.false_ne_true

end

end RequestGuard.Schema

namespace RequestGuard.Guard

open Schema

/-- **What a handler may rely on.** A guard without transforms, and without a group in which one
node is enough, lets a request through just when every visit succeeded; and what it leaves then can
be relied on. -/
theorem check_proceed_reliable {g : Guard} {m : Method} {scope : Scope}
    (hscope : g.scopeFor? m = some scope) (hfree : hasTransform g.schema = false)
    (hany : hasAnyOf g.schema = false) (d : RequestData) :
    ((g.check m d).2 = .proceed ↔
        AllSucceed (visits g.schema scope.source false) scope.brief d) ∧
      ((g.check m d).2 = .proceed →
        Reliable (visits g.schema scope.source false) d (g.check m d).1) := by
  have hiff : (g.check m d).2 = .proceed ↔
      AllSucceed (visits g.schema scope.source false) scope.brief d := by
    rw [check_of_covers hscope, Verdict.ofReport_eq_proceed_iff]
    exact run_snd_eq_nil_iff_forall_outcomes hany (anySuffices_of_scopeFor? hscope) d
  refine ⟨hiff, ?_⟩
  intro hproceed
  rw [check_of_covers hscope, run_fst]
  exact reliable_perform (not_hasTransform_of_mem_visits hfree scope.source false)
    (hiff.mp hproceed)

/-- A guard for `PUT` whose schema names one field of the body four times, at two levels: a text that
is to be a number, then one of two literals, then an integer. -/
theorem check_proceed_reliable_text_integer :
    let g : Guard := ⟨[.field "n", .group [.coerced .number ["n"]],
      .combined .all [.oneOf "n" [.literal (.text "7"), .literal (.integer 7)],
        .sourced .body [.coerced .integer ["n"]]]], some .put⟩
    let scope : Scope := ⟨.body, false, false⟩
    let d := RequestData.empty.insert .body "n" (.text " 7.0 ")
    g.scopeFor? .put = some scope ∧ hasTransform g.schema = false ∧ hasAnyOf g.schema = false ∧
      ((g.check .put d).2 = .proceed ↔
        AllSucceed (visits g.schema scope.source false) scope.brief d) ∧
      (g.check .put d).2 = .proceed ∧
      Reliable (visits g.schema scope.source false) d (g.check .put d).1 := by
  intro g scope d
  have hscope : g.scopeFor? .put = some scope := by decide
  have hproceed : (g.check .put d).2 = .proceed := by rfl
  have hreliable := check_proceed_reliable hscope rfl rfl d
  exact ⟨hscope, rfl, rfl, hreliable.1, hproceed, hreliable.2 hproceed⟩

end RequestGuard.Guard
