import RequestGuard.Proofs.Schema.Footprint

/-!
# The alternative that decides

A field restricted to alternatives is decided by the first of them that takes its value. `Takes` says
of one alternative, apart from all others, which values it takes and what it leaves in the field: a
literal leaves what was given, and a transform what it made. A transform that makes nothing of a value
and one that fails refuse it alike.

The main statement, `restrictField_decides`, is about lists of any length and mixture. What stands
behind the alternative that decides is never looked at, and what is refused in front of it leaves no
trace; where all is refused the field is taken away, and one line says what was asked for.
-/

namespace RequestGuard.Schema

/-! ## One alternative -/

/-- The alternative takes a value given, and leaves a value in the field. -/
inductive Takes (given : FieldValue) (d : RequestData) : Alternative → FieldValue → Prop where
  /-- A literal takes a value that is the same, which stays as it was given. -/
  | literal {v : FieldValue} : v.same given = true → Takes given d (.literal v) given
  /-- A transform takes a value of which it makes one, and that one is left. -/
  | transform {f : Transform} {made : FieldValue} : f given d = .ok (some made) →
      Takes given d (.transform f) made

/-- The alternative does not take a value given. -/
def Refuses (given : FieldValue) (d : RequestData) (a : Alternative) : Prop :=
  ∀ left, ¬ Takes given d a left

/-- What a match leaves in the field. -/
def Match.left (given : FieldValue) : Match → FieldValue
  | same => given
  | made v => v

section

variable {given : FieldValue} {d : RequestData} {a : Alternative}

theorem takes_of_matchOne? {m : Match} (h : matchOne? given d a = some m) :
    Takes given d a (m.left given) := by
  cases a with
  | literal v =>
    obtain ⟨hsame, hm⟩ := Option.ite_none_right_eq_some.mp h
    cases hm
    exact .literal hsame
  | transform f =>
    rw [matchOne?] at h
    split at h
    · rename_i made hmade
      cases h
      exact .transform hmade
    · cases h

theorem exists_matchOne?_of_takes {left : FieldValue} (h : Takes given d a left) :
    ∃ m, matchOne? given d a = some m ∧ m.left given = left := by
  cases h with
  | literal hsame => exact ⟨.same, if_pos hsame, rfl⟩
  | transform hmade =>
    refine ⟨.made left, ?_, rfl⟩
    rw [matchOne?, hmade]

theorem refuses_iff : Refuses given d a ↔ matchOne? given d a = none := by
  constructor
  · intro hrefuses
    cases hm : matchOne? given d a with
    | none => rfl
    | some m => exact absurd (takes_of_matchOne? hm) (hrefuses _)
  · intro hnone left htakes
    obtain ⟨m, hm, -⟩ := exists_matchOne?_of_takes htakes
    rw [hnone] at hm
    cases hm

/-! ## The first of many -/

/-- Where all in front refuses, what comes next decides, whatever stands behind it. -/
theorem firstMatch?_of_refuses {before : List Alternative} {m : Match}
    (hbefore : ∀ b ∈ before, Refuses given d b) (ha : matchOne? given d a = some m)
    (after : List Alternative) : firstMatch? given d (before ++ a :: after) = some m := by
  apply List.findSome?_eq_some_iff.mpr
  exact ⟨before, a, after, rfl, ha, fun b hb => refuses_iff.mp (hbefore b hb)⟩

theorem exists_first_of_firstMatch? {as : List Alternative} {m : Match}
    (h : firstMatch? given d as = some m) :
    ∃ before a after, as = before ++ a :: after ∧ (∀ b ∈ before, Refuses given d b) ∧
      matchOne? given d a = some m := by
  obtain ⟨before, a, after, has, ha, hbefore⟩ := List.findSome?_eq_some_iff.mp h
  exact ⟨before, a, after, has, fun b hb => refuses_iff.mpr (hbefore b hb), ha⟩

theorem firstMatch?_eq_none_iff {as : List Alternative} :
    firstMatch? given d as = none ↔ ∀ a ∈ as, Refuses given d a := by
  simp only [firstMatch?, List.findSome?_eq_none_iff, refuses_iff]

end

/-- Alternatives without a transform among them are literals. -/
theorem exists_literals {as : List Alternative} (h : ∀ f, .transform f ∉ as) :
    ∃ vs : List FieldValue, as = vs.map .literal := by
  induction as with
  | nil => exact ⟨[], rfl⟩
  | cons a as ih =>
    cases a with
    | transform f => exact absurd List.mem_cons_self (h f)
    | literal v =>
      obtain ⟨vs, hvs⟩ := ih fun f hf => h f (List.mem_cons_of_mem _ hf)
      exact ⟨v :: vs, by rw [hvs, List.map_cons]⟩

theorem any_isTransform_literals (vs : List FieldValue) :
    (vs.map Alternative.literal).any Alternative.isTransform = false := by
  rw [List.any_map, List.any_eq_false]
  intro v _
  exact Bool.false_ne_true

/-! ## The field -/

section

variable (name : String) (as : List Alternative) {s : Source} {d : RequestData}
  {given : FieldValue} (hgiven : d.get? s name = some given)

include hgiven

theorem restrictField_of_match {m : Match} (hm : firstMatch? given d as = some m) :
    (restrictField name as s d).1.get? s name = some (m.left given) ∧
      (restrictField name as s d).2 = [] := by
  simp only [restrictField, hgiven, hm]
  cases m with
  | same => exact ⟨hgiven, rfl⟩
  | made v =>
    refine ⟨?_, rfl⟩
    rw [RequestData.get?_insert, if_pos ⟨rfl, rfl⟩, Match.left]

/-- Two lists that are decided alike do alike. -/
theorem restrictField_congr (bs : List Alternative) {m : Match}
    (has : firstMatch? given d as = some m) (hbs : firstMatch? given d bs = some m) :
    restrictField name bs s d = restrictField name as s d := by
  simp only [restrictField, hgiven, has, hbs]
  cases m <;> rfl

theorem restrictField_of_refused (hrefused : firstMatch? given d as = none) :
    restrictField name as s d = (d.erase s name, .ofRemark
      (if as.any Alternative.isTransform then .invalidFormat name
        else .notOneOf name (as.map Alternative.display))) := by
  simp only [restrictField, hgiven, hrefused]

/-- **The first alternative that takes the value decides.** Where alternatives take the value of the
field, there is a first among them. With it nothing is reported, and the field holds what it leaves
there: the value as it was given under a literal, what was made of it under a transform. Any part of
what stands in front of it may be left out, and what stands behind it may be anything: data and report
stay the same. Where every alternative refuses the value the field is gone, and there is one line:
about the format where a transform is among the alternatives, and otherwise with all literals in
their order. No other field is touched in either case. -/
theorem restrictField_decides :
    ((∃ a ∈ as, ∃ left, Takes given d a left) → ∃ before a after left,
        as = before ++ a :: after ∧ (∀ b ∈ before, Refuses given d b) ∧ Takes given d a left) ∧
      (∀ before a after left, as = before ++ a :: after → (∀ b ∈ before, Refuses given d b) →
        Takes given d a left →
          (restrictField name as s d).2.texts = [] ∧
          (restrictField name as s d).1.get? s name = some left ∧
          ∀ kept others : List Alternative, kept.Sublist before →
            restrictField name (kept ++ a :: others) s d = restrictField name as s d) ∧
      ((∀ a ∈ as, Refuses given d a) →
        (restrictField name as s d).1.get? s name = none ∧
          ((∃ f, .transform f ∈ as) →
            (restrictField name as s d).2.texts = [name ++ " must be valid format."]) ∧
          ((∀ f, .transform f ∉ as) → ∃ vs : List FieldValue, as = vs.map .literal ∧
            (restrictField name as s d).2.texts = [name ++ " must be one of following: " ++
              ", ".intercalate (vs.map FieldValue.display) ++ "."])) ∧
      ∀ t n, (s, name) ≠ (t, n) → (restrictField name as s d).1.get? t n = d.get? t n := by
  refine ⟨?first, ?taken, ?refused, fun t n hother => get?_restrictField_of_ne hother as d⟩
  case first =>
    rintro ⟨a, ha, left, htakes⟩
    have hsome : firstMatch? given d as ≠ none := by
      intro hnone
      exact firstMatch?_eq_none_iff.mp hnone a ha left htakes
    obtain ⟨m, hm⟩ := Option.ne_none_iff_exists'.mp hsome
    obtain ⟨before, first, after, has, hbefore, hfirst⟩ := exists_first_of_firstMatch? hm
    exact ⟨before, first, after, m.left given, has, hbefore, takes_of_matchOne? hfirst⟩
  case taken =>
    rintro before a after left rfl hbefore htakes
    obtain ⟨m, ha, rfl⟩ := exists_matchOne?_of_takes htakes
    have hm := firstMatch?_of_refuses hbefore ha after
    obtain ⟨hleft, hsilent⟩ := restrictField_of_match name _ hgiven hm
    refine ⟨?_, hleft, ?_⟩
    · rw [hsilent]
      rfl
    · intro kept others hkept
      have hrefuse : ∀ b ∈ kept, Refuses given d b := fun b hb => hbefore b (hkept.subset hb)
      exact restrictField_congr name _ hgiven _ hm (firstMatch?_of_refuses hrefuse ha others)
  case refused =>
    intro hrefuse
    have hrefused := restrictField_of_refused name _ hgiven (firstMatch?_eq_none_iff.mpr hrefuse)
    rw [hrefused]
    refine ⟨?_, ?_, ?_⟩
    · rw [RequestData.get?_erase, if_pos ⟨rfl, rfl⟩]
    · rintro ⟨f, hf⟩
      have hany : as.any Alternative.isTransform = true := List.any_eq_true.mpr ⟨_, hf, rfl⟩
      rw [hany]
      rfl
    · intro hnone
      obtain ⟨vs, rfl⟩ := exists_literals hnone
      refine ⟨vs, rfl, ?_⟩
      rw [any_isTransform_literals, if_neg Bool.false_ne_true, List.map_map]
      rfl

end

/-- A plan that is no literal, of which one transform makes nothing, at which the next fails and of
which the third makes another; and a plan that none of them takes. -/
theorem restrictField_decides_upper :
    let upper : Transform := fun given _ => .ok (given.text?.map fun t => .text t.toUpper)
    let as : List Alternative := [.literal (.text "free"), .transform fun _ _ => .ok none,
      .transform fun _ _ => .error ⟨"unavailable"⟩, .transform upper, .literal (.text "team")]
    let d := RequestData.empty.insert .query "plan" (.text "team")
    let e := RequestData.empty.insert .query "plan" (.integer 7)
    d.get? .query "plan" = some (.text "team") ∧ e.get? .query "plan" = some (.integer 7) ∧
      (restrictField "plan" as .query d).2.texts = [] ∧
      (restrictField "plan" as .query d).1.get? .query "plan" = some (.text "TEAM") ∧
      restrictField "plan" [.transform upper] .query d = restrictField "plan" as .query d ∧
      (restrictField "plan" as .query e).1.get? .query "plan" = none ∧
      (restrictField "plan" as .query e).2.texts = ["plan must be valid format."] := by
  intro upper as d e
  have hd : d.get? .query "plan" = some (.text "team") := rfl
  have he : e.get? .query "plan" = some (.integer 7) := rfl
  have hupper : "team".toUpper = "TEAM" := by decide +kernel
  have hmade : Takes (.text "team") d (.transform upper) (.text "TEAM") := by
    rw [← hupper]
    exact .transform rfl
  have hbefore : ∀ b ∈ as.take 3, Refuses (.text "team") d b := by
    simp only [as, refuses_iff]
    decide
  have hrefuse : ∀ a ∈ as, Refuses (.integer 7) e a := by
    simp only [as, refuses_iff]
    decide
  obtain ⟨-, htaken, -⟩ := restrictField_decides "plan" as hd
  obtain ⟨-, -, hrefused, -⟩ := restrictField_decides "plan" as he
  obtain ⟨hsilent, hleft, hedit⟩ := htaken _ _ _ _ rfl hbefore hmade
  obtain ⟨hgone, hformat, -⟩ := hrefused hrefuse
  exact ⟨hd, he, hsilent, hleft, hedit [] [] (List.nil_sublist _), hgone,
    hformat ⟨upper, by simp [as]⟩⟩

end RequestGuard.Schema
