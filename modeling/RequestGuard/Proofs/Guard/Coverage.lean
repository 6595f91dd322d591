import RequestGuard.Guard.Basic
import RequestGuard.Proofs.Request.Verb

/-!
# What a guard for one verb covers

A guard for one verb looks at the requests of that verb, and whether a request is of that verb is a
matter of the two texts: they have to be the same but for the case of ASCII letters. Verbs are compared
as they were read, so this rests on each verb being read in one way only. No text is read as a verb kept
by a name that has a constructor, under which a request could slip past its guard.
-/

namespace RequestGuard.Guard

open Text (SameButCase)

theorem covers_iff_of_verb (schema : List Node) (v m : Method) :
    (Guard.mk schema (some v)).covers m = true ↔ v = m := by
  simp [covers, scopeFor?]

/-- **Verbs match but for case.** The texts that name a verb are those with something in them and no
white space. Of the verbs that two such texts name, a guard for the one covers requests of the other
exactly when the texts are the same but for case. A verb is read again from its name and from its
label, its requests have their fields in the body exactly when its text is `post` or `put` but for
case, and it is not kept by the name of a verb that has a constructor. -/
theorem verbs_match_but_for_case :
    (∀ s, (∃ m, Method.read s = .ok m) ↔ Method.IsVerb s) ∧
      ∀ {s t : String} {v m : Method}, Method.read s = .ok v → Method.read t = .ok m →
        (∀ schema, (Guard.mk schema (some v)).covers m = true ↔ SameButCase s t) ∧
        (Method.read m.name = .ok m ∧ Method.read m.label = .ok m) ∧
        (∀ (g : Guard) (scope : Scope), g.scopeFor? m = some scope →
          (scope.source = .body ↔ SameButCase t "post" ∨ SameButCase t "put")) ∧
        ∀ (k : Method) (name : String), k.isKnown = true → SameButCase k.name name → m ≠ .other name := by
  refine ⟨fun s => Method.exists_read_iff, ?_⟩
  intro s t v m hv hm
  refine ⟨?_, ⟨Method.read_name hm, Method.read_label hm⟩, ?_, ?_⟩
  · intro schema
    rw [covers_iff_of_verb]
    exact Method.eq_iff_sameButCase_of_read hv hm
  · intro g scope hscope
    rw [source_of_scopeFor? hscope]
    exact Method.source_eq_body_iff_of_read hm
  · intro k name hk hname
    exact Method.ne_other_of_read hm hk hname

/-- A guard for `MkCol` covers `mKcOL`. It does not cover the text with the Kelvin sign for its `k`,
although that sign has `k` for its small letter beyond ASCII. -/
theorem verbs_match_but_for_case_kelvin :
    let ascii : Method := .other "mkcol"
    let kelvin : Method := .other "m\u212acol"
    (Method.read "MkCol" = .ok ascii ∧ Method.read "mKcOL" = .ok ascii ∧
      Method.read "m\u212aCOL" = .ok kelvin) ∧
      (Guard.mk [.field "n"] (some ascii)).covers ascii = true ∧
      ¬ (Guard.mk [.field "n"] (some ascii)).covers kelvin = true ∧
      Method.read ascii.label = .ok ascii := by
  intro ascii kelvin
  have hguard : Method.read "MkCol" = .ok ascii := rfl
  have hrequest : Method.read "mKcOL" = .ok ascii := rfl
  have hkelvin : Method.read "m\u212aCOL" = .ok kelvin := rfl
  have hmatch := verbs_match_but_for_case.2 hguard hrequest
  have hpass := verbs_match_but_for_case.2 hguard hkelvin
  refine ⟨⟨hguard, hrequest, hkelvin⟩, (hmatch.1 _).mpr (by decide), ?_, hmatch.2.1.2⟩
  rw [hpass.1]
  decide

end RequestGuard.Guard
