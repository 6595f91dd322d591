import RequestGuard.Proofs.Schema.FixedPoint
import RequestGuard.Proofs.Schema.Rewording

/-!
# The second report

Let no two visits of a schema without transforms be to one field. Then what the schema says of data
that it has run over is known from what it said before. A field that was brought into a kind or
admitted is brought and admitted again. A field that was taken away is missing now, and the remark
about it is the one made before, unless a value of it matched no alternative: then it is the remark
about a field that is not given (`Remark.onceGone`).

So every visit ends as it did, up to these remarks (`outcomes_perform_of_linear`), and the second
report is the first one in these words.
-/

namespace RequestGuard

/-- What a remark about a field becomes where the field is gone. -/
def Remark.onceGone : Remark → Remark
  | invalidFormat f => missingValue f
  | notOneOf f _ => missingValue f
  | r => r

namespace Schema

/-- No two visits are to one field. -/
def Linear (vs : List Visit) : Prop := (vs.map Visit.target).Nodup

instance (vs : List Visit) : Decidable (Linear vs) :=
  inferInstanceAs (Decidable (vs.map Visit.target).Nodup)

theorem mem_map_target_of_mem_targets {vs : List Visit} {t : Source × String}
    (h : t ∈ targets vs) : t ∈ vs.map Visit.target := by
  obtain ⟨v, hv, -, rfl⟩ := exists_of_mem_targets h
  exact List.mem_map_of_mem hv

theorem Linear.nodup_targets {vs : List Visit} (h : Linear vs) : (targets vs).Nodup :=
  h.sublist (List.filter_sublist.map Visit.target)

/-- A visit to data that it has been made to before, as far as its own field goes: it finds the same
wrong, with the field gone. -/
theorem remark?_of_get?_eq {v : Visit} (hfree : v.demand.hasTransform = false) (brief : Bool)
    {d e : RequestData}
    (h : e.get? v.source v.name = (d.get? v.source v.name).bind v.demand.result?) :
    v.remark? brief e = (v.remark? brief d).map Remark.onceGone := by
  obtain ⟨s, n, demand⟩ := v
  cases demand with
  | given forced =>
    -- The field is as it was, there or not.
    have hsame : e.get? s n = d.get? s n := h.trans (Option.bind_fun_some _)
    have hthere : e.contains s n = d.contains s n := by
      rw [RequestData.contains_eq_isSome, RequestData.contains_eq_isSome, hsame]
    simp only [Visit.remark?, hthere]
    split <;> rfl
  | ofKind c =>
    have hkind : e.get? s n = (d.get? s n).bind c.coerce? := h
    simp only [Visit.remark?, hkind]
    cases hw : (d.get? s n).bind c.coerce? with
    | none => rfl
    | some w =>
      -- What the coercion gave it gives again.
      obtain ⟨given, -, hresult⟩ := Option.bind_eq_some_iff.mp hw
      have hagain : c.coerce? w = some w :=
        Coercion.coerce?_of_gives (Coercion.gives_of_coerce? hresult)
      simp only [Option.bind_some, hagain]
      rfl
  | among as =>
    cases hd : d.get? s n with
    | none =>
      have hgone : e.get? s n = none := by rw [h, hd, Option.bind_none]
      simp only [Visit.remark?, hd, hgone]
      rfl
    | some given =>
      have hleft : e.get? s n = if as.any (Alternative.admits given) then some given else none := by
        rw [h, hd]
        rfl
      cases hadmits : as.any (Alternative.admits given) with
      | true =>
        rw [hadmits, if_pos rfl] at hleft
        simp only [Visit.remark?, hd, hleft, firstMatch?_eq hfree, hadmits]
        rfl
      | false =>
        rw [hadmits, if_neg Bool.false_ne_true] at hleft
        simp only [Visit.remark?, hd, hleft, firstMatch?_eq hfree, hadmits, Bool.false_eq_true,
          if_false, Option.isSome_none]
        split <;> rfl

theorem map_remark?_perform {vs : List Visit} (hfree : ∀ v ∈ vs, v.demand.hasTransform = false)
    (hlinear : Linear vs) (brief : Bool) (d : RequestData) :
    vs.map (fun v => v.remark? brief (perform vs d)) =
      (outcomes brief vs d).map (Option.map Remark.onceGone) := by
  induction vs generalizing d with
  | nil => rfl
  | cons v vs ih =>
    obtain ⟨hv, hvs⟩ := List.forall_mem_cons.mp hfree
    obtain ⟨hlast, hrest⟩ := List.nodup_cons.mp hlinear
    -- No later visit is to the field, so at the end it is what this visit made of it.
    have hfield : (perform (v :: vs) d).get? v.source v.name =
        (d.get? v.source v.name).bind v.demand.result? := by
      have hlast' : v.target ∉ targets vs := fun h => hlast (mem_map_target_of_mem_targets h)
      rw [perform_cons, get?_perform_of_not_mem_targets hlast', get?_effect hv, if_pos ⟨rfl, rfl⟩]
    rw [List.map_cons, outcomes, List.map_cons, remark?_of_get?_eq hv brief hfield]
    exact congrArg (_ :: ·) (ih hvs hrest (v.effect d))

/-- Carried out again, visits of which no two are to one field end as they did, with the fields gone
that they have taken away. -/
theorem outcomes_perform_of_linear {vs : List Visit}
    (hfree : ∀ v ∈ vs, v.demand.hasTransform = false) (hlinear : Linear vs) (brief : Bool)
    (d : RequestData) :
    outcomes brief vs (perform vs d) =
      (outcomes brief vs d).map (Option.map Remark.onceGone) := by
  rw [outcomes_perform hfree hlinear.nodup_targets, map_remark?_perform hfree hlinear]

/-- **The second report is known from the first.** Where no two visits are to one field, a second
run leaves the data as it is. It is silent just when the first was, and otherwise it reports line by
line what the first reported, at the same depth and under the same headings, save that a line about
a value which matched no alternative now says that the field must be given. -/
theorem run_run_of_linear {nodes : List Node} (hfree : hasTransform nodes = false) (scope : Scope)
    (hlinear : Linear (visits nodes scope.source false)) (d : RequestData) :
    let first := run nodes scope d
    let second := run nodes scope first.1
    second.1 = first.1 ∧ (second.2 = [] ↔ first.2 = []) ∧
      second.2 = first.2.reword Remark.onceGone := by
  intro first second
  have hvs := not_hasTransform_of_mem_visits hfree scope.source false
  have hdata : first.1 = perform (visits nodes scope.source false) d := run_fst nodes scope d
  have hreport : second.2 = first.2.reword Remark.onceGone := by
    apply run_snd_reword scope.anySuffices
    rw [hdata]
    exact outcomes_perform_of_linear hvs hlinear scope.brief d
  refine ⟨?_, ?_, hreport⟩
  · have hagain : second.1 = perform (visits nodes scope.source false) first.1 :=
      run_fst nodes scope first.1
    rw [hagain, hdata, perform_perform hvs hlinear.nodup_targets]
  · rw [hreport]
    exact List.map_eq_nil_iff

/-- A query with a plan that is not listed and a page that is no integer, of which one would do, and
a body without a name. -/
theorem run_run_of_linear_plan :
    let nodes : List Node :=
      [.combined .any [.oneOf "plan" [.literal (.text "free"), .literal (.text "team")],
        .group [.coerced .integer ["page"]]], .sourced .body [.field "name"]]
    let scope : Scope := ⟨.query, true, false⟩
    let d := (RequestData.empty.insert .query "plan" (.text "gold")).insert .query "page" (.text "x")
    let first := run nodes scope d
    let second := run nodes scope first.1
    hasTransform nodes = false ∧ Linear (visits nodes scope.source false) ∧
      first.2.texts = ["At least one of the following.",
        "  plan must be one of following: free, team.", "  page must be an integer.",
        "name must be given as body parameter."] ∧
      second.2.texts = ["At least one of the following.", "  plan must be given.",
        "  page must be an integer.", "name must be given as body parameter."] ∧
      second.1 = first.1 ∧ (second.2 = [] ↔ first.2 = []) ∧
      second.2 = first.2.reword Remark.onceGone := by
  intro nodes scope d first second
  have hlinear : Linear (visits nodes scope.source false) := by decide
  exact ⟨rfl, hlinear, by decide, by decide, run_run_of_linear rfl scope hlinear d⟩

end Schema

end RequestGuard
