import RequestGuard.Proofs.Schema.Fate
import RequestGuard.Proofs.Schema.Footprint

/-!
# Visits as functions on values

A visit without transforms is a partial function on the values of its field (`Demand.result?`). One
whose only alternative is a transform that looks at the value alone is such a function too.
`Visit.Applies` says of both what the visit does, to the data and in its remark. Other visits make no
difference to it, before it or after, unless they write the field.
-/

namespace RequestGuard.Schema

/-! ## Transforms of a value -/

section

variable (f : FieldValue → Option FieldValue) (s : Source) (name : String) (d : RequestData)

theorem firstMatch?_transform (given : FieldValue) :
    firstMatch? given d [.transform fun given _ => .ok (f given)] = (f given).map .made := by
  rw [firstMatch?, List.findSome?_cons, List.findSome?_nil, matchOne?]
  cases f given <;> rfl

theorem get?_effect_transform (t : Source) (n : String) :
    (Visit.effect ⟨s, name, .among [.transform fun given _ => .ok (f given)]⟩ d).get? t n =
      if t = s ∧ n = name then (d.get? t n).bind f else d.get? t n := by
  rw [Visit.effect, restrictField]
  cases hv : d.get? s name with
  | none =>
    have hself : (d.get? s name).bind f = d.get? s name := by
      rw [hv, Option.bind_none]
    rw [ite_bind_eq_self hself]
  | some given =>
    have hresult : (d.get? s name).bind f = f given := by rw [hv, Option.bind_some]
    rw [ite_bind_eq hresult]
    simp only [firstMatch?_transform]
    cases f given with
    | none => exact RequestData.get?_erase d s t name n
    | some v => exact RequestData.get?_insert d s t name n v

theorem remark?_transform_eq_none_iff (brief : Bool) :
    Visit.remark? brief ⟨s, name, .among [.transform fun given _ => .ok (f given)]⟩ d = none ↔
      ((d.get? s name).bind f).isSome := by
  simp only [Visit.remark?]
  cases d.get? s name with
  | none => simp
  | some given =>
    simp only [firstMatch?_transform, Option.isSome_map, Option.bind_some]
    cases (f given).isSome <;> simp [Alternative.isTransform]

end

/-! ## Visits on their own -/

/-- The visit does to its field what a partial function on values says: the field goes through it,
and the visit remarks that there is nothing left. -/
structure Visit.Applies (v : Visit) (f : FieldValue → Option FieldValue) : Prop where
  get?_effect : ∀ d s n, (v.effect d).get? s n =
    if s = v.source ∧ n = v.name then (d.get? s n).bind f else d.get? s n
  silent_iff : ∀ brief d, v.remark? brief d = none ↔
    ((d.get? v.source v.name).bind f).isSome = true

namespace Visit

theorem applies_result? {v : Visit} (h : v.demand.hasTransform = false) :
    v.Applies v.demand.result? :=
  ⟨Schema.get?_effect h, remark?_eq_none_iff h⟩

variable (s : Source) (name : String)

theorem applies_given (forced : Bool) : Applies ⟨s, name, .given forced⟩ some :=
  applies_result? rfl

theorem applies_ofKind (c : Coercion) : Applies ⟨s, name, .ofKind c⟩ c.coerce? :=
  applies_result? rfl

theorem applies_transform (f : FieldValue → Option FieldValue) :
    Applies ⟨s, name, .among [.transform fun given _ => .ok (f given)]⟩ f :=
  ⟨get?_effect_transform f s name, fun brief d => remark?_transform_eq_none_iff f s name d brief⟩

namespace Applies

section

variable {v : Visit} {f : FieldValue → Option FieldValue} (h : v.Applies f)

include h

/-- Visits that do not write its field make no difference to how a visit ends. -/
theorem silent_perform_iff (vs : List Visit) (hvs : v.target ∉ targets vs) (brief : Bool)
    (d : RequestData) :
    v.remark? brief (perform vs d) = none ↔
      ((d.get? v.source v.name).bind f).isSome = true := by
  rw [h.silent_iff, get?_perform_of_not_mem_targets hvs]

/-- And what they leave of the field is what the one visit makes of it. -/
theorem get?_perform (vs ws : List Visit) (hvs : v.target ∉ targets vs)
    (hws : v.target ∉ targets ws) (d : RequestData) :
    (perform (vs ++ v :: ws) d).get? v.source v.name = (d.get? v.source v.name).bind f := by
  rw [perform_append, perform_cons, get?_perform_of_not_mem_targets hws, h.get?_effect,
    if_pos ⟨rfl, rfl⟩, get?_perform_of_not_mem_targets hvs]

end

end Applies

end Visit

end RequestGuard.Schema
