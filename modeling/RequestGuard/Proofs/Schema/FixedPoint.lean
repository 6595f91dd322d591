import RequestGuard.Proofs.Schema.Fate
import RequestGuard.Proofs.Schema.Footprint

/-!
# Fixed points

A coercion takes what it gave and gives it back. `Coercion.gives` says which values those are, and
`coerce?_of_gives` that each of them comes out as it went in. So every demand is met by what it made
of a value, without making anything else of it (`Demand.result?_of_result?`).

For a list of visits this is not enough: the next visit to a field may make something else of it, or
take it away. But where each field is written by one visit at most, what stands at the end is what
that visit made, and carrying all visits out once more changes nothing (`perform_perform`).
-/

namespace RequestGuard

/-! ## Coercions -/

namespace Coercion

/-- Whether the value is one that the coercion gives. Numbers are finite or integers, and addresses
are texts; of the other kinds it gives every value. -/
def gives : Coercion → FieldValue → Bool
  | number, .number x => x.isFinite
  | number, .integer _ => true
  | integer, .integer _ => true
  | date, .date _ => true
  | json, .json _ => true
  | boolean, .boolean _ => true
  | mailbox, .text s => Mailbox.accepts s.toList
  | _, _ => false

variable {v w : FieldValue}

theorem gives_of_toNumber? (h : toNumber? v = some w) : number.gives w = true := by
  cases v with
  | text s =>
    obtain ⟨x, hx, rfl⟩ := Option.map_eq_some_iff.mp h
    exact (Option.filter_eq_some_iff.mp hx).2
  | number x =>
    obtain ⟨hx, hw⟩ := Option.ite_none_right_eq_some.mp h
    cases hw
    exact hx
  | integer i =>
    cases h
    rfl
  | boolean _ | date _ | json _ => exact absurd h (by simp [toNumber?])

theorem gives_of_toInteger? (h : toInteger? v = some w) : integer.gives w = true := by
  cases v with
  | text s =>
    obtain ⟨i, -, rfl⟩ := Option.map_eq_some_iff.mp h
    rfl
  | number x =>
    obtain ⟨i, -, rfl⟩ := Option.map_eq_some_iff.mp h
    rfl
  | integer i =>
    cases h
    rfl
  | boolean _ | date _ | json _ => exact absurd h (by simp [toInteger?])

theorem gives_of_toJson? (h : toJson? v = some w) : json.gives w = true := by
  cases v with
  | text s =>
    rw [toJson?] at h
    split at h
    · cases h
      rfl
    · cases h
  | number x =>
    obtain ⟨n, -, rfl⟩ := Option.map_eq_some_iff.mp h
    rfl
  | integer i =>
    obtain ⟨n, -, rfl⟩ := Option.map_eq_some_iff.mp h
    rfl
  | boolean b =>
    cases h
    rfl
  | json j =>
    cases h
    rfl
  | date _ => exact absurd h (by simp [toJson?])

theorem gives_of_toBoolean? (h : toBoolean? v = some w) : boolean.gives w = true := by
  cases v with
  | text s =>
    rw [toBoolean?] at h
    split at h
    · cases h
      rfl
    · obtain ⟨-, hw⟩ := Option.ite_none_right_eq_some.mp h
      cases hw
      rfl
  | boolean b =>
    cases h
    rfl
  | number _ | integer _ | date _ | json _ => exact absurd h (by simp [toBoolean?])

theorem gives_of_toMailbox? (h : toMailbox? v = some w) : mailbox.gives w = true := by
  cases v with
  | text s =>
    obtain ⟨hs, hw⟩ := Option.ite_none_right_eq_some.mp h
    cases hw
    exact hs
  | number _ | integer _ | boolean _ | date _ | json _ => exact absurd h (by simp [toMailbox?])

theorem gives_of_coerce? {c : Coercion} (h : c.coerce? v = some w) : c.gives w = true := by
  cases c with
  | number => exact gives_of_toNumber? h
  | integer => exact gives_of_toInteger? h
  | date =>
    obtain ⟨t, -, rfl⟩ := Option.map_eq_some_iff.mp h
    rfl
  | json => exact gives_of_toJson? h
  | boolean => exact gives_of_toBoolean? h
  | mailbox => exact gives_of_toMailbox? h

theorem coerce?_of_gives {c : Coercion} (h : c.gives v = true) : c.coerce? v = some v := by
  cases c with
  | number =>
    cases v with
    | number x => exact if_pos h
    | integer i => rfl
    | text _ | boolean _ | date _ | json _ => exact absurd h Bool.false_ne_true
  | integer =>
    cases v with
    | integer i => rfl
    | text _ | number _ | boolean _ | date _ | json _ => exact absurd h Bool.false_ne_true
  | date =>
    cases v with
    | date t => rfl
    | text _ | number _ | integer _ | boolean _ | json _ => exact absurd h Bool.false_ne_true
  | json =>
    cases v with
    | json j => rfl
    | text _ | number _ | integer _ | boolean _ | date _ => exact absurd h Bool.false_ne_true
  | boolean =>
    cases v with
    | boolean b => rfl
    | text _ | number _ | integer _ | date _ | json _ => exact absurd h Bool.false_ne_true
  | mailbox =>
    cases v with
    | text s => exact if_pos h
    | number _ | integer _ | boolean _ | date _ | json _ => exact absurd h Bool.false_ne_true

end Coercion

namespace Schema

/-! ## Demands -/

/-- A demand is met by what it made of a value, and makes the same of it. -/
theorem Demand.result?_of_result? {demand : Demand} {v w : FieldValue}
    (h : demand.result? v = some w) : demand.result? w = some w := by
  cases demand with
  | given forced => rfl
  | ofKind c =>
    have hgives : c.gives w = true := Coercion.gives_of_coerce? h
    exact Coercion.coerce?_of_gives hgives
  | among as =>
    -- Alternatives take a value as it is, so it is the value that was met.
    obtain ⟨hadmits, hw⟩ := Option.ite_none_right_eq_some.mp h
    cases hw
    exact if_pos hadmits

/-- A visit that writes nothing takes every value as it is. -/
theorem result?_of_not_writes {v : Visit} (h : v.writes = false) (w : FieldValue) :
    v.demand.result? w = some w := by
  obtain ⟨s, n, demand⟩ := v
  cases demand with
  | given forced => rfl
  | ofKind c => exact absurd h (by simp [Visit.writes])
  | among as => exact absurd h (by simp [Visit.writes])

/-! ## Carrying visits out again -/

/-- The value that a visit's field has at the end is one that the visit gives back, where each field
is written by one visit at most. -/
theorem result?_of_get?_perform {vs : List Visit} (hfree : ∀ v ∈ vs, v.demand.hasTransform = false)
    (hsingle : (targets vs).Nodup) (d : RequestData) :
    ∀ v ∈ vs, ∀ w, (perform vs d).get? v.source v.name = some w → v.demand.result? w = some w := by
  induction vs generalizing d with
  | nil =>
    intro v hv
    exact absurd hv List.not_mem_nil
  | cons u vs ih =>
    obtain ⟨hu, hvs⟩ := List.forall_mem_cons.mp hfree
    refine List.forall_mem_cons.mpr ⟨?_, ih hvs (nodup_targets_of_cons hsingle) (u.effect d)⟩
    intro w hw
    cases hwrites : u.writes with
    | false => exact result?_of_not_writes hwrites w
    | true =>
      -- No later visit writes the field, so its value is the one that this visit made.
      have hlast : u.target ∉ targets vs := target_not_mem_targets hsingle hwrites
      rw [perform_cons, get?_perform_of_not_mem_targets hlast, get?_effect hu,
        if_pos ⟨rfl, rfl⟩] at hw
      obtain ⟨given, -, hresult⟩ := Option.bind_eq_some_iff.mp hw
      exact Demand.result?_of_result? hresult

/-- A visit changes nothing where its field is gone or has a value that the visit gives back. -/
theorem effect_eq_self {v : Visit} (hfree : v.demand.hasTransform = false) {e : RequestData}
    (h : ∀ w, e.get? v.source v.name = some w → v.demand.result? w = some w) : v.effect e = e := by
  apply RequestData.ext_get?
  intro s n
  rw [get?_effect hfree]
  split
  · rename_i hsn
    rw [hsn.1, hsn.2]
    cases hw : e.get? v.source v.name with
    | none => rfl
    | some w => exact h w hw
  · rfl

section

variable {vs : List Visit} {e : RequestData}

theorem perform_eq_self (h : ∀ v ∈ vs, v.effect e = e) : perform vs e = e := by
  induction vs with
  | nil => rfl
  | cons v vs ih =>
    obtain ⟨hv, hvs⟩ := List.forall_mem_cons.mp h
    rw [perform_cons, hv, ih hvs]

/-- Where no visit changes the data, each of them finds it as it was at first. -/
theorem outcomes_eq_map (h : ∀ v ∈ vs, v.effect e = e) (brief : Bool) :
    outcomes brief vs e = vs.map fun v => v.remark? brief e := by
  induction vs with
  | nil => rfl
  | cons v vs ih =>
    obtain ⟨hv, hvs⟩ := List.forall_mem_cons.mp h
    rw [outcomes, hv, ih hvs, List.map_cons]

end

section

variable {vs : List Visit} (hfree : ∀ v ∈ vs, v.demand.hasTransform = false)
  (hsingle : (targets vs).Nodup) (d : RequestData)

include hfree hsingle

theorem effect_perform_eq_self : ∀ v ∈ vs, v.effect (perform vs d) = perform vs d := by
  intro v hv
  exact effect_eq_self (hfree v hv) (result?_of_get?_perform hfree hsingle d v hv)

/-- Visits that are carried out again change nothing. -/
theorem perform_perform : perform vs (perform vs d) = perform vs d :=
  perform_eq_self (effect_perform_eq_self hfree hsingle d)

/-- And each of them is made to the data that stood at the end of the first time. -/
theorem outcomes_perform (brief : Bool) :
    outcomes brief vs (perform vs d) = vs.map fun v => v.remark? brief (perform vs d) :=
  outcomes_eq_map (effect_perform_eq_self hfree hsingle d) brief

end

end Schema

end RequestGuard
