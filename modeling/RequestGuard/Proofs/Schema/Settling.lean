import RequestGuard.Proofs.Schema.Fate

/-!
# Normalization settles

A schema without transforms may ask several kinds of one field, one after another. The kinds of
values have an order that every coercion respects (`FieldValue.rank`): texts below all, then numbers
and truth values, then integers, then dates and JSON. A coercion has a floor in it. A value at the
floor or above is taken as it is or not at all, and one below is lifted to the floor at least
(`lifted_coerce?`).

So what comes out of a chain of demands stands at the floor of each of them, and no demand of the
chain rewrites it again. A second run can only take fields away, and a third does nothing.
-/

namespace RequestGuard

/-! ## The order of the kinds -/

/-- Where the value's kind stands among the kinds. -/
@[simp] def FieldValue.rank : FieldValue → Nat
  | text _ => 0
  | number _ => 1
  | boolean _ => 1
  | integer _ => 2
  | date _ => 3
  | json _ => 3

/-- The second value is the first, which stands at the floor or above, or it was lifted there from
below. -/
def Lifted (floor : Nat) (v w : FieldValue) : Prop :=
  (floor ≤ v.rank ∧ w = v) ∨ (v.rank < floor ∧ floor ≤ w.rank)

namespace Lifted

variable {floor : Nat} {v w : FieldValue}

theorem rank_le (h : Lifted floor v w) : v.rank ≤ w.rank := by
  rcases h with ⟨_, rfl⟩ | ⟨hv, hw⟩
  · exact Nat.le_refl _
  · omega

theorem floor_le (h : Lifted floor v w) : floor ≤ w.rank := by
  rcases h with ⟨hv, rfl⟩ | ⟨_, hw⟩
  · exact hv
  · exact hw

theorem eq_of_floor_le (h : Lifted floor v w) (hv : floor ≤ v.rank) : w = v := by
  rcases h with ⟨_, heq⟩ | ⟨hlt, _⟩
  · exact heq
  · omega

end Lifted

namespace Coercion

/-- The least rank of the values that the coercion gives. -/
@[simp] def floor : Coercion → Nat
  | mailbox => 0
  | number => 1
  | boolean => 1
  | integer => 2
  | date => 3
  | json => 3

variable {v w : FieldValue}

theorem lifted_toNumber? (h : toNumber? v = some w) : Lifted 1 v w := by
  cases v with
  | text s =>
    obtain ⟨x, -, rfl⟩ := Option.map_eq_some_iff.mp h
    exact .inr (by simp)
  | number x =>
    obtain ⟨-, hw⟩ := Option.ite_none_right_eq_some.mp h
    cases hw
    exact .inl (by simp)
  | integer i =>
    cases h
    exact .inl (by simp)
  | boolean _ | date _ | json _ => exact absurd h (by simp [toNumber?])

theorem lifted_toInteger? (h : toInteger? v = some w) : Lifted 2 v w := by
  cases v with
  | text s =>
    obtain ⟨i, -, rfl⟩ := Option.map_eq_some_iff.mp h
    exact .inr (by simp)
  | number x =>
    obtain ⟨i, -, rfl⟩ := Option.map_eq_some_iff.mp h
    exact .inr (by simp)
  | integer i =>
    cases h
    exact .inl (by simp)
  | boolean _ | date _ | json _ => exact absurd h (by simp [toInteger?])

theorem lifted_instant? (h : v.instant?.map FieldValue.date = some w) : Lifted 3 v w := by
  obtain ⟨t, ht, rfl⟩ := Option.map_eq_some_iff.mp h
  cases v with
  | date u =>
    cases ht
    exact .inl (by simp)
  | text _ | number _ | integer _ => exact .inr (by simp)
  | boolean _ | json _ => exact absurd ht (by simp [FieldValue.instant?])

theorem lifted_toJson? (h : toJson? v = some w) : Lifted 3 v w := by
  cases v with
  | text s =>
    rw [toJson?] at h
    split at h
    · cases h
      exact .inr (by simp)
    · cases h
  | number x =>
    obtain ⟨n, -, rfl⟩ := Option.map_eq_some_iff.mp h
    exact .inr (by simp)
  | integer i =>
    obtain ⟨n, -, rfl⟩ := Option.map_eq_some_iff.mp h
    exact .inr (by simp)
  | boolean b =>
    cases h
    exact .inr (by simp)
  | json j =>
    cases h
    exact .inl (by simp)
  | date _ => exact absurd h (by simp [toJson?])

theorem lifted_toBoolean? (h : toBoolean? v = some w) : Lifted 1 v w := by
  cases v with
  | text s =>
    rw [toBoolean?] at h
    split at h
    · cases h
      exact .inr (by simp)
    · obtain ⟨-, hw⟩ := Option.ite_none_right_eq_some.mp h
      cases hw
      exact .inr (by simp)
  | boolean b =>
    cases h
    exact .inl (by simp)
  | number _ | integer _ | date _ | json _ => exact absurd h (by simp [toBoolean?])

theorem lifted_toMailbox? (h : toMailbox? v = some w) : Lifted 0 v w := by
  cases v with
  | text s =>
    obtain ⟨-, hw⟩ := Option.ite_none_right_eq_some.mp h
    cases hw
    exact .inl (by simp)
  | number _ | integer _ | boolean _ | date _ | json _ => exact absurd h (by simp [toMailbox?])

/-- Every coercion takes a value at its floor or above as it is, and lifts one below to its floor at
least. -/
theorem lifted_coerce? {c : Coercion} (h : c.coerce? v = some w) : Lifted c.floor v w := by
  cases c with
  | number => exact lifted_toNumber? h
  | integer => exact lifted_toInteger? h
  | date => exact lifted_instant? h
  | json => exact lifted_toJson? h
  | boolean => exact lifted_toBoolean? h
  | mailbox => exact lifted_toMailbox? h

end Coercion

namespace Schema

/-! ## Chains of demands -/

/-- The least rank of the values that a demand gives. -/
def Demand.floor : Demand → Nat
  | .given _ => 0
  | .ofKind c => c.floor
  | .among _ => 0

theorem Demand.lifted_result? {demand : Demand} {v w : FieldValue} (h : demand.result? v = some w) :
    Lifted demand.floor v w := by
  cases demand with
  | given forced =>
    cases h
    exact .inl ⟨Nat.zero_le _, rfl⟩
  | ofKind c => exact Coercion.lifted_coerce? h
  | among as =>
    obtain ⟨-, hw⟩ := Option.ite_none_right_eq_some.mp h
    cases hw
    exact .inl ⟨Nat.zero_le _, rfl⟩

/-- The value stands at the floor of each of the demands. -/
def Settled (demands : List Demand) (v : FieldValue) : Prop :=
  ∀ demand ∈ demands, demand.floor ≤ v.rank

/-- A value that comes out of a chain was given a value by its first demand. -/
theorem exists_of_fate_cons {demand : Demand} {demands : List Demand} {v w : FieldValue}
    (h : fate (some v) (demand :: demands) = some w) :
    ∃ u, demand.result? v = some u ∧ fate (some u) demands = some w := by
  rw [fate_cons, Option.bind_some] at h
  cases hu : demand.result? v with
  | none =>
    rw [hu, fate_none] at h
    cases h
  | some u =>
    rw [hu] at h
    exact ⟨u, rfl, h⟩

theorem rank_le_of_fate {demands : List Demand} {v w : FieldValue}
    (h : fate (some v) demands = some w) : v.rank ≤ w.rank := by
  induction demands generalizing v with
  | nil =>
    cases h
    exact Nat.le_refl _
  | cons demand demands ih =>
    obtain ⟨u, hu, hrest⟩ := exists_of_fate_cons h
    have hvu : v.rank ≤ u.rank := (Demand.lifted_result? hu).rank_le
    have huw : u.rank ≤ w.rank := ih hrest
    omega

/-- What comes out of a chain of demands is settled for it. -/
theorem settled_of_fate {demands : List Demand} {v w : FieldValue}
    (h : fate (some v) demands = some w) : Settled demands w := by
  induction demands generalizing v with
  | nil =>
    intro demand hmem
    exact absurd hmem List.not_mem_nil
  | cons demand demands ih =>
    obtain ⟨u, hu, hrest⟩ := exists_of_fate_cons h
    -- The first demand lifts to its floor, and the rest of the chain only lifts further.
    have hfloor : demand.floor ≤ u.rank := (Demand.lifted_result? hu).floor_le
    have hrank : u.rank ≤ w.rank := rank_le_of_fate hrest
    refine List.forall_mem_cons.mpr ⟨?_, ih hrest⟩
    omega

/-- No demand rewrites a value that is settled for the chain: it comes out as it went in, or not at
all. -/
theorem eq_of_fate_of_settled {demands : List Demand} {v w : FieldValue} (hv : Settled demands v)
    (h : fate (some v) demands = some w) : w = v := by
  induction demands with
  | nil =>
    cases h
    rfl
  | cons demand demands ih =>
    obtain ⟨hfloor, hsettled⟩ := List.forall_mem_cons.mp hv
    obtain ⟨u, hu, hrest⟩ := exists_of_fate_cons h
    have huv : u = v := (Demand.lifted_result? hu).eq_of_floor_le hfloor
    rw [huv] at hrest
    exact ih hsettled hrest

/-- A value that went through a chain twice is the one that went through it once. -/
theorem fate_fate {demands : List Demand} {given : Option FieldValue} {w : FieldValue}
    (h : fate (fate given demands) demands = some w) : fate given demands = some w := by
  cases hv : fate given demands with
  | none =>
    rw [hv, fate_none] at h
    cases h
  | some v =>
    rw [hv] at h
    cases given with
    | none =>
      rw [fate_none] at hv
      cases hv
    | some u =>
      have hsettled : Settled demands v := settled_of_fate hv
      rw [eq_of_fate_of_settled hsettled h]

/-! ## Runs one after another -/

/-- The data after one run. -/
def normalize (nodes : List Node) (scope : Scope) (d : RequestData) : RequestData :=
  (run nodes scope d).1

/-- **Normalization settles after two runs.** What a second run leaves of a field is what the first
one left, so it rewrites nothing and can only take fields away; and a third run changes nothing. -/
theorem normalize_settles {nodes : List Node} (hfree : hasTransform nodes = false) (scope : Scope)
    (d : RequestData) :
    (∀ s n v, (normalize nodes scope (normalize nodes scope d)).get? s n = some v →
        (normalize nodes scope d).get? s n = some v) ∧
      normalize nodes scope (normalize nodes scope (normalize nodes scope d)) =
        normalize nodes scope (normalize nodes scope d) := by
  have hget : ∀ (e : RequestData) (s : Source) (n : String), (normalize nodes scope e).get? s n =
      fate (e.get? s n) (demandsOn s n (visits nodes scope.source false)) := by
    intro e s n
    exact get?_run hfree scope e s n
  -- Whatever the data, a field that two runs leave stands there after the first, unchanged.
  have hkeep : ∀ (e : RequestData) (s : Source) (n : String) (v : FieldValue),
      (normalize nodes scope (normalize nodes scope e)).get? s n = some v →
        (normalize nodes scope e).get? s n = some v := by
    intro e s n v hv
    rw [hget, hget] at hv
    rw [hget]
    exact fate_fate hv
  refine ⟨hkeep d, ?_⟩
  apply RequestData.ext_get?
  intro s n
  cases hv : (normalize nodes scope (normalize nodes scope d)).get? s n with
  | none => rw [hget, hv, fate_none]
  | some v =>
    -- The second run leaves the value that the first one left, so the third is that run again.
    have hone : (normalize nodes scope d).get? s n = some v := hkeep d s n v hv
    calc (normalize nodes scope (normalize nodes scope (normalize nodes scope d))).get? s n
        = fate ((normalize nodes scope (normalize nodes scope d)).get? s n)
            (demandsOn s n (visits nodes scope.source false)) := hget _ s n
      _ = fate ((normalize nodes scope d).get? s n)
            (demandsOn s n (visits nodes scope.source false)) := by rw [hv, hone]
      _ = (normalize nodes scope (normalize nodes scope d)).get? s n := (hget _ s n).symm
      _ = some v := hv

/-- A field that is to be the text `1` and then an integer: the first run makes the integer of it,
which the second takes away, since it is no text. -/
theorem normalize_settles_text_integer :
    let nodes : List Node :=
      [.oneOf "n" [.literal (.text "1")], .combined .any [.coerced .integer ["n"]]]
    let scope : Scope := ⟨.query, true, false⟩
    let d := RequestData.empty.insert .query "n" (.text "1")
    hasTransform nodes = false ∧
      (normalize nodes scope d).contains .query "n" = true ∧
      (normalize nodes scope (normalize nodes scope d)).contains .query "n" = false ∧
      (∀ s n v, (normalize nodes scope (normalize nodes scope d)).get? s n = some v →
          (normalize nodes scope d).get? s n = some v) ∧
        normalize nodes scope (normalize nodes scope (normalize nodes scope d)) =
          normalize nodes scope (normalize nodes scope d) :=
  ⟨rfl, by decide, by decide, normalize_settles rfl _ _⟩

end Schema

end RequestGuard
