import RequestGuard.Proofs.Schema.Outcome

/-!
# What becomes of a field

Without transforms a visit reads and writes its own field and no other, and a field that is not
there stays away. So a demand is a partial function on values (`Demand.result?`): the visit gives
its field what the demand makes of the value, and takes it away, with a remark, where the demand
makes nothing of it.

`get?_effect` and `remark?_eq_none_iff` say so of one visit, and `get?_perform` of any number: each
field goes its own way, through the demands made of it in their order (`fate`).
-/

namespace RequestGuard

/-- Whether the alternative is a literal that the value given is the same as. -/
def Alternative.admits (given : FieldValue) : Alternative → Bool
  | literal v => v.same given
  | transform _ => false

namespace Schema

/-! ## Schemas without transforms -/

/-- Whether a transform is among the alternatives that are demanded. -/
def Demand.hasTransform : Demand → Bool
  | .given _ => false
  | .ofKind _ => false
  | .among as => as.any Alternative.isTransform

mutual

/-- Whether a transform stands anywhere in the node. -/
def nodeHasTransform : Node → Bool
  | .field _ => false
  | .group nodes => hasTransform nodes
  | .combined _ nodes => hasTransform nodes
  | .sourced _ nodes => hasTransform nodes
  | .coerced _ _ => false
  | .oneOf _ as => as.any Alternative.isTransform

/-- Whether a transform stands anywhere in the nodes. -/
def hasTransform : List Node → Bool
  | [] => false
  | n :: ns => nodeHasTransform n || hasTransform ns

end

mutual

theorem any_hasTransform_nodeVisits : ∀ (n : Node) (s : Source) (forced : Bool),
    (nodeVisits n s forced).any (·.demand.hasTransform) = nodeHasTransform n
  | .field _, _, _ => rfl
  | .group nodes, s, forced => any_hasTransform_visits nodes s forced
  | .combined _ nodes, s, forced => any_hasTransform_visits nodes s forced
  | .sourced s nodes, _, _ => any_hasTransform_visits nodes s true
  | .coerced c names, s, forced => by
    rw [nodeVisits, List.any_map, nodeHasTransform, List.any_eq_false]
    intro name _
    exact Bool.false_ne_true
  | .oneOf _ _, _, _ => Bool.or_false _

/-- The transforms of a schema are those that its visits demand. -/
theorem any_hasTransform_visits : ∀ (ns : List Node) (s : Source) (forced : Bool),
    (visits ns s forced).any (·.demand.hasTransform) = hasTransform ns
  | [], _, _ => rfl
  | n :: ns, s, forced => by
    rw [visits, List.any_append, any_hasTransform_nodeVisits n s forced,
      any_hasTransform_visits ns s forced, hasTransform]

end

theorem not_hasTransform_of_mem_visits {nodes : List Node} (h : hasTransform nodes = false)
    (s : Source) (forced : Bool) :
    ∀ v ∈ visits nodes s forced, v.demand.hasTransform = false := by
  intro v hv
  have hany : (visits nodes s forced).any (·.demand.hasTransform) = false := by
    rw [any_hasTransform_visits, h]
  exact Bool.eq_false_iff.mpr (List.any_eq_false.mp hany v hv)

/-! ## One visit -/

/-- What a demand makes of a value, if it is met. A transform meets none here. -/
def Demand.result? : Demand → FieldValue → Option FieldValue
  | .given _, v => some v
  | .ofKind c, v => c.coerce? v
  | .among as, v => if as.any (Alternative.admits v) then some v else none

theorem matchOne?_eq {a : Alternative} (h : a.isTransform = false) (given : FieldValue)
    (d : RequestData) :
    matchOne? given d a = if a.admits given then some .same else none := by
  cases a with
  | literal v => rfl
  | transform f => exact absurd h Bool.noConfusion

/-- Among literals a value is taken as it is or not at all. -/
theorem firstMatch?_eq {as : List Alternative} (h : as.any Alternative.isTransform = false)
    (given : FieldValue) (d : RequestData) :
    firstMatch? given d as = if as.any (Alternative.admits given) then some .same else none := by
  induction as with
  | nil => rfl
  | cons a as ih =>
    obtain ⟨ha, has⟩ := Bool.or_eq_false_iff.mp (List.any_cons.symm.trans h)
    rw [firstMatch?, List.findSome?_cons, matchOne?_eq ha, List.any_cons]
    cases a.admits given with
    | true => rfl
    | false => exact ih has

section

variable {d : RequestData} {s : Source} {name : String} {f : FieldValue → Option FieldValue}

theorem ite_bind_eq {x : Option FieldValue} (h : (d.get? s name).bind f = x) (t : Source)
    (n : String) :
    (if t = s ∧ n = name then (d.get? t n).bind f else d.get? t n) =
      if t = s ∧ n = name then x else d.get? t n := by
  split
  · rename_i htn
    rw [htn.1, htn.2, h]
  · rfl

theorem ite_bind_eq_self (h : (d.get? s name).bind f = d.get? s name) (t : Source) (n : String) :
    (if t = s ∧ n = name then (d.get? t n).bind f else d.get? t n) = d.get? t n := by
  split
  · rename_i htn
    rw [htn.1, htn.2, h]
  · rfl

end

theorem get?_coerceField (c : Coercion) (s : Source) (name : String) (d : RequestData) (t : Source)
    (n : String) :
    (coerceField c s name d).1.get? t n =
      if t = s ∧ n = name then (d.get? t n).bind c.coerce? else d.get? t n := by
  rw [coerceField]
  cases hv : (d.get? s name).bind c.coerce? with
  | none => rw [RequestData.get?_erase, ite_bind_eq hv]
  | some v => rw [RequestData.get?_insert, ite_bind_eq hv]

theorem get?_restrictField {as : List Alternative} (h : as.any Alternative.isTransform = false)
    (name : String) (s : Source) (d : RequestData) (t : Source) (n : String) :
    (restrictField name as s d).1.get? t n =
      if t = s ∧ n = name then (d.get? t n).bind (Demand.among as).result? else d.get? t n := by
  unfold restrictField
  cases hv : d.get? s name with
  | none =>
    -- An absent field is left alone, and the demand makes nothing of it either.
    have hself : (d.get? s name).bind (Demand.among as).result? = d.get? s name := by
      rw [hv, Option.bind_none]
    rw [ite_bind_eq_self hself]
  | some given =>
    have hresult : (d.get? s name).bind (Demand.among as).result? =
        if as.any (Alternative.admits given) then some given else none := by rw [hv]; rfl
    simp only [firstMatch?_eq h]
    cases hadmits : as.any (Alternative.admits given) with
    | true =>
      rw [hadmits, if_pos rfl, ← hv] at hresult
      rw [ite_bind_eq_self hresult, if_pos rfl]
    | false =>
      rw [hadmits, if_neg Bool.false_ne_true] at hresult
      rw [ite_bind_eq hresult, if_neg Bool.false_ne_true]
      exact RequestData.get?_erase d s t name n

/-- What a visit leaves: its own field goes through its demand, and every other field stays as it
is. -/
theorem get?_effect {v : Visit} (h : v.demand.hasTransform = false) (d : RequestData) (s : Source)
    (n : String) :
    (v.effect d).get? s n =
      if s = v.source ∧ n = v.name then (d.get? s n).bind v.demand.result? else d.get? s n := by
  obtain ⟨t, m, demand⟩ := v
  cases demand with
  | given forced =>
    have hbind : (d.get? s n).bind (Demand.given forced).result? = d.get? s n :=
      Option.bind_fun_some _
    rw [hbind, ite_self]
    rfl
  | ofKind c => exact get?_coerceField c t m d s n
  | among as => exact get?_restrictField h m t d s n

/-- A visit has nothing to remark just when its field has a value of which its demand makes
something. -/
theorem remark?_eq_none_iff {v : Visit} (h : v.demand.hasTransform = false) (brief : Bool)
    (d : RequestData) :
    v.remark? brief d = none ↔ ((d.get? v.source v.name).bind v.demand.result?).isSome := by
  obtain ⟨s, n, demand⟩ := v
  cases demand with
  | given forced =>
    have hbind : (d.get? s n).bind (Demand.given forced).result? = d.get? s n :=
      Option.bind_fun_some _
    simp only [Visit.remark?, hbind, ← RequestData.contains_eq_isSome]
    cases d.contains s n <;> simp
  | ofKind c =>
    simp only [Visit.remark?]
    change _ ↔ ((d.get? s n).bind c.coerce?).isSome
    cases (d.get? s n).bind c.coerce? <;> simp
  | among as =>
    simp only [Visit.remark?]
    cases d.get? s n with
    | none => simp
    | some given =>
      simp only [firstMatch?_eq h, Option.bind_some, Demand.result?]
      cases as.any (Alternative.admits given) with
      | true => simp
      | false => cases as.any Alternative.isTransform <;> simp

/-! ## Any number of visits -/

/-- Whether the visit is to the field. -/
def Visit.isTo (s : Source) (n : String) (v : Visit) : Bool :=
  decide (s = v.source ∧ n = v.name)

/-- What is demanded of a field, visit by visit. -/
def demandsOn (s : Source) (n : String) (vs : List Visit) : List Demand :=
  (vs.filter (Visit.isTo s n)).map Visit.demand

/-- What demands make one after another of a field's value, which once taken away stays away. -/
def fate (given : Option FieldValue) (demands : List Demand) : Option FieldValue :=
  demands.foldl (fun v demand => v.bind demand.result?) given

@[simp] theorem fate_nil (given : Option FieldValue) : fate given [] = given := rfl

@[simp] theorem fate_cons (given : Option FieldValue) (demand : Demand) (demands : List Demand) :
    fate given (demand :: demands) = fate (given.bind demand.result?) demands := rfl

@[simp] theorem fate_none (demands : List Demand) : fate none demands = none := by
  induction demands with
  | nil => rfl
  | cons demand demands ih => rw [fate_cons, Option.bind_none, ih]

/-- Each field goes its own way through the visits. -/
theorem get?_perform {vs : List Visit} (h : ∀ v ∈ vs, v.demand.hasTransform = false)
    (d : RequestData) (s : Source) (n : String) :
    (perform vs d).get? s n = fate (d.get? s n) (demandsOn s n vs) := by
  induction vs generalizing d with
  | nil => rfl
  | cons v vs ih =>
    obtain ⟨hv, hvs⟩ := List.forall_mem_cons.mp h
    rw [perform_cons, ih hvs, get?_effect hv]
    unfold demandsOn
    by_cases hsn : s = v.source ∧ n = v.name
    · -- The first visit is the field's own: its demand is the first of the chain.
      have hto : v.isTo s n = true := decide_eq_true hsn
      rw [if_pos hsn, List.filter_cons_of_pos hto, List.map_cons, fate_cons]
    · have hto : ¬ v.isTo s n = true := by
        intro hto
        exact hsn (of_decide_eq_true hto)
      rw [if_neg hsn, List.filter_cons_of_neg hto]

theorem get?_run {nodes : List Node} (h : hasTransform nodes = false) (scope : Scope)
    (d : RequestData) (s : Source) (n : String) :
    (run nodes scope d).1.get? s n =
      fate (d.get? s n) (demandsOn s n (visits nodes scope.source false)) := by
  rw [run_fst, get?_perform (not_hasTransform_of_mem_visits h scope.source false)]

end Schema

end RequestGuard
