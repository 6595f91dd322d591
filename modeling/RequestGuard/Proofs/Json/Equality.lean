import Mathlib.Data.List.Forall2
import RequestGuard.Proofs.Json.Structure
import RequestGuard.Proofs.Number.Value

/-!
# Equality of JSON values

`Json.same` is an equivalence on the values in which no object names a member twice (`same_refl`,
`same_comm`, `same_trans`). Arrays are compared item by item. Two objects are compared from one side
only, each member of the first with what the second gives its name; that this is symmetric is a matter
of counting, for the names of the one are as many as those of the other.
-/

namespace RequestGuard.Json

/-! ## Numbers -/

namespace Number

theorem same_refl (a : Number) : a.same a = true := by
  cases a with
  | integer i _ => exact beq_self_eq_true i
  | float x hx =>
    show x.numEq x = true
    rw [Binary64.numEq_self_iff]
    rintro rfl
    cases hx

theorem same_comm (a b : Number) : a.same b = b.same a := by
  cases a with
  | integer i _ =>
    cases b with
    | integer j _ => exact Bool.beq_comm
    | float _ _ => rfl
  | float x _ =>
    cases b with
    | integer _ _ => rfl
    | float y _ => exact Binary64.numEq_comm x y

theorem same_trans {a b c : Number} (hab : a.same b = true) (hbc : b.same c = true) : a.same c = true := by
  cases b with
  | integer j _ =>
    cases a with
    | integer i _ =>
      obtain rfl : i = j := eq_of_beq hab
      exact hbc
    | float _ _ => cases hab
  | float y _ =>
    cases a with
    | integer _ _ => cases hab
    | float x _ =>
      cases c with
      | integer _ _ => cases hbc
      | float z _ => exact Binary64.numEq_trans hab hbc

end Number

/-! ## What a value is the same as -/

theorem sameItems_iff {as bs : List Json} :
    sameItems as bs = true ↔ List.Forall₂ (fun a b => a.same b = true) as bs := by
  induction as generalizing bs with
  | nil => cases bs <;> simp [sameItems]
  | cons a as ih =>
    cases bs with
    | nil => simp [sameItems]
    | cons b bs => rw [sameItems, Bool.and_eq_true, ih, List.forall₂_cons]

theorem sameMembers_iff {as bs : List (String × Json)} :
    sameMembers as bs = true ↔ ∀ m ∈ as, ∃ b, bs.lookup m.1 = some b ∧ m.2.same b = true := by
  induction as with
  | nil => simp [sameMembers]
  | cons m as ih =>
    rw [sameMembers, Bool.and_eq_true, ih, List.forall_mem_cons]
    cases bs.lookup m.1 with
    | none => simp
    | some b => simp

variable {v : Json}

theorem null_same_iff : null.same v = true ↔ v = null := by
  cases v <;> simp [same]

theorem boolean_same_iff {b : Bool} : (boolean b).same v = true ↔ v = boolean b := by
  cases v with
  | boolean c =>
    rw [same, beq_iff_eq, boolean.injEq]
    exact eq_comm
  | _ => simp [same]

theorem string_same_iff {s : String} : (string s).same v = true ↔ v = string s := by
  cases v with
  | string t =>
    rw [same, beq_iff_eq, string.injEq]
    exact eq_comm
  | _ => simp [same]

theorem number_same_iff {a : Number} : (number a).same v = true ↔ ∃ b, v = number b ∧ a.same b = true := by
  cases v <;> simp [same]

theorem array_same_iff {as : List Json} :
    (array as).same v = true ↔ ∃ bs, v = array bs ∧ List.Forall₂ (fun a b => a.same b = true) as bs := by
  cases v <;> simp [same, sameItems_iff]

theorem object_same_iff {as : List (String × Json)} :
    (object as).same v = true ↔ ∃ bs, v = object bs ∧ as.length = bs.length ∧
      ∀ m ∈ as, ∃ b, bs.lookup m.1 = some b ∧ m.2.same b = true := by
  cases v <;> simp [same, sameMembers_iff]

/-! ## The laws -/

theorem same_refl (hv : v.NamesUnique) : v.same v = true := by
  induction v using induct with
  | null => rfl
  | boolean b => exact boolean_same_iff.mpr rfl
  | number a => exact number_same_iff.mpr ⟨a, rfl, a.same_refl⟩
  | string s => exact string_same_iff.mpr rfl
  | array vs ih =>
    refine array_same_iff.mpr ⟨vs, rfl, List.forall₂_same.mpr fun v hmem => ?_⟩
    exact ih v hmem (allNamesUnique_iff.mp hv v hmem)
  | object ms ih =>
    refine object_same_iff.mpr ⟨ms, rfl, rfl, fun m hmem => ⟨m.2, lookup_of_mem hv.1 hmem, ?_⟩⟩
    exact ih m hmem (membersNamesUnique_iff.mp hv.2 m hmem)

/-- Where the names of the first are among those of the second, and as many, they are the same names. -/
theorem names_subset_of_length_eq {as bs : List (String × Json)} (hnodup : (as.map Prod.fst).Nodup)
    (hlength : as.length = bs.length) (hsubset : as.map Prod.fst ⊆ bs.map Prod.fst) :
    bs.map Prod.fst ⊆ as.map Prod.fst := by
  have hperm : (as.map Prod.fst).Perm (bs.map Prod.fst) := by
    apply (List.subperm_of_subset hnodup hsubset).perm_of_length_le
    rw [List.length_map, List.length_map, hlength]
  exact hperm.symm.subset

theorem same_symm {u : Json} (hu : u.NamesUnique) (hv : v.NamesUnique) (h : u.same v = true) : v.same u = true := by
  induction u using induct generalizing v with
  | null =>
    obtain rfl := null_same_iff.mp h
    exact h
  | boolean b =>
    obtain rfl := boolean_same_iff.mp h
    exact h
  | number a =>
    obtain ⟨b, rfl, hab⟩ := number_same_iff.mp h
    exact number_same_iff.mpr ⟨a, rfl, (Number.same_comm a b).symm.trans hab⟩
  | string s =>
    obtain rfl := string_same_iff.mp h
    exact h
  | array as ih =>
    obtain ⟨bs, rfl, hitems⟩ := array_same_iff.mp h
    have has := allNamesUnique_iff.mp hu
    have hbs := allNamesUnique_iff.mp hv
    refine array_same_iff.mpr ⟨as, rfl, ?_⟩
    rw [List.forall₂_iff_get] at hitems ⊢
    refine ⟨hitems.1.symm, fun i hb ha => ?_⟩
    exact ih _ (List.get_mem _ _) (has _ (List.get_mem _ _)) (hbs _ (List.get_mem _ _)) (hitems.2 i ha hb)
  | object as ih =>
    obtain ⟨bs, rfl, hlength, hmembers⟩ := object_same_iff.mp h
    have hsubset : as.map Prod.fst ⊆ bs.map Prod.fst := by
      intro name hname
      obtain ⟨m, hm, rfl⟩ := List.mem_map.mp hname
      obtain ⟨b, hb, -⟩ := hmembers m hm
      exact List.mem_map.mpr ⟨(m.1, b), mem_of_lookup_eq_some hb, rfl⟩
    refine object_same_iff.mpr ⟨as, rfl, hlength.symm, fun m hm => ?_⟩
    obtain ⟨n, hn, hname⟩ := List.mem_map.mp (names_subset_of_length_eq hu.1 hlength hsubset (List.mem_map_of_mem hm))
    obtain ⟨b, hb, hsame⟩ := hmembers n hn
    -- the second object gives the name one value, so this is the member at hand
    obtain rfl : b = m.2 := Option.some.inj (hb.symm.trans (hname ▸ lookup_of_mem hv.1 hm))
    refine ⟨n.2, hname ▸ lookup_of_mem hu.1 hn, ?_⟩
    exact ih n hn (membersNamesUnique_iff.mp hu.2 n hn) (membersNamesUnique_iff.mp hv.2 m hm) hsame

theorem same_comm {u : Json} (hu : u.NamesUnique) (hv : v.NamesUnique) : u.same v = v.same u :=
  Bool.eq_iff_iff.mpr ⟨same_symm hu hv, same_symm hv hu⟩

theorem same_trans {u w : Json} (huv : u.same v = true) (hvw : v.same w = true) : u.same w = true := by
  induction u using induct generalizing v w with
  | null =>
    obtain rfl := null_same_iff.mp huv
    exact hvw
  | boolean b =>
    obtain rfl := boolean_same_iff.mp huv
    exact hvw
  | number a =>
    obtain ⟨b, rfl, hab⟩ := number_same_iff.mp huv
    obtain ⟨c, rfl, hbc⟩ := number_same_iff.mp hvw
    exact number_same_iff.mpr ⟨c, rfl, Number.same_trans hab hbc⟩
  | string s =>
    obtain rfl := string_same_iff.mp huv
    exact hvw
  | array as ih =>
    obtain ⟨bs, rfl, hab⟩ := array_same_iff.mp huv
    obtain ⟨cs, rfl, hbc⟩ := array_same_iff.mp hvw
    refine array_same_iff.mpr ⟨cs, rfl, ?_⟩
    rw [List.forall₂_iff_get] at hab hbc ⊢
    refine ⟨hab.1.trans hbc.1, fun i ha hc => ?_⟩
    have hb : i < bs.length := by
      rw [hbc.1]
      exact hc
    exact ih _ (List.get_mem _ _) (hab.2 i ha hb) (hbc.2 i hb hc)
  | object as ih =>
    obtain ⟨bs, rfl, hab, hamembers⟩ := object_same_iff.mp huv
    obtain ⟨cs, rfl, hbc, hbmembers⟩ := object_same_iff.mp hvw
    refine object_same_iff.mpr ⟨cs, rfl, hab.trans hbc, fun m hm => ?_⟩
    obtain ⟨b, hb, hmb⟩ := hamembers m hm
    obtain ⟨c, hc, hsame⟩ := hbmembers (m.1, b) (mem_of_lookup_eq_some hb)
    exact ⟨c, hc, ih m hm hmb hsame⟩

end RequestGuard.Json
