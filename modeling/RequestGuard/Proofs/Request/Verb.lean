import RequestGuard.Proofs.Text.Case
import RequestGuard.Request.Data

/-!
# Verbs as they are spelled

Reading a verb forgets the case of its ASCII letters and nothing else: the verb that is read has the
lower-cased text for its name, and the upper-cased text for its label. What a verb is like may so be
said of the text. The texts of a verb are the spellings of any one of them that differ in case alone
(`read_iff_sameButCase`). So its name and its label give it back, and what is read of two texts is one
verb exactly when they are the same but for case, whether the verb has a constructor of its own or is
kept by its name.
-/

namespace RequestGuard.Method

open Text (SameButCase)

/-- Whether a text can name a verb: there is something in it, and no white space. -/
def IsVerb (s : String) : Prop := s.toList ≠ [] ∧ ∀ c ∈ s.toList, Text.isBlank c = false

/-- Whether a verb has a constructor of its own. -/
def isKnown : Method → Bool
  | other _ => false
  | _ => true

/-! ## Names -/

theorem name_ofLowercase (name : String) : (ofLowercase name).name = name := by
  unfold ofLowercase
  split_ifs with hget hpost hput hpatch hdelete hhead hoptions
  exacts [hget.symm, hpost.symm, hput.symm, hpatch.symm, hdelete.symm, hhead.symm, hoptions.symm, rfl]

theorem ofLowercase_inj {a b : String} : ofLowercase a = ofLowercase b ↔ a = b := by
  constructor
  · intro h
    rw [← name_ofLowercase a, h, name_ofLowercase]
  · intro h
    rw [h]

theorem carriesBody_ofLowercase (name : String) :
    (ofLowercase name).carriesBody = true ↔ name = "post" ∨ name = "put" := by
  unfold ofLowercase
  split_ifs <;> simp_all [carriesBody]

theorem source_eq_body_iff (m : Method) : m.source = .body ↔ m.carriesBody = true := by
  unfold source
  split <;> simp_all

theorem uppercase_lowercase (s : String) : uppercase (lowercase s) = uppercase s := by
  unfold uppercase lowercase
  rw [String.toList_ofList, List.map_map]
  congr 1
  apply List.map_congr_left
  intro c _
  exact Char.toUpper_toLower_eq_toUpper c

/-! ## Reading -/

theorem isVerb_iff (s : String) :
    IsVerb s ↔ ¬(s.toList.isEmpty || s.toList.any Text.isBlank) = true := by
  simp [IsVerb]

/-- A text that can name a verb does, and which one is settled by its lower case. -/
theorem read_eq_ok_iff {s : String} {m : Method} :
    read s = .ok m ↔ IsVerb s ∧ m = ofLowercase (lowercase s) := by
  rw [read, ofText?, isVerb_iff]
  split_ifs with h
  · simp [h]
  · simp [h, eq_comm]

theorem exists_read_iff {s : String} : (∃ m, read s = .ok m) ↔ IsVerb s := by
  simp [read_eq_ok_iff]

theorem isVerb_iff_of_sameButCase {s t : String} (h : SameButCase s t) : IsVerb s ↔ IsVerb t := by
  have hnil : s.toList = [] ↔ t.toList = [] := by
    rw [← List.length_eq_zero_iff, h.length_eq, List.length_eq_zero_iff]
  rw [IsVerb, IsVerb, Ne, hnil, Text.forall_not_isBlank_iff h]

theorem read_name_of_isKnown {k : Method} (h : k.isKnown = true) : read k.name = .ok k := by
  cases k with
  | other name => cases h
  | _ => rfl

section

variable {s t : String} {m v : Method} (h : read s = .ok m)

include h

theorem eq_ofLowercase_of_read : m = ofLowercase (lowercase s) :=
  (read_eq_ok_iff.mp h).2

/-- The name of a verb is its text in lower case. -/
theorem name_of_read : m.name = lowercase s := by
  rw [eq_ofLowercase_of_read h, name_ofLowercase]

/-- The label of a verb is its text in upper case. -/
theorem label_of_read : m.label = uppercase s := by
  rw [label, name_of_read h, uppercase_lowercase]

/-- The texts of a verb are one of them in every case. -/
theorem read_iff_sameButCase : read t = .ok m ↔ SameButCase s t := by
  have hs : IsVerb s := exists_read_iff.mp ⟨m, h⟩
  rw [read_eq_ok_iff, eq_ofLowercase_of_read h, ofLowercase_inj, lowercase_eq_lowercase_iff]
  constructor
  · exact And.right
  · intro hst
    exact ⟨(isVerb_iff_of_sameButCase hst).mp hs, hst⟩

theorem eq_iff_sameButCase_of_read (hv : read t = .ok v) : m = v ↔ SameButCase s t := by
  rw [← read_iff_sameButCase h, hv, Except.ok.injEq, eq_comm]

theorem read_name : read m.name = .ok m := by
  rw [name_of_read h, read_iff_sameButCase h]
  exact sameButCase_lowercase s

theorem read_label : read m.label = .ok m := by
  rw [label_of_read h, read_iff_sameButCase h]
  exact sameButCase_uppercase s

/-- A verb with a constructor of its own is not kept by its name. -/
theorem ne_other_of_read {k : Method} (hk : k.isKnown = true) {name : String}
    (hname : SameButCase k.name name) : m ≠ other name := by
  rintro rfl
  have hother : read (other name).name = .ok (other name) := read_name h
  have hknown : read (other name).name = .ok k :=
    (read_iff_sameButCase (read_name_of_isKnown hk)).mpr hname
  rw [hother] at hknown
  cases hknown
  cases hk

theorem source_eq_body_iff_of_read :
    m.source = .body ↔ SameButCase s "post" ∨ SameButCase s "put" := by
  have hpost : lowercase "post" = "post" := by decide
  have hput : lowercase "put" = "put" := by decide
  rw [source_eq_body_iff, eq_ofLowercase_of_read h, carriesBody_ofLowercase,
    ← lowercase_eq_lowercase_iff, ← lowercase_eq_lowercase_iff, hpost, hput]

/-- A verb that is neither `post` nor `put`, in any case, has its fields in the query. -/
theorem source_of_read (hpost : lowercase s ≠ "post") (hput : lowercase s ≠ "put") :
    m.source = .query := by
  have hbody : m.carriesBody ≠ true := by
    rw [eq_ofLowercase_of_read h, Ne, carriesBody_ofLowercase, not_or]
    exact ⟨hpost, hput⟩
  rw [source, if_neg hbody]

end

end RequestGuard.Method
