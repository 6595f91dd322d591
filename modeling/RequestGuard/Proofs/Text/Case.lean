import Mathlib
import RequestGuard.Request.Method

/-!
# Texts that differ in case alone

Two texts are the same but for case when they agree place by place, up to the case of ASCII letters
(`SameButCase`). No other letter has a case here: a letter with a diacritic is not its capital, and
the Kelvin sign is no `k`. Two texts are so related exactly when they have one form in lower case
(`lowercase_eq_lowercase_iff`), and the case of its letters makes no text blank.
-/

namespace RequestGuard

namespace Text

/-- An ASCII capital and its small letter. -/
def IsCapitalOf (c d : Char) : Prop := 'A' ≤ c ∧ c ≤ 'Z' ∧ d.toNat = c.toNat + 32

/-- One character, or the two cases of an ASCII letter. -/
def SameLetter (c d : Char) : Prop := c = d ∨ IsCapitalOf c d ∨ IsCapitalOf d c

/-- The texts agree place by place, up to the case of ASCII letters. -/
def SameButCase (s t : String) : Prop := List.Forall₂ SameLetter s.toList t.toList

instance (c d : Char) : Decidable (IsCapitalOf c d) :=
  inferInstanceAs (Decidable ('A' ≤ c ∧ c ≤ 'Z' ∧ d.toNat = c.toNat + 32))

instance (c d : Char) : Decidable (SameLetter c d) :=
  inferInstanceAs (Decidable (c = d ∨ IsCapitalOf c d ∨ IsCapitalOf d c))

instance (s t : String) : Decidable (SameButCase s t) :=
  inferInstanceAs (Decidable (List.Forall₂ SameLetter s.toList t.toList))

/-! ## Letters -/

theorem isUpper_iff (c : Char) : c.isUpper = true ↔ 'A' ≤ c ∧ c ≤ 'Z' := decide_eq_true_iff

theorem isCapitalOf_iff {c d : Char} : IsCapitalOf c d ↔ c.isUpper = true ∧ d = c.toLower := by
  rw [IsCapitalOf, ← and_assoc, ← isUpper_iff]
  apply and_congr_right
  intro hc
  have hlast : c.toNat ≤ 90 := ((isUpper_iff c).mp hc).2
  have hvalid : (c.toNat + 32).isValidChar := Or.inl (by omega)
  rw [Char.toLower_eq_of_isUpper hc, ← Char.toNat_inj, Char.toNat_ofNat, if_pos hvalid]

theorem IsCapitalOf.toLower_eq {c d : Char} (h : IsCapitalOf c d) : c.toLower = d.toLower := by
  rw [(isCapitalOf_iff.mp h).2, Char.toLower_toLower_eq_toLower]

/-- What two letters have in common is their small letter. -/
theorem toLower_eq_toLower_iff {c d : Char} : c.toLower = d.toLower ↔ SameLetter c d := by
  constructor
  · intro h
    by_cases hc : c.isUpper = true <;> by_cases hd : d.isUpper = true
    -- two capitals come back from the small letter they share
    · left
      have hupper : c.toUpper = d.toUpper := by
        rw [← Char.toUpper_toLower_eq_toUpper, h, Char.toUpper_toLower_eq_toUpper]
      rwa [Char.toUpper_eq_of_not_isLower (Char.not_isLower_of_isUpper hc),
        Char.toUpper_eq_of_not_isLower (Char.not_isLower_of_isUpper hd)] at hupper
    · rw [Char.toLower_eq_of_not_isUpper hd] at h
      exact .inr (.inl (isCapitalOf_iff.mpr ⟨hc, h.symm⟩))
    · rw [Char.toLower_eq_of_not_isUpper hc] at h
      exact .inr (.inr (isCapitalOf_iff.mpr ⟨hd, h⟩))
    · rw [Char.toLower_eq_of_not_isUpper hc, Char.toLower_eq_of_not_isUpper hd] at h
      exact .inl h
  · rintro (rfl | h | h)
    · rfl
    · exact h.toLower_eq
    · exact h.toLower_eq.symm

theorem not_isBlank_of_isCapitalOf {c d : Char} (h : IsCapitalOf c d) :
    isBlank c = false ∧ isBlank d = false := by
  obtain ⟨hfirst, hlast, hd⟩ := h
  have hrange : 65 ≤ c.toNat ∧ c.toNat ≤ 90 := ⟨hfirst, hlast⟩
  exact ⟨not_isBlank_of_visible (by omega) (by omega), not_isBlank_of_visible (by omega) (by omega)⟩

/-- Letters are not blank in either case. -/
theorem SameLetter.isBlank_eq {c d : Char} (h : SameLetter c d) : isBlank c = isBlank d := by
  obtain rfl | h | h := h
  · rfl
  · rw [(not_isBlank_of_isCapitalOf h).1, (not_isBlank_of_isCapitalOf h).2]
  · rw [(not_isBlank_of_isCapitalOf h).1, (not_isBlank_of_isCapitalOf h).2]

/-! ## Texts -/

theorem forall_not_isBlank_iff {cs ds : List Char} (h : List.Forall₂ SameLetter cs ds) :
    (∀ c ∈ cs, isBlank c = false) ↔ ∀ d ∈ ds, isBlank d = false := by
  induction h with
  | nil => rfl
  | cons hletter _ ih => rw [List.forall_mem_cons, List.forall_mem_cons, hletter.isBlank_eq, ih]

/-- Changing no more than the case of each character gives the same text but for case. -/
theorem sameButCase_map {f : Char → Char} (h : ∀ c, SameLetter c (f c)) (s : String) :
    SameButCase s (String.ofList (s.toList.map f)) := by
  rw [SameButCase, String.toList_ofList, List.forall₂_map_right_iff, List.forall₂_same]
  intro c _
  exact h c

end Text

namespace Method

open Text

theorem sameButCase_lowercase (s : String) : SameButCase s (lowercase s) :=
  sameButCase_map (fun c => toLower_eq_toLower_iff.mp c.toLower_toLower_eq_toLower.symm) s

theorem sameButCase_uppercase (s : String) : SameButCase s (uppercase s) :=
  sameButCase_map (fun c => toLower_eq_toLower_iff.mp c.toLower_toUpper_eq_toLower.symm) s

/-- Nothing but capitals is left of letters in upper case. -/
theorem capital_of_mem_uppercase {s : String} (h : ∀ c ∈ s.toList, c.isAlpha = true) :
    ∀ c ∈ (uppercase s).toList, 'A' ≤ c ∧ c ≤ 'Z' := by
  rw [uppercase, String.toList_ofList, List.forall_mem_map]
  intro c hc
  rw [← isUpper_iff, Char.isUpper_toUpper_eq_isAlpha]
  exact h c hc

/-- Lower-casing forgets the case of the letters and nothing else. -/
theorem lowercase_eq_lowercase_iff {s t : String} : lowercase s = lowercase t ↔ SameButCase s t := by
  rw [lowercase, lowercase, String.ofList_inj, SameButCase, ← List.forall₂_eq_eq_eq,
    List.forall₂_map_left_iff, List.forall₂_map_right_iff]
  simp only [toLower_eq_toLower_iff]

end Method

end RequestGuard
