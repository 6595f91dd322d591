/-!
# Splitting at a separator

A sequence cut at every occurrence of a separator. There is one piece more than there are
separators, and joining the pieces with the separator between them gives the sequence back.
-/

namespace RequestGuard.Text

variable {α : Type} [DecidableEq α]

/-- The pieces of a sequence, with the piece under way and the pieces before it in reverse. -/
def splitFrom (sep : α) : List α → List (List α) → List α → List (List α)
  | held, done, [] => (held.reverse :: done).reverse
  | held, done, a :: as =>
    if a = sep then splitFrom sep [] (held.reverse :: done) as else splitFrom sep (a :: held) done as

/-- The pieces of a sequence between the separators. -/
def split (sep : α) (as : List α) : List (List α) :=
  splitFrom sep [] [] as

/-- What stands before the first separator and after it, if there is one. -/
def splitFirst? (sep : α) (as : List α) : Option (List α × List α) :=
  match as.dropWhile (· ≠ sep) with
  | _ :: rest => some (as.takeWhile (· ≠ sep), rest)
  | [] => none

/-- What stands before the last separator and after it, if there is one. -/
def splitLast? (sep : α) (as : List α) : Option (List α × List α) :=
  (splitFirst? sep as.reverse).map fun (after, before) => (before.reverse, after.reverse)

/-! ## Splitting by cases

`split` keeps the piece under way so that long sequences need no stack. These equations give it by
recursion on the sequence, and from them come the two laws: joining the pieces gives the sequence
back, and no piece holds the separator. There is no other way to cut a sequence like that
(`split_intercalate`). -/

theorem splitFrom_eq (sep : α) (held : List α) (done : List (List α)) (as : List α) :
    splitFrom sep held done as
      = done.reverse ++ (held.reverse ++ (split sep as).headD []) :: (split sep as).tail := by
  suffices h : ∀ held done, splitFrom sep held done as
      = done.reverse ++ (held.reverse ++ (splitFrom sep [] [] as).headD []) :: (splitFrom sep [] [] as).tail from
    h held done
  induction as with
  | nil => simp [splitFrom]
  | cons a as ih =>
    intro held done
    by_cases h : a = sep
    · simp only [splitFrom, if_pos h, ih [] (held.reverse :: done), ih [] [[].reverse]]
      simp
    · simp only [splitFrom, if_neg h, ih (a :: held) done, ih [a] []]
      simp

@[simp] theorem split_nil (sep : α) : split sep [] = [[]] := rfl

theorem split_ne_nil (sep : α) (as : List α) : split sep as ≠ [] := by
  have h := splitFrom_eq sep [] [] as
  intro hn
  rw [split] at hn
  rw [hn] at h
  simp at h

theorem split_cons_self (sep : α) (as : List α) : split sep (sep :: as) = [] :: split sep as := by
  have h : split sep (sep :: as) = splitFrom sep [] [[]] as := by simp [split, splitFrom]
  rw [h, splitFrom_eq]
  obtain ⟨p, ps, hp⟩ := List.exists_cons_of_ne_nil (split_ne_nil sep as)
  simp [hp]

theorem split_cons_of_ne {sep a : α} (h : a ≠ sep) (as : List α) :
    split sep (a :: as) = (a :: (split sep as).headD []) :: (split sep as).tail := by
  have hs : split sep (a :: as) = splitFrom sep [a] [] as := by simp [split, splitFrom, h]
  rw [hs, splitFrom_eq]
  simp

/-- Joining the pieces gives the sequence back. -/
theorem intercalate_split (sep : α) (as : List α) : [sep].intercalate (split sep as) = as := by
  induction as with
  | nil => rfl
  | cons a as ih =>
    obtain ⟨p, ps, hp⟩ := List.exists_cons_of_ne_nil (split_ne_nil sep as)
    rw [hp] at ih
    by_cases h : a = sep
    · subst h
      rw [split_cons_self, hp]
      simpa [List.intercalate] using ih
    · rw [split_cons_of_ne h, hp]
      cases ps <;> simpa [List.intercalate] using ih

/-- No piece holds the separator. -/
theorem not_mem_of_mem_split {sep : α} {as p : List α} (h : p ∈ split sep as) : sep ∉ p := by
  induction as generalizing p with
  | nil => simp_all
  | cons a as ih =>
    obtain ⟨q, qs, hq⟩ := List.exists_cons_of_ne_nil (split_ne_nil sep as)
    by_cases ha : a = sep
    · subst ha
      rw [split_cons_self] at h
      rcases List.mem_cons.1 h with rfl | h
      · exact List.not_mem_nil
      · exact ih h
    · rw [split_cons_of_ne ha, hq] at h
      rcases List.mem_cons.1 h with rfl | h
      · have : sep ∉ q := ih (hq ▸ List.mem_cons_self)
        simp [Ne.symm ha, this]
      · exact ih (hq ▸ List.mem_cons_of_mem q h)

/-- A sequence without the separator is one piece. -/
theorem split_of_not_mem {sep : α} {p : List α} (h : sep ∉ p) : split sep p = [p] := by
  induction p with
  | nil => rfl
  | cons a p ih =>
    rw [List.mem_cons, not_or] at h
    rw [split_cons_of_ne (Ne.symm h.1), ih h.2]
    rfl

theorem split_append {sep : α} {p : List α} (h : sep ∉ p) (as : List α) :
    split sep (p ++ sep :: as) = p :: split sep as := by
  induction p with
  | nil => exact split_cons_self sep as
  | cons a p ih =>
    rw [List.mem_cons, not_or] at h
    rw [List.cons_append, split_cons_of_ne (Ne.symm h.1), ih h.2]
    rfl

/-- Pieces that do not hold the separator come back from what they are joined to. -/
theorem split_intercalate {sep : α} {ps : List (List α)} (hne : ps ≠ []) (h : ∀ p ∈ ps, sep ∉ p) :
    split sep ([sep].intercalate ps) = ps := by
  induction ps with
  | nil => exact absurd rfl hne
  | cons p ps ih =>
    obtain ⟨hp, hps⟩ := List.forall_mem_cons.1 h
    cases ps with
    | nil =>
      rw [List.intercalate_singleton]
      exact split_of_not_mem hp
    | cons q ps =>
      rw [List.intercalate_cons_cons, List.append_assoc, List.singleton_append, split_append hp,
        ih (List.cons_ne_nil q ps) hps]

theorem splitFirst?_eq_some_iff {sep : α} {as before after : List α} :
    splitFirst? sep as = some (before, after) ↔ as = before ++ sep :: after ∧ sep ∉ before := by
  induction as generalizing before with
  | nil => simp [splitFirst?]
  | cons a as ih =>
    by_cases h : a = sep
    · subst h
      cases before with
      | nil => simp [splitFirst?]
      | cons b before =>
        simp only [splitFirst?, ne_eq, not_true_eq_false, decide_false, Bool.false_eq_true, not_false_eq_true,
          List.dropWhile_cons_of_neg, List.takeWhile_cons_of_neg, Option.some.injEq, Prod.mk.injEq]
        constructor
        · rintro ⟨h, -⟩
          cases h
        · rintro ⟨h, hn⟩
          simp only [List.cons_append, List.cons.injEq] at h
          exact absurd (h.1 ▸ List.mem_cons_self) hn
    · have hs : splitFirst? sep (a :: as) = (splitFirst? sep as).map fun p => (a :: p.1, p.2) := by
        simp only [splitFirst?, ne_eq, h, not_false_eq_true, decide_true, List.dropWhile_cons_of_pos,
          List.takeWhile_cons_of_pos]
        split <;> simp_all
      rw [hs]
      cases before with
      | nil => simp [h]
      | cons b before =>
        simp only [Option.map_eq_some_iff, Prod.exists, Prod.mk.injEq, List.cons.injEq, List.cons_append,
          List.mem_cons, not_or]
        constructor
        · rintro ⟨x, y, hxy, ⟨rfl, rfl⟩, rfl⟩
          obtain ⟨h1, h2⟩ := ih.1 hxy
          exact ⟨⟨rfl, h1⟩, Ne.symm h, h2⟩
        · rintro ⟨⟨rfl, h1⟩, -, h2⟩
          exact ⟨before, after, ih.2 ⟨h1, h2⟩, ⟨rfl, rfl⟩, rfl⟩

theorem splitLast?_eq_some_iff {sep : α} {as before after : List α} :
    splitLast? sep as = some (before, after) ↔ as = before ++ sep :: after ∧ sep ∉ after := by
  simp only [splitLast?, Option.map_eq_some_iff, Prod.exists, Prod.mk.injEq, splitFirst?_eq_some_iff]
  constructor
  · rintro ⟨back, front, ⟨heq, hback⟩, rfl, rfl⟩
    refine ⟨?_, fun h => hback (List.mem_reverse.1 h)⟩
    rw [← List.reverse_reverse as, heq]
    simp
  · rintro ⟨rfl, hafter⟩
    refine ⟨after.reverse, before.reverse, ⟨?_, fun h => hafter (List.mem_reverse.1 h)⟩, ?_, ?_⟩
    · simp
    · exact List.reverse_reverse before
    · exact List.reverse_reverse after

end RequestGuard.Text
