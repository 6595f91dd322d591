/-!
# White space

The characters that Unicode calls `White_Space`, and the trimming of a text by that class. The class
is wider than ASCII white space: the no-break space, the line separators and the ideographic space
belong to it, while the zero-width space does not.

`trim` removes a maximal blank run at either end and nothing between; `trimStart` is its left half,
which the readers of dates use on their own.
-/

namespace RequestGuard.Text

/-- Whether Unicode gives the character the property `White_Space`. -/
def isBlank (c : Char) : Bool :=
  (0x09 ≤ c.val && c.val ≤ 0x0D) || c.val == 0x20 || c.val == 0x85 || c.val == 0xA0 || c.val == 0x1680 ||
    (0x2000 ≤ c.val && c.val ≤ 0x200A) || c.val == 0x2028 || c.val == 0x2029 || c.val == 0x202F ||
    c.val == 0x205F || c.val == 0x3000

/-- The text without its leading blanks. -/
def trimStart (cs : List Char) : List Char :=
  cs.dropWhile isBlank

/-- The text without its trailing blanks. -/
def trimEnd (cs : List Char) : List Char :=
  (cs.reverse.dropWhile isBlank).reverse

/-- The text without the blanks at either end. -/
def trim (cs : List Char) : List Char :=
  trimEnd (trimStart cs)

/-! ## Trimming

The class holds every character that core's ASCII test calls white space, and no visible character of
ASCII. Trimming does nothing to a text whose ends are not blank, and blanks put around a text make no
difference to it. -/

theorem isBlank_of_isWhitespace {c : Char} (h : c.isWhitespace = true) : isBlank c = true := by
  simp only [Char.isWhitespace, Bool.or_eq_true, decide_eq_true_eq] at h
  rcases h with ((h | h) | h) | h <;> subst h <;> decide

/-- The letters, digits and marks of ASCII are not blank. -/
theorem not_isBlank_of_visible {c : Char} (hlow : 0x20 < c.toNat) (hhigh : c.toNat < 0x7F) :
    isBlank c = false := by
  have hval : c.toNat = c.val.toNat := rfl
  simp only [isBlank, Bool.or_eq_false_iff, Bool.and_eq_false_iff, decide_eq_false_iff_not, beq_eq_false_iff_ne,
    UInt32.le_iff_toNat_le, ne_eq, ← UInt32.toNat_inj]
  simp
  omega

theorem trimStart_cons_of_not_blank {c : Char} (h : isBlank c = false) (cs : List Char) :
    trimStart (c :: cs) = c :: cs := by
  simp [trimStart, h]

@[simp] theorem trimStart_nil : trimStart [] = [] := rfl

/-- Blanks at the end make no difference to a trimming there. -/
theorem trimEnd_append_of_blank {post : List Char} (h : ∀ c ∈ post, isBlank c = true) (cs : List Char) :
    trimEnd (cs ++ post) = trimEnd cs := by
  rw [trimEnd, List.reverse_append, List.dropWhile_append_of_pos (by simpa using h), trimEnd]

/-- A trimming at the end stops at the last character that is not blank. -/
theorem trimEnd_append_cons {c : Char} (h : isBlank c = false) (cs post : List Char) :
    trimEnd (cs ++ c :: post) = cs ++ c :: trimEnd post := by
  have hreverse : (cs ++ c :: post).reverse = post.reverse ++ c :: cs.reverse := by simp
  rw [trimEnd, trimEnd, hreverse, List.dropWhile_append]
  split
  · rename_i hempty
    rw [List.isEmpty_iff.mp hempty]
    simp [h]
  · simp

/-- Blanks around a text make no difference to its trimming. -/
theorem trim_append_of_blank {pre post : List Char} (hpre : ∀ c ∈ pre, isBlank c = true)
    (hpost : ∀ c ∈ post, isBlank c = true) (cs : List Char) : trim (pre ++ (cs ++ post)) = trim cs := by
  rw [trim, trimStart, List.dropWhile_append_of_pos hpre, List.dropWhile_append]
  split
  · rename_i hempty
    have hnone : post.dropWhile isBlank = [] := by
      rw [← List.append_nil post, List.dropWhile_append_of_pos hpost, List.dropWhile_nil]
    rw [hnone, trim, trimStart, List.isEmpty_iff.mp hempty]
  · exact trimEnd_append_of_blank hpost _

theorem trimEnd_append_of_not_blank {c : Char} (h : isBlank c = false) (cs : List Char) :
    trimEnd (cs ++ [c]) = cs ++ [c] :=
  trimEnd_append_cons h cs []

/-- There is nothing to trim where no character is blank. -/
theorem trim_of_not_blank {cs : List Char} (h : ∀ c ∈ cs, isBlank c = false) : trim cs = cs := by
  have hstart : trimStart cs = cs := by
    cases cs with
    | nil => exact trimStart_nil
    | cons c cs => exact trimStart_cons_of_not_blank (h c List.mem_cons_self) cs
  rw [trim, hstart]
  by_cases hne : cs = []
  · subst hne
    rfl
  · have hlast : isBlank (cs.getLast hne) = false := h _ (List.getLast_mem hne)
    rw [← List.dropLast_concat_getLast hne]
    exact trimEnd_append_of_not_blank hlast _

end RequestGuard.Text
