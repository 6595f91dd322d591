import Mathlib.Algebra.GroupWithZero.Nat
import Mathlib.Data.List.Basic
import RequestGuard.Text.Lines

/-!
# Lines of texts joined

Texts one below the other, each behind a line feed but the first, are cut into lines again. A line
loses the carriage return in front of its line feed, and an empty line at the end is none. Neither
happens to texts that end in a character of their own (`Ended`): what is joined of them has the lines
of each, one after another (`lines_intercalate`). So it has as many as there are texts and line feeds
within them, and it has the texts themselves when there are no such line feeds.
-/

namespace RequestGuard.Text

/-- The text has a last character, and that is neither a line feed nor a carriage return. -/
def Ended (cs : List Char) : Prop := ∃ c, cs.getLast? = some c ∧ c ≠ '\n' ∧ c ≠ '\r'

theorem Ended.ne_nil {cs : List Char} (h : Ended cs) : cs ≠ [] := by
  obtain ⟨c, hlast, -, -⟩ := h
  rintro rfl
  cases hlast

theorem dropReturn_of_ended {cs : List Char} (h : Ended cs) : dropReturn cs = cs := by
  obtain ⟨c, hlast, -, hreturn⟩ := h
  rw [dropReturn, if_neg]
  intro hr
  rw [hr] at hlast
  exact hreturn (Option.some.inj hlast).symm

/-- There is something behind a line feed that a text does not end with. -/
theorem ended_of_append_feed {front cs : List Char} (h : Ended (front ++ '\n' :: cs)) :
    Ended cs := by
  obtain ⟨c, hlast, hc⟩ := h
  refine ⟨c, ?_, hc⟩
  rw [List.getLast?_append] at hlast
  cases cs with
  | nil => exact absurd (Option.some.inj hlast).symm hc.1
  | cons b cs => rwa [List.getLast?_cons_cons, Option.or_of_isSome (by simp)] at hlast

/-! ## One text -/

theorem linesFrom_feed (held cs : List Char) :
    linesFrom held ('\n' :: cs) = dropReturn held.reverse :: linesFrom [] cs := by
  rw [linesFrom, if_pos rfl]

theorem linesFrom_of_ne {c : Char} (h : c ≠ '\n') (held cs : List Char) :
    linesFrom held (c :: cs) = linesFrom (c :: held) cs := by
  rw [linesFrom, if_neg h]

/-- The line under way is ended by what the text ends with. -/
theorem linesFrom_nil_of_ended {held : List Char} (h : Ended held.reverse) :
    linesFrom held [] = [held.reverse] := by
  cases held with
  | nil => exact absurd rfl h.ne_nil
  | cons c held => rfl

theorem length_linesFrom {held cs : List Char} (h : Ended (held.reverse ++ cs)) :
    (linesFrom held cs).length = cs.count '\n' + 1 := by
  induction cs generalizing held with
  | nil =>
    rw [List.append_nil] at h
    rw [linesFrom_nil_of_ended h]
    rfl
  | cons c cs ih =>
    by_cases hc : c = '\n'
    · subst hc
      have hrest : Ended ([].reverse ++ cs) := ended_of_append_feed h
      rw [linesFrom_feed, List.length_cons, ih hrest, List.count_cons_self]
    · have hrest : Ended ((c :: held).reverse ++ cs) := by
        rwa [List.reverse_cons, List.append_assoc]
      rw [linesFrom_of_ne hc, ih hrest, List.count_cons_of_ne hc]

theorem linesFrom_of_not_mem {held cs : List Char} (h : Ended (held.reverse ++ cs))
    (hfeed : '\n' ∉ cs) : linesFrom held cs = [held.reverse ++ cs] := by
  induction cs generalizing held with
  | nil =>
    rw [List.append_nil] at h ⊢
    exact linesFrom_nil_of_ended h
  | cons c cs ih =>
    rw [List.mem_cons, not_or] at hfeed
    obtain ⟨hc, hcs⟩ := hfeed
    have hmove : held.reverse ++ c :: cs = (c :: held).reverse ++ cs := by
      rw [List.reverse_cons, List.append_assoc, List.singleton_append]
    rw [hmove] at h ⊢
    rw [linesFrom_of_ne (Ne.symm hc), ih h hcs]

/-- Behind a text and a line feed the next lines begin. -/
theorem linesFrom_append_feed {held cs : List Char} (h : Ended (held.reverse ++ cs))
    (rest : List Char) :
    linesFrom held (cs ++ '\n' :: rest) = linesFrom held cs ++ linesFrom [] rest := by
  induction cs generalizing held with
  | nil =>
    rw [List.append_nil] at h
    rw [List.nil_append, linesFrom_feed, dropReturn_of_ended h, linesFrom_nil_of_ended h]
    rfl
  | cons c cs ih =>
    by_cases hc : c = '\n'
    · subst hc
      have hrest : Ended ([].reverse ++ cs) := ended_of_append_feed h
      rw [List.cons_append, linesFrom_feed, linesFrom_feed, ih hrest]
      rfl
    · have hrest : Ended ((c :: held).reverse ++ cs) := by
        rwa [List.reverse_cons, List.append_assoc]
      rw [List.cons_append, linesFrom_of_ne hc, linesFrom_of_ne hc, ih hrest]

/-! ## Texts joined -/

/-- What is joined has a character of its parts only, where none stands between them. -/
theorem mem_intercalate_iff {sep : String} {c : Char} (hsep : c ∉ sep.toList) (ts : List String) :
    c ∈ (sep.intercalate ts).toList ↔ ∃ t ∈ ts, c ∈ t.toList := by
  induction ts with
  | nil => simp
  | cons t ts ih =>
    cases ts with
    | nil => simp
    | cons u ts =>
      rw [String.intercalate_cons_cons, String.toList_append, String.toList_append,
        List.mem_append, List.mem_append, ih, List.exists_mem_cons_iff (a := t), or_assoc,
        or_iff_right hsep]

theorem length_lines {s : String} (h : Ended s.toList) :
    (lines s).length = s.toList.count '\n' + 1 := by
  rw [lines, List.length_map]
  exact length_linesFrom h

theorem lines_of_not_mem {s : String} (h : Ended s.toList) (hfeed : '\n' ∉ s.toList) :
    lines s = [s] := by
  rw [lines, linesFrom_of_not_mem h hfeed, List.map_singleton, List.reverse_nil, List.nil_append,
    String.ofList_toList]

theorem lines_intercalate {ts : List String} (h : ∀ t ∈ ts, Ended t.toList) :
    lines ("\n".intercalate ts) = ts.flatMap lines := by
  induction ts with
  | nil => rfl
  | cons t ts ih =>
    obtain ⟨ht, hts⟩ := List.forall_mem_cons.mp h
    cases ts with
    | nil => rw [String.intercalate_singleton, List.flatMap_singleton]
    | cons u ts =>
      have hjoined : (t ++ "\n" ++ "\n".intercalate (u :: ts)).toList =
          t.toList ++ '\n' :: ("\n".intercalate (u :: ts)).toList := by
        rw [String.toList_append, String.toList_append, List.append_assoc]
        rfl
      rw [String.intercalate_cons_cons, List.flatMap_cons, ← ih hts, lines, hjoined,
        linesFrom_append_feed ht, List.map_append]
      rfl

/-- Texts joined have as many lines as there are texts and line feeds within them. -/
theorem length_lines_intercalate {ts : List String} (h : ∀ t ∈ ts, Ended t.toList) :
    (lines ("\n".intercalate ts)).length =
      ts.length + (ts.map fun t => t.toList.count '\n').sum := by
  rw [lines_intercalate h]
  induction ts with
  | nil => rfl
  | cons t ts ih =>
    obtain ⟨ht, hts⟩ := List.forall_mem_cons.mp h
    rw [List.flatMap_cons, List.length_append, length_lines ht, ih hts, List.length_cons,
      List.map_cons, List.sum_cons]
    omega

/-- Texts joined have the texts for their lines when there is no line feed within them, and only
then. -/
theorem lines_intercalate_eq_iff {ts : List String} (h : ∀ t ∈ ts, Ended t.toList) :
    lines ("\n".intercalate ts) = ts ↔ ∀ t ∈ ts, '\n' ∉ t.toList := by
  constructor
  · intro heq t ht hfeed
    -- One line feed would make one line more.
    have hlength := length_lines_intercalate h
    rw [heq] at hlength
    have hone : 0 < t.toList.count '\n' := List.count_pos_iff.mpr hfeed
    have hsum : 0 < (ts.map fun t => t.toList.count '\n').sum :=
      List.sum_pos_iff_exists_pos_nat.mpr ⟨_, List.mem_map_of_mem ht, hone⟩
    omega
  · intro hfeed
    rw [lines_intercalate h]
    induction ts with
    | nil => rfl
    | cons t ts ih =>
      obtain ⟨ht, hts⟩ := List.forall_mem_cons.mp h
      obtain ⟨hft, hfts⟩ := List.forall_mem_cons.mp hfeed
      rw [List.flatMap_cons, lines_of_not_mem ht hft, ih hts hfts, List.singleton_append]

end RequestGuard.Text
