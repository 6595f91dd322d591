import RequestGuard.Text.Quoted

/-!
# Tallies

How often guards have looked at requests and how often they have turned one away, by verb. A count
that is not listed is zero. `Tally.exposition` is the text that a scraper reads.
-/

namespace RequestGuard.Service

/-- Counts by label, in the order in which the labels came up. -/
abbrev Counts := List (String × Nat)

namespace Counts

/-- The count of a label. -/
def count (c : Counts) (label : String) : Nat :=
  (c.lookup label).getD 0

/-- Counts one more for a label. -/
def increment (label : String) : Counts → Counts
  | [] => [(label, 1)]
  | (l, n) :: c => if label = l then (l, n + 1) :: c else (l, n) :: increment label c

/-- The samples of a counter under the line that names its type, or nothing where none has been
taken. -/
def exposition (name : String) (c : Counts) : List String :=
  if c.isEmpty then []
  else
    ("# TYPE " ++ name ++ " counter") :: c.map fun (label, n) =>
      name ++ "\x7bmethod=\"" ++ label ++ "\"\x7d " ++ String.ofList (Nat.toDigits 10 n)

theorem count_increment (label l : String) (c : Counts) :
    (c.increment label).count l = c.count l + if l = label then 1 else 0 := by
  unfold count
  induction c with
  | nil =>
    by_cases h : l = label
    · simp [increment, h]
    · simp [increment, h, List.lookup_cons, beq_eq_false_iff_ne.2 h]
  | cons x c ih =>
    obtain ⟨k, n⟩ := x
    by_cases hk : label = k
    · subst hk
      by_cases h : l = label
      · simp [increment, h]
      · simp [increment, h, List.lookup_cons, beq_eq_false_iff_ne.2 h]
    · rw [increment, if_neg hk, List.lookup_cons, List.lookup_cons]
      by_cases h : l = k
      · subst h
        simp [Ne.symm hk]
      · rw [beq_eq_false_iff_ne.2 h]
        exact ih

end Counts

/-- What is counted: checks by guards, and the requests they turned away. -/
structure Tally where
  checked : Counts
  violated : Counts

namespace Tally

/-- Nothing counted. -/
def zero : Tally := ⟨[], []⟩

/-- Counts a check. -/
def addCheck (t : Tally) (label : String) : Tally :=
  { t with checked := t.checked.increment label }

/-- Counts a request turned away. -/
def addViolation (t : Tally) (label : String) : Tally :=
  { t with violated := t.violated.increment label }

/-- The counters as text, line by line. -/
def exposition (t : Tally) : String :=
  "\n".intercalate (t.checked.exposition "reqcheck_requests_checked_total" ++
    t.violated.exposition "reqcheck_violations_total")

end Tally

end RequestGuard.Service
