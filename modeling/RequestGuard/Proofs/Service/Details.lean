import RequestGuard.Proofs.Schema.Origin
import RequestGuard.Proofs.Text.Lines
import RequestGuard.Service.Failure

/-!
# The details of a violation

A guard hands on the lines of a report as one text, and the response to the request takes that text
apart again. What it takes apart is what was joined, as far as no line is cut in two: every line ends
in a full stop, so none loses its end and the last is not lost. A line is cut at the line feeds within
it, and these are those of the texts that its remark quotes: the name of a field, or a value it could
have had (`feed_mem_text_iff`).
-/

namespace RequestGuard

/-! ## What a line says -/

/-- The texts that a remark quotes. -/
def Remark.quoted : Remark → List String
  | missingField f _ => [f]
  | missingValue f => [f]
  | invalidFormat f => [f]
  | notOneOf f listed => f :: listed
  | unmet _ f => [f]
  | note text => [text]

/-- The texts that an entry quotes. -/
def Entry.quoted : Entry → List String
  | heading => []
  | remark r => r.quoted

/-- The texts that the lines of a report quote. -/
def Report.quoted (r : Report) : List String := r.flatMap fun l => l.entry.quoted

theorem feed_not_mem_requirement (c : Coercion) : '\n' ∉ c.requirement.toList := by
  cases c <;> decide

theorem feed_not_mem_name (s : Source) : '\n' ∉ s.name.toList := by
  cases s <;> decide

/-- The wording of a remark has a line feed only where what it quotes has one. -/
theorem Remark.feed_mem_text_iff (r : Remark) :
    '\n' ∈ r.text.toList ↔ ∃ q ∈ r.quoted, '\n' ∈ q.toList := by
  cases r with
  | missingField f s =>
    cases s with
    | none => simp [text, quoted]
    | some s => simp [text, quoted, feed_not_mem_name]
  | missingValue f => simp [text, quoted]
  | invalidFormat f => simp [text, quoted]
  | notOneOf f listed =>
    have hlisted : '\n' ∈ (", ".intercalate listed).toList ↔ ∃ q ∈ listed, '\n' ∈ q.toList :=
      Text.mem_intercalate_iff (by decide) listed
    simp only [text, quoted, String.toList_append, List.mem_append, hlisted,
      List.exists_mem_cons_iff]
    simp
  | unmet c f => simp [text, quoted, feed_not_mem_requirement]
  | note s => simp [text, quoted]

theorem feed_not_mem_indentation (n : Nat) : '\n' ∉ (Line.indentation n).toList := by
  induction n with
  | zero => exact List.not_mem_nil
  | succ n ih => simp [Line.indentation, ih]

theorem Line.feed_mem_text_iff (l : Line) :
    '\n' ∈ l.text.toList ↔ ∃ q ∈ l.entry.quoted, '\n' ∈ q.toList := by
  obtain ⟨depth, entry⟩ := l
  have hentry : '\n' ∈ entry.text.toList ↔ ∃ q ∈ entry.quoted, '\n' ∈ q.toList := by
    cases entry with
    | heading => decide
    | remark r => exact r.feed_mem_text_iff
  rw [text, String.toList_append, List.mem_append, or_iff_right (feed_not_mem_indentation depth),
    hentry]

/-- No line has a line feed just when no text that is quoted has one. -/
theorem Report.feed_not_mem_iff (r : Report) :
    (∀ t ∈ r.texts, '\n' ∉ t.toList) ↔ ∀ q ∈ r.quoted, '\n' ∉ q.toList := by
  simp only [texts, quoted, List.forall_mem_map, List.forall_mem_flatMap, Line.feed_mem_text_iff,
    not_exists, not_and]

/-! ## How a line ends -/

/-- The text ends in a full stop. -/
def Stopped (s : String) : Prop := s.toList.getLast? = some '.'

theorem Stopped.ended {s : String} (h : Stopped s) : Text.Ended s.toList :=
  ⟨'.', h, by decide, by decide⟩

theorem Stopped.append_left {s : String} (h : Stopped s) (front : String) :
    Stopped (front ++ s) := by
  rw [Stopped, String.toList_append, List.getLast?_append, h]
  rfl

theorem stopped_requirement (c : Coercion) : Stopped c.requirement := by
  cases c <;> rfl

/-- Every wording but one of the host's own ends in a full stop. -/
theorem Remark.stopped_text {r : Remark} (h : ∀ s, r ≠ .note s) : Stopped r.text := by
  have hstop (front : String) {back : String} (hback : Stopped back) : Stopped (front ++ back) :=
    hback.append_left front
  cases r with
  | missingField f s =>
    cases s with
    | none => exact hstop f rfl
    | some s => exact hstop _ rfl
  | missingValue f => exact hstop f rfl
  | invalidFormat f => exact hstop f rfl
  | notOneOf f listed => exact hstop _ rfl
  | unmet c f => exact hstop _ (stopped_requirement c)
  | note s => exact absurd rfl (h s)

namespace Schema

/-- Every line of a run's report ends in a full stop. -/
theorem stopped_of_mem_texts {nodes : List Node} {scope : Scope} {d : RequestData} :
    ∀ t ∈ (run nodes scope d).2.texts, Stopped t := by
  intro t ht
  obtain ⟨l, hl, rfl⟩ := List.mem_map.mp ht
  have hentry : Stopped l.entry.text := by
    obtain hheading | ⟨before, v, after, r, -, hremark, hentry⟩ := exists_visit_of_mem_run hl
    · rw [hheading]
      rfl
    · rw [hentry]
      apply Remark.stopped_text
      rintro s rfl
      -- No visit speaks in the host's own words.
      cases objection_of_remark? hremark
  exact hentry.append_left _

end Schema

namespace Service

open Schema

/-- **The details of a violation are the lines of the report.** The response to a request that
violates a schema gives the joined text of the report for its message. Its details are that text cut
into lines: as many as the report has lines and line feeds within them. They are the lines
themselves, in order and to the last character, when there are no such line feeds and only then, and
that is when neither the name of a field nor a value, of those that the report quotes, has one. -/
theorem details_of_run {nodes : List Node} {scope : Scope} {d : RequestData}
    (h : (run nodes scope d).2 ≠ []) :
    let report := (run nodes scope d).2
    ∃ message details, report.message? = some message ∧
      (Failure.violation message).details? = some details ∧
      (Failure.violation message).response = .json .unprocessable (.object [("error", .object
        [("code", .string "VALIDATION_ERROR"), ("message", .string message),
          ("details", .array (details.map .string))])]) ∧
      details.length =
        report.texts.length + (report.texts.map fun t => t.toList.count '\n').sum ∧
      (details = report.texts ↔ ∀ t ∈ report.texts, '\n' ∉ t.toList) ∧
      (details = report.texts ↔ ∀ q ∈ report.quoted, '\n' ∉ q.toList) := by
  intro report
  have hended : ∀ t ∈ report.texts, Text.Ended t.toList := by
    intro t ht
    exact (stopped_of_mem_texts t ht).ended
  have hmessage : report.message? = some report.text := by
    rw [Report.message?, List.isEmpty_eq_false_iff.mpr h, if_neg Bool.false_ne_true]
  have hlines := Text.lines_intercalate_eq_iff hended
  refine ⟨report.text, Text.lines report.text, hmessage, rfl, rfl,
    Text.length_lines_intercalate hended, hlines, ?_⟩
  exact hlines.trans report.feed_not_mem_iff

/-- A field with a carriage return in its name and a value with a line feed in it: three lines make
four details, and all but the last are lines. -/
theorem details_of_run_feed :
    let nodes : List Node :=
      [.combined .any [.field "a\r", .oneOf "b" [.literal (.text "x\ny")]]]
    let scope : Scope := ⟨.query, true, false⟩
    let report := (run nodes scope (RequestData.empty.insert .query "b" (.text "z"))).2
    report ≠ [] ∧
      report.texts = ["At least one of the following.", "  a\r must be given.",
        "  b must be one of following: x\ny."] ∧
      report.quoted = ["a\r", "b", "x\ny"] ∧
      ∃ message details, report.message? = some message ∧
        (Failure.violation message).details? = some details ∧ details.length = 3 + 1 ∧
        details ≠ report.texts := by
  intro nodes scope report
  have hreport : report ≠ [] := by decide
  have htexts : report.texts = ["At least one of the following.", "  a\r must be given.",
      "  b must be one of following: x\ny."] := by decide
  have hquoted : report.quoted = ["a\r", "b", "x\ny"] := by decide
  obtain ⟨message, details, hmessage, hdetails, -, hlength, -, hquotes⟩ := details_of_run hreport
  refine ⟨hreport, htexts, hquoted, message, details, hmessage, hdetails, ?_, ?_⟩
  · have hfeeds : (report.texts.map fun t => t.toList.count '\n').sum = 1 := by
      rw [htexts]
      decide
    rw [hlength, hfeeds, htexts]
    rfl
  · intro hsame
    have hvalue : "x\ny" ∈ report.quoted := by
      rw [hquoted]
      decide
    exact hquotes.mp hsame "x\ny" hvalue (by decide)

end Service

end RequestGuard
