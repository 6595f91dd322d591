import Mathlib.Data.List.Forall2
import RequestGuard.Guard.Basic
import RequestGuard.Proofs.Schema.Origin
import RequestGuard.Proofs.Schema.Rewording

/-!
# A guard's verb is a matter of wording

A guard for one verb and a guard for any look at a request of that verb in the same source, and ask
the same of it. All that the verb settles is whether the remark about a missing field leaves out the
source. So the two leave the same data and find the same faults, which stand in lines of the same
depth under the same headings. Verbs with a body have the source named in any case. With other verbs
a line may differ, and then it is about a plain field of the query, around which no node forces a
source, and which is not there (`Unnamed`).
-/

namespace RequestGuard

/-- The remark with a source named where a field is missing and none is. -/
def Remark.naming (s : Source) : Remark → Remark
  | missingField f none => missingField f (some s)
  | r => r

namespace Schema

/-! ## Visits that a source is not forced on -/

mutual

/-- A source that is not forced is that of the root, and then nothing around forces one. -/
theorem unforced_of_mem_nodeVisits : ∀ (n : Node) {s : Source} {forced : Bool},
    ∀ v ∈ nodeVisits n s forced, v.demand = .given false → v.source = s ∧ forced = false
  | .field name, s, forced => by
    intro v hv hdemand
    obtain rfl := List.mem_singleton.mp hv
    exact ⟨rfl, Demand.given.inj hdemand⟩
  | .group nodes, _, _ => unforced_of_mem_visits nodes
  | .combined _ nodes, _, _ => unforced_of_mem_visits nodes
  | .sourced s nodes, _, _ => by
    intro v hv hdemand
    cases (unforced_of_mem_visits nodes v hv hdemand).2
  | .coerced c names, _, _ => by
    intro v hv hdemand
    obtain ⟨name, -, rfl⟩ := List.mem_map.mp hv
    cases hdemand
  | .oneOf name as, _, _ => by
    intro v hv hdemand
    obtain rfl := List.mem_singleton.mp hv
    cases hdemand

theorem unforced_of_mem_visits : ∀ (ns : List Node) {s : Source} {forced : Bool},
    ∀ v ∈ visits ns s forced, v.demand = .given false → v.source = s ∧ forced = false
  | [], _, _ => nofun
  | n :: ns, s, forced => by
    intro v hv
    rcases List.mem_append.mp hv with hv | hv
    · exact unforced_of_mem_nodeVisits n v hv
    · exact unforced_of_mem_visits ns v hv

end

/-! ## Naming the source -/

/-- A visit that is not brief names the source which a brief one leaves out, and makes the same
remark otherwise. -/
theorem Visit.remark?_naming {v : Visit} {s : Source} (h : v.demand = .given false → v.source = s)
    (d : RequestData) : v.remark? false d = (v.remark? true d).map (Remark.naming s) := by
  obtain ⟨source, name, demand⟩ := v
  cases demand with
  | given forced =>
    rw [remark?, remark?]
    cases forced with
    | true => split <;> rfl
    | false =>
      obtain rfl : source = s := h rfl
      split <;> rfl
  | ofKind c =>
    rw [remark?, remark?]
    split <;> rfl
  | among as =>
    rw [remark?, remark?]
    cases d.get? source name with
    | none => rfl
    | some given =>
      simp only
      split_ifs <;> rfl

theorem outcomes_naming {vs : List Visit} {s : Source}
    (h : ∀ v ∈ vs, v.demand = .given false → v.source = s) (d : RequestData) :
    outcomes false vs d = (outcomes true vs d).map (Option.map (Remark.naming s)) := by
  induction vs generalizing d with
  | nil => rfl
  | cons v vs ih =>
    obtain ⟨hv, hvs⟩ := List.forall_mem_cons.mp h
    rw [outcomes, outcomes, List.map_cons, Visit.remark?_naming hv, ih hvs]

/-- A run that is not brief reports what one that is reports, with the source named. -/
theorem run_snd_naming (nodes : List Node) (s : Source) (anySuffices : Bool) (d : RequestData) :
    (run nodes ⟨s, false, anySuffices⟩ d).2 =
      (run nodes ⟨s, true, anySuffices⟩ d).2.reword (Remark.naming s) := by
  apply run_snd_reword anySuffices
  apply outcomes_naming
  intro v hv hdemand
  exact (unforced_of_mem_visits nodes v hv hdemand).1

end Schema

namespace Guard

open Schema

/-! ## Line by line -/

/-- Two lines, as deep as one another, about a plain field which is not there and around which no
node forces a source: the one does not name the source, and the other says that it is the query. -/
def Unnamed (schema : List Node) (d : RequestData) (l l' : Line) : Prop :=
  ∃ before name after,
    visits schema .query false = before ++ ⟨.query, name, .given false⟩ :: after ∧
      (perform before d).contains .query name = false ∧ l'.depth = l.depth ∧
      l.text = Line.indentation l.depth ++ (name ++ " must be given.") ∧
      l'.text = Line.indentation l.depth ++ (name ++ " must be given as query parameter.")

/-- A line of a brief report is as it is where the source is named, or it is about a field that lacks
it. -/
theorem reword_naming_of_mem_run {schema : List Node} {d : RequestData} {l : Line}
    (h : l ∈ (run schema ⟨.query, true, false⟩ d).2) :
    l.reword (Remark.naming .query) = l ∨
      Unnamed schema d l (l.reword (Remark.naming .query)) := by
  obtain ⟨depth, entry⟩ := l
  obtain hheading | ⟨before, v, after, r, hvs, hremark, hentry⟩ := exists_visit_of_mem_run h
  · obtain rfl : entry = .heading := hheading
    exact .inl rfl
  · obtain rfl : entry = .remark r := hentry
    cases objection_of_remark? hremark with
    | @unnamed source name _ hthere =>
      have hv : ⟨source, name, .given false⟩ ∈ visits schema .query false := by
        rw [hvs]
        exact List.mem_append_right _ List.mem_cons_self
      obtain rfl : source = .query := (unforced_of_mem_visits schema _ hv rfl).1
      refine .inr ⟨before, name, after, hvs, hthere, rfl, rfl, ?_⟩
      simp only [Line.reword, Line.text, Entry.reword, Remark.naming, Entry.text, Remark.text,
        Source.name, String.append_assoc]
      rfl
    -- Any other remark names its source or has none to name.
    | named | unmet | absent | malformed | unlisted => exact .inl rfl

/-! ## Two guards -/

theorem diagnose_without_verb (schema : List Node) (m : Method) (d : RequestData) :
    diagnose ⟨schema, none⟩ m d = run schema (.ofRequest m) d := rfl

theorem diagnose_with_verb (schema : List Node) (m : Method) (d : RequestData) :
    diagnose ⟨schema, some m⟩ m d = run schema (.ofVerb m) d := by
  simp only [diagnose, scopeFor?, if_pos]

theorem ofVerb_eq_ofRequest {m : Method} (h : m = .post ∨ m = .put) :
    Scope.ofVerb m = Scope.ofRequest m := by
  rcases h with rfl | rfl <;> rfl

/-- Verbs without a body have their fields in the query, and only a guard for the verb names it. -/
theorem scopes_of_no_body {m : Method} (hpost : m ≠ .post) (hput : m ≠ .put) :
    Scope.ofRequest m = ⟨.query, true, false⟩ ∧ Scope.ofVerb m = ⟨.query, false, false⟩ := by
  have hbody : m.carriesBody = false := by
    unfold Method.carriesBody
    split
    · exact absurd rfl hpost
    · exact absurd rfl hput
    · rfl
  have hsource : m.source = .query := by
    rw [Method.source, hbody, if_neg Bool.false_ne_true]
  constructor
  · rw [Scope.ofRequest, hsource, hbody]
    rfl
  · rw [Scope.ofVerb, hsource]

theorem diagnose_snd_with_verb {m : Method} (hpost : m ≠ .post) (hput : m ≠ .put)
    (schema : List Node) (d : RequestData) :
    (diagnose ⟨schema, some m⟩ m d).2 =
      (diagnose ⟨schema, none⟩ m d).2.reword (Remark.naming .query) := by
  obtain ⟨hrequest, hverb⟩ := scopes_of_no_body hpost hput
  rw [diagnose_with_verb, diagnose_without_verb, hrequest, hverb]
  exact run_snd_naming schema .query false d

/-- With or without a verb a guard reports the same lines, in whatever words. -/
theorem exists_reword_with_verb (schema : List Node) (m : Method) (d : RequestData) :
    ∃ f, (diagnose ⟨schema, some m⟩ m d).2 = (diagnose ⟨schema, none⟩ m d).2.reword f := by
  by_cases hbody : m = .post ∨ m = .put
  · refine ⟨id, ?_⟩
    rw [diagnose_with_verb, ofVerb_eq_ofRequest hbody, Report.reword_id]
    rfl
  · rw [not_or] at hbody
    exact ⟨_, diagnose_snd_with_verb hbody.1 hbody.2 schema d⟩

/-- **A guard's verb is a matter of wording.** A guard for any verb and a guard for the verb of a
request leave the same data, come to the same decision, and report as many lines. With a verb that
has a body the lines are the same. With any other they are the same one by one, or both are about a
missing plain field that no node around it forces a source on, and the second names the query. -/
theorem check_with_verb (schema : List Node) (m : Method) (d : RequestData) :
    let free : Guard := ⟨schema, none⟩
    let bound : Guard := ⟨schema, some m⟩
    let report := (free.diagnose m d).2
    let report' := (bound.diagnose m d).2
    (bound.check m d).1 = (free.check m d).1 ∧
      ((bound.check m d).2 = .proceed ↔ (free.check m d).2 = .proceed) ∧
      report'.length = report.length ∧
      (m = .post ∨ m = .put → report' = report ∧ (bound.check m d).2 = (free.check m d).2) ∧
      (m ≠ .post → m ≠ .put →
        List.Forall₂ (fun l l' => l' = l ∨ Unnamed schema d l l') report report') := by
  intro free bound report report'
  obtain ⟨f, hwords⟩ : ∃ f, report' = report.reword f := exists_reword_with_verb schema m d
  refine ⟨?data, ?decision, ?length, ?body, ?query⟩
  case data =>
    show (bound.diagnose m d).1 = (free.diagnose m d).1
    rw [diagnose_with_verb, diagnose_without_verb, run_fst, run_fst]
    rfl
  case decision =>
    show Verdict.ofReport report' = .proceed ↔ Verdict.ofReport report = .proceed
    rw [Verdict.ofReport_eq_proceed_iff, Verdict.ofReport_eq_proceed_iff, hwords]
    exact List.map_eq_nil_iff
  case length =>
    rw [hwords, Report.reword, List.length_map]
  case body =>
    intro hbody
    have hsame : report' = report := by
      show (diagnose ⟨schema, some m⟩ m d).2 = (diagnose ⟨schema, none⟩ m d).2
      rw [diagnose_with_verb, ofVerb_eq_ofRequest hbody, diagnose_without_verb]
    exact ⟨hsame, congrArg Verdict.ofReport hsame⟩
  case query =>
    intro hpost hput
    have hreport : report = (run schema ⟨.query, true, false⟩ d).2 := by
      show (diagnose ⟨schema, none⟩ m d).2 = _
      rw [diagnose_without_verb, (scopes_of_no_body hpost hput).1]
    have hnaming : report' = report.reword (Remark.naming .query) :=
      diagnose_snd_with_verb hpost hput schema d
    rw [hnaming, Report.reword, List.forall₂_map_right_iff, List.forall₂_same]
    intro l hl
    rw [hreport] at hl
    exact reword_naming_of_mem_run hl

end Guard

end RequestGuard
