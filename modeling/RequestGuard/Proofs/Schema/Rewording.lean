import RequestGuard.Proofs.Schema.Outcome

/-!
# Reports in other words

Which visits find something wrong settles the shape of a report: what lines it has, in which order
and how deep. What the visits say settles the words in these lines and nothing else. So where the
outcomes of one run are those of another with other remarks in their places, its report is that of
the other with these remarks, line by line.

`runNode_snd_reword` says so of two runs of one node, each over data of its own and with a root of
its own that is brief or is not.
-/

namespace RequestGuard

/-- The entry with another remark in the place of its own. -/
def Entry.reword (f : Remark → Remark) : Entry → Entry
  | heading => heading
  | remark r => remark (f r)

/-- The line with another remark, as deep as before. -/
def Line.reword (f : Remark → Remark) (l : Line) : Line := { l with entry := l.entry.reword f }

/-- The report with other remarks, line by line. -/
def Report.reword (f : Remark → Remark) (r : Report) : Report := r.map (Line.reword f)

theorem Report.reword_id (r : Report) : r.reword id = r := by
  have hline : Line.reword id = id := by
    funext l
    obtain ⟨depth, entry⟩ := l
    cases entry <;> rfl
  rw [reword, hline, List.map_id]

namespace Schema

variable {f : Remark → Remark}

theorem reword_underHeading (r : Report) : (r.reword f).underHeading = r.underHeading.reword f := by
  have hindent : Line.indent ∘ Line.reword f = Line.reword f ∘ Line.indent := rfl
  unfold Report.underHeading Report.reword
  rw [List.map_map, hindent, List.map_cons, List.map_map]
  rfl

theorem reword_leafReport (os : List (Option Remark)) :
    leafReport (os.map (Option.map f)) = (leafReport os).reword f := by
  induction os with
  | nil => rfl
  | cons o os ih =>
    cases o with
    | none => exact ih
    | some r => exact congrArg ((Line.ofRemark r).reword f :: ·) ih

/-- The child with other remarks in its report. -/
def Child.reword (f : Remark → Remark) (c : Child) : Child := { c with report := c.report.reword f }

/-- A group makes of its children's reports in other words its own report in these words. -/
theorem conclude_reword (anySuffices : Bool) (cs : List Child) :
    conclude anySuffices (cs.map (Child.reword f)) = (conclude anySuffices cs).reword f := by
  have hempty (c : Child) : (c.reword f).report.isEmpty = c.report.isEmpty := List.isEmpty_map
  have hsilent : ((cs.map (Child.reword f)).any fun c => c.satisfies && c.report.isEmpty) =
      cs.any fun c => c.satisfies && c.report.isEmpty := by
    rw [List.any_map]
    apply congrArg cs.any
    funext c
    rw [Function.comp_apply, hempty]
    rfl
  have hlines : (cs.map (Child.reword f)).flatMap Child.report =
      Report.reword f (cs.flatMap Child.report) := by
    rw [List.flatMap_map, Report.reword, List.map_flatMap]
    rfl
  unfold conclude
  rw [hsilent, hlines]
  split
  · rfl
  · split
    · exact reword_underHeading _
    · rfl

/-! ## Two runs -/

/-- The scopes of two runs at one place of a schema, where `forced` says whether a node around that
place forces the source. Their roots may differ in whether they are brief. -/
structure Alike (brief brief' forced : Bool) (scope scope' : Scope) : Prop where
  source : scope'.source = scope.source
  anySuffices : scope'.anySuffices = scope.anySuffices
  brief_left : scope.brief = (brief && !forced)
  brief_right : scope'.brief = (brief' && !forced)

namespace Alike

variable {brief brief' forced : Bool} {scope scope' : Scope}

theorem conjunctive (h : Alike brief brief' forced scope scope') :
    Alike brief brief' forced scope.conjunctive scope'.conjunctive :=
  ⟨h.source, rfl, h.brief_left, h.brief_right⟩

theorem combined (h : Alike brief brief' forced scope scope') (c : Combinator) :
    Alike brief brief' forced (scope.combined c) (scope'.combined c) :=
  ⟨h.source, rfl, h.brief_left, h.brief_right⟩

theorem sourced (h : Alike brief brief' forced scope scope') (s : Source) :
    Alike brief brief' true (scope.sourced s) (scope'.sourced s) :=
  ⟨rfl, h.anySuffices, brief_sourced scope s brief, brief_sourced scope' s brief'⟩

theorem satisfies_eq (h : Alike brief brief' forced scope scope') (n : Node) :
    satisfies scope' n = satisfies scope n := by
  rw [Schema.satisfies_eq, Schema.satisfies_eq, h.anySuffices]

/-- At the root no source is forced. -/
theorem root (s : Source) (brief brief' anySuffices : Bool) :
    Alike brief brief' false ⟨s, brief, anySuffices⟩ ⟨s, brief', anySuffices⟩ :=
  ⟨rfl, rfl, (Bool.and_true brief).symm, (Bool.and_true brief').symm⟩

end Alike

/-- The outcomes of visits that are those of other visits in other words are so part by part. -/
theorem reword_outcomes_append {brief brief' : Bool} {vs vs' ws ws' : List Visit}
    {d e : RequestData} (hlength : vs'.length = vs.length)
    (h : outcomes brief' (vs' ++ ws') e = (outcomes brief (vs ++ ws) d).map (Option.map f)) :
    outcomes brief' vs' e = (outcomes brief vs d).map (Option.map f) ∧
      outcomes brief' ws' (perform vs' e) =
        (outcomes brief ws (perform vs d)).map (Option.map f) := by
  rw [outcomes_append, outcomes_append, List.map_append] at h
  refine List.append_inj h ?_
  rw [length_outcomes, List.length_map, length_outcomes, hlength]

/-- Leaves report the remarks of their outcomes, in whatever words. -/
theorem reword_of_eq_leafReport {r r' : Report} {os os' : List (Option Remark)}
    (h : r = leafReport os) (h' : r' = leafReport os') (ho : os' = os.map (Option.map f)) :
    r' = r.reword f := by
  rw [h', ho, reword_leafReport, h]

theorem conclude_of_reword {anySuffices anySuffices' : Bool} {cs cs' : List Child}
    (h : anySuffices' = anySuffices) (hcs : cs' = cs.map (Child.reword f)) :
    conclude anySuffices' cs' = (conclude anySuffices cs).reword f := by
  rw [h, hcs, conclude_reword]

mutual

/-- Where the visits of a node end alike up to other remarks, the node reports these remarks line by
line. -/
theorem runNode_snd_reword {brief brief' : Bool} : ∀ (n : Node) {scope scope' : Scope}
    {forced : Bool} {d e : RequestData}, Alike brief brief' forced scope scope' →
    outcomes brief' (nodeVisits n scope'.source forced) e =
      (outcomes brief (nodeVisits n scope.source forced) d).map (Option.map f) →
    (runNode n scope' e).2 = (runNode n scope d).2.reword f
  | .field name, _, _, _, d, e, h, ho =>
    reword_of_eq_leafReport (requireField_eq_leafReport h.brief_left name d)
      (requireField_eq_leafReport h.brief_right name e) ho
  | .group nodes, _, _, _, _, _, h, ho =>
    conclude_of_reword rfl (runChildren_snd_reword nodes h.conjunctive ho)
  | .combined c nodes, _, _, _, _, _, h, ho =>
    conclude_of_reword rfl (runChildren_snd_reword nodes (h.combined c) ho)
  | .sourced s nodes, _, _, _, _, _, h, ho =>
    conclude_of_reword h.anySuffices (runChildren_snd_reword nodes (h.sourced s) ho)
  | .coerced c names, scope, scope', _, d, e, _, ho =>
    reword_of_eq_leafReport (coerceFields_snd brief c scope.source names d)
      (coerceFields_snd brief' c scope'.source names e) ho
  | .oneOf name as, scope, scope', _, d, e, _, ho =>
    reword_of_eq_leafReport (restrictField_snd brief name as scope.source d)
      (restrictField_snd brief' name as scope'.source e) ho

theorem runChildren_snd_reword {brief brief' : Bool} : ∀ (ns : List Node) {scope scope' : Scope}
    {forced : Bool} {d e : RequestData}, Alike brief brief' forced scope scope' →
    outcomes brief' (visits ns scope'.source forced) e =
      (outcomes brief (visits ns scope.source forced) d).map (Option.map f) →
    (runChildren ns scope' e).2 = (runChildren ns scope d).2.map (Child.reword f)
  | [], _, _, _, _, _, _, _ => rfl
  | n :: ns, scope, scope', forced, d, e, h, ho => by
    -- The outcomes are cut where those of the first node end, and the rest of the nodes runs on
    -- what the first one leaves.
    obtain ⟨hfirst, hrest⟩ := reword_outcomes_append (by simp only [length_nodeVisits]) ho
    rw [← runNode_fst n scope forced, ← runNode_fst n scope' forced] at hrest
    have hn := runNode_snd_reword n h hfirst
    have hns := runChildren_snd_reword ns h hrest
    rw [runChildren_cons_snd, runChildren_cons_snd, hn, hns, h.satisfies_eq, List.map_cons]
    rfl

end

/-- Where the visits of a node end alike on two data, it reports the same. -/
theorem runNode_snd_congr (n : Node) (scope : Scope) {d e : RequestData}
    (h : outcomes scope.brief (nodeVisits n scope.source false) e =
      outcomes scope.brief (nodeVisits n scope.source false) d) :
    (runNode n scope e).2 = (runNode n scope d).2 := by
  have hreword : (runNode n scope e).2 = (runNode n scope d).2.reword id := by
    apply runNode_snd_reword n (Alike.root scope.source scope.brief scope.brief scope.anySuffices)
    rw [h, Option.map_id, List.map_id]
  rw [hreword, Report.reword_id]

theorem run_snd_reword {nodes : List Node} {s : Source} {brief brief' : Bool} (anySuffices : Bool)
    {d e : RequestData}
    (h : outcomes brief' (visits nodes s false) e =
      (outcomes brief (visits nodes s false) d).map (Option.map f)) :
    (run nodes ⟨s, brief', anySuffices⟩ e).2 = (run nodes ⟨s, brief, anySuffices⟩ d).2.reword f :=
  conclude_of_reword rfl
    (runChildren_snd_reword nodes (Alike.root s brief brief' anySuffices) h)

end Schema

end RequestGuard
