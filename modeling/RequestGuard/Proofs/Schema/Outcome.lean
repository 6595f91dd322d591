import Mathlib.Data.List.ReduceOption
import RequestGuard.Proofs.Schema.Visit

/-!
# The report that the outcomes of visits dictate

A visit ends in one of two ways: nothing is wrong, or there is the one remark that it makes.
`outcomes` lists how the visits of a schema end, each on the data that the visits before it left.
`groupLines` says what a group makes of the lines of its nodes, and `nodeLines` and `shares` put
that together over a whole tree. They are handed the outcomes and no data, so what they compute
depends on nothing else.

The main statement is that the lines of a run are these lines. `runNode_texts` carries the
induction; the outcomes of a node's visits are cut off the front of the list by their count.
-/

namespace RequestGuard.Schema

/-! ## Outcomes -/

/-- What a visit finds wrong, if anything. The remark about a missing field leaves the source out
where the root of the schema is `brief` about it and no node around the field forces one. -/
def Visit.remark? (brief : Bool) : Visit → RequestData → Option Remark
  | ⟨s, name, .given forced⟩, d =>
    if d.contains s name then none
    else some (.missingField name (if brief && !forced then none else some s))
  | ⟨s, name, .ofKind c⟩, d =>
    if ((d.get? s name).bind c.coerce?).isSome then none else some (.unmet c name)
  | ⟨s, name, .among as⟩, d =>
    match d.get? s name with
    | none => some (.missingValue name)
    | some given =>
      if (firstMatch? given d as).isSome then none
      else if as.any Alternative.isTransform then some (.invalidFormat name)
      else some (.notOneOf name (as.map Alternative.display))

/-- How visits end, each on the data that the ones before it left. -/
def outcomes (brief : Bool) : List Visit → RequestData → List (Option Remark)
  | [], _ => []
  | v :: vs, d => v.remark? brief d :: outcomes brief vs (v.effect d)

@[simp] theorem length_outcomes (brief : Bool) (vs : List Visit) (d : RequestData) :
    (outcomes brief vs d).length = vs.length := by
  induction vs generalizing d with
  | nil => rfl
  | cons v vs ih => rw [outcomes, List.length_cons, List.length_cons, ih]

theorem outcomes_append (brief : Bool) (vs ws : List Visit) (d : RequestData) :
    outcomes brief (vs ++ ws) d = outcomes brief vs d ++ outcomes brief ws (perform vs d) := by
  induction vs generalizing d with
  | nil => rfl
  | cons v vs ih => rw [List.cons_append, outcomes, ih, outcomes, perform_cons, List.cons_append]

/-! ## Lines from outcomes -/

mutual

/-- The count of a node's visits. -/
def nodeVisitCount : Node → Nat
  | .field _ => 1
  | .group nodes => visitCount nodes
  | .combined _ nodes => visitCount nodes
  | .sourced _ nodes => visitCount nodes
  | .coerced _ names => names.length
  | .oneOf _ _ => 1

/-- The count of the visits of nodes. -/
def visitCount : List Node → Nat
  | [] => 0
  | n :: ns => nodeVisitCount n + visitCount ns

end

/-- What a node contributes to the lines of the group around it. -/
structure Share where
  /-- Whether the node is a group in which one node is enough. -/
  anyOf : Bool
  lines : List String

/-- The lines of a group, of which `anySuffices` says whether one node is enough. Where it is, one
silent node silences the group, and otherwise all lines stand two spaces further in under a heading.
Where it is not, only a silent node that is itself a group in which one is enough silences it, and
otherwise all lines stand as they are. -/
def groupLines (anySuffices : Bool) (shares : List Share) : List String :=
  if anySuffices then
    if shares.any fun s => s.lines.isEmpty then []
    else "At least one of the following." :: (shares.flatMap Share.lines).map ("  " ++ ·)
  else if shares.any fun s => s.anyOf && s.lines.isEmpty then []
  else shares.flatMap Share.lines

/-- The lines of visits that no group lies between: the remarks made, in order. -/
def leafLines (os : List (Option Remark)) : List String :=
  os.reduceOption.map Remark.text

/-- Whether the node is a group in which one node is enough. -/
def isAnyOf : Node → Bool
  | .combined .any _ => true
  | _ => false

mutual

/-- The lines of a node, given how its visits end and whether one node is enough in the group around
it. Plain groups and those of `all` are without that flag, those of `any` are with it, and those
about a source keep the one they are in. -/
def nodeLines : Node → Bool → List (Option Remark) → List String
  | .field _, _, os => leafLines os
  | .group nodes, _, os => groupLines false (shares nodes false os)
  | .combined .any nodes, _, os => groupLines true (shares nodes true os)
  | .combined .all nodes, _, os => groupLines false (shares nodes false os)
  | .sourced _ nodes, anySuffices, os => groupLines anySuffices (shares nodes anySuffices os)
  | .coerced _ _, _, os => leafLines os
  | .oneOf _ _, _, os => leafLines os

/-- What nodes contribute one after another, given how all their visits end. -/
def shares : List Node → Bool → List (Option Remark) → List Share
  | [], _, _ => []
  | n :: ns, anySuffices, os =>
    ⟨isAnyOf n, nodeLines n anySuffices (os.take (nodeVisitCount n))⟩ ::
      shares ns anySuffices (os.drop (nodeVisitCount n))

end

mutual

@[simp] theorem length_nodeVisits : ∀ (n : Node) (s : Source) (forced : Bool),
    (nodeVisits n s forced).length = nodeVisitCount n
  | .field _, _, _ => rfl
  | .group nodes, s, forced => length_visits nodes s forced
  | .combined _ nodes, s, forced => length_visits nodes s forced
  | .sourced s nodes, _, _ => length_visits nodes s true
  | .coerced _ _, _, _ => List.length_map _
  | .oneOf _ _, _, _ => rfl

@[simp] theorem length_visits : ∀ (ns : List Node) (s : Source) (forced : Bool),
    (visits ns s forced).length = visitCount ns
  | [], _, _ => rfl
  | n :: ns, s, forced => by
    rw [visits, List.length_append, length_nodeVisits n s forced, length_visits ns s forced,
      visitCount]

end

/-- The outcomes of a list of nodes, cut where those of its first node end. -/
theorem shares_outcomes_cons (n : Node) (ns : List Node) (anySuffices brief : Bool) (s : Source)
    (forced : Bool) (d : RequestData) :
    shares (n :: ns) anySuffices (outcomes brief (visits (n :: ns) s forced) d) =
      ⟨isAnyOf n, nodeLines n anySuffices (outcomes brief (nodeVisits n s forced) d)⟩ ::
        shares ns anySuffices
          (outcomes brief (visits ns s forced) (perform (nodeVisits n s forced) d)) := by
  have hlen : (outcomes brief (nodeVisits n s forced) d).length = nodeVisitCount n := by
    rw [length_outcomes, length_nodeVisits]
  rw [visits, outcomes_append, shares, List.take_left' hlen, List.drop_left' hlen]

/-! ## Reports as lines -/

@[simp] theorem texts_isEmpty (r : Report) : r.texts.isEmpty = r.isEmpty := List.isEmpty_map

theorem text_indent (l : Line) : l.indent.text = "  " ++ l.text := by
  simp only [Line.indent, Line.text, Line.indentation, String.append_assoc]

theorem texts_underHeading (r : Report) :
    r.underHeading.texts = "At least one of the following." :: r.texts.map ("  " ++ ·) := by
  have hhead : Line.text ⟨0, .heading⟩ = "At least one of the following." := by
    simp only [Line.text, Line.indentation, Entry.text, String.empty_append]
  have hlines : r.map (Line.text ∘ Line.indent) = r.map (("  " ++ ·) ∘ Line.text) := by
    apply List.map_congr_left
    intro l _
    exact text_indent l
  unfold Report.underHeading Report.texts
  rw [List.map_cons, hhead, List.map_map, List.map_map, hlines]

theorem texts_flatMap_report (cs : List Child) :
    Report.texts (cs.flatMap Child.report) = cs.flatMap fun c => c.report.texts :=
  List.map_flatMap

/-- Whether a child satisfies its group, and its lines. -/
def Child.view (c : Child) : Bool × List String := (c.satisfies, c.report.texts)

/-- The same of what a node contributes to a group. -/
def Share.view (anySuffices : Bool) (s : Share) : Bool × List String :=
  (anySuffices || s.anyOf, s.lines)

/-- A group concludes from its children what `groupLines` makes of their shares. -/
theorem texts_conclude {anySuffices : Bool} {cs : List Child} {ss : List Share}
    (h : cs.map Child.view = ss.map (Share.view anySuffices)) :
    (conclude anySuffices cs).texts = groupLines anySuffices ss := by
  -- All that `conclude` asks of its children is in their views: who is silent, and the lines.
  have hsilent : (cs.any fun c => c.satisfies && c.report.isEmpty) =
      ss.any fun s => (anySuffices || s.anyOf) && s.lines.isEmpty := by
    have hany := congrArg (List.any · fun p => p.1 && p.2.isEmpty) h
    simpa only [List.any_map, Function.comp_def, Child.view, Share.view, texts_isEmpty] using hany
  have hlines : Report.texts (cs.flatMap Child.report) = ss.flatMap Share.lines := by
    have hflat := congrArg (List.flatMap Prod.snd) h
    rw [texts_flatMap_report]
    simpa only [List.flatMap_map, Child.view, Share.view] using hflat
  cases anySuffices with
  | true =>
    unfold conclude groupLines
    rw [hsilent]
    simp only [Bool.true_or, Bool.true_and, if_true]
    split
    · rfl
    · rw [texts_underHeading, hlines]
  | false =>
    unfold conclude groupLines
    rw [hsilent]
    simp only [Bool.false_or, Bool.false_eq_true, if_false]
    split
    · rfl
    · exact hlines

/-! ## The lines of a run -/

/-- The report of visits that no group lies between. -/
def leafReport (os : List (Option Remark)) : Report := os.reduceOption.map Line.ofRemark

theorem leafReport_append (os ps : List (Option Remark)) :
    leafReport (os ++ ps) = leafReport os ++ leafReport ps := by
  rw [leafReport, List.reduceOption_append, List.map_append, leafReport, leafReport]

theorem texts_of_eq_leafReport {r : Report} {os : List (Option Remark)} (h : r = leafReport os) :
    r.texts = leafLines os := by
  have htext : Line.text ∘ Line.ofRemark = Remark.text := by
    funext remark
    simp only [Function.comp_apply, Line.text, Line.ofRemark, Line.indentation, Entry.text,
      String.empty_append]
  rw [h, Report.texts, leafReport, List.map_map, htext, leafLines]

theorem requireField_eq_leafReport {scope : Scope} {brief forced : Bool}
    (h : scope.brief = (brief && !forced)) (name : String) (d : RequestData) :
    requireField scope name d =
      leafReport [Visit.remark? brief ⟨scope.source, name, .given forced⟩ d] := by
  rw [requireField, Visit.remark?, h]
  cases d.contains scope.source name <;> rfl

theorem coerceField_snd (brief : Bool) (c : Coercion) (s : Source) (name : String)
    (d : RequestData) :
    (coerceField c s name d).2 = leafReport [Visit.remark? brief ⟨s, name, .ofKind c⟩ d] := by
  rw [coerceField, Visit.remark?]
  cases (d.get? s name).bind c.coerce? <;> rfl

theorem coerceFields_snd (brief : Bool) (c : Coercion) (s : Source) (names : List String)
    (d : RequestData) :
    (coerceFields c s names d).2 =
      leafReport (outcomes brief (names.map fun name => ⟨s, name, .ofKind c⟩) d) := by
  induction names generalizing d with
  | nil => rfl
  | cons name names ih =>
    have hcons : (coerceFields c s (name :: names) d).2 =
        (coerceField c s name d).2 ++ (coerceFields c s names (coerceField c s name d).1).2 :=
      rfl
    rw [hcons, coerceField_snd brief, ih, ← leafReport_append]
    rfl

theorem restrictField_snd (brief : Bool) (name : String) (as : List Alternative) (s : Source)
    (d : RequestData) :
    (restrictField name as s d).2 = leafReport [Visit.remark? brief ⟨s, name, .among as⟩ d] := by
  rw [restrictField, Visit.remark?]
  cases d.get? s name with
  | none => rfl
  | some given =>
    cases hm : firstMatch? given d as with
    | some m => cases m <;> simp only [hm, Option.isSome_some, if_true] <;> rfl
    | none =>
      simp only [hm, Option.isSome_none, Bool.false_eq_true, if_false]
      split <;> rfl

/-- Running nodes one after another: the first is run, and the rest on the data that it leaves. -/
theorem runChildren_cons_snd (n : Node) (ns : List Node) (scope : Scope) (d : RequestData) :
    (runChildren (n :: ns) scope d).2 =
      ⟨satisfies scope n, (runNode n scope d).2⟩ ::
        (runChildren ns scope (runNode n scope d).1).2 := rfl

/-- Running nodes behind others: they are run on the data that the others leave. -/
theorem runChildren_append (ns ms : List Node) (scope : Scope) (d : RequestData) :
    runChildren (ns ++ ms) scope d =
      ((runChildren ms scope (runChildren ns scope d).1).1,
        (runChildren ns scope d).2 ++ (runChildren ms scope (runChildren ns scope d).1).2) := by
  induction ns generalizing d with
  | nil => rfl
  | cons n ns ih =>
    have hrest := ih (runNode n scope d).1
    simp only [List.cons_append, runChildren, hrest]

theorem satisfies_eq (scope : Scope) (n : Node) :
    satisfies scope n = (scope.anySuffices || isAnyOf n) := by
  cases n with
  | combined c _ =>
    cases c with
    | any => exact (Bool.or_true _).symm
    | all => exact (Bool.or_false _).symm
  | field _ | group _ | sourced _ _ | coerced _ _ | oneOf _ _ => exact (Bool.or_false _).symm

/-- Under a forced source no scope is brief. -/
theorem brief_sourced (scope : Scope) (s : Source) (brief : Bool) :
    (scope.sourced s).brief = (brief && !true) :=
  (Bool.and_false brief).symm

mutual

/-- A node reports the lines that the outcomes of its visits dictate, where its scope is brief just
when the root of the schema is and no source is forced around the node. -/
theorem runNode_texts : ∀ (n : Node) (scope : Scope) (brief forced : Bool),
    scope.brief = (brief && !forced) →
    ∀ d : RequestData, (runNode n scope d).2.texts =
      nodeLines n scope.anySuffices (outcomes brief (nodeVisits n scope.source forced) d)
  | .field name, _, _, _, h, d => texts_of_eq_leafReport (requireField_eq_leafReport h name d)
  | .group nodes, scope, b, f, h, d =>
    texts_conclude (runChildren_view nodes scope.conjunctive b f h d)
  | .combined .any nodes, scope, b, f, h, d =>
    texts_conclude (runChildren_view nodes (scope.combined .any) b f h d)
  | .combined .all nodes, scope, b, f, h, d =>
    texts_conclude (runChildren_view nodes (scope.combined .all) b f h d)
  | .sourced s nodes, scope, b, _, _, d =>
    texts_conclude (runChildren_view nodes (scope.sourced s) b true (brief_sourced scope s b) d)
  | .coerced c names, scope, b, _, _, d =>
    texts_of_eq_leafReport (coerceFields_snd b c scope.source names d)
  | .oneOf name as, scope, b, _, _, d =>
    texts_of_eq_leafReport (restrictField_snd b name as scope.source d)

theorem runChildren_view : ∀ (ns : List Node) (scope : Scope) (brief forced : Bool),
    scope.brief = (brief && !forced) →
    ∀ d : RequestData, (runChildren ns scope d).2.map Child.view =
      (shares ns scope.anySuffices (outcomes brief (visits ns scope.source forced) d)).map
        (Share.view scope.anySuffices)
  | [], _, _, _, _, _ => rfl
  | n :: ns, scope, b, f, h, d => by
    have hn := runNode_texts n scope b f h d
    -- The rest of the nodes runs on the data that the first one leaves, and so do its visits.
    have hns := runChildren_view ns scope b f h (runNode n scope d).1
    rw [runNode_fst n scope f d] at hns
    rw [runChildren_cons_snd, List.map_cons, runNode_fst n scope f d, hns, shares_outcomes_cons,
      List.map_cons, Child.view, Share.view, hn, satisfies_eq]

end

/-- The shares of a run's nodes, with the root of the schema as brief as the scope. -/
theorem runChildren_view_root (nodes : List Node) (scope : Scope) (d : RequestData) :
    (runChildren nodes scope d).2.map Child.view =
      (shares nodes scope.anySuffices
        (outcomes scope.brief (visits nodes scope.source false) d)).map
        (Share.view scope.anySuffices) :=
  runChildren_view nodes scope scope.brief false (Bool.and_true scope.brief).symm d

/-- **The report is the one that the outcomes of the visits dictate.** The lines of a run are the
lines that its group makes of the outcomes of its visits and of nothing else. -/
theorem run_texts_eq_groupLines (nodes : List Node) (scope : Scope) (d : RequestData) :
    (run nodes scope d).2.texts =
      groupLines scope.anySuffices
        (shares nodes scope.anySuffices
          (outcomes scope.brief (visits nodes scope.source false) d)) :=
  texts_conclude (runChildren_view_root nodes scope d)

end RequestGuard.Schema
