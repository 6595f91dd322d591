import RequestGuard.Proofs.Schema.Forgiveness

/-!
# Schemas without alternatives between nodes

Where no group stands in a schema in which one node is enough, nothing is ever forgiven: a run is
silent just when every visit found nothing wrong (`run_snd_eq_nil_iff_forall_outcomes`). The
induction over the tree is `nodeLines_eq_nil_iff`; it cuts the outcomes where the lines are cut.
-/

namespace RequestGuard.Schema

mutual

/-- Whether a group in which one node is enough stands anywhere in the node, or is the node. -/
def nodeHasAnyOf : Node → Bool
  | .field _ => false
  | .group nodes => hasAnyOf nodes
  | .combined .any _ => true
  | .combined .all nodes => hasAnyOf nodes
  | .sourced _ nodes => hasAnyOf nodes
  | .coerced _ _ => false
  | .oneOf _ _ => false

/-- Whether a group in which one node is enough stands anywhere in the nodes. -/
def hasAnyOf : List Node → Bool
  | [] => false
  | n :: ns => nodeHasAnyOf n || hasAnyOf ns

end

theorem isAnyOf_of_not_nodeHasAnyOf {n : Node} (h : nodeHasAnyOf n = false) : isAnyOf n = false := by
  cases n with
  | combined c nodes =>
    cases c with
    | any => exact absurd h Bool.noConfusion
    | all => rfl
  | field _ | group _ | sourced _ _ | coerced _ _ | oneOf _ _ => rfl

theorem anyOf_of_mem_shares {ns : List Node} (h : hasAnyOf ns = false) (anySuffices : Bool)
    (os : List (Option Remark)) : ∀ s ∈ shares ns anySuffices os, s.anyOf = false := by
  induction ns generalizing os with
  | nil =>
    intro s hs
    exact absurd hs List.not_mem_nil
  | cons n ns ih =>
    obtain ⟨hn, hns⟩ := Bool.or_eq_false_iff.mp h
    rw [shares]
    exact List.forall_mem_cons.mpr ⟨isAnyOf_of_not_nodeHasAnyOf hn, ih hns _⟩

/-- A group in which everything has to hold, and that holds no group in which one node is enough, is
silent just when all its nodes are. -/
theorem groupLines_shares_eq_nil_iff {ns : List Node} (h : hasAnyOf ns = false)
    (os : List (Option Remark)) :
    groupLines false (shares ns false os) = [] ↔ ∀ s ∈ shares ns false os, s.lines = [] := by
  rw [groupLines_eq_nil_iff]
  constructor
  · rintro (⟨s, hs, hany | hany, _⟩ | ⟨_, hall⟩)
    · exact absurd hany Bool.false_ne_true
    · rw [anyOf_of_mem_shares h false os s hs] at hany
      exact absurd hany Bool.false_ne_true
    · exact hall
  · intro hall
    exact .inr ⟨rfl, hall⟩

mutual

/-- Such a node is silent just when none of its visits found anything. -/
theorem nodeLines_eq_nil_iff : ∀ (n : Node), nodeHasAnyOf n = false →
    ∀ os : List (Option Remark), os.length = nodeVisitCount n →
      (nodeLines n false os = [] ↔ ∀ o ∈ os, o = none)
  | .field _, _, os, _ => leafLines_eq_nil_iff os
  | .group nodes, h, os, hlen =>
    (groupLines_shares_eq_nil_iff h os).trans (shares_silent_iff nodes h os hlen)
  | .combined .all nodes, h, os, hlen =>
    (groupLines_shares_eq_nil_iff h os).trans (shares_silent_iff nodes h os hlen)
  | .sourced _ nodes, h, os, hlen =>
    (groupLines_shares_eq_nil_iff h os).trans (shares_silent_iff nodes h os hlen)
  | .coerced _ _, _, os, _ => leafLines_eq_nil_iff os
  | .oneOf _ _, _, os, _ => leafLines_eq_nil_iff os

theorem shares_silent_iff : ∀ (ns : List Node), hasAnyOf ns = false →
    ∀ os : List (Option Remark), os.length = visitCount ns →
      ((∀ s ∈ shares ns false os, s.lines = []) ↔ ∀ o ∈ os, o = none)
  | [], _, os, hlen => by
    rw [List.eq_nil_of_length_eq_zero hlen]
    exact ⟨fun _ o ho => absurd ho List.not_mem_nil, fun _ s hs => absurd hs List.not_mem_nil⟩
  | n :: ns, h, os, hlen => by
    obtain ⟨hn, hns⟩ := Bool.or_eq_false_iff.mp h
    rw [visitCount] at hlen
    have htake : (os.take (nodeVisitCount n)).length = nodeVisitCount n := by
      rw [List.length_take]
      omega
    have hdrop : (os.drop (nodeVisitCount n)).length = visitCount ns := by
      rw [List.length_drop]
      omega
    rw [shares, List.forall_mem_cons, nodeLines_eq_nil_iff n hn _ htake,
      shares_silent_iff ns hns _ hdrop, ← List.forall_mem_append, List.take_append_drop]

end

/-- Where nothing is forgiven, a run is silent just when every visit found nothing wrong. -/
theorem run_snd_eq_nil_iff_forall_outcomes {nodes : List Node} (hany : hasAnyOf nodes = false)
    {scope : Scope} (hscope : scope.anySuffices = false) (d : RequestData) :
    (run nodes scope d).2 = [] ↔
      ∀ o ∈ outcomes scope.brief (visits nodes scope.source false) d, o = none := by
  have hlen : (outcomes scope.brief (visits nodes scope.source false) d).length =
      visitCount nodes := by
    rw [length_outcomes, length_visits]
  rw [run_snd_eq_nil_iff, hscope, groupLines_shares_eq_nil_iff hany,
    shares_silent_iff nodes hany _ hlen]

end RequestGuard.Schema
