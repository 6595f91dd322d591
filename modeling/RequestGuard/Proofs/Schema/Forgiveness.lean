import Mathlib.Data.List.Forall2
import RequestGuard.Proofs.Schema.Outcome

/-!
# Forgiveness is monotone

A group is silent when a node in it satisfies it or when no node in it reports anything. Under
neither rule does a fault that goes away bring a line about: where each visit ends no worse than
before (`Milder`), a node that was silent stays silent, at every level.
`nodeLines_eq_nil_of_milder` carries this over the tree.
-/

namespace RequestGuard.Schema

/-- The second outcome finds nothing wrong where the first does not. -/
def Milder (o p : Option Remark) : Prop := o = none → p = none

/-- The second share is silent where the first is, and belongs to a node of the same sort. -/
def Share.Milder (s t : Share) : Prop := s.anyOf = t.anyOf ∧ (s.lines = [] → t.lines = [])

theorem leafLines_eq_nil_iff (os : List (Option Remark)) :
    leafLines os = [] ↔ ∀ o ∈ os, o = none := by
  rw [leafLines, List.map_eq_nil_iff, List.reduceOption, List.filterMap_eq_nil_iff]
  rfl

/-- When a group is silent: some node's silence satisfies it, or nothing is reported where
everything has to hold. -/
theorem groupLines_eq_nil_iff (anySuffices : Bool) (ss : List Share) :
    groupLines anySuffices ss = [] ↔
      (∃ s ∈ ss, (anySuffices = true ∨ s.anyOf = true) ∧ s.lines = []) ∨
        anySuffices = false ∧ ∀ s ∈ ss, s.lines = [] := by
  cases anySuffices with
  | true =>
    -- The heading stands above the lines of any child, so only silence leaves nothing.
    unfold groupLines
    simp only [if_true, ite_eq_left_iff, reduceCtorEq, imp_false, not_not, List.any_eq_true,
      List.isEmpty_iff, true_or, true_and, false_and, or_false]
  | false =>
    unfold groupLines
    simp only [Bool.false_eq_true, if_false, ite_eq_left_iff, List.any_eq_true, Bool.and_eq_true,
      List.isEmpty_iff, List.flatMap_eq_nil_iff, false_or, true_and]
    exact Decidable.or_iff_not_imp_left.symm

theorem exists_silent_of_milder {anySuffices : Bool} {ss ts : List Share}
    (h : List.Forall₂ Share.Milder ss ts)
    (hs : ∃ s ∈ ss, (anySuffices = true ∨ s.anyOf = true) ∧ s.lines = []) :
    ∃ t ∈ ts, (anySuffices = true ∨ t.anyOf = true) ∧ t.lines = [] := by
  induction h with
  | nil => exact absurd hs (by simp)
  | @cons s t ss ts hst _ ih =>
    obtain ⟨u, hu, hany, hlines⟩ := hs
    rcases List.mem_cons.mp hu with rfl | hu
    · have hany' : anySuffices = true ∨ t.anyOf = true := by
        rw [← hst.1]
        exact hany
      exact ⟨t, List.mem_cons_self, hany', hst.2 hlines⟩
    · obtain ⟨w, hw, hrest⟩ := ih ⟨u, hu, hany, hlines⟩
      exact ⟨w, List.mem_cons_of_mem _ hw, hrest⟩

theorem all_silent_of_milder {ss ts : List Share} (h : List.Forall₂ Share.Milder ss ts)
    (hs : ∀ s ∈ ss, s.lines = []) : ∀ t ∈ ts, t.lines = [] := by
  induction h with
  | nil => exact hs
  | @cons s t ss ts hst _ ih =>
    obtain ⟨hhead, htail⟩ := List.forall_mem_cons.mp hs
    exact List.forall_mem_cons.mpr ⟨hst.2 hhead, ih htail⟩

theorem leafLines_eq_nil_of_milder {os ps : List (Option Remark)} (h : List.Forall₂ Milder os ps)
    (hos : leafLines os = []) : leafLines ps = [] := by
  rw [leafLines_eq_nil_iff] at hos ⊢
  induction h with
  | nil => exact hos
  | @cons o p os ps hop _ ih =>
    obtain ⟨hhead, htail⟩ := List.forall_mem_cons.mp hos
    exact List.forall_mem_cons.mpr ⟨hop hhead, ih htail⟩

theorem groupLines_eq_nil_of_milder {anySuffices : Bool} {ss ts : List Share}
    (h : List.Forall₂ Share.Milder ss ts)
    (hss : groupLines anySuffices ss = []) : groupLines anySuffices ts = [] := by
  rw [groupLines_eq_nil_iff] at hss ⊢
  rcases hss with hsome | ⟨hflag, hall⟩
  · exact .inl (exists_silent_of_milder h hsome)
  · exact .inr ⟨hflag, all_silent_of_milder h hall⟩

mutual

/-- A node that is silent stays silent where each of its visits ends no worse. -/
theorem nodeLines_eq_nil_of_milder :
    ∀ (n : Node) (anySuffices : Bool) {os ps : List (Option Remark)}, List.Forall₂ Milder os ps →
    nodeLines n anySuffices os = [] → nodeLines n anySuffices ps = []
  | .field _, _, _, _, h, hos => leafLines_eq_nil_of_milder h hos
  | .group nodes, _, _, _, h, hos => groupLines_eq_nil_of_milder (shares_milder nodes false h) hos
  | .combined .any nodes, _, _, _, h, hos =>
    groupLines_eq_nil_of_milder (shares_milder nodes true h) hos
  | .combined .all nodes, _, _, _, h, hos =>
    groupLines_eq_nil_of_milder (shares_milder nodes false h) hos
  | .sourced _ nodes, anySuffices, _, _, h, hos =>
    groupLines_eq_nil_of_milder (shares_milder nodes anySuffices h) hos
  | .coerced _ _, _, _, _, h, hos => leafLines_eq_nil_of_milder h hos
  | .oneOf _ _, _, _, _, h, hos => leafLines_eq_nil_of_milder h hos

theorem shares_milder :
    ∀ (ns : List Node) (anySuffices : Bool) {os ps : List (Option Remark)}, List.Forall₂ Milder os ps →
    List.Forall₂ Share.Milder (shares ns anySuffices os) (shares ns anySuffices ps)
  | [], _, _, _, _ => .nil
  | n :: ns, anySuffices, os, ps, h => by
    -- Both lists of outcomes are cut at the same place, so the parts match as well.
    have htake := List.forall₂_take (nodeVisitCount n) h
    have hdrop := List.forall₂_drop (nodeVisitCount n) h
    have hnode : Share.Milder ⟨isAnyOf n, nodeLines n anySuffices (os.take (nodeVisitCount n))⟩
        ⟨isAnyOf n, nodeLines n anySuffices (ps.take (nodeVisitCount n))⟩ :=
      ⟨rfl, nodeLines_eq_nil_of_milder n anySuffices htake⟩
    exact .cons hnode (shares_milder ns anySuffices hdrop)

end

/-- A run is silent just when the lines that the outcomes of its visits dictate are none. -/
theorem run_snd_eq_nil_iff (nodes : List Node) (scope : Scope) (d : RequestData) :
    (run nodes scope d).2 = [] ↔
      groupLines scope.anySuffices
        (shares nodes scope.anySuffices
          (outcomes scope.brief (visits nodes scope.source false) d)) = [] := by
  rw [← texts_conclude (runChildren_view_root nodes scope d), Report.texts, List.map_eq_nil_iff]
  rfl

/-- A run whose visits end no worse than those of a silent one is silent. -/
theorem run_snd_eq_nil_of_milder {nodes : List Node} {scope : Scope} {d e : RequestData}
    (h : List.Forall₂ Milder (outcomes scope.brief (visits nodes scope.source false) d)
      (outcomes scope.brief (visits nodes scope.source false) e))
    (hd : (run nodes scope d).2 = []) : (run nodes scope e).2 = [] := by
  rw [run_snd_eq_nil_iff] at hd ⊢
  exact groupLines_eq_nil_of_milder (shares_milder nodes scope.anySuffices h) hd

end RequestGuard.Schema
