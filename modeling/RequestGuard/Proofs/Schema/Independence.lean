import RequestGuard.Proofs.Schema.Fate
import RequestGuard.Proofs.Schema.Footprint
import RequestGuard.Proofs.Schema.Rewording

/-!
# Independent neighbours

Two nodes without transforms are independent where neither visits a field that the other may write.
Then neither sees whether the other has run. A visit is told by its own field alone how it ends
(`remark?_congr`), and the visits of the one leave the fields of the other as they are
(`agree_perform`); so each finds the same before the other and behind it. What the two leave does
not depend on their order either (`perform_comm`), and the nodes behind them run on the same data.

What is left is the group around them. Which of its nodes are silent does not depend on their order,
and neither does the group; and where it is not silent, it reports its nodes one block of lines after
another (`conclude_exchange`).
-/

namespace RequestGuard.Schema

/-! ## Visits that spare each other's fields -/

/-- None of the second visits is to a field that one of the first may write. -/
def Spare (vs ws : List Visit) : Prop := ∀ w ∈ ws, w.target ∉ targets vs

instance (vs ws : List Visit) : Decidable (Spare vs ws) :=
  inferInstanceAs (Decidable (∀ w ∈ ws, w.target ∉ targets vs))

/-- The data agrees on the fields of visits. -/
def Agree (vs : List Visit) (d e : RequestData) : Prop :=
  ∀ v ∈ vs, d.get? v.source v.name = e.get? v.source v.name

theorem not_mem_targets_of_spare {vs ws : List Visit} (h : Spare vs ws) {t : Source × String}
    (ht : t ∈ targets vs) : t ∉ targets ws := by
  intro hmem
  obtain ⟨w, hw, -, rfl⟩ := exists_of_mem_targets hmem
  exact h w hw ht

/-- How a visit ends is settled by its own field. -/
theorem remark?_congr {v : Visit} (hfree : v.demand.hasTransform = false) (brief : Bool)
    {d e : RequestData} (h : d.get? v.source v.name = e.get? v.source v.name) :
    v.remark? brief d = v.remark? brief e := by
  obtain ⟨s, n, demand⟩ := v
  cases demand with
  | given forced =>
    have hthere : d.contains s n = e.contains s n := congrArg Option.isSome h
    simp only [Visit.remark?, hthere]
  | ofKind c =>
    have hfield : d.get? s n = e.get? s n := h
    simp only [Visit.remark?, hfield]
  | among as =>
    have hfield : d.get? s n = e.get? s n := h
    simp only [Visit.remark?, hfield, firstMatch?_eq hfree]

/-- And so is what it leaves there, so that data which agrees on a field does so after any visit. -/
theorem get?_effect_congr {v : Visit} (hfree : v.demand.hasTransform = false) {d e : RequestData}
    {s : Source} {n : String} (h : d.get? s n = e.get? s n) :
    (v.effect d).get? s n = (v.effect e).get? s n := by
  rw [get?_effect hfree, get?_effect hfree, h]

theorem outcomes_congr {vs : List Visit} (hfree : ∀ v ∈ vs, v.demand.hasTransform = false)
    (brief : Bool) {d e : RequestData} (h : Agree vs d e) :
    outcomes brief vs d = outcomes brief vs e := by
  induction vs generalizing d e with
  | nil => rfl
  | cons v vs ih =>
    obtain ⟨hv, hvs⟩ := List.forall_mem_cons.mp hfree
    obtain ⟨hfield, hrest⟩ := List.forall_mem_cons.mp h
    have hagree : Agree vs (v.effect d) (v.effect e) := by
      intro w hw
      exact get?_effect_congr hv (hrest w hw)
    rw [outcomes, outcomes, remark?_congr hv brief hfield, ih hvs hagree]

/-- Visits leave the fields as they are of visits that they spare. -/
theorem agree_perform {vs ws : List Visit} (h : Spare vs ws) (d : RequestData) :
    Agree ws (perform vs d) d := by
  intro w hw
  exact get?_perform_of_not_mem_targets (h w hw) d

/-- A field that some visits do not write is what other visits make of it, before them and behind. -/
theorem get?_perform_comm {vs ws : List Visit} (hfree : ∀ v ∈ vs, v.demand.hasTransform = false)
    {s : Source} {n : String} (h : (s, n) ∉ targets ws) (d : RequestData) :
    (perform ws (perform vs d)).get? s n = (perform vs (perform ws d)).get? s n := by
  rw [get?_perform_of_not_mem_targets h, get?_perform hfree, get?_perform hfree,
    get?_perform_of_not_mem_targets h]

/-- Visits that spare each other's fields leave the same in either order. -/
theorem perform_comm {vs ws : List Visit} (hvs : ∀ v ∈ vs, v.demand.hasTransform = false)
    (hws : ∀ w ∈ ws, w.demand.hasTransform = false) (h : Spare vs ws) (d : RequestData) :
    perform ws (perform vs d) = perform vs (perform ws d) := by
  apply RequestData.ext_get?
  intro s n
  by_cases hmem : (s, n) ∈ targets vs
  · exact get?_perform_comm hvs (not_mem_targets_of_spare h hmem) d
  · exact (get?_perform_comm hws hmem d).symm

/-! ## Blocks of lines -/

/-- The lines of a node as they stand in the report of the group around it. -/
def block (anySuffices : Bool) (r : Report) : Report :=
  if anySuffices then r.map Line.indent else r

theorem block_append (anySuffices : Bool) (r t : Report) :
    block anySuffices (r ++ t) = block anySuffices r ++ block anySuffices t := by
  cases anySuffices with
  | true => exact List.map_append
  | false => rfl

/-- A group that is not silent has its heading, if it has one, above the lines of its nodes. -/
theorem conclude_eq_block {anySuffices : Bool} {cs : List Child}
    (h : (cs.any fun c => c.satisfies && c.report.isEmpty) = false) :
    conclude anySuffices cs =
      (if anySuffices then [⟨0, .heading⟩] else []) ++
        block anySuffices (cs.flatMap Child.report) := by
  unfold conclude
  rw [h]
  cases anySuffices <;> rfl

/-- Exchanging two children of a group leaves it silent, or exchanges their blocks of lines. -/
theorem conclude_exchange (anySuffices : Bool) (before after : List Child) (x y : Child) :
    let given := conclude anySuffices (before ++ x :: y :: after)
    let exchanged := conclude anySuffices (before ++ y :: x :: after)
    (exchanged = [] ↔ given = []) ∧
      (given ≠ [] → ∃ above below,
        given = above ++ block anySuffices x.report ++ block anySuffices y.report ++ below ∧
          exchanged =
            above ++ block anySuffices y.report ++ block anySuffices x.report ++ below) := by
  intro given exchanged
  have hsame : ((before ++ y :: x :: after).any fun c => c.satisfies && c.report.isEmpty) =
      ((before ++ x :: y :: after).any fun c => c.satisfies && c.report.isEmpty) := by
    simp only [List.any_append, List.any_cons]
    rw [Bool.or_left_comm (y.satisfies && y.report.isEmpty)]
  cases hsilent : (before ++ x :: y :: after).any fun c => c.satisfies && c.report.isEmpty with
  | true =>
    have hgiven : given = [] := if_pos hsilent
    have hexchanged : exchanged = [] := if_pos (hsame.trans hsilent)
    exact ⟨iff_of_true hexchanged hgiven, fun h => absurd hgiven h⟩
  | false =>
    let above := (if anySuffices then [⟨0, .heading⟩] else []) ++
      block anySuffices (before.flatMap Child.report)
    let below := block anySuffices (after.flatMap Child.report)
    have hgiven : given =
        above ++ block anySuffices x.report ++ block anySuffices y.report ++ below := by
      simp only [given, above, below, conclude_eq_block hsilent, List.flatMap_append,
        List.flatMap_cons, block_append, List.append_assoc]
    have hexchanged : exchanged =
        above ++ block anySuffices y.report ++ block anySuffices x.report ++ below := by
      simp only [exchanged, above, below, conclude_eq_block (hsame.trans hsilent),
        List.flatMap_append, List.flatMap_cons, block_append, List.append_assoc]
    refine ⟨?_, fun _ => ⟨above, below, hgiven, hexchanged⟩⟩
    rw [hgiven, hexchanged]
    simp only [List.append_eq_nil_iff]
    tauto

/-! ## Neighbours -/

theorem not_hasTransform_of_mem_nodeVisits {n : Node} (h : nodeHasTransform n = false) (s : Source)
    (forced : Bool) : ∀ v ∈ nodeVisits n s forced, v.demand.hasTransform = false := by
  intro v hv
  have hany : (nodeVisits n s forced).any (·.demand.hasTransform) = false := by
    rw [any_hasTransform_nodeVisits, h]
  exact Bool.eq_false_iff.mpr (List.any_eq_false.mp hany v hv)

/-- A node reports the same before and behind a node that spares its fields. -/
theorem runNode_snd_of_spare {n m : Node} (hfree : nodeHasTransform n = false) {scope : Scope}
    (h : Spare (nodeVisits m scope.source false) (nodeVisits n scope.source false))
    (d : RequestData) :
    (runNode n scope (runNode m scope d).1).2 = (runNode n scope d).2 := by
  apply runNode_snd_congr n scope
  rw [runNode_fst m scope false]
  exact outcomes_congr (not_hasTransform_of_mem_nodeVisits hfree scope.source false) scope.brief
    (agree_perform h d)

section

variable {x y : Node} (hx : nodeHasTransform x = false) (hy : nodeHasTransform y = false)
  {scope : Scope}
  (hxy : Spare (nodeVisits x scope.source false) (nodeVisits y scope.source false))

include hx hy hxy

theorem perform_nodeVisits_comm (d : RequestData) :
    perform (nodeVisits y scope.source false) (perform (nodeVisits x scope.source false) d) =
      perform (nodeVisits x scope.source false) (perform (nodeVisits y scope.source false) d) :=
  perform_comm (not_hasTransform_of_mem_nodeVisits hx scope.source false)
    (not_hasTransform_of_mem_nodeVisits hy scope.source false) hxy d

/-- With independent nodes exchanged, each reports what it reports behind or before the other, and
the nodes behind them run on the same data. -/
theorem runChildren_exchange_snd
    (hyx : Spare (nodeVisits y scope.source false) (nodeVisits x scope.source false))
    (after : List Node) (d : RequestData) :
    let atX := runNode x scope d
    let atY := runNode y scope atX.1
    (runChildren (y :: x :: after) scope d).2 =
      ⟨satisfies scope y, atY.2⟩ :: ⟨satisfies scope x, atX.2⟩ ::
        (runChildren after scope atY.1).2 := by
  intro atX atY
  have hdata : (runNode x scope (runNode y scope d).1).1 = atY.1 := by
    simp only [atY, atX, runNode_fst _ scope false]
    exact (perform_nodeVisits_comm hx hy hxy d).symm
  have hreportX : (runNode x scope (runNode y scope d).1).2 = atX.2 := runNode_snd_of_spare hx hyx d
  have hreportY : (runNode y scope d).2 = atY.2 := (runNode_snd_of_spare hy hxy d).symm
  rw [runChildren_cons_snd, runChildren_cons_snd, hreportX, hreportY, hdata]

end

/-- **Independent neighbours may change places.** Let two neighbours in a list of nodes have no
transforms, and let neither visit a field that the other may write. With the two exchanged, the list
leaves the same data and is silent just when it was before; and where it is not silent, it reports
the same lines with the block of lines of the one node and that of the other exchanged. -/
theorem run_exchange {before after : List Node} {x y : Node} (hx : nodeHasTransform x = false)
    (hy : nodeHasTransform y = false) {scope : Scope}
    (hxy : Spare (nodeVisits x scope.source false) (nodeVisits y scope.source false))
    (hyx : Spare (nodeVisits y scope.source false) (nodeVisits x scope.source false))
    (d : RequestData) :
    let given := run (before ++ x :: y :: after) scope d
    let exchanged := run (before ++ y :: x :: after) scope d
    let atX := runNode x scope (run before scope d).1
    let atY := runNode y scope atX.1
    exchanged.1 = given.1 ∧ (exchanged.2 = [] ↔ given.2 = []) ∧
      (given.2 ≠ [] → ∃ above below,
        given.2 = above ++ block scope.anySuffices atX.2 ++ block scope.anySuffices atY.2 ++ below ∧
          exchanged.2 =
            above ++ block scope.anySuffices atY.2 ++ block scope.anySuffices atX.2 ++ below) := by
  intro given exchanged atX atY
  have hgiven : given.2 = conclude scope.anySuffices ((runChildren before scope d).2 ++
      ⟨satisfies scope x, atX.2⟩ :: ⟨satisfies scope y, atY.2⟩ ::
        (runChildren after scope atY.1).2) := by
    have happend := congrArg Prod.snd (runChildren_append before (x :: y :: after) scope d)
    exact congrArg (conclude scope.anySuffices) happend
  have hexchanged : exchanged.2 = conclude scope.anySuffices ((runChildren before scope d).2 ++
      ⟨satisfies scope y, atY.2⟩ :: ⟨satisfies scope x, atX.2⟩ ::
        (runChildren after scope atY.1).2) := by
    have happend := congrArg Prod.snd (runChildren_append before (y :: x :: after) scope d)
    simp only [runChildren_exchange_snd hx hy hxy hyx] at happend
    exact congrArg (conclude scope.anySuffices) happend
  refine ⟨?_, ?_⟩
  · simp only [given, exchanged, run_fst, visits_append, visits, perform_append]
    rw [perform_nodeVisits_comm hx hy hxy]
  · rw [hgiven, hexchanged]
    exact conclude_exchange scope.anySuffices _ _ _ _

/-- A group of the query and a number in the body, in a list of which one node is enough: the number
and one field of the group are both named `n`. -/
theorem run_exchange_sources :
    let x : Node := .combined .all [.coerced .integer ["n"], .oneOf "p" [.literal (.integer 1)]]
    let y : Node := .sourced .body [.coerced .number ["n"], .field "q"]
    let scope : Scope := ⟨.query, true, true⟩
    let d := (RequestData.empty.insert .query "n" (.text "x")).insert .query "p" (.text "1")
    let given := run ([.field "k"] ++ x :: y :: [.field "n"]) scope d
    let exchanged := run ([.field "k"] ++ y :: x :: [.field "n"]) scope d
    let atX := runNode x scope (run [.field "k"] scope d).1
    let atY := runNode y scope atX.1
    nodeHasTransform x = false ∧ nodeHasTransform y = false ∧
      Spare (nodeVisits x scope.source false) (nodeVisits y scope.source false) ∧
      Spare (nodeVisits y scope.source false) (nodeVisits x scope.source false) ∧
      given.2.texts = ["At least one of the following.", "  k must be given.",
        "  n must be an integer.", "  p must be one of following: 1.",
        "  At least one of the following.", "    n must be a number.",
        "    q must be given as body parameter.", "  n must be given."] ∧
      exchanged.1 = given.1 ∧ (exchanged.2 = [] ↔ given.2 = []) ∧
      (given.2 ≠ [] → ∃ above below,
        given.2 = above ++ block scope.anySuffices atX.2 ++ block scope.anySuffices atY.2 ++ below ∧
          exchanged.2 =
            above ++ block scope.anySuffices atY.2 ++ block scope.anySuffices atX.2 ++ below) := by
  intro x y scope d given exchanged atX atY
  have hxy : Spare (nodeVisits x scope.source false) (nodeVisits y scope.source false) := by decide
  have hyx : Spare (nodeVisits y scope.source false) (nodeVisits x scope.source false) := by decide
  exact ⟨rfl, rfl, hxy, hyx, by decide, run_exchange rfl rfl hxy hyx d⟩

end RequestGuard.Schema
