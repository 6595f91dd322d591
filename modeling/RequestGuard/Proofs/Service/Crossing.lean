import Mathlib.Data.List.Induction
import RequestGuard.Proofs.Service.Refusal
import RequestGuard.Service.Gate

/-!
# Crossing a stack of gates

A gate is handed what lies behind it and decides whether to run that. `cross` is the gate without
it: where a request stands once one guard has dealt with it, answered or still under way, and what
was done to get it there. `crossAll` sends a request through guards one after another, the outermost
first.

That this is what gates do is said of gates whose steps are noted as they are taken (`Steps.noting`).
Mounting guards notes just the acts of `crossAll`, in order, and hands what is still under way to the
stage behind them (`mountBy_noting`), whatever noting is; where it is nothing, these are the gates of
the service (`mount_eq_crossAll`).

Seen so, a stack is the checks of its guards in turn. Guards for other verbs may be left out
(`crossAll_filter_covers`); the first one left reads the request (`crossAll_of_read`); and from there
on each checks what the one before left, until one finds a violation (`crossAll_of_data`).
-/

namespace RequestGuard

namespace Guard

/-! ## Checks in turn -/

/-- What guards decide that check data one after another, each what the one before left, up to the
first that finds a violation. -/
def checkAll (m : Method) : List Guard → RequestData → RequestData × Verdict
  | [], d => (d, .proceed)
  | g :: gs, d =>
    match g.check m d with
    | (d, .proceed) => checkAll m gs d
    | (d, .violation message) => (d, .violation message)

/-- The checks that they make, each with the data that is checked. -/
def checksMade (m : Method) : List Guard → RequestData → List (Guard × RequestData)
  | [], _ => []
  | g :: gs, d =>
    (g, d) :: match g.check m d with
      | (d, .proceed) => checksMade m gs d
      | (_, .violation _) => []

/-- Where none finds a violation, every guard checks. -/
theorem map_fst_checksMade {m : Method} {gs : List Guard} {d e : RequestData}
    (h : checkAll m gs d = (e, .proceed)) : (checksMade m gs d).map Prod.fst = gs := by
  induction gs generalizing d with
  | nil => rfl
  | cons g gs ih =>
    rw [checkAll] at h
    rw [checksMade, List.map_cons]
    cases hcheck : g.check m d with
    | mk d' verdict =>
      rw [hcheck] at h
      cases verdict with
      | proceed => exact congrArg _ (ih h)
      | violation message => cases h

/-- A violation is found by one guard in the data that those before it let pass, and the guards
after it do not check. -/
theorem exists_of_checkAll_violation {m : Method} {gs : List Guard} {d e : RequestData}
    {message : String} (h : checkAll m gs d = (e, .violation message)) :
    ∃ before g after d', gs = before ++ g :: after ∧ checkAll m before d = (d', .proceed) ∧
      g.check m d' = (e, .violation message) ∧
      (checksMade m gs d).map Prod.fst = before ++ [g] := by
  induction gs generalizing d with
  | nil => cases h
  | cons g gs ih =>
    rw [checkAll] at h
    rw [checksMade, List.map_cons]
    cases hcheck : g.check m d with
    | mk d' verdict =>
      rw [hcheck] at h
      cases verdict with
      | proceed =>
        obtain ⟨before, g', after, found, hgs, hbefore, hfound, hmade⟩ := ih h
        have hbefore' : checkAll m (g :: before) d = (found, .proceed) := by
          rw [checkAll, hcheck]
          exact hbefore
        exact ⟨g :: before, g', after, found, congrArg (g :: ·) hgs, hbefore', hfound,
          congrArg (g :: ·) hmade⟩
      | violation message' =>
        cases h
        exact ⟨[], g, gs, d, rfl, rfl, hcheck, rfl⟩

end Guard

namespace Service

/-- Counts a number of checks. -/
def Tally.addChecks (label : String) : Nat → Tally → Tally
  | 0, t => t
  | k + 1, t => (t.addCheck label).addChecks label k

/-! ## Crossing -/

/-- What is done to a request at a gate. -/
inductive Act where
  /-- Its query and body are read for a guard. -/
  | read (guard : Guard)
  /-- A guard checks data. -/
  | check (guard : Guard) (data : RequestData)

/-- Where a request stands at a gate: answered, or still on its way in. -/
inductive Progress where
  | answered (response : Response)
  | underway (passage : Passage)

/-- Where a request stands, with the counters and with what was done to it. -/
structure Crossing where
  progress : Progress
  tally : Tally
  acts : List Act

/-- The same with something done before. -/
def Crossing.after (act : Act) (c : Crossing) : Crossing :=
  { c with acts := act :: c.acts }

/-- Goes on from where a request stands, if it is still under way. -/
def Crossing.andThen (c : Crossing) (next : Passage → Tally → Crossing) : Crossing :=
  match c.progress with
  | .answered _ => c
  | .underway p => { next p c.tally with acts := c.acts ++ (next p c.tally).acts }

/-- The answer to a request: the one that it has, or that of the stage which it has come to. -/
def Crossing.finish (c : Crossing) (inner : Stage) : Response × Tally :=
  match c.progress with
  | .answered response => (response, c.tally)
  | .underway p => inner p c.tally

/-- The same where the acts that led there are noted, in order. -/
def Crossing.finishNoting {μ : Type → Type} [Monad μ] (note : Act → μ Unit) (c : Crossing)
    (inner : StageIn μ) : μ (Response × Tally) := do
  forM c.acts note
  match c.progress with
  | .answered response => pure (response, c.tally)
  | .underway p => inner p c.tally

/-- A guard checks the data of a request. -/
def judge (g : Guard) (m : Method) (r : Request) (d : RequestData) (t : Tally) : Crossing :=
  match g.check m d with
  | (e, .proceed) => ⟨.underway ⟨r, some e⟩, t.addCheck m.label, [.check g d]⟩
  | (_, .violation message) =>
    ⟨.answered (Failure.violation message).response, (t.addCheck m.label).addViolation m.label,
      [.check g d]⟩

/-- A request goes through the gate of a guard. -/
def cross (limit : Nat) (g : Guard) (p : Passage) (t : Tally) : Crossing :=
  match Method.read p.request.verb with
  | .error e => ⟨.answered (Failure.unreadable (.request e)).response, t, []⟩
  | .ok m =>
    match g.scopeFor? m with
    | none => ⟨.underway p, t, []⟩
    | some scope =>
      match p.data with
      | some d => judge g m p.request d t
      | none =>
        match p.request.read limit scope.source with
        | .error f => ⟨.answered f.response, t, [.read g]⟩
        | .ok (bytes, d) =>
          (judge g m { p.request with body := .whole bytes } d t).after (.read g)

/-- A request goes through the gates of guards, of which the first stands outermost. -/
def crossAll (limit : Nat) : List Guard → Passage → Tally → Crossing
  | [], p, t => ⟨.underway p, t, []⟩
  | g :: gs, p, t => (cross limit g p t).andThen (crossAll limit gs)

theorem andThen_after (act : Act) (c : Crossing) (next : Passage → Tally → Crossing) :
    (c.after act).andThen next = (c.andThen next).after act := by
  obtain ⟨progress, t, acts⟩ := c
  cases progress <;> rfl

/-! ## Gates that note what they do -/

/-- The steps of gates, each noted as it is taken. -/
def Steps.noting {μ : Type → Type} [Monad μ] (note : Act → μ Unit) (limit : Nat) : Steps μ where
  read g r source := do
    note (.read g)
    pure (r.read limit source)
  check g m d := do
    note (.check g d)
    pure (g.check m d)

section

variable {μ : Type → Type} [Monad μ] [LawfulMonad μ] (note : Act → μ Unit)

theorem finishNoting_after (act : Act) (c : Crossing) (inner : StageIn μ) :
    (c.after act).finishNoting note inner = note act >>= fun _ => c.finishNoting note inner := by
  simp only [Crossing.finishNoting, Crossing.after, List.forM_cons, bind_assoc]

theorem finishNoting_andThen (c : Crossing) (next : Passage → Tally → Crossing) (inner : StageIn μ) :
    (c.andThen next).finishNoting note inner =
      c.finishNoting note fun p t => (next p t).finishNoting note inner := by
  obtain ⟨progress, t, acts⟩ := c
  cases progress with
  | answered response => rfl
  | underway p =>
    simp only [Crossing.andThen, Crossing.finishNoting, List.forM_append, bind_assoc]

theorem finishNoting_judge (g : Guard) (m : Method) (r : Request) (d : RequestData) (t : Tally)
    (inner : StageIn μ) :
    (judge g m r d t).finishNoting note inner =
      note (.check g d) >>= fun _ => followVerdict m r inner t (g.check m d) := by
  unfold judge
  cases g.check m d with
  | mk e verdict =>
    cases verdict with
    | proceed => simp [Crossing.finishNoting, followVerdict]
    | violation message => simp [Crossing.finishNoting, followVerdict]

/-- A gate notes what is done to a request at it, and runs what lies behind it on what is still under
way. -/
theorem gateBy_noting (limit : Nat) (g : Guard) (inner : StageIn μ) (p : Passage) (t : Tally) :
    gateBy (.noting note limit) g inner p t = (cross limit g p t).finishNoting note inner := by
  obtain ⟨r, data⟩ := p
  unfold gateBy cross
  cases Method.read r.verb with
  | error e => simp [Crossing.finishNoting]
  | ok m =>
    simp only
    cases g.scopeFor? m with
    | none => simp [Crossing.finishNoting]
    | some scope =>
      cases data with
      | some d => simp only [Passage.takeBy, Steps.noting, bind_assoc, pure_bind, finishNoting_judge]
      | none =>
        simp only [Passage.takeBy, Steps.noting, bind_assoc, pure_bind]
        cases r.read limit scope.source with
        | error f => simp [Crossing.finishNoting]
        | ok read => simp only [pure_bind, finishNoting_after, finishNoting_judge]

/-- Guards that are mounted send a request through their gates, the last one first. -/
theorem mountBy_noting (limit : Nat) (guards : List Guard) (inner : StageIn μ) (p : Passage)
    (t : Tally) :
    mountBy (.noting note limit) guards inner p t =
      (crossAll limit guards.reverse p t).finishNoting note inner := by
  induction guards using List.reverseRecOn generalizing p t with
  | nil => simp [mountBy, crossAll, Crossing.finishNoting]
  | append_singleton guards g ih =>
    -- The guard mounted last stands outermost, and hands the request to the gates of the others.
    have hinner : mountBy (.noting note limit) guards inner =
        fun p t => (crossAll limit guards.reverse p t).finishNoting note inner := by
      funext p t
      exact ih p t
    rw [mountBy_concat, gateBy_noting, hinner, List.reverse_append, List.reverse_singleton,
      List.singleton_append, crossAll, finishNoting_andThen]

end

/-- Writes down what is done in a list. -/
def Act.log (act : Act) : StateM (List Act) Unit := modify fun acts => acts ++ [act]

theorem run_forM_log (acts before : List Act) :
    (forM acts Act.log).run before = ((), before ++ acts) := by
  induction acts generalizing before with
  | nil =>
    rw [List.append_nil]
    rfl
  | cons act acts ih =>
    have hrest : (forM (act :: acts) Act.log).run before = (forM acts Act.log).run (before ++ [act]) := rfl
    rw [hrest, ih, List.append_assoc, List.singleton_append]

/-- What is written down of a request is what was done to it, and behind that what the stage does
that it comes to. -/
theorem run_finishNoting_log (c : Crossing) (inner : StageIn (StateM (List Act)))
    (before : List Act) :
    (c.finishNoting Act.log inner).run before =
      match c.progress with
      | .answered response => ((response, c.tally), before ++ c.acts)
      | .underway p => (inner p c.tally).run (before ++ c.acts) := by
  obtain ⟨progress, t, acts⟩ := c
  cases progress with
  | answered response =>
    rw [Crossing.finishNoting, StateT.run_bind, run_forM_log]
    rfl
  | underway p =>
    rw [Crossing.finishNoting, StateT.run_bind, run_forM_log]
    rfl

/-- A gate of the service is one that notes nothing. -/
theorem gate_eq_cross (limit : Nat) (g : Guard) (inner : Stage) (p : Passage) (t : Tally) :
    gate limit g inner p t = (cross limit g p t).finish inner :=
  gateBy_noting (μ := Id) (fun _ => ()) limit g inner p t

theorem mount_eq_crossAll (limit : Nat) (guards : List Guard) (inner : Stage) (p : Passage)
    (t : Tally) :
    mount limit guards inner p t = (crossAll limit guards.reverse p t).finish inner :=
  mountBy_noting (μ := Id) (fun _ => ()) limit guards inner p t

/-! ## One guard

What becomes of a request at one gate: a guard for another verb does nothing, and one that covers
the verb checks the data, which it reads where nobody has. -/

section

variable {limit : Nat} {g : Guard} {m : Method} {r : Request} {t : Tally}

/-- No guard lets a request pass whose verb is none. -/
theorem cross_of_no_verb {e : RequestError} (hm : Method.read r.verb = .error e)
    (data : Option RequestData) :
    cross limit g ⟨r, data⟩ t =
      ⟨.answered (Failure.unreadable (.request e)).response, t, []⟩ := by
  simp only [cross, hm]

theorem cross_of_not_covers (hm : Method.read r.verb = .ok m) (hg : g.covers m = false)
    (data : Option RequestData) :
    cross limit g ⟨r, data⟩ t = ⟨.underway ⟨r, data⟩, t, []⟩ := by
  have hscope : g.scopeFor? m = none :=
    Option.isNone_iff_eq_none.mp (Option.isSome_eq_false_iff.mp hg)
  simp only [cross, hm, hscope]

theorem cross_of_data (hm : Method.read r.verb = .ok m) (hg : g.covers m = true)
    (d : RequestData) : cross limit g ⟨r, some d⟩ t = judge g m r d t := by
  obtain ⟨scope, hscope⟩ := Option.isSome_iff_exists.mp hg
  simp only [cross, hm, hscope]

/-- The bytes that are read are put back, so the request goes on as it came. -/
theorem cross_of_read (hm : Method.read r.verb = .ok m) (hg : g.covers m = true)
    {bytes : List UInt8} {d : RequestData} (hread : r.read limit m.source = .ok (bytes, d)) :
    cross limit g ⟨r, none⟩ t = (judge g m r d t).after (.read g) := by
  obtain ⟨scope, hscope⟩ := Option.isSome_iff_exists.mp hg
  have hsource : scope.source = m.source := Guard.source_of_scopeFor? hscope
  have hbody : { r with body := .whole bytes } = r := by
    rw [← Request.body_eq_of_read hread]
  simp only [cross, hm, hscope, hsource, hread, hbody]

theorem cross_of_unreadable (hm : Method.read r.verb = .ok m) (hg : g.covers m = true)
    {f : Failure} (hread : r.read limit m.source = .error f) :
    cross limit g ⟨r, none⟩ t = ⟨.answered f.response, t, [.read g]⟩ := by
  obtain ⟨scope, hscope⟩ := Option.isSome_iff_exists.mp hg
  have hsource : scope.source = m.source := Guard.source_of_scopeFor? hscope
  simp only [cross, hm, hscope, hsource, hread]

theorem acts_judge (d : RequestData) : (judge g m r d t).acts = [.check g d] := by
  unfold judge
  split <;> rfl

theorem underway_judge {d : RequestData} {p : Passage}
    (h : (judge g m r d t).progress = .underway p) : p.request = r ∧ p.data.isSome = true := by
  unfold judge at h
  split at h
  · cases h
    exact ⟨rfl, rfl⟩
  · cases h

/-- What a guard lets pass is the request as it came, with data if it had some or the guard covers
the verb. -/
theorem underway_cross {p q : Passage} (hm : Method.read p.request.verb = .ok m)
    (h : (cross limit g p t).progress = .underway q) :
    q.request = p.request ∧ q.data.isSome = (p.data.isSome || g.covers m) := by
  obtain ⟨r, data⟩ := p
  cases hg : g.covers m with
  | false =>
    rw [cross_of_not_covers hm hg] at h
    cases h
    exact ⟨rfl, (Bool.or_false _).symm⟩
  | true =>
    rw [Bool.or_true]
    cases data with
    | some d =>
      rw [cross_of_data hm hg] at h
      exact underway_judge h
    | none =>
      cases hread : r.read limit m.source with
      | error f =>
        rw [cross_of_unreadable hm hg hread] at h
        cases h
      | ok read =>
        rw [cross_of_read hm hg hread] at h
        exact underway_judge h

end

/-! ## A stack -/

section

variable {c : Crossing} {next other : Passage → Tally → Crossing}

theorem andThen_congr
    (h : ∀ p, c.progress = .underway p → next p c.tally = other p c.tally) :
    c.andThen next = c.andThen other := by
  unfold Crossing.andThen
  split
  · rfl
  · rename_i p hp
    rw [h p hp]

theorem andThen_eq_underway_iff {q : Passage} :
    (c.andThen next).progress = .underway q ↔
      ∃ p, c.progress = .underway p ∧ (next p c.tally).progress = .underway q := by
  obtain ⟨progress, t, acts⟩ := c
  cases progress <;> simp [Crossing.andThen]

theorem andThen_eq_answered_iff {response : Response} :
    (c.andThen next).progress = .answered response ↔
      c.progress = .answered response ∨
        ∃ p, c.progress = .underway p ∧ (next p c.tally).progress = .answered response := by
  obtain ⟨progress, t, acts⟩ := c
  cases progress <;> simp [Crossing.andThen]

end

section

variable {m : Method} {r : Request} (hm : Method.read r.verb = .ok m) (limit : Nat)

include hm

/-- Guards that do not cover the verb may be left out, wherever they stand. -/
theorem crossAll_filter_covers (gs : List Guard) (data : Option RequestData) (t : Tally) :
    crossAll limit (gs.filter (·.covers m)) ⟨r, data⟩ t = crossAll limit gs ⟨r, data⟩ t := by
  induction gs generalizing data t with
  | nil => rfl
  | cons g gs ih =>
    rw [List.filter_cons]
    cases hg : g.covers m with
    | true =>
      simp only [if_true, crossAll]
      apply andThen_congr
      -- What this guard lets pass is the same request, so its verb decides behind it as well.
      rintro ⟨r', data'⟩ hp
      obtain ⟨rfl, -⟩ := underway_cross (p := ⟨r, data⟩) hm hp
      exact ih data' _
    | false =>
      simp only [Bool.false_eq_true, if_false, crossAll, cross_of_not_covers hm hg, ih]
      rfl

/-- Guards of which none covers the verb let the request pass as it is. -/
theorem crossAll_of_not_covers {gs : List Guard} (hgs : ∀ g ∈ gs, g.covers m = false)
    (data : Option RequestData) (t : Tally) :
    crossAll limit gs ⟨r, data⟩ t = ⟨.underway ⟨r, data⟩, t, []⟩ := by
  have hnone : gs.filter (·.covers m) = [] := by
    rw [List.filter_eq_nil_iff]
    intro g hg
    rw [hgs g hg]
    exact Bool.false_ne_true
  rw [← crossAll_filter_covers hm, hnone]
  rfl

end

/-- Where a request stands whose data guards have checked in turn. -/
def checked (m : Method) (gs : List Guard) (r : Request) (d : RequestData) (t : Tally) : Crossing :=
  let made := Guard.checksMade m gs d
  let t := t.addChecks m.label made.length
  let acts := made.map fun check => Act.check check.1 check.2
  match Guard.checkAll m gs d with
  | (e, .proceed) => ⟨.underway ⟨r, some e⟩, t, acts⟩
  | (_, .violation message) =>
    ⟨.answered (Failure.violation message).response, t.addViolation m.label, acts⟩

section

variable {limit : Nat} {g : Guard} {m : Method} {r : Request} (hm : Method.read r.verb = .ok m)

include hm

/-- Once there is data, guards that cover the verb check it in turn. -/
theorem crossAll_of_data {gs : List Guard} (hgs : ∀ g ∈ gs, g.covers m = true) (d : RequestData)
    (t : Tally) : crossAll limit gs ⟨r, some d⟩ t = checked m gs r d t := by
  induction gs generalizing d t with
  | nil => rfl
  | cons g gs ih =>
    obtain ⟨hg, hgs⟩ := List.forall_mem_cons.mp hgs
    rw [crossAll, cross_of_data hm hg]
    unfold judge
    cases hcheck : g.check m d with
    | mk e verdict =>
      cases verdict with
      | proceed =>
        -- One check is counted here, and the rest is that of the guards behind.
        have hrest : crossAll limit gs ⟨r, some e⟩ (t.addCheck m.label) =
            checked m gs r e (t.addCheck m.label) := ih hgs e (t.addCheck m.label)
        simp only [Crossing.andThen, hrest, checked, Guard.checkAll, Guard.checksMade, hcheck]
        cases Guard.checkAll m gs e with
        | mk e' verdict => cases verdict <;> rfl
      | violation message =>
        simp only [Crossing.andThen, checked, Guard.checkAll, Guard.checksMade, hcheck]
        rfl

/-- A stack that reads the request does then what it would do had the request been read before. -/
theorem crossAll_of_read (hg : g.covers m = true) {bytes : List UInt8} {d : RequestData}
    (hread : r.read limit m.source = .ok (bytes, d)) (gs : List Guard) (t : Tally) :
    crossAll limit (g :: gs) ⟨r, none⟩ t =
      (crossAll limit (g :: gs) ⟨r, some d⟩ t).after (.read g) := by
  rw [crossAll, cross_of_read hm hg hread, andThen_after, crossAll, cross_of_data hm hg]

/-- A request that cannot be read is answered at once. -/
theorem crossAll_of_unreadable (hg : g.covers m = true) {f : Failure}
    (hread : r.read limit m.source = .error f) (gs : List Guard) (t : Tally) :
    crossAll limit (g :: gs) ⟨r, none⟩ t = ⟨.answered f.response, t, [.read g]⟩ := by
  rw [crossAll, cross_of_unreadable hm hg hread]
  rfl

end

/-! ## The guards on a verb -/

/-- Those of some guards that cover a verb, in the order in which they look at a request: the last
one that was mounted comes first. -/
def cover (m : Method) (guards : List Guard) : List Guard :=
  (guards.filter (·.covers m)).reverse

theorem covers_of_mem_cover {m : Method} {guards : List Guard} :
    ∀ g ∈ cover m guards, g.covers m = true := by
  intro g hg
  exact (List.mem_filter.mp (List.mem_reverse.mp hg)).2

/-- No guard lets a request pass whose verb is none, and where there is no guard it passes. -/
theorem crossAll_of_no_verb {r : Request} {e : RequestError} (hm : Method.read r.verb = .error e)
    (limit : Nat) (gs : List Guard) (t : Tally) :
    crossAll limit gs ⟨r, none⟩ t =
      ⟨if gs.isEmpty then .underway ⟨r, none⟩
        else .answered (Failure.unreadable (.request e)).response, t, []⟩ := by
  cases gs with
  | nil => rfl
  | cons g gs =>
    rw [crossAll, cross_of_no_verb hm]
    rfl

section

variable {r : Request} {m : Method} (hm : Method.read r.verb = .ok m) {limit : Nat}
  {guards : List Guard}

include hm

/-- A stack makes of a request what the guards on its verb make of it. -/
theorem crossAll_cover (t : Tally) :
    crossAll limit guards.reverse ⟨r, none⟩ t = crossAll limit (cover m guards) ⟨r, none⟩ t := by
  rw [cover, ← List.filter_reverse]
  exact (crossAll_filter_covers hm limit guards.reverse none t).symm

theorem crossAll_of_cover_eq_nil (hcover : cover m guards = []) (t : Tally) :
    crossAll limit guards.reverse ⟨r, none⟩ t = ⟨.underway ⟨r, none⟩, t, []⟩ := by
  rw [crossAll_cover hm, hcover]
  rfl

variable {g : Guard} {gs : List Guard} (hcover : cover m guards = g :: gs)

omit hm in
theorem covers_of_cover_eq_cons (hcover : cover m guards = g :: gs) : g.covers m = true := by
  have hmem : g ∈ cover m guards := by
    rw [hcover]
    exact List.mem_cons_self
  exact covers_of_mem_cover g hmem

include hcover

theorem crossAll_of_cover_unreadable {f : Failure} (hread : r.read limit m.source = .error f)
    (t : Tally) :
    crossAll limit guards.reverse ⟨r, none⟩ t = ⟨.answered f.response, t, [.read g]⟩ := by
  have hg : g.covers m = true := covers_of_cover_eq_cons hcover
  rw [crossAll_cover hm, hcover, crossAll_of_unreadable hm hg hread]

/-- A stack reads a request once, and then the guards on its verb check in turn. -/
theorem crossAll_of_cover_read {bytes : List UInt8} {d : RequestData}
    (hread : r.read limit m.source = .ok (bytes, d)) (t : Tally) :
    crossAll limit guards.reverse ⟨r, none⟩ t =
      (checked m (cover m guards) r d t).after (.read g) := by
  have hg : g.covers m = true := covers_of_cover_eq_cons hcover
  rw [crossAll_cover hm, ← crossAll_of_data hm covers_of_mem_cover, hcover,
    crossAll_of_read hm hg hread]

end

/-- **A stack of guards checks in turn.** Let `cover` be the guards on a request's verb, from the
outermost in, and `c` what becomes of the request before the stage behind the stack. (A verb that has
a character and no blank is read.) The stack hands `c` to that stage, and whoever notes what its
guards do notes the acts of `c` and no others. Guards for other verbs change nothing. Where no guard
is on the verb, the request goes on unchanged and without data. Otherwise the outermost guard of
`cover` reads it, and nobody reads it again. If it can be read, each guard of `cover` checks what the
one before left. If all let it pass, the stage gets the request with its body as it came and with the
data that the innermost left. The first that finds a violation has it answered 422 with its own
message and the lines of that, which is what the body is read as in JSON, and neither the guards
behind it nor the stage see the request. -/
theorem mount_in_turn {r : Request} {m : Method} (hm : Method.read r.verb = .ok m) (limit : Nat)
    (guards : List Guard) (t : Tally) :
    let cover := (guards.filter (·.covers m)).reverse
    let c := crossAll limit guards.reverse ⟨r, none⟩ t
    (∀ inner, mount limit guards inner ⟨r, none⟩ t = c.finish inner) ∧
    (∀ {μ : Type → Type} [Monad μ] [LawfulMonad μ] (note : Act → μ Unit) (inner : StageIn μ),
      mountBy (.noting note limit) guards inner ⟨r, none⟩ t = c.finishNoting note inner) ∧
    (∀ inner, mount limit guards inner ⟨r, none⟩ t =
      mount limit (guards.filter (·.covers m)) inner ⟨r, none⟩ t) ∧
    (cover = [] → c = ⟨.underway ⟨r, none⟩, t, []⟩) ∧
    ∀ g gs, cover = g :: gs →
      (∀ f, r.read limit m.source = .error f →
        c = ⟨.answered f.refusal.response, t, [.read g]⟩) ∧
      ∀ bytes d, r.read limit m.source = .ok (bytes, d) →
        let made := Guard.checksMade m cover d
        let t := t.addChecks m.label made.length
        let acts := .read g :: made.map fun check => .check check.1 check.2
        (∀ e, Guard.checkAll m cover d = (e, .proceed) →
          c = ⟨.underway ⟨r, some e⟩, t, acts⟩ ∧ made.map Prod.fst = cover ∧
            r.body = .whole bytes) ∧
        ∀ e message, Guard.checkAll m cover d = (e, .violation message) →
          let a : Refusal :=
            ⟨.unprocessable, "VALIDATION_ERROR", message, some (Text.lines message)⟩
          c = ⟨.answered a.response, t.addViolation m.label, acts⟩ ∧
            a.response.status.code = 422 ∧
            (∃ h, Json.read a.response.body = .ok ⟨.object [("error", .object
              [("code", .string "VALIDATION_ERROR"), ("message", .string message),
                ("details", .array ((Text.lines message).map .string))])], h⟩) ∧
            ∃ before g' after d', cover = before ++ g' :: after ∧
              Guard.checkAll m before d = (d', .proceed) ∧
              g'.check m d' = (e, .violation message) ∧ made.map Prod.fst = before ++ [g'] := by
  intro cover c
  refine ⟨fun inner => mount_eq_crossAll limit guards inner ⟨r, none⟩ t,
    fun note inner => mountBy_noting note limit guards inner ⟨r, none⟩ t, ?filtered,
    fun hcover => crossAll_of_cover_eq_nil hm hcover t, ?somebody⟩
  case filtered =>
    intro inner
    have hc : c = crossAll limit cover ⟨r, none⟩ t := crossAll_cover hm t
    rw [mount_eq_crossAll, mount_eq_crossAll]
    exact congrArg (·.finish inner) hc
  case somebody =>
    intro g gs hcover
    constructor
    · intro f hread
      rw [← f.response_eq]
      exact crossAll_of_cover_unreadable hm hcover hread t
    · intro bytes d hread
      have hchecked : c = (checked m cover r d t).after (.read g) :=
        crossAll_of_cover_read hm hcover hread t
      constructor
      · intro e he
        refine ⟨?_, Guard.map_fst_checksMade he, Request.body_eq_of_read hread⟩
        rw [hchecked, checked, he]
        rfl
      · intro e message he a
        refine ⟨?_, rfl, ⟨_, a.read_body⟩, Guard.exists_of_checkAll_violation he⟩
        have hresponse : (Failure.violation message).response = a.response :=
          Failure.response_eq _
        rw [hchecked, checked, he, ← hresponse]
        rfl

/-- Three guards on a page: the outermost for any verb, then one for another verb, then one that
makes the page an integer. A page that is an integer goes on as one. One that is not is answered by
the innermost guard, and what is done to it, whatever stands behind, is one reading and two checks. -/
theorem mount_in_turn_page :
    let inner : Guard := ⟨[.coerced .integer ["p"]], some .get⟩
    let other : Guard := ⟨[.field "seats"], some .post⟩
    let outer : Guard := ⟨[.field "p"], none⟩
    let sent (query : String) : Request := ⟨"GET", ⟨"/", query.utf8Bytes⟩, [], .whole []⟩
    let data (page : FieldValue) := RequestData.empty.insert .query "p" page
    let acts (page : FieldValue) : List Act :=
      [.read outer, .check outer (data page), .check inner (data page)]
    let answer : Response := ⟨.unprocessable, some "application/json", none,
      ("\x7b\"error\":\x7b\"code\":\"VALIDATION_ERROR\"," ++
        "\"message\":\"p must be an integer.\"," ++
        "\"details\":[\"p must be an integer.\"]\x7d\x7d").utf8Bytes⟩
    crossAll 8 [outer, other, inner] ⟨sent "p=3", none⟩ .zero =
        ⟨.underway ⟨sent "p=3", some (data (.integer 3))⟩, Tally.zero.addChecks "GET" 2,
          acts (.text "3")⟩ ∧
      ∀ stage, (mountBy (.noting Act.log 8) [inner, other, outer] stage
          ⟨sent "p=x", none⟩ .zero).run [] =
        ((answer, (Tally.zero.addChecks "GET" 2).addViolation "GET"), acts (.text "x")) := by
  intro inner other outer sent data acts answer
  have hm : Method.read "GET" = .ok .get := by decide +kernel
  have hread {query page : String} (hpairs : UrlEncoded.pairs query.utf8Bytes = [("p", page)]) :
      (sent query).read 8 .query = .ok ([], data (.text page)) := by
    unfold Request.read readFields
    rw [hpairs]
    rfl
  constructor
  · have hall : Guard.checkAll .get [outer, inner] (data (.text "3")) =
        (data (.integer 3), .proceed) := by rfl
    obtain ⟨-, -, -, -, hturn⟩ :=
      mount_in_turn (r := sent "p=3") hm 8 [inner, other, outer] .zero
    have hproceed := ((hturn outer [inner] rfl).2 [] _ (hread (by decide +kernel))).1 _ hall
    exact hproceed.1
  · intro stage
    let checked := Guard.checkAll .get [outer, inner] (data (.text "x"))
    have hall : checked = (checked.1, .violation "p must be an integer.") := by
      have hverdict : checked.2 = .violation "p must be an integer." := by decide +kernel
      rw [← hverdict]
    have hanswer : Refusal.response ⟨.unprocessable, "VALIDATION_ERROR", "p must be an integer.",
        some (Text.lines "p must be an integer.")⟩ = answer := by decide +kernel
    obtain ⟨-, hnoting, -, -, hturn⟩ :=
      mount_in_turn (r := sent "p=x") hm 8 [inner, other, outer] .zero
    have hviolation := ((hturn outer [inner] rfl).2 [] _ (hread (by decide +kernel))).2 _ _ hall
    rw [hnoting, run_finishNoting_log, hviolation.1, ← hanswer]
    rfl

end Service

end RequestGuard
