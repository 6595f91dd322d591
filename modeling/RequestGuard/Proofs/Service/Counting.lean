import RequestGuard.Proofs.Request.Verb
import RequestGuard.Proofs.Service.Crossing
import RequestGuard.Service.Inspection

/-!
# What the counters say

A service counts checks and rejections by verb as it answers requests. What they come to can be said
without following it: a request is ruled on by the guards that cover its verb, from the outermost in,
up to and including the first that finds a violation. `ruling` is what they come to, how many checks
they make and with which message one of them turns the request away.

`answer_snd` says that answering a request counts its ruling and nothing else, under the verb in
upper case, and `count_answerAll` adds that up over the requests that came. `Accounted` lists what a
ruling is in each case, along with the answer: a request that no guard is on, one that cannot be
read, one that every guard lets pass and one that is turned away.
-/

namespace RequestGuard

namespace Service

/-! ## Rulings -/

/-- What a request is counted under: its verb, whatever the case in which it is spelled. -/
def Request.label (r : Request) : String := Method.uppercase r.verb

/-- What guards come to on a request. -/
structure Ruling where
  /-- How many checks they make of it. -/
  checks : Nat
  /-- The message of the one that turns it away. -/
  rejection? : Option String

/-- Nothing checked and nothing found. -/
def Ruling.none : Ruling := ⟨0, .none⟩

/-- What guards come to on a request that they cannot check if it cannot be read. -/
def ruling (limit : Nat) (guards : List Guard) (r : Request) : Ruling :=
  match Method.read r.verb with
  | .error _ => .none
  | .ok m =>
    match r.read limit m.source with
    | .error _ => .none
    | .ok (_, d) =>
      ⟨(Guard.checksMade m (cover m guards) d).length,
        (Guard.checkAll m (cover m guards) d).2.message?⟩

/-- Counts a ruling. -/
def Tally.record (label : String) (ruling : Ruling) (t : Tally) : Tally :=
  match ruling.rejection? with
  | .none => t.addChecks label ruling.checks
  | .some _ => (t.addChecks label ruling.checks).addViolation label

section

variable {limit : Nat} {guards : List Guard} {r : Request} {m : Method}
  (hm : Method.read r.verb = .ok m)

include hm

theorem Request.label_eq : m.label = r.label := Method.label_of_read hm

theorem ruling_of_unreadable {f : Failure} (hread : r.read limit m.source = .error f) :
    ruling limit guards r = .none := by
  simp only [ruling, hm, hread]

theorem ruling_of_read {bytes : List UInt8} {d : RequestData}
    (hread : r.read limit m.source = .ok (bytes, d)) :
    ruling limit guards r = ⟨(Guard.checksMade m (cover m guards) d).length,
      (Guard.checkAll m (cover m guards) d).2.message?⟩ := by
  simp only [ruling, hm, hread]

theorem ruling_of_cover_eq_nil (hcover : cover m guards = []) :
    ruling limit guards r = .none := by
  cases hread : r.read limit m.source with
  | error f => exact ruling_of_unreadable hm hread
  | ok read =>
    rw [ruling_of_read hm hread, hcover]
    rfl

omit hm in
theorem ruling_of_no_verb {e : RequestError} (hm : Method.read r.verb = .error e) :
    ruling limit guards r = .none := by
  simp only [ruling, hm]

end

theorem tally_checked (m : Method) (gs : List Guard) (r : Request) (d : RequestData) (t : Tally) :
    (checked m gs r d t).tally = t.record m.label
      ⟨(Guard.checksMade m gs d).length, (Guard.checkAll m gs d).2.message?⟩ := by
  unfold checked
  cases Guard.checkAll m gs d with
  | mk e verdict => cases verdict <;> rfl

/-- What a stack of guards counts of a request is its ruling. -/
theorem tally_crossAll (limit : Nat) (guards : List Guard) (r : Request) (t : Tally) :
    (crossAll limit guards.reverse ⟨r, none⟩ t).tally =
      t.record r.label (ruling limit guards r) := by
  cases hm : Method.read r.verb with
  | error e =>
    rw [crossAll_of_no_verb hm, ruling_of_no_verb hm]
    rfl
  | ok m =>
    cases hcover : cover m guards with
    | nil =>
      rw [crossAll_of_cover_eq_nil hm hcover, ruling_of_cover_eq_nil hm hcover]
      rfl
    | cons g gs =>
      cases hread : r.read limit m.source with
      | error f =>
        rw [crossAll_of_cover_unreadable hm hcover hread, ruling_of_unreadable hm hread]
        rfl
      | ok read =>
        rw [crossAll_of_cover_read hm hcover hread, ruling_of_read hm hread, ← Request.label_eq hm]
        exact tally_checked m (cover m guards) r read.2 t

/-- A request is turned away by a check. -/
theorem one_le_checks {limit : Nat} {guards : List Guard} {r : Request}
    (h : (ruling limit guards r).rejection?.isSome = true) : 1 ≤ (ruling limit guards r).checks := by
  cases hm : Method.read r.verb with
  | error e =>
    rw [ruling_of_no_verb hm] at h
    cases h
  | ok m =>
    cases hcover : cover m guards with
    | nil =>
      rw [ruling_of_cover_eq_nil hm hcover] at h
      cases h
    | cons g gs =>
      cases hread : r.read limit m.source with
      | error f =>
        rw [ruling_of_unreadable hm hread] at h
        cases h
      | ok read =>
        rw [ruling_of_read hm hread, hcover]
        exact Nat.succ_le_succ (Nat.zero_le _)

/-! ## Counts -/

section

variable (t : Tally) (label l : String)

theorem count_checked_addChecks (k : Nat) :
    (t.addChecks label k).checked.count l = t.checked.count l + if l = label then k else 0 := by
  induction k generalizing t with
  | zero => simp [Tally.addChecks]
  | succ k ih =>
    rw [Tally.addChecks, ih, Tally.addCheck, Counts.count_increment]
    split <;> omega

theorem violated_addChecks (k : Nat) : (t.addChecks label k).violated = t.violated := by
  induction k generalizing t with
  | zero => rfl
  | succ k ih => rw [Tally.addChecks, ih, Tally.addCheck]

theorem count_checked_record (ruling : Ruling) :
    (t.record label ruling).checked.count l =
      t.checked.count l + if l = label then ruling.checks else 0 := by
  unfold Tally.record
  cases ruling.rejection? with
  | none => exact count_checked_addChecks t label l ruling.checks
  | some message => exact count_checked_addChecks t label l ruling.checks

theorem count_violated_record (ruling : Ruling) :
    (t.record label ruling).violated.count l =
      t.violated.count l + if l = label ∧ ruling.rejection?.isSome = true then 1 else 0 := by
  unfold Tally.record
  cases ruling.rejection? with
  | none => simp [violated_addChecks]
  | some message => simp [Tally.addViolation, Counts.count_increment, violated_addChecks]

end

/-! ## Answering -/

/-- The guards in front of what stands at a path. -/
def guardsAt (service : Service) (path : String) : List Guard :=
  match service.resources.lookup path with
  | some resource => resource.guards
  | none => []

/-- What the guards of a service come to on a request. -/
def rulingOn (service : Service) (r : Request) : Ruling :=
  ruling service.bodyLimit (service.guardsAt r.target.path) r

/-- The request is refused: it is answered with the status of the refusal and its object in JSON,
without the object if it is a `HEAD`. The response may say besides which verbs have a handler. -/
def Refuses (service : Service) (r : Request) (t : Tally) (a : Refusal) : Prop :=
  ∃ allow, (service.answer r t).1 = ⟨a.status, some "application/json", allow,
    if r.verb = "HEAD" then [] else a.toJson.toText.utf8Bytes⟩

theorem Handlers.serve_snd (hs : Handlers) (p : Passage) (t : Tally) : (hs.serve p t).2 = t := by
  unfold serve
  split <;> rfl

theorem Crossing.finish_snd {c : Crossing} {inner : Stage} (h : ∀ p t, (inner p t).2 = t) :
    (c.finish inner).2 = c.tally := by
  unfold finish
  cases c.progress with
  | answered response => rfl
  | underway p => exact h p c.tally

section

variable (service : Service) (r : Request) (t : Tally)

/-- Answering a request counts its ruling, and nothing else. -/
theorem answer_snd : (service.answer r t).2 = t.record r.label (service.rulingOn r) := by
  rw [answer, rulingOn, guardsAt]
  cases service.resources.lookup r.target.path with
  | none =>
    have hnothing : (crossAll service.bodyLimit [] ⟨r, none⟩ t).tally =
        t.record r.label (ruling service.bodyLimit [] r) := tally_crossAll service.bodyLimit [] r t
    exact hnothing
  | some resource =>
    simp only [Resource.answer, mount_eq_crossAll]
    rw [Crossing.finish_snd (Handlers.serve_snd resource.handlers), tally_crossAll]

/-- A refusal goes out whole unless the request is a `HEAD`, for by it no request is served. -/
theorem forVerb_refusal (f : Failure) (allow : Option String) (verb : String) :
    Response.forVerb { f.refusal.response with allow := allow } verb =
      ⟨f.refusal.status, some "application/json", allow,
        if verb = "HEAD" then [] else f.refusal.toJson.toText.utf8Bytes⟩ := by
  have hsuccess : f.refusal.status.isSuccess = false := by cases f <;> rfl
  by_cases hverb : verb = "HEAD"
  · rw [Response.forVerb, if_pos (.inl hverb), if_pos hverb]
    rfl
  · have hkept : ¬(verb = "HEAD" ∨ (verb = "CONNECT" ∧ f.refusal.status.isSuccess = true)) := by
      rw [hsuccess]
      rintro (h | ⟨-, h⟩)
      · exact hverb h
      · cases h
    rw [if_neg hverb]
    exact if_neg hkept

/-- If its guards answer a request the service does, at whatever path. -/
theorem refuses_of_answered {f : Failure}
    (h : (crossAll service.bodyLimit (service.guardsAt r.target.path).reverse ⟨r, none⟩ t).progress =
      .answered f.response) : service.Refuses r t f.refusal := by
  rw [f.response_eq] at h
  unfold Refuses answer
  unfold guardsAt at h
  cases hlookup : service.resources.lookup r.target.path with
  | none =>
    simp only [hlookup, List.reverse_nil, crossAll, reduceCtorEq] at h
  | some resource =>
    simp only [hlookup] at h
    simp only [Resource.answer, mount_eq_crossAll, Crossing.finish, h]
    split
    · exact ⟨none, forVerb_refusal f none r.verb⟩
    · exact ⟨some resource.handlers.allow, forVerb_refusal f _ r.verb⟩

end

/-! ## Accounts -/

/-- What a service makes of a request, and of its counters with it. -/
structure Accounted (service : Service) (r : Request) (t : Tally) : Prop where
  /-- A verb that is none is not counted. -/
  unnamed : ∀ e, Method.read r.verb = .error e →
    service.rulingOn r = .none ∧ (service.answer r t).2 = t
  /-- A request whose verb no guard covers is not counted. -/
  exempt : ∀ m, Method.read r.verb = .ok m →
    (∀ g ∈ service.guardsAt r.target.path, g.covers m = false) →
    service.rulingOn r = .none ∧ (service.answer r t).2 = t
  /-- Nor is one that cannot be read, which is told so: that its body is too long, or what is wrong
  with the request. -/
  unread : ∀ m f, Method.read r.verb = .ok m →
    (∃ g ∈ service.guardsAt r.target.path, g.covers m = true) →
    r.read service.bodyLimit m.source = .error f →
    service.rulingOn r = .none ∧ (service.answer r t).2 = t ∧
      ((service.bodyLimit < r.body.bytes.length ∧
          service.Refuses r t (.payloadTooLarge service.bodyLimit)) ∨
        (r.body.bytes.length ≤ service.bodyLimit ∧
          ∃ why, f = .unreadable why ∧ service.Refuses r t (.badRequest why.message)))
  /-- One that all guards on its verb let pass has as many checks as there are such guards. -/
  passed : ∀ m bytes d e, Method.read r.verb = .ok m →
    r.read service.bodyLimit m.source = .ok (bytes, d) →
    Guard.checkAll m (cover m (service.guardsAt r.target.path)) d = (e, .proceed) →
    service.rulingOn r = ⟨(cover m (service.guardsAt r.target.path)).length, none⟩
  /-- One that is turned away has those of the guards that let it pass and of the one that did not,
  whose message is what it is told. -/
  rejected : ∀ m bytes d e message, Method.read r.verb = .ok m →
    r.read service.bodyLimit m.source = .ok (bytes, d) →
    Guard.checkAll m (cover m (service.guardsAt r.target.path)) d = (e, .violation message) →
    (∃ before g after d', cover m (service.guardsAt r.target.path) = before ++ g :: after ∧
      Guard.checkAll m before d = (d', .proceed) ∧ g.check m d' = (e, .violation message) ∧
      service.rulingOn r = ⟨before.length + 1, some message⟩) ∧
    service.Refuses r t ⟨.unprocessable, "VALIDATION_ERROR", message, some (Text.lines message)⟩

theorem cover_eq_nil_iff {m : Method} {guards : List Guard} :
    cover m guards = [] ↔ ∀ g ∈ guards, g.covers m = false := by
  simp [cover]

/-- A request cannot be read because its body is too long, or within that for a reason of its own. -/
theorem failure_of_unreadable {r : Request} {limit : Nat} {source : Source} {f : Failure}
    (h : r.read limit source = .error f) :
    (limit < r.body.bytes.length ∧ f = .tooLarge limit) ∨
      (r.body.bytes.length ≤ limit ∧ ∃ why, f = .unreadable why) := by
  unfold Request.read Body.buffer at h
  by_cases hlength : limit < r.body.bytes.length
  · rw [if_pos hlength] at h
    cases h
    exact .inl ⟨hlength, rfl⟩
  · rw [if_neg hlength] at h
    right
    refine ⟨Nat.not_lt.mp hlength, ?_⟩
    by_cases hbroken : r.body.broken = true
    · rw [if_pos hbroken] at h
      cases h
      exact ⟨_, rfl⟩
    · rw [if_neg hbroken] at h
      simp only at h
      split at h
      · cases h
        exact ⟨_, rfl⟩
      · cases h

theorem accounted (service : Service) (r : Request) (t : Tally) : service.Accounted r t where
  unnamed e hm := by
    have hruling : service.rulingOn r = .none := ruling_of_no_verb hm
    refine ⟨hruling, ?_⟩
    rw [answer_snd, hruling]
    rfl
  exempt m hm hguards := by
    have hruling : service.rulingOn r = .none :=
      ruling_of_cover_eq_nil hm (cover_eq_nil_iff.mpr hguards)
    refine ⟨hruling, ?_⟩
    rw [answer_snd, hruling]
    rfl
  unread m f hm hguards hread := by
    have hruling : service.rulingOn r = .none := ruling_of_unreadable hm hread
    have hrefuses : service.Refuses r t f.refusal := by
      apply refuses_of_answered
      cases hcover : cover m (service.guardsAt r.target.path) with
      | nil =>
        obtain ⟨g, hg, hcovers⟩ := hguards
        rw [cover_eq_nil_iff.mp hcover g hg] at hcovers
        cases hcovers
      | cons g gs => rw [crossAll_of_cover_unreadable hm hcover hread]
    refine ⟨hruling, ?_, ?_⟩
    · rw [answer_snd, hruling]
      rfl
    · obtain ⟨hlong, rfl⟩ | ⟨hwithin, why, rfl⟩ := failure_of_unreadable hread
      · exact .inl ⟨hlong, hrefuses⟩
      · exact .inr ⟨hwithin, why, rfl, hrefuses⟩
  passed m bytes d e hm hread hall := by
    have hmade : (Guard.checksMade m (cover m (service.guardsAt r.target.path)) d).length =
        (cover m (service.guardsAt r.target.path)).length := by
      rw [← Guard.map_fst_checksMade hall, List.length_map, Guard.map_fst_checksMade hall]
    rw [rulingOn, ruling_of_read hm hread, hall, hmade]
    rfl
  rejected m bytes d e message hm hread hall := by
    obtain ⟨before, g, after, d', hcover, hbefore, hg, hmade⟩ :=
      Guard.exists_of_checkAll_violation hall
    have hlength : (Guard.checksMade m (cover m (service.guardsAt r.target.path)) d).length =
        before.length + 1 := by
      rw [← List.length_map, hmade, List.length_append, List.length_singleton]
    refine ⟨⟨before, g, after, d', hcover, hbefore, hg, ?_⟩, ?_⟩
    · rw [rulingOn, ruling_of_read hm hread, hall, hlength]
      rfl
    · apply refuses_of_answered (f := .violation message)
      cases hguards : cover m (service.guardsAt r.target.path) with
      | nil =>
        rw [hguards] at hall
        cases hall
      | cons first rest =>
        rw [crossAll_of_cover_read hm hguards hread]
        unfold checked
        rw [hall]
        rfl

/-- What requests add to the counters, one after another. -/
theorem count_answerAll (service : Service) (rs : List Request) (t : Tally) (label : String) :
    (service.answerAll rs t).2.checked.count label = t.checked.count label +
        ((rs.filter fun r => r.label = label).map fun r => (service.rulingOn r).checks).sum ∧
      (service.answerAll rs t).2.violated.count label = t.violated.count label +
        rs.countP fun r => r.label = label ∧ (service.rulingOn r).rejection?.isSome = true := by
  induction rs generalizing t with
  | nil => exact ⟨rfl, rfl⟩
  | cons r rs ih =>
    -- The first request leaves its ruling counted, and the others go on from there.
    have hcons : (service.answerAll (r :: rs) t).2 =
        (service.answerAll rs (t.record r.label (service.rulingOn r))).2 := by
      rw [← answer_snd]
      rfl
    obtain ⟨hchecked, hviolated⟩ := ih (t.record r.label (service.rulingOn r))
    rw [hcons, hchecked, hviolated, count_checked_record, count_violated_record]
    by_cases hr : r.label = label
    · simp only [List.filter_cons, List.countP_cons, hr, decide_true, if_true, true_and,
        List.map_cons, List.sum_cons, decide_eq_true_eq]
      constructor <;> omega
    · simp [hr, Ne.symm hr]

theorem countP_rejected_le_sum_checks (service : Service) (rs : List Request) (label : String) :
    (rs.countP fun r => r.label = label ∧ (service.rulingOn r).rejection?.isSome = true) ≤
      ((rs.filter fun r => r.label = label).map fun r => (service.rulingOn r).checks).sum := by
  induction rs with
  | nil => exact Nat.le_refl 0
  | cons r rs ih =>
    by_cases hr : r.label = label
    · have hone : (service.rulingOn r).rejection?.isSome = true → 1 ≤ (service.rulingOn r).checks :=
        one_le_checks
      simp only [List.countP_cons, List.filter_cons, hr, true_and, decide_true, if_true,
        List.map_cons, List.sum_cons, decide_eq_true_eq] at ih ⊢
      split
      · rename_i hrejected
        have := hone hrejected
        omega
      · omega
    · simpa [hr] using ih

/-- **The counters account for every decision.** After however many requests, from counters at zero,
and for every verb in upper case: the violations counted are the requests of that verb that a guard
turned away; the checks counted are those that guards made of requests of that verb; and there are
never more violations than checks. What one request counts for is `Accounted`, whatever the counters
were before it. -/
theorem counters_account (service : Service) (rs : List Request) (label : String) :
    let t := (service.answerAll rs .zero).2
    (t.violated.count label =
      rs.countP fun r => r.label = label ∧ (service.rulingOn r).rejection?.isSome = true) ∧
    t.checked.count label =
      ((rs.filter fun r => r.label = label).map fun r => (service.rulingOn r).checks).sum ∧
    t.violated.count label ≤ t.checked.count label ∧
    ∀ r t, service.Accounted r t := by
  intro t
  obtain ⟨hchecked, hviolated⟩ := count_answerAll service rs .zero label
  have hzero : Tally.zero.checked.count label = 0 ∧ Tally.zero.violated.count label = 0 := ⟨rfl, rfl⟩
  rw [hzero.1, Nat.zero_add] at hchecked
  rw [hzero.2, Nat.zero_add] at hviolated
  refine ⟨hviolated, hchecked, ?_, accounted service⟩
  rw [hviolated, hchecked]
  exact countP_rejected_le_sum_checks service rs label

/-- Two guards, the outer one on every verb and the inner one on `GET`, and five requests: one that
both let pass, one in lower case that the inner guard turns away, one that the outer guard turns
away, one whose body is too long, and one to a path where nothing stands. -/
theorem counters_account_mixed :
    let inner : Guard := ⟨[.coerced .integer ["p"]], some .get⟩
    let outer : Guard := ⟨[.field "p"], none⟩
    let service := inspection 8 [inner, outer]
    let sent (verb path query : String) (body : List UInt8) : Request :=
      ⟨verb, ⟨path, query.utf8Bytes⟩, [], .whole body⟩
    let rs := [sent "GET" "/echo" "p=3" [], sent "get" "/echo" "p=x" [], sent "GET" "/raw" "" [],
      sent "GET" "/echo" "p=3" (List.replicate 9 0), sent "GET" "/none" "" []]
    let told (status : Status) (text : String) : Response :=
      ⟨status, some "application/json", none, text.utf8Bytes⟩
    (service.answerAll rs .zero).2.violated.count "GET" = 2 ∧
      (service.answerAll rs .zero).2.checked.count "GET" = 5 ∧
      (service.answerAll rs .zero).1 = [
        told .ok "\x7b\"query\":\x7b\"p\":3\x7d,\"body\":\x7b\x7d\x7d",
        told .unprocessable ("\x7b\"error\":\x7b\"code\":\"VALIDATION_ERROR\"," ++
          "\"message\":\"p must be an integer.\",\"details\":[\"p must be an integer.\"]\x7d\x7d"),
        told .unprocessable ("\x7b\"error\":\x7b\"code\":\"VALIDATION_ERROR\"," ++
          "\"message\":\"p must be given.\",\"details\":[\"p must be given.\"]\x7d\x7d"),
        told .contentTooLarge ("\x7b\"error\":\x7b\"code\":\"PAYLOAD_TOO_LARGE\"," ++
          "\"message\":\"request body exceeds 8 bytes\"\x7d\x7d"),
        .bare .notFound] := by
  intro inner outer service sent rs told
  obtain ⟨hviolated, hchecked, -⟩ := counters_account service rs "GET"
  rw [hviolated, hchecked]
  exact ⟨by decide +kernel, by decide +kernel, by decide +kernel⟩

end Service

end RequestGuard
