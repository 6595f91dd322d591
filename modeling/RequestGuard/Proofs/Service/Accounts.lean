import RequestGuard.Proofs.Request.Equality
import RequestGuard.Proofs.Request.Wire
import RequestGuard.Proofs.Schema.Address
import RequestGuard.Proofs.Schema.Application
import RequestGuard.Proofs.Schema.FixedPoint
import RequestGuard.Proofs.Schema.Forgiveness
import RequestGuard.Proofs.Service.Wiring
import RequestGuard.Proofs.Text.Case

/-!
# What accounts accept

Which requests the resource for accounts serves, said of what was sent: of the members of an object
in JSON (`Creatable`) and of the pairs of a query (`Searchable`). Two things stand between that and
the schemas. A visit sees the field as the visits before it left it; here none of those writes the
field, so each requirement is one on the field as it was read (`silent_creation_iff`,
`silent_search_iff`). And reading turns members into values, which for what has to be a text is
without loss (`isSome_bind_ofDocument_iff`).

The main statement is that the site serves just these requests and answers a creation with an object
in JSON whose members are those of `Created`.
-/

namespace RequestGuard

/-! ## Values -/

/-- A member of an object gives its field a text only if it is a string. -/
theorem FieldValue.ofDocument_eq_text_iff {v : Document} {s : String} :
    FieldValue.ofDocument v = .text s ↔ v = .string s := by
  constructor
  · intro h
    obtain ⟨v, hv⟩ := v
    cases v with
    | string value =>
      cases h
      rfl
    | number n =>
      cases n with
      | integer i fits =>
        rw [ofDocument] at h
        split at h <;> cases h
      | float x finite => cases h
    | null | boolean _ | array _ | object _ => cases h
  · rintro rfl
    rfl

theorem Coercion.isSome_mailbox_iff {v : FieldValue} :
    (Coercion.mailbox.coerce? v).isSome = true ↔
      ∃ s, v = .text s ∧ Mailbox.accepts s.toList = true := by
  cases v <;> simp [coerce?, toMailbox?]

theorem Coercion.eq_of_mailbox {v w : FieldValue} (h : Coercion.mailbox.coerce? v = some w) :
    w = v := by
  cases v with
  | text s =>
    obtain ⟨-, hw⟩ := Option.ite_none_right_eq_some.mp h
    exact (Option.some.inj hw).symm
  | number _ | integer _ | boolean _ | date _ | json _ =>
    exact absurd h (by simp [coerce?, toMailbox?])

theorem Coercion.exists_integer {v w : FieldValue} (h : Coercion.integer.coerce? v = some w) :
    ∃ i, w = .integer i := by
  have hgives : integer.gives w = true := gives_of_coerce? h
  cases w with
  | integer i => exact ⟨i, rfl⟩
  | text _ | number _ | boolean _ | date _ | json _ => exact absurd hgives Bool.false_ne_true

/-- ASCII letters take a byte each. -/
theorem Text.Utf8.length_encode_of_isAlpha {cs : List Char} (h : ∀ c ∈ cs, c.isAlpha = true) :
    (encode cs).length = cs.length := by
  induction cs with
  | nil => rfl
  | cons c cs ih =>
    obtain ⟨hc, hcs⟩ := List.forall_mem_cons.mp h
    have hsize : c.utf8Size = 1 := by
      rw [Char.utf8Size_eq_one_iff]
      obtain hupper | hlower := (Bool.or_eq_true c.isUpper c.isLower).mp hc
      · have hle : c.val ≤ 'Z'.val := (of_decide_eq_true hupper).2
        exact UInt32.le_trans hle (by decide)
      · have hle : c.val ≤ 'z'.val := of_decide_eq_true ((Bool.and_eq_true _ _).mp hlower).2
        exact UInt32.le_trans hle (by decide)
    have hcons : encode (c :: cs) = String.utf8EncodeChar c ++ encode cs := List.flatMap_cons
    rw [hcons, List.length_append, String.length_utf8EncodeChar, hsize, ih hcs, List.length_cons,
      Nat.add_comm]

namespace Service

/-! ## One guard on a verb -/

section

variable {limit : Nat} {m : Method} {g : Guard} {r : Request} {t : Tally}
  (hm : Method.read r.verb = .ok m)

include hm

/-- Where one guard of a stack covers the verb, it makes of the request what the stack does. -/
theorem crossAll_of_sole {gs : List Guard} (hgs : gs.filter (·.covers m) = [g]) :
    crossAll limit gs ⟨r, none⟩ t = cross limit g ⟨r, none⟩ t := by
  rw [← crossAll_filter_covers hm, hgs, crossAll]
  unfold Crossing.andThen
  split
  · rfl
  · rename_i p hp
    rw [crossAll, List.append_nil, ← hp]

namespace Resource

variable {resource : Resource} (hgs : resource.guards.filter (·.covers m) = [g])

include hgs

theorem mount_of_sole (inner : Stage) :
    mount limit resource.guards inner ⟨r, none⟩ t = (cross limit g ⟨r, none⟩ t).finish inner := by
  have hreverse : resource.guards.reverse.filter (·.covers m) = [g] := by
    rw [List.filter_reverse, hgs, List.reverse_singleton]
  rw [mount_eq_crossAll, crossAll_of_sole hm hreverse]

variable {scope : Scope} (hscope : g.scopeFor? m = some scope)

include hscope

/-- A request that cannot be read is answered so. -/
theorem status_of_unreadable {f : Failure} (hread : r.read limit m.source = .error f) :
    (resource.answer limit r t).1.status = f.status := by
  have hcovers : g.covers m = true := Option.isSome_of_eq_some hscope
  rw [status_answer, mount_of_sole hm hgs, cross_of_unreadable hm hcovers hread]
  rfl

variable {bytes : List UInt8} {d : RequestData} (hread : r.read limit m.source = .ok (bytes, d))

include hread

/-- A request in which the guard finds something wrong is turned away. -/
theorem status_of_remarks (h : (Schema.run g.schema scope d).2 ≠ []) :
    (resource.answer limit r t).1.status = .unprocessable := by
  have hcovers : g.covers m = true := Option.isSome_of_eq_some hscope
  rw [status_answer, mount_of_sole hm hgs, cross_of_read hm hcovers hread]
  unfold judge
  rw [Guard.check_of_covers hscope]
  cases hverdict : Verdict.ofReport (Schema.run g.schema scope d).2 with
  | proceed => exact absurd ((Verdict.ofReport_eq_proceed_iff _).1 hverdict) h
  | violation message => rfl

/-- And one in which it finds nothing wrong is handled, with the data as the guard left it. -/
theorem answer_of_silent {handler : Handler} (hfind : resource.handlers.find? r.verb = some handler)
    (h : (Schema.run g.schema scope d).2 = []) :
    (resource.answer limit r t).1 =
      (handler ⟨r, some (Schema.run g.schema scope d).1⟩ (t.addCheck m.label)).forVerb r.verb := by
  have hcovers : g.covers m = true := Option.isSome_of_eq_some hscope
  have hcheck : g.check m d = ((Schema.run g.schema scope d).1, .proceed) := by
    rw [Guard.check_of_covers hscope, (Verdict.ofReport_eq_proceed_iff _).2 h]
  have hmount : mount limit resource.guards resource.handlers.serve ⟨r, none⟩ t =
      resource.handlers.serve ⟨r, some (Schema.run g.schema scope d).1⟩ (t.addCheck m.label) := by
    rw [mount_of_sole hm hgs, cross_of_read hm hcovers hread]
    unfold judge
    rw [hcheck]
    rfl
  simp only [answer, hmount, Handlers.serve, hfind]

end Resource

end

namespace Accounts

open Schema

/-! ## Creation -/

/-- The currency that a value gives. -/
def currencyOf? (given : FieldValue) : Option FieldValue :=
  (given.text?.bind currencyCode?).map .text

/-- The plans as alternatives. -/
def admittedPlans : List Alternative := plans.map fun plan => .literal (.text plan)

/-- The visits of the schema for creation. -/
def creationVisits : List Visit :=
  [⟨.body, "email", .given true⟩, ⟨.body, "email", .ofKind .mailbox⟩,
    ⟨.body, "plan", .among admittedPlans⟩, ⟨.body, "seats", .ofKind .integer⟩,
    ⟨.body, "phone", .given true⟩, ⟨.body, "address", .given true⟩,
    ⟨.body, "currency", .among [.transform currency]⟩]

theorem visits_creation (s : Source) (forced : Bool) : visits creation s forced = creationVisits :=
  rfl

theorem targets_creationVisits :
    targets creationVisits =
      [(.body, "email"), (.body, "plan"), (.body, "seats"), (.body, "currency")] := rfl

theorem groupLines_creation (o₁ o₂ o₃ o₄ o₅ o₆ o₇ : Option Remark) :
    groupLines false (shares creation false [o₁, o₂, o₃, o₄, o₅, o₆, o₇]) = [] ↔
      o₁ = none ∧ o₂ = none ∧ o₃ = none ∧ o₄ = none ∧ (o₅ = none ∨ o₆ = none) ∧ o₇ = none := by
  simp [creation, shares, nodeLines, groupLines_eq_nil_iff, leafLines_eq_nil_iff, isAnyOf,
    nodeVisitCount, visitCount]

theorem applies_plan :
    Visit.Applies ⟨.body, "plan", .among admittedPlans⟩ (Demand.among admittedPlans).result? :=
  Visit.applies_result? rfl

theorem applies_currency :
    Visit.Applies ⟨.body, "currency", .among [.transform currency]⟩ currencyOf? :=
  Visit.applies_transform .body "currency" currencyOf?

/-- What the guard for creation asks of the body, field by field as it was read. -/
theorem silent_creation_iff {scope : Scope} (hscope : scope.anySuffices = false)
    (d : RequestData) :
    (run creation scope d).2 = [] ↔
      ((d.get? .body "email").bind Coercion.mailbox.coerce?).isSome = true ∧
      ((d.get? .body "plan").bind (Demand.among admittedPlans).result?).isSome = true ∧
      ((d.get? .body "seats").bind Coercion.integer.coerce?).isSome = true ∧
      ((d.get? .body "phone").isSome = true ∨ (d.get? .body "address").isSome = true) ∧
      ((d.get? .body "currency").bind currencyOf?).isSome = true := by
  let b := scope.brief
  have hgiven := (Visit.applies_given .body "email" true).silent_iff b d
  have hmailbox := (Visit.applies_ofKind .body "email" .mailbox).silent_iff b d
  have hplan := applies_plan.silent_perform_iff (creationVisits.take 2) (by decide) b d
  have hseats := (Visit.applies_ofKind .body "seats" .integer).silent_perform_iff
    (creationVisits.take 3) (by decide) b d
  have hphone := (Visit.applies_given .body "phone" true).silent_perform_iff
    (creationVisits.take 4) (by decide) b d
  have haddress := (Visit.applies_given .body "address" true).silent_perform_iff
    (creationVisits.take 5) (by decide) b d
  have hcurrency := applies_currency.silent_perform_iff (creationVisits.take 6) (by decide) b d
  rw [Option.bind_fun_some] at hgiven hphone haddress
  -- That there is an address to begin with follows from that it is one.
  have hthere : ((d.get? .body "email").bind Coercion.mailbox.coerce?).isSome = true →
      (d.get? .body "email").isSome = true := by
    intro h
    exact Option.isSome_of_isSome_bind h
  rw [run_snd_eq_nil_iff, hscope, visits_creation]
  refine (groupLines_creation _ _ _ _ _ _ _).trans ?_
  refine (and_congr hgiven <| and_congr hmailbox <| and_congr hplan <| and_congr hseats <|
    and_congr (or_congr hphone haddress) hcurrency).trans ?_
  exact ⟨fun h => h.2, fun h => ⟨hthere h.1, h⟩⟩

/-- What an object in JSON has to be to create an account. -/
structure Creatable (ms : Members) : Prop where
  email : ∃ s, ms.get? "email" = some (.string s) ∧ Mailbox.IsAddress s.toList
  plan : ∃ s, ms.get? "plan" = some (.string s) ∧ (s = "free" ∨ s = "team" ∨ s = "enterprise")
  seats : ∃ v, ms.get? "seats" = some v ∧
    (Coercion.integer.coerce? (.ofDocument v)).isSome = true
  contact : (ms.get? "phone").isSome = true ∨ (ms.get? "address").isSome = true
  currency : ∃ s, ms.get? "currency" = some (.string s) ∧
    s.toList.length = 3 ∧ ∀ c ∈ s.toList, c.isAlpha = true

/-- What stands in the answer to the creation of an account: the members of the object that it was
created with, the seats as the integer that they are taken for, the currency in capitals and every
other one as it is written again once it has been read. -/
structure Created (ms : Members) (answered : List (String × Json)) : Prop where
  distinct : (answered.map Prod.fst).Nodup
  names : ∀ n, (answered.lookup n).isSome = (ms.get? n).isSome
  seats : ∀ v, ms.get? "seats" = some v →
    ∃ i fits, Coercion.integer.coerce? (.ofDocument v) = some (.integer i) ∧
      answered.lookup "seats" = some (.number (.integer i.toInt fits))
  currency : ∀ s, ms.get? "currency" = some (.string s) →
    ∃ code, answered.lookup "currency" = some (.string code) ∧ Text.SameButCase s code ∧
      ∀ c ∈ code.toList, 'A' ≤ c ∧ c ≤ 'Z'
  others : ∀ n v, n ≠ "seats" → n ≠ "currency" → ms.get? n = some v →
    ∃ w, answered.lookup n = some w ∧ Json.Rewritten v.val w

theorem mem_plans_iff {s : String} : s ∈ plans ↔ s = "free" ∨ s = "team" ∨ s = "enterprise" := by
  simp [plans]

theorem any_admits_admittedPlans_iff (v : FieldValue) :
    admittedPlans.any (Alternative.admits v) = true ↔ ∃ s, v = .text s ∧ s ∈ plans := by
  simp only [admittedPlans, List.any_map, List.any_eq_true, Function.comp_apply,
    Alternative.admits, FieldValue.same_text_iff]
  exact exists_congr fun s => and_comm

theorem isSome_result?_admittedPlans_iff (v : FieldValue) :
    ((Demand.among admittedPlans).result? v).isSome = true ↔ ∃ s, v = .text s ∧ s ∈ plans := by
  rw [← any_admits_admittedPlans_iff, Demand.result?]
  split
  · rename_i h
    exact iff_of_true rfl h
  · rename_i h
    exact iff_of_false Bool.false_ne_true h

theorem eq_of_result?_admittedPlans {v w : FieldValue}
    (h : (Demand.among admittedPlans).result? v = some w) : w = v := by
  obtain ⟨-, hw⟩ := Option.ite_none_right_eq_some.mp h
  exact (Option.some.inj hw).symm

theorem currencyCode?_eq_some_iff {s code : String} :
    currencyCode? s = some code ↔
      (s.toList.length = 3 ∧ ∀ c ∈ s.toList, c.isAlpha = true) ∧ Method.uppercase s = code := by
  rw [currencyCode?, Option.ite_none_right_eq_some, List.all_eq_true, Option.some.injEq]
  refine and_congr_left' (and_congr_left fun hletters => ?_)
  rw [String.utf8Bytes, Text.Utf8.length_encode_of_isAlpha hletters]

theorem currencyOf?_text (s : String) : currencyOf? (.text s) = (currencyCode? s).map .text := rfl

theorem isSome_currencyOf?_iff (v : FieldValue) :
    (currencyOf? v).isSome = true ↔
      ∃ s, v = .text s ∧ s.toList.length = 3 ∧ ∀ c ∈ s.toList, c.isAlpha = true := by
  cases v with
  | text s =>
    rw [currencyOf?_text, Option.isSome_map, Option.isSome_iff_exists]
    simp [currencyCode?_eq_some_iff]
  | number _ | integer _ | boolean _ | date _ | json _ => simp [currencyOf?, FieldValue.text?]

/-- What is met by texts only is met by strings only among the members of an object. -/
theorem isSome_bind_ofDocument_iff {f : FieldValue → Option FieldValue} {p : String → Prop}
    (hf : ∀ v, (f v).isSome = true ↔ ∃ s, v = .text s ∧ p s) (member : Option Document) :
    ((member.map FieldValue.ofDocument).bind f).isSome = true ↔
      ∃ s, member = some (.string s) ∧ p s := by
  cases member with
  | none => simp
  | some v =>
    rw [Option.map_some, Option.bind_some, hf]
    simp only [FieldValue.ofDocument_eq_text_iff, Option.some.injEq]

/-- What keeps the values that it takes keeps a field that it takes. -/
theorem bind_eq_self {f : FieldValue → Option FieldValue} (hf : ∀ {v w}, f v = some w → w = v)
    {given : Option FieldValue} (h : (given.bind f).isSome = true) : given.bind f = given := by
  obtain ⟨w, hw⟩ := Option.isSome_iff_exists.mp h
  obtain ⟨v, hv, hvw⟩ := Option.bind_eq_some_iff.mp hw
  rw [hw, hv, hf hvw]

section

variable {ms : Members} {d : RequestData}
  (hd : ∀ n, d.get? .body n = (ms.get? n).map FieldValue.ofDocument)

include hd

/-- The guard for creation lets those objects pass that it should. -/
theorem silent_creation_iff_creatable (scope : Scope) (hscope : scope.anySuffices = false) :
    (run creation scope d).2 = [] ↔ Creatable ms := by
  have hemail := isSome_bind_ofDocument_iff (fun v => Coercion.isSome_mailbox_iff) (ms.get? "email")
  have hplan := isSome_bind_ofDocument_iff isSome_result?_admittedPlans_iff (ms.get? "plan")
  have hcurrency := isSome_bind_ofDocument_iff isSome_currencyOf?_iff (ms.get? "currency")
  have hseats : (((ms.get? "seats").map FieldValue.ofDocument).bind
      Coercion.integer.coerce?).isSome = true ↔ ∃ v, ms.get? "seats" = some v ∧
        (Coercion.integer.coerce? (.ofDocument v)).isSome = true := by
    cases ms.get? "seats" <;> simp
  simp only [Mailbox.accepts_iff] at hemail
  simp only [mem_plans_iff] at hplan
  rw [silent_creation_iff hscope, hd, hd, hd, hd, hd, hd, hemail, hplan, hseats, hcurrency,
    Option.isSome_map, Option.isSome_map]
  exact ⟨fun ⟨he, hp, hs, hc, hu⟩ => ⟨he, hp, hs, hc, hu⟩, fun ⟨he, hp, hs, hc, hu⟩ =>
    ⟨he, hp, hs, hc, hu⟩⟩

/-- It makes the seats an integer. -/
theorem get?_creation_seats (h : Creatable ms) (scope : Scope) :
    ∃ v i, ms.get? "seats" = some v ∧ Coercion.integer.coerce? (.ofDocument v) = some (.integer i) ∧
      (run creation scope d).1.get? .body "seats" = some (.integer i) := by
  obtain ⟨v, hmember, hsome⟩ := h.seats
  obtain ⟨value, hvalue⟩ := Option.isSome_iff_exists.mp hsome
  obtain ⟨i, rfl⟩ := Coercion.exists_integer hvalue
  have hseats : (perform creationVisits d).get? .body "seats" =
      (d.get? .body "seats").bind Coercion.integer.coerce? :=
    (Visit.applies_ofKind .body "seats" .integer).get?_perform (creationVisits.take 3)
      (creationVisits.drop 4) (by decide) (by decide) d
  rw [hd, hmember, Option.map_some, Option.bind_some, hvalue] at hseats
  rw [run_fst]
  exact ⟨v, i, hmember, hvalue, hseats⟩

/-- It brings the currency into upper case. -/
theorem get?_creation_currency (h : Creatable ms) (scope : Scope) :
    ∃ s, ms.get? "currency" = some (.string s) ∧ (∀ c ∈ s.toList, c.isAlpha = true) ∧
      (run creation scope d).1.get? .body "currency" = some (.text (Method.uppercase s)) := by
  obtain ⟨s, hmember, hletters⟩ := h.currency
  have hcurrency : (perform creationVisits d).get? .body "currency" =
      (d.get? .body "currency").bind currencyOf? :=
    applies_currency.get?_perform (creationVisits.take 6) [] (by decide) (by decide) d
  rw [hd, hmember, Option.map_some, Option.bind_some, FieldValue.ofDocument_eq_text_iff.2 rfl,
    currencyOf?_text, currencyCode?_eq_some_iff.2 ⟨hletters, rfl⟩, Option.map_some] at hcurrency
  rw [run_fst]
  exact ⟨s, hmember, hletters.2, hcurrency⟩

/-- And it leaves the others as they were read. The address and the plan are written as well, but with
the values that they have. -/
theorem get?_creation_of_ne (h : Creatable ms) (scope : Scope) {n : String} (hseats : n ≠ "seats")
    (hcurrency : n ≠ "currency") :
    (run creation scope d).1.get? .body n = (ms.get? n).map FieldValue.ofDocument := by
  have hemail : (perform creationVisits d).get? .body "email" = d.get? .body "email" := by
    have hsome : ((d.get? .body "email").bind Coercion.mailbox.coerce?).isSome = true := by
      rw [hd, isSome_bind_ofDocument_iff (fun v => Coercion.isSome_mailbox_iff)]
      simp only [Mailbox.accepts_iff]
      exact h.email
    rw [← bind_eq_self Coercion.eq_of_mailbox hsome]
    exact (Visit.applies_ofKind .body "email" .mailbox).get?_perform (creationVisits.take 1)
      (creationVisits.drop 2) (by decide) (by decide) d
  have hplan : (perform creationVisits d).get? .body "plan" = d.get? .body "plan" := by
    have hsome : ((d.get? .body "plan").bind
        (Demand.among admittedPlans).result?).isSome = true := by
      rw [hd, isSome_bind_ofDocument_iff isSome_result?_admittedPlans_iff]
      simp only [mem_plans_iff]
      exact h.plan
    rw [← bind_eq_self eq_of_result?_admittedPlans hsome]
    exact applies_plan.get?_perform (creationVisits.take 2) (creationVisits.drop 3) (by decide)
      (by decide) d
  rw [run_fst, visits_creation, ← hd]
  by_cases hn : n = "email" ∨ n = "plan"
  · obtain rfl | rfl := hn
    · exact hemail
    · exact hplan
  · apply get?_perform_of_not_mem_targets
    rw [targets_creationVisits]
    simp_all

/-- The fields that it leaves are what the account is answered with. -/
theorem created_of_creatable (h : Creatable ms) (scope : Scope) :
    Created ms ((run creation scope d).1.body.entries.map fun e => (e.1, e.2.toJson)) := by
  let e := (run creation scope d).1
  have hlookup : ∀ n, (e.body.entries.map fun e => (e.1, e.2.toJson)).lookup n =
      (e.get? .body n).map FieldValue.toJson := by
    intro n
    exact lookup_map_snd FieldValue.toJson n e.body.entries
  obtain ⟨v, i, hmember, hvalue, hseats⟩ := get?_creation_seats hd h scope
  obtain ⟨code, hcode, hletters, hcurrency⟩ := get?_creation_currency hd h scope
  have hothers {n : String} := get?_creation_of_ne (n := n) hd h scope
  constructor
  case distinct =>
    rw [List.map_map]
    exact e.body.nodup_names
  case names =>
    intro n
    rw [hlookup, Option.isSome_map]
    by_cases hn : n = "seats"
    · rw [hn, hseats, hmember]
      rfl
    by_cases hn' : n = "currency"
    · rw [hn', hcurrency, hcode]
      rfl
    · rw [hothers hn hn', Option.isSome_map]
  case seats =>
    intro w hw
    obtain rfl : v = w := Option.some.inj (hmember.symm.trans hw)
    obtain ⟨fits, hjson⟩ := FieldValue.toJson_integer i
    refine ⟨i, fits, hvalue, ?_⟩
    rw [hlookup, hseats, Option.map_some, hjson]
  case currency =>
    intro s hs
    have hsame : Document.string code = .string s := Option.some.inj (hcode.symm.trans hs)
    obtain rfl : code = s := FieldValue.text.inj (congrArg FieldValue.ofDocument hsame)
    refine ⟨Method.uppercase code, ?_, Method.sameButCase_uppercase code,
      Method.capital_of_mem_uppercase hletters⟩
    rw [hlookup, hcurrency]
    rfl
  case others =>
    intro n w hn hn' hw
    refine ⟨(FieldValue.ofDocument w).toJson, ?_, FieldValue.rewritten_ofDocument w⟩
    rw [hlookup, hothers hn hn', hw]
    rfl

end

/-! ## Searches -/

/-- What a query has to say to be a search. -/
structure Searchable (r : Request) : Prop where
  search : (r.parameter? "q").isSome = true
  page : ∃ s, r.parameter? "page" = some s ∧
    (Coercion.integer.coerce? (.text s)).isSome = true
  holder : (r.parameter? "owner").isSome = true ∨ (r.parameter? "plan").isSome = true

/-- The visits of the schema for searches. -/
def searchVisits : List Visit :=
  [⟨.query, "q", .given false⟩, ⟨.query, "page", .given false⟩, ⟨.query, "page", .ofKind .integer⟩,
    ⟨.query, "owner", .given true⟩, ⟨.query, "plan", .given true⟩]

theorem visits_search : visits search .query false = searchVisits := rfl

theorem groupLines_search (o₁ o₂ o₃ o₄ o₅ : Option Remark) :
    groupLines false (shares search false [o₁, o₂, o₃, o₄, o₅]) = [] ↔
      o₁ = none ∧ o₂ = none ∧ o₃ = none ∧ (o₄ = none ∨ o₅ = none) := by
  simp [search, shares, nodeLines, groupLines_eq_nil_iff, leafLines_eq_nil_iff, isAnyOf,
    nodeVisitCount, visitCount]

/-- What the guard for searches asks of the query, field by field as it was read. -/
theorem silent_search_iff {scope : Scope} (hsource : scope.source = .query)
    (hscope : scope.anySuffices = false) (d : RequestData) :
    (run search scope d).2 = [] ↔
      (d.get? .query "q").isSome = true ∧
      ((d.get? .query "page").bind Coercion.integer.coerce?).isSome = true ∧
      ((d.get? .query "owner").isSome = true ∨ (d.get? .query "plan").isSome = true) := by
  let b := scope.brief
  have hq := (Visit.applies_given .query "q" false).silent_iff b d
  have hgiven := (Visit.applies_given .query "page" false).silent_iff b d
  have hpage := (Visit.applies_ofKind .query "page" .integer).silent_iff b d
  have howner := (Visit.applies_given .query "owner" true).silent_perform_iff
    (searchVisits.take 3) (by decide) b d
  have hplan := (Visit.applies_given .query "plan" true).silent_perform_iff
    (searchVisits.take 4) (by decide) b d
  rw [Option.bind_fun_some] at hq hgiven howner hplan
  rw [run_snd_eq_nil_iff, hscope, hsource, visits_search]
  refine (groupLines_search _ _ _ _ _).trans ?_
  refine (and_congr hq <| and_congr hgiven <| and_congr hpage <| or_congr howner hplan).trans ?_
  -- That there is a page follows from that it is an integer.
  constructor
  · rintro ⟨hq, -, hpage, hholder⟩
    exact ⟨hq, hpage, hholder⟩
  · rintro ⟨hq, hpage, hholder⟩
    exact ⟨hq, Option.isSome_of_isSome_bind hpage, hpage, hholder⟩

/-- The guard for searches lets those queries pass that it should. -/
theorem silent_search_iff_searchable {r : Request} {d : RequestData}
    (hd : ∀ n, d.get? .query n = (r.parameter? n).map .text) (scope : Scope)
    (hsource : scope.source = .query) (hscope : scope.anySuffices = false) :
    (run search scope d).2 = [] ↔ Searchable r := by
  have hpage : (((r.parameter? "page").map FieldValue.text).bind
      Coercion.integer.coerce?).isSome = true ↔ ∃ s, r.parameter? "page" = some s ∧
        (Coercion.integer.coerce? (.text s)).isSome = true := by
    cases r.parameter? "page" <;> simp
  rw [silent_search_iff hsource hscope, hd, hd, hd, hd, hpage, Option.isSome_map,
    Option.isSome_map, Option.isSome_map]
  exact ⟨fun ⟨hq, hp, ho⟩ => ⟨hq, hp, ho⟩, fun ⟨hq, hp, ho⟩ => ⟨hq, hp, ho⟩⟩

end Accounts

/-! ## The site -/

theorem answer_site_accounts {r : Request} (hpath : r.target.path = "/v1/accounts") (limit : Nat)
    (exposesMetrics : Bool) (t : Tally) :
    (site limit exposesMetrics).answer r t = Accounts.resource.answer limit r t := by
  have hlookup : (site limit exposesMetrics).resources.lookup r.target.path =
      some Accounts.resource := by
    rw [hpath]
    cases exposesMetrics <;> rfl
  rw [Service.answer, hlookup]
  rfl

section

open Accounts

variable {r : Request} {limit : Nat} {t : Tally}

/-- Under `POST` an object in JSON creates an account or is turned away. -/
theorem Accounts.answer_creation (hverb : r.verb = "POST") (htype : MediaType.ofRequest r = .json)
    {bytes : List UInt8} {v : Document} {ms : Members} (hbody : r.body.buffer limit = .ok bytes)
    (hread : Json.read bytes = .ok v) (hv : v.members? = some ms) :
    (Creatable ms → ∃ answered, Created ms answered ∧
      (resource.answer limit r t).1 = ⟨.created, some "application/json", none,
        (Json.object answered).toText.utf8Bytes⟩) ∧
    (¬Creatable ms → (resource.answer limit r t).1.status = .unprocessable) := by
  have hm : Method.read r.verb = .ok .post := by
    rw [hverb]
    decide +kernel
  obtain ⟨d, hd, hfields⟩ := exists_read_object hbody htype hread hv
  have hgs : resource.guards.filter (·.covers .post) = [creationGuard] := rfl
  have hsilent := silent_creation_iff_creatable hfields ⟨.body, false, false⟩ rfl
  have hfind : resource.handlers.find? r.verb =
      some (.ofData fun d => .json .created d.body.toJson) := by
    rw [hverb]
    rfl
  constructor
  · intro h
    refine ⟨_, created_of_creatable hfields h ⟨.body, false, false⟩, ?_⟩
    rw [Resource.answer_of_silent hm hgs rfl hd hfind (hsilent.2 h), hverb]
    rfl
  · intro h
    exact Resource.status_of_remarks hm hgs rfl hd fun hnil => h (hsilent.1 hnil)

/-- Under `GET` a search whose body is within the limit is answered, and nothing else. -/
theorem Accounts.answer_search (hverb : r.verb = "GET") :
    (resource.answer limit r t).1.status = .ok ↔
      (∃ bytes, r.body.buffer limit = .ok bytes) ∧ Searchable r := by
  have hm : Method.read r.verb = .ok .get := by
    rw [hverb]
    decide +kernel
  have hgs : resource.guards.filter (·.covers .get) = [searchGuard] := rfl
  have hscope : searchGuard.scopeFor? .get = some ⟨.query, false, false⟩ := rfl
  have hfind : resource.handlers.find? r.verb =
      some (.ofData fun d => .json .ok d.query.toJson) := by
    rw [hverb]
    rfl
  cases hbody : r.body.buffer limit with
  | error why =>
    have hread : r.read limit .query = .error (.ofUnbuffered limit why) := by
      simp only [Request.read, hbody]
    rw [Resource.status_of_unreadable hm hgs hscope hread]
    cases why <;> simp [Failure.ofUnbuffered, Failure.status]
  | ok bytes =>
    obtain ⟨d, hd, hfields⟩ := exists_read_query hbody
    have hsilent := silent_search_iff_searchable hfields ⟨.query, false, false⟩ rfl rfl
    constructor
    · intro hok
      refine ⟨⟨bytes, rfl⟩, ?_⟩
      by_contra h
      have hstatus := Resource.status_of_remarks (t := t) hm hgs hscope hd
        fun hnil => h (hsilent.1 hnil)
      rw [hstatus] at hok
      cases hok
    · rintro ⟨-, h⟩
      rw [Resource.answer_of_silent hm hgs hscope hd hfind (hsilent.2 h), Response.status_forVerb]
      rfl

/-- **Accounts are created and searched by the requests that should.** Under `POST` an object in
JSON within the limit is answered 201 just if it is `Creatable`, whatever the query is; the answer
then is an object in JSON whose members are as `Created` says, and every other object is answered 422.
Under `GET` a request within the limit is answered 200 just if its query is `Searchable`. -/
theorem site_accounts {r : Request} (hpath : r.target.path = "/v1/accounts") (limit : Nat)
    (exposesMetrics : Bool) (t : Tally) :
    let response := ((site limit exposesMetrics).answer r t).1
    (r.verb = "POST" → MediaType.ofRequest r = .json →
      ∀ bytes v ms, r.body.buffer limit = .ok bytes → Json.read bytes = .ok v →
        v.members? = some ms →
        (response.status.code = 201 ↔ Creatable ms) ∧
        (Creatable ms → ∃ answered, Created ms answered ∧
          response = ⟨.created, some "application/json", none,
            (Json.object answered).toText.utf8Bytes⟩) ∧
        (¬Creatable ms → response.status.code = 422)) ∧
    (r.verb = "GET" →
      (response.status.code = 200 ↔
        (∃ bytes, r.body.buffer limit = .ok bytes) ∧ Searchable r)) := by
  intro response
  have hresponse : response = (resource.answer limit r t).1 := by
    rw [← answer_site_accounts hpath limit exposesMetrics t]
  rw [hresponse]
  constructor
  · intro hverb htype bytes v ms hbody hread hv
    obtain ⟨hcreated, hrejected⟩ := answer_creation (t := t) hverb htype hbody hread hv
    refine ⟨⟨?_, ?_⟩, hcreated, ?_⟩
    · intro hstatus
      by_contra h
      rw [hrejected h] at hstatus
      cases hstatus
    · intro h
      obtain ⟨answered, -, hanswer⟩ := hcreated h
      rw [hanswer]
      rfl
    · intro h
      rw [hrejected h]
      rfl
  · intro hverb
    rw [← answer_search (t := t) hverb]
    exact Status.code_inj (t := .ok)

/-- An object that creates an account, with its seats in a text and a member that nobody asks for, and
a search. -/
theorem site_accounts_team :
    let given := "\x7b\"email\":\"ops@acme.io\",\"plan\":\"team\",\"seats\":\"3\"," ++
      "\"phone\":null,\"currency\":\"eur\",\"tags\":[1,2.5]\x7d"
    let creation : Request := ⟨"POST", ⟨"/v1/accounts", []⟩,
      [("Content-Type", "application/json".utf8Bytes)], .whole given.utf8Bytes⟩
    let search : Request := ⟨"GET", ⟨"/v1/accounts", "q=acme&page=3&plan=team".utf8Bytes⟩, [],
      .whole []⟩
    (∃ v ms answered, Json.read given.utf8Bytes = .ok v ∧ v.members? = some ms ∧ Creatable ms ∧
      Created ms answered ∧
      ((site 2097152 true).answer creation .zero).1 = ⟨.created, some "application/json", none,
        (Json.object answered).toText.utf8Bytes⟩) ∧
      ((site 2097152 true).answer creation .zero).1 = ⟨.created, some "application/json", none,
        ("\x7b\"currency\":\"EUR\",\"email\":\"ops@acme.io\",\"phone\":null," ++
          "\"plan\":\"team\",\"seats\":3,\"tags\":[1,2.5]\x7d").utf8Bytes⟩ ∧
      Searchable search ∧ ((site 2097152 true).answer search .zero).1.status.code = 200 := by
  intro given creation search
  have hanswer : ((site 2097152 true).answer creation .zero).1 =
      ⟨.created, some "application/json", none,
        ("\x7b\"currency\":\"EUR\",\"email\":\"ops@acme.io\",\"phone\":null," ++
          "\"plan\":\"team\",\"seats\":3,\"tags\":[1,2.5]\x7d").utf8Bytes⟩ := by decide +kernel
  have hok : ((site 2097152 true).answer search .zero).1.status.code = 200 := by decide +kernel
  have htype : MediaType.ofRequest creation = .json := by decide +kernel
  have hbody : creation.body.buffer 2097152 = .ok given.utf8Bytes := by
    have hlength : ¬2097152 < given.utf8Bytes.length := by decide +kernel
    exact if_neg hlength
  have hobject : ((Json.read given.utf8Bytes).toOption.bind Document.members?).isSome = true := by
    decide +kernel
  have hsearchable := ((site_accounts (r := search) rfl 2097152 true .zero).2 rfl).1 hok
  refine ⟨?_, hanswer, hsearchable.2, hok⟩
  cases hread : Json.read given.utf8Bytes with
  | error e =>
    rw [hread] at hobject
    cases hobject
  | ok v =>
    rw [hread] at hobject
    obtain ⟨ms, hmembers⟩ := Option.isSome_iff_exists.mp hobject
    obtain ⟨hiff, hcreated, -⟩ := (site_accounts (r := creation) rfl 2097152 true .zero).1 rfl htype
      given.utf8Bytes v ms hbody hread hmembers
    have hcreatable : Creatable ms := by
      apply hiff.1
      rw [hanswer]
      rfl
    obtain ⟨answered, hanswered, hresponse⟩ := hcreated hcreatable
    exact ⟨v, ms, answered, rfl, hmembers, hcreatable, hanswered, hresponse⟩

end

end Service

end RequestGuard
