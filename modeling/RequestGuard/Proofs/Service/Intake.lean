import RequestGuard.Proofs.Request.Lookup
import RequestGuard.Proofs.Service.QuerySourced

/-!
# Requests that are read for their body

A verb with a body is read for it by the first guard that covers it. `Intake` has the rules, one
each: what refuses the request, and which pairs of a name and a value its body contributes. The length
of the body and its stream come first, whatever else the request says. An empty body contributes
nothing. What any other contributes goes by the media type, which `Request.mediaName` has as the
header writes it.

Every request falls under a rule (`exists_intake`) and is read as its rule says. So reading fails
where a rule refuses and nowhere else, and then the request is told what the rule has it told and no
guard has checked anything; what is checked otherwise is the query and what the body contributes
(`gate_intake`).
-/

namespace RequestGuard.Service

/-! ## Media types -/

/-- The text of a request's first `Content-Type`, empty where there is none or where it has bytes
that are not visible ASCII. -/
def Request.contentType (r : Request) : List Char :=
  match r.header? "content-type" with
  | some value => if value.all MediaType.isVisible then value.map fun b => Char.ofNat b.toNat else []
  | none => []

/-- The media type that a request names: what stands in front of the first semicolon, trimmed and in
lower case. -/
def Request.mediaName (r : Request) : String :=
  String.ofList ((Text.trim (r.contentType.takeWhile (· ≠ ';'))).map Char.toLower)

/-- The request says that its body is JSON. -/
def Request.SaysJson (r : Request) : Prop :=
  r.mediaName = "application/json" ∨ "+json".toList <:+ r.mediaName.toList

/-- The request says that its body is a form. -/
def Request.SaysForm (r : Request) : Prop :=
  r.mediaName = "application/x-www-form-urlencoded"

namespace MediaType

theorem ofRequest_eq_ofText (r : Request) : ofRequest r = ofText r.contentType := by
  unfold ofRequest Request.contentType
  cases r.header? "content-type" with
  | none => rfl
  | some value =>
    simp only
    split <;> rfl

theorem ofText_contentType (r : Request) :
    ofText r.contentType =
      if r.mediaName.toList = "application/json".toList ∨ "+json".toList <:+ r.mediaName.toList then
        json
      else if r.mediaName.toList = "application/x-www-form-urlencoded".toList then form
      else other := by
  rw [Request.mediaName, String.toList_ofList]
  rfl

section

variable {r : Request}

theorem ofRequest_of_json (h : r.SaysJson) : ofRequest r = .json := by
  have hjson : r.mediaName.toList = "application/json".toList ∨ "+json".toList <:+ r.mediaName.toList :=
    h.imp_left (congrArg String.toList)
  rw [ofRequest_eq_ofText, ofText_contentType, if_pos hjson]

theorem ofRequest_of_not_json (h : ¬ r.SaysJson) :
    ofRequest r =
      if r.mediaName.toList = "application/x-www-form-urlencoded".toList then form else other := by
  have hjson : ¬ (r.mediaName.toList = "application/json".toList ∨
      "+json".toList <:+ r.mediaName.toList) := by
    intro hor
    exact h (hor.imp_left String.toList_inj.mp)
  rw [ofRequest_eq_ofText, ofText_contentType, if_neg hjson]

/-- A form is no JSON. -/
theorem not_saysJson_of_saysForm (h : r.SaysForm) : ¬ r.SaysJson := by
  unfold Request.SaysJson
  rw [h]
  decide

theorem ofRequest_of_form (h : r.SaysForm) : ofRequest r = .form := by
  rw [ofRequest_of_not_json (not_saysJson_of_saysForm h), if_pos (congrArg String.toList h)]

theorem ofRequest_of_neither (hjson : ¬ r.SaysJson) (hform : ¬ r.SaysForm) :
    ofRequest r = .other := by
  rw [ofRequest_of_not_json hjson, if_neg]
  intro h
  exact hform (String.toList_inj.mp h)

end

end MediaType

/-! ## The rules -/

/-- What becomes of a request that is read for its body: it is refused, or its body contributes some
pairs, of which the last of a name counts. -/
inductive Intake (limit : Nat) (r : Request) : Except Refusal (List (String × FieldValue)) → Prop where
  /-- The body is longer than the limit. -/
  | tooLong : limit < r.body.bytes.length → Intake limit r (.error (.payloadTooLarge limit))
  /-- The stream breaks within the limit. -/
  | broken : r.body.bytes.length ≤ limit → r.body.broken = true →
      Intake limit r (.error (.badRequest "request body could not be read"))
  /-- There is no body. -/
  | empty : r.body.Takeable limit → r.body.bytes = [] → Intake limit r (.ok [])
  /-- What is said to be JSON is not. -/
  | notJson {e : Json.ReadError} : r.body.Takeable limit → r.body.bytes ≠ [] → r.SaysJson →
      Json.read r.body.bytes = .error e →
      Intake limit r (.error (.badRequest ("malformed JSON body: " ++ e.message)))
  /-- The JSON is no object. -/
  | notObject {v : Document} : r.body.Takeable limit → r.body.bytes ≠ [] → r.SaysJson →
      Json.read r.body.bytes = .ok v → v.members? = none →
      Intake limit r (.error (.badRequest ("body data must be an object, got " ++ v.val.kind)))
  /-- The members of an object, converted. -/
  | object {v : Document} {ms : Members} : r.body.Takeable limit → r.body.bytes ≠ [] →
      r.SaysJson → Json.read r.body.bytes = .ok v → v.members? = some ms →
      Intake limit r (.ok (ms.toList.map fun m => (m.1, .ofDocument m.2)))
  /-- A form has a limit of its own. -/
  | longForm : r.body.Takeable limit → r.body.bytes ≠ [] → r.SaysForm →
      2097152 < r.body.bytes.length →
      Intake limit r (.error (.badRequest ("malformed form body: " ++
        "Failed to buffer the request body: length limit exceeded")))
  /-- The pairs of a form, as texts. -/
  | form : r.body.Takeable limit → r.body.bytes ≠ [] → r.SaysForm →
      r.body.bytes.length ≤ 2097152 →
      Intake limit r (.ok ((UrlEncoded.pairs r.body.bytes).map fun p => (p.1, .text p.2)))
  /-- Bodies of other types are not looked into. -/
  | other : r.body.Takeable limit → r.body.bytes ≠ [] → ¬ r.SaysJson → ¬ r.SaysForm →
      Intake limit r (.ok [])

/-- Every request falls under a rule. -/
theorem exists_intake (limit : Nat) (r : Request) : ∃ o, Intake limit r o := by
  by_cases hlength : limit < r.body.bytes.length
  · exact ⟨_, .tooLong hlength⟩
  have hwithin : r.body.bytes.length ≤ limit := Nat.not_lt.mp hlength
  cases hbroken : r.body.broken with
  | true => exact ⟨_, .broken hwithin hbroken⟩
  | false =>
    have htake : r.body.Takeable limit := ⟨hwithin, hbroken⟩
    by_cases hempty : r.body.bytes = []
    · exact ⟨_, .empty htake hempty⟩
    by_cases hjson : r.SaysJson
    · cases hread : Json.read r.body.bytes with
      | error e => exact ⟨_, .notJson htake hempty hjson hread⟩
      | ok v =>
        cases hmembers : v.members? with
        | none => exact ⟨_, .notObject htake hempty hjson hread hmembers⟩
        | some ms => exact ⟨_, .object htake hempty hjson hread hmembers⟩
    by_cases hform : r.SaysForm
    · rcases Nat.lt_or_ge 2097152 r.body.bytes.length with hlong | hshort
      · exact ⟨_, .longForm htake hempty hform hlong⟩
      · exact ⟨_, .form htake hempty hform hshort⟩
    · exact ⟨_, .other htake hempty hjson hform⟩

/-! ## Reading by the rules -/

section

variable {bytes : List UInt8} (h : bytes ≠ []) (d : RequestData)

include h

theorem readBody_json :
    readBody .json bytes d =
      match Json.read bytes with
      | .ok v => (d.insertJson .body v).mapError .request
      | .error e => .error (.malformedJson e) := by
  unfold readBody
  rw [List.isEmpty_eq_false_iff.mpr h]
  rfl

theorem readBody_form_of_long (hlength : 2097152 < bytes.length) :
    readBody .form bytes d = .error (.unbufferedForm .tooLong) := by
  have hbuffer : (Body.whole bytes).buffer bufferLimit = .error .tooLong := if_pos hlength
  unfold readBody
  rw [List.isEmpty_eq_false_iff.mpr h, if_neg Bool.false_ne_true]
  simp only [hbuffer]

theorem readBody_form (hlength : bytes.length ≤ 2097152) :
    readBody .form bytes d = .ok (insertPairs d .body (UrlEncoded.pairs bytes)) := by
  have hbuffer : (Body.whole bytes).buffer bufferLimit = .ok bytes :=
    Body.buffer_of_takeable ⟨hlength, rfl⟩
  unfold readBody
  rw [List.isEmpty_eq_false_iff.mpr h, if_neg Bool.false_ne_true]
  simp only [hbuffer]

theorem readBody_other : readBody .other bytes d = .ok d := by
  unfold readBody
  rw [List.isEmpty_eq_false_iff.mpr h]
  rfl

end

section

variable {limit : Nat} {r : Request}

/-- A body that can be taken is decoded behind the pairs of the query. -/
theorem read_body (h : r.body.Takeable limit) :
    r.read limit .body =
      match readBody (MediaType.ofRequest r) r.body.bytes r.target.fields with
      | .error why => .error (.unreadable why)
      | .ok d => .ok (r.body.bytes, d) := by
  rw [Request.read, Body.buffer_of_takeable h]
  rfl

/-- Where a rule refuses a request, reading it fails and the failure is told as the rule says. -/
theorem read_of_intake_error {a : Refusal} (h : Intake limit r (.error a)) :
    ∃ f, r.read limit .body = .error f ∧ f.refusal = a := by
  cases h with
  | tooLong hlength =>
    refine ⟨.tooLarge limit, ?_, rfl⟩
    rw [Request.read, Body.buffer, if_pos hlength]
    rfl
  | broken hlength hbroken =>
    refine ⟨.unreadable .brokenBody, ?_, rfl⟩
    rw [Request.read, Body.buffer, if_neg (Nat.not_lt.mpr hlength), if_pos hbroken]
    rfl
  | @notJson e htake hempty hjson hread =>
    refine ⟨.unreadable (.malformedJson e), ?_, rfl⟩
    rw [read_body htake, MediaType.ofRequest_of_json hjson, readBody_json hempty, hread]
  | @notObject v htake hempty hjson hread hmembers =>
    refine ⟨.unreadable (.request (.notObject .body v.val.kind)), ?_, rfl⟩
    rw [read_body htake, MediaType.ofRequest_of_json hjson, readBody_json hempty, hread]
    simp only [RequestData.insertJson, hmembers]
    rfl
  | longForm htake hempty hform hlength =>
    refine ⟨.unreadable (.unbufferedForm .tooLong), ?_, rfl⟩
    rw [read_body htake, MediaType.ofRequest_of_form hform, readBody_form_of_long hempty _ hlength]

/-- Where a rule has a body contribute pairs, they are what is put into the body's fields. -/
theorem read_of_intake_ok {es : List (String × FieldValue)} (h : Intake limit r (.ok es)) :
    r.read limit .body = .ok (r.body.bytes, r.target.fields.insertAll .body es) := by
  cases h with
  | empty htake hempty =>
    rw [read_body htake, hempty]
    rfl
  | object htake hempty hjson hread hmembers =>
    rw [read_body htake, MediaType.ofRequest_of_json hjson, readBody_json hempty, hread]
    simp only [RequestData.insertJson, hmembers]
    rfl
  | form htake hempty hform hlength =>
    rw [read_body htake, MediaType.ofRequest_of_form hform, readBody_form hempty _ hlength]
    rfl
  | other htake hempty hjson hform =>
    rw [read_body htake, MediaType.ofRequest_of_neither hjson hform, readBody_other hempty]
    rfl

/-- How a request is refused: only the length of the body decides of which of two kinds it is. -/
theorem kind_of_intake_error {a : Refusal} (h : Intake limit r (.error a)) :
    (limit < r.body.bytes.length ∧ a = .payloadTooLarge limit) ∨
      (r.body.bytes.length ≤ limit ∧ ∃ reason, a = .badRequest reason) := by
  cases h with
  | tooLong hlength => exact .inl ⟨hlength, rfl⟩
  | broken hwithin _ => exact .inr ⟨hwithin, _, rfl⟩
  | notJson htake | notObject htake | longForm htake => exact .inr ⟨htake.1, _, rfl⟩

end

/-! ## At a gate -/

theorem Target.get?_fields (target : Target) (n : String) :
    target.fields.get? .query n = ((UrlEncoded.pairs target.query).reverse.lookup n).map .text := by
  rw [fields, insertPairs, RequestData.get?_insertAll, ← List.map_reverse, lookup_map_snd]
  exact Option.or_none

theorem source_eq_body {m : Method} (hbody : m = .post ∨ m = .put) : m.source = .body := by
  rcases hbody with rfl | rfl <;> rfl

section

variable {r : Request} {m : Method} (hm : Method.read r.verb = .ok m)
  (hbody : m = .post ∨ m = .put) {g : Guard} (hg : g.covers m = true)

include hm hbody hg

/-- A request that a rule refuses is answered so at the gate, once it has been read. -/
theorem cross_of_intake_error {limit : Nat} {t : Tally} {a : Refusal}
    (h : Intake limit r (.error a)) :
    cross limit g ⟨r, none⟩ t = ⟨.answered a.response, t, [.read g]⟩ := by
  obtain ⟨f, hfails, rfl⟩ := read_of_intake_error h
  have hread : r.read limit m.source = .error f := by rw [source_eq_body hbody, hfails]
  rw [cross_of_unreadable hm hg hread, f.response_eq]

/-- One whose body contributes some pairs is checked with them. -/
theorem cross_of_intake_ok {limit : Nat} {t : Tally} {es : List (String × FieldValue)}
    (h : Intake limit r (.ok es)) :
    cross limit g ⟨r, none⟩ t =
      (judge g m r (r.target.fields.insertAll .body es) t).after (.read g) := by
  have hread : r.read limit m.source = .ok (r.body.bytes, r.target.fields.insertAll .body es) := by
    rw [source_eq_body hbody, read_of_intake_ok h]
  exact cross_of_read hm hg hread

/-- **Reading fails where a rule refuses the request, and nowhere else.** Take a request under `POST`
or `PUT` at the gate of a guard that covers it, with no data from a gate before. It falls under a rule
of `Intake`. If that refuses it, and only then, the request is read and at once answered with the
refusal of the rule: no guard checks anything, nothing is counted, and what lies behind the gate does
not run. The body of the answer is read in JSON as an object with a code and a message, and the answer is
a 413 for a body that is too long and a bad request for any other. Otherwise the guard checks the
fields of the query and those that the body contributes, of each name the last, and the request goes
on as it came. -/
theorem gate_intake (limit : Nat) (t : Tally) :
    let c := cross limit g ⟨r, none⟩ t
    (∀ inner, gate limit g inner ⟨r, none⟩ t = c.finish inner) ∧
      (∀ {μ : Type → Type} [Monad μ] [LawfulMonad μ] (note : Act → μ Unit) (inner : StageIn μ),
        gateBy (.noting note limit) g inner ⟨r, none⟩ t = c.finishNoting note inner) ∧
      (∃ o, Intake limit r o) ∧
      (∀ a, Intake limit r (.error a) ↔ c = ⟨.answered a.response, t, [.read g]⟩) ∧
      (∀ a, Intake limit r (.error a) →
        (∃ h, Json.read a.response.body = .ok ⟨.object [("error", .object
          [("code", .string a.code), ("message", .string a.message)])], h⟩) ∧
        (limit < r.body.bytes.length →
          a.response.status.code = 413 ∧ a.code = "PAYLOAD_TOO_LARGE") ∧
        (r.body.bytes.length ≤ limit →
          a.response.status.code = 422 ∧ a.code = "BAD_REQUEST")) ∧
      ∀ es, Intake limit r (.ok es) →
        ∃ d : RequestData, (∀ n, d.get? .query n = (r.parameter? n).map .text) ∧
          (∀ n, d.get? .body n = es.reverse.lookup n) ∧
          c = (judge g m r d t).after (.read g) := by
  intro c
  refine ⟨fun inner => gate_eq_cross limit g inner _ t,
    fun note inner => gateBy_noting note limit g inner _ t, exists_intake limit r, ?refused, ?kind,
    ?checked⟩
  case refused =>
    intro a
    refine ⟨cross_of_intake_error hm hbody hg, ?_⟩
    intro hc
    obtain ⟨o, ho⟩ := exists_intake limit r
    cases o with
    | error b =>
      -- The answer tells which refusal it is.
      have hsame : c = ⟨.answered b.response, t, [.read g]⟩ := cross_of_intake_error hm hbody hg ho
      have hresponse : b.response = a.response := by
        rw [hsame] at hc
        exact Progress.answered.inj (Crossing.mk.inj hc).1
      rw [← Refusal.response_inj.mp hresponse]
      exact ho
    | ok es =>
      -- Here a guard checks, and nothing was to be done but to read.
      have hacts : c.acts = .read g :: (judge g m r (r.target.fields.insertAll .body es) t).acts :=
        congrArg Crossing.acts (cross_of_intake_ok hm hbody hg ho)
      rw [hc, acts_judge] at hacts
      cases hacts
  case kind =>
    intro a ha
    obtain ⟨hlong, rfl⟩ | ⟨hwithin, reason, rfl⟩ := kind_of_intake_error ha
    · refine ⟨⟨_, Refusal.read_body _⟩, fun _ => ⟨rfl, rfl⟩, ?_⟩
      intro hwithin
      omega
    · refine ⟨⟨_, Refusal.read_body _⟩, ?_, fun _ => ⟨rfl, rfl⟩⟩
      intro hlong
      omega
  case checked =>
    intro es hes
    refine ⟨_, ?_, ?_, cross_of_intake_ok hm hbody hg hes⟩
    · intro n
      rw [RequestData.get?_insertAll_of_ne (by decide), Target.get?_fields]
      rfl
    · intro n
      rw [RequestData.get?_insertAll]
      exact Option.or_none

end

/-- A form that names a field twice, under a header that is spelled as no other and in front of one
that says JSON; and the same request with a stream that breaks, or with a body too long by a byte. -/
theorem gate_intake_form :
    let g : Guard := ⟨[.coerced .integer ["n"]], none⟩
    let header := "\tApplication/X-WWW-Form-URLencoded ; charset=utf-8".utf8Bytes
    let r : Request := ⟨"pOsT", ⟨"/", "n=7".utf8Bytes⟩,
      [("Content-Type", header), ("content-type", "application/json".utf8Bytes)],
      .whole "n=1&n=2".utf8Bytes⟩
    let broken : Request := { r with body := ⟨r.body.bytes, true⟩ }
    let told (status : Status) (text : String) : Response :=
      ⟨status, some "application/json", none, text.utf8Bytes⟩
    (Method.read r.verb = .ok .post ∧ g.covers .post = true) ∧ r.SaysForm ∧
      Intake 16 r (.ok [("n", .text "1"), ("n", .text "2")]) ∧
      (∃ d : RequestData, d.get? .query "n" = some (.text "7") ∧
        d.get? .body "n" = some (.text "2") ∧
        cross 16 g ⟨r, none⟩ .zero = (judge g .post r d .zero).after (.read g)) ∧
      cross 16 g ⟨broken, none⟩ .zero = ⟨.answered (told .unprocessable
        ("\x7b\"error\":\x7b\"code\":\"BAD_REQUEST\"," ++
          "\"message\":\"bad request: request body could not be read\"\x7d\x7d")), .zero, [.read g]⟩ ∧
      cross 6 g ⟨r, none⟩ .zero = ⟨.answered (told .contentTooLarge
        ("\x7b\"error\":\x7b\"code\":\"PAYLOAD_TOO_LARGE\"," ++
          "\"message\":\"request body exceeds 6 bytes\"\x7d\x7d")), .zero, [.read g]⟩ := by
  intro g header r broken told
  have hm : Method.read r.verb = .ok .post := by decide +kernel
  have hg : g.covers .post = true := rfl
  have hform : r.SaysForm := by
    unfold Request.SaysForm
    decide +kernel
  have hpairs : UrlEncoded.pairs r.body.bytes = [("n", "1"), ("n", "2")] := by decide +kernel
  have hempty : r.body.bytes ≠ [] := by decide +kernel
  have htake : r.body.Takeable 16 := ⟨by decide +kernel, rfl⟩
  have hintake : Intake 16 r (.ok [("n", .text "1"), ("n", .text "2")]) := by
    have h := Intake.form htake hempty hform (by decide +kernel)
    rw [hpairs] at h
    exact h
  refine ⟨⟨hm, hg⟩, hform, hintake, ?checked, ?broken, ?long⟩
  case checked =>
    obtain ⟨-, -, -, -, -, hchecked⟩ := gate_intake hm (.inl rfl) hg 16 .zero
    obtain ⟨d, hquery, hbody, hc⟩ := hchecked _ hintake
    have hparameter : r.parameter? "n" = some "7" := by decide +kernel
    refine ⟨d, ?_, hbody "n", hc⟩
    rw [hquery, hparameter]
    rfl
  case broken =>
    obtain ⟨-, -, -, hrefused, -⟩ := gate_intake (r := broken) hm (.inl rfl) hg 16 .zero
    have hanswer : (Refusal.badRequest "request body could not be read").response =
        told .unprocessable ("\x7b\"error\":\x7b\"code\":\"BAD_REQUEST\"," ++
          "\"message\":\"bad request: request body could not be read\"\x7d\x7d") := by
      decide +kernel
    rw [← hanswer]
    exact (hrefused _).mp (.broken htake.1 rfl)
  case long =>
    obtain ⟨-, -, -, hrefused, -⟩ := gate_intake hm (.inl rfl) hg 6 .zero
    have hanswer : (Refusal.payloadTooLarge 6).response =
        told .contentTooLarge ("\x7b\"error\":\x7b\"code\":\"PAYLOAD_TOO_LARGE\"," ++
          "\"message\":\"request body exceeds 6 bytes\"\x7d\x7d") := by
      decide +kernel
    rw [← hanswer]
    exact (hrefused _).mp (.tooLong (by decide +kernel))

end RequestGuard.Service
