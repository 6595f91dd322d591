import RequestGuard.Proofs.Guard.Frame
import RequestGuard.Proofs.Service.Counting

/-!
# Verbs whose fields are in the query

A request whose verb is neither `POST` nor `PUT` has its fields in the query. Its body is taken, so
that it can be passed on, and never decoded: whatever it is said to be and whatever it is, as long as
it is taken, the guards see the fields of the query and none of the body. A node that turns to the
body finds nothing there, and since no check makes a field, what gets through has none there either.

So two such requests for one target fare alike (`Alike`), at every gate of a stack and at its end,
whatever guards and counters there are.
-/

namespace RequestGuard.Service

/-! ## What is read -/

/-- The body can be taken whole, up to a limit on its length. -/
def Body.Takeable (limit : Nat) (b : Body) : Prop := b.bytes.length ≤ limit ∧ b.broken = false

theorem Body.buffer_of_takeable {limit : Nat} {b : Body} (h : b.Takeable limit) :
    b.buffer limit = .ok b.bytes := by
  obtain ⟨hlength, hbroken⟩ := h
  rw [buffer, if_neg (Nat.not_lt.mpr hlength), hbroken, if_neg Bool.false_ne_true]

/-- The fields of a target's query. -/
def Target.fields (target : Target) : RequestData :=
  insertPairs .empty .query (UrlEncoded.pairs target.query)

theorem Target.body_fields (target : Target) : target.fields.body = .empty := rfl

/-- A request with its fields in the query is read without a look at its headers, and at its body
only to take it. -/
theorem read_query {r : Request} {limit : Nat} (h : r.body.Takeable limit) :
    r.read limit .query = .ok (r.body.bytes, r.target.fields) := by
  rw [Request.read, Body.buffer_of_takeable h]
  rfl

/-! ## What is left -/

theorem contains_of_contains_checkAll {m : Method} {gs : List Guard} {d : RequestData} {s : Source}
    {n : String} (h : (Guard.checkAll m gs d).1.contains s n = true) : d.contains s n = true := by
  induction gs generalizing d with
  | nil => exact h
  | cons g gs ih =>
    rw [Guard.checkAll] at h
    cases hcheck : g.check m d with
    | mk e verdict =>
      -- The data that is left is that of this check, or that of the checks behind it.
      have he : e.contains s n = true := by
        cases verdict with
        | proceed => exact ih (by simpa only [hcheck] using h)
        | violation message => simpa only [hcheck] using h
      have hfirst : (g.check m d).1.contains s n = true := by
        rw [hcheck]
        exact he
      exact Guard.contains_of_contains_check hfirst

/-- Guards leave the body without fields where it had none. -/
theorem body_checkAll {m : Method} {gs : List Guard} {d : RequestData} (h : d.body = .empty) :
    (Guard.checkAll m gs d).1.body = .empty := by
  apply Fields.ext_get?
  intro n
  rw [Fields.get?_empty]
  have hd : d.contains .body n = false := by
    rw [RequestData.contains_eq_isSome, RequestData.get?, RequestData.fields, h, Fields.get?_empty]
    rfl
  have hleft : (Guard.checkAll m gs d).1.contains .body n ≠ true := by
    intro hleft
    rw [contains_of_contains_checkAll hleft] at hd
    cases hd
  exact Option.isNone_iff_eq_none.mp (Option.isSome_eq_false_iff.mp (Bool.eq_false_iff.mpr hleft))

/-! ## Two requests -/

/-- Two requests fare alike at gates, one as `c` says and the other as `c'` says. -/
structure Alike (r r' : Request) (c c' : Crossing) : Prop where
  /-- The same guards read, and the same guards check the same data, with the same verdicts. -/
  acts : c'.acts = c.acts
  /-- The counters move equally. -/
  tally : c'.tally = c.tally
  /-- Both have the same answer, or both go on as they came, with the same data, if they have any:
  data without fields of a body. -/
  progress : (∃ response, c.progress = .answered response ∧ c'.progress = .answered response) ∨
    ∃ data, c.progress = .underway ⟨r, data⟩ ∧ c'.progress = .underway ⟨r', data⟩ ∧
      ∀ d, data = some d → d.body = .empty

theorem alike_checked {m : Method} {gs : List Guard} {d : RequestData} (h : d.body = .empty)
    (r r' : Request) (t : Tally) : Alike r r' (checked m gs r d t) (checked m gs r' d t) := by
  have hbody : (Guard.checkAll m gs d).1.body = .empty := body_checkAll h
  unfold checked
  cases hall : Guard.checkAll m gs d with
  | mk e verdict =>
    rw [hall] at hbody
    cases verdict with
    | proceed =>
      refine ⟨rfl, rfl, .inr ⟨some e, rfl, rfl, ?_⟩⟩
      rintro d ⟨⟩
      exact hbody
    | violation message => exact ⟨rfl, rfl, .inl ⟨_, rfl, rfl⟩⟩

theorem Alike.after {r r' : Request} {c c' : Crossing} (h : Alike r r' c c') (act : Act) :
    Alike r r' (c.after act) (c'.after act) :=
  ⟨congrArg (act :: ·) h.acts, h.tally, h.progress⟩

section

variable {r r' : Request} (hverb : r'.verb = r.verb) (htarget : r'.target = r.target)
  (hpost : Method.lowercase r.verb ≠ "post") (hput : Method.lowercase r.verb ≠ "put") {limit : Nat}
  (h : r.body.Takeable limit) (h' : r'.body.Takeable limit)

include hverb htarget hpost hput h h'

theorem alike_crossAll (guards : List Guard) (t : Tally) :
    Alike r r' (crossAll limit guards.reverse ⟨r, none⟩ t)
      (crossAll limit guards.reverse ⟨r', none⟩ t) := by
  cases hm : Method.read r.verb with
  | error e =>
    have hm' : Method.read r'.verb = .error e := by rw [hverb, hm]
    rw [crossAll_of_no_verb hm, crossAll_of_no_verb hm']
    cases guards.reverse with
    | nil => exact ⟨rfl, rfl, .inr ⟨none, rfl, rfl, nofun⟩⟩
    | cons g gs => exact ⟨rfl, rfl, .inl ⟨_, rfl, rfl⟩⟩
  | ok m =>
    have hm' : Method.read r'.verb = .ok m := by rw [hverb, hm]
    cases hcover : cover m guards with
    | nil =>
      rw [crossAll_of_cover_eq_nil hm hcover, crossAll_of_cover_eq_nil hm' hcover]
      exact ⟨rfl, rfl, .inr ⟨none, rfl, rfl, nofun⟩⟩
    | cons g gs =>
      -- Both are read in the query, where they have the same fields.
      have hsource : m.source = .query := Method.source_of_read hm hpost hput
      have hread : r.read limit m.source = .ok (r.body.bytes, r.target.fields) := by
        rw [hsource, read_query h]
      have hread' : r'.read limit m.source = .ok (r'.body.bytes, r.target.fields) := by
        rw [hsource, read_query h', htarget]
      rw [crossAll_of_cover_read hm hcover hread, crossAll_of_cover_read hm' hcover hread']
      exact (alike_checked r.target.body_fields r r' t).after (.read g)

/-- **Verbs whose fields are in the query are blind to the body.** Take two requests for one target
under one verb, neither `POST` nor `PUT` in any case, with any bodies that can be taken and with any
headers. Then every stack of guards deals alike with the two: the same guards check the same data and
so come to the same verdicts with the same messages, the counters move equally, and either both have
the same answer or both get through, each with its own body and headers, and with the same data, in
which the body has no fields. So whatever a service has behind its guards, it counts the same for
both. -/
theorem mount_blind_to_body (guards : List Guard) (t : Tally) :
    let c := crossAll limit guards.reverse ⟨r, none⟩ t
    let c' := crossAll limit guards.reverse ⟨r', none⟩ t
    (∀ inner, mount limit guards inner ⟨r, none⟩ t = c.finish inner) ∧
      (∀ inner, mount limit guards inner ⟨r', none⟩ t = c'.finish inner) ∧ Alike r r' c c' ∧
      ∀ service : Service, service.bodyLimit = limit →
        (service.answer r' t).2 = (service.answer r t).2 := by
  intro c c'
  refine ⟨fun inner => mount_eq_crossAll limit guards inner ⟨r, none⟩ t,
    fun inner => mount_eq_crossAll limit guards inner ⟨r', none⟩ t,
    alike_crossAll hverb htarget hpost hput h h' guards t, ?_⟩
  intro service hlimit
  have halike := alike_crossAll hverb htarget hpost hput h h' (service.guardsAt r.target.path) t
  have hcounted := halike.tally
  rw [tally_crossAll, tally_crossAll, ← hlimit] at hcounted
  rw [answer_snd, answer_snd, rulingOn, rulingOn, htarget]
  exact hcounted

end

/-- A search with a body that says it is JSON and is not, and the same search without one. One guard
demands a page, and the other a field of the body or a search text. -/
theorem mount_blind_to_body_search :
    let page : Guard := ⟨[.coerced .integer ["page"]], none⟩
    let text : Guard := ⟨[.combined .any [.sourced .body [.coerced .number ["n"]], .field "q"]], some .get⟩
    let target : Target := ⟨"/", "q=acme&page=3".utf8Bytes⟩
    let r : Request := ⟨"gEt", target, [("Content-Type", "application/json".utf8Bytes)],
      .whole "\x7bnot json".utf8Bytes⟩
    let r' : Request := ⟨"gEt", target, [], .whole []⟩
    let c := crossAll 16 [text, page].reverse ⟨r, none⟩ .zero
    let c' := crossAll 16 [text, page].reverse ⟨r', none⟩ .zero
    (Method.lowercase r.verb ≠ "post" ∧ Method.lowercase r.verb ≠ "put") ∧
      (r.body.Takeable 16 ∧ r'.body.Takeable 16) ∧ Alike r r' c c' ∧ c.tally.checked.count "GET" = 2 ∧
      c.tally.violated.count "GET" = 0 := by
  intro page text target r r' c c'
  have hpost : Method.lowercase r.verb ≠ "post" := by decide +kernel
  have hput : Method.lowercase r.verb ≠ "put" := by decide +kernel
  have h : r.body.Takeable 16 := ⟨by decide +kernel, rfl⟩
  have h' : r'.body.Takeable 16 := ⟨by decide +kernel, rfl⟩
  have hverb : r'.verb = r.verb := rfl
  have htarget : r'.target = r.target := rfl
  have hblind := mount_blind_to_body hverb htarget hpost hput h h' [text, page] .zero
  exact ⟨⟨hpost, hput⟩, ⟨h, h'⟩, hblind.2.2.1, by decide +kernel, by decide +kernel⟩

end RequestGuard.Service
