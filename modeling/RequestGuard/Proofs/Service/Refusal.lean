import RequestGuard.Proofs.Json.RoundTrip
import RequestGuard.Service.Failure

/-!
# Refusals

What the response to a failure says. A `Refusal` is that without the reason behind it: a status, a code
for programs, a message for people and, of a report, its lines one by one. The body is an object in
JSON, with all but the status in the one member `error`.

`Failure.refusal` has what each failure is answered with, word by word, and `Failure.response_eq` says
that its response is that. Nothing is lost on the way out: the body is read back as the object it was
written from (`read_body`), so two refusals with one response are the same (`response_inj`).
-/

namespace RequestGuard.Service

/-- What a request is told that is not served. -/
structure Refusal where
  status : Status
  code : String
  message : String
  details? : Option (List String)

namespace Refusal

/-- The members that say why. -/
def members (a : Refusal) : List (String × Json) :=
  match a.details? with
  | none => [("code", .string a.code), ("message", .string a.message)]
  | some lines => [("code", .string a.code), ("message", .string a.message),
      ("details", .array (lines.map .string))]

/-- The object that the body writes. -/
def toJson (a : Refusal) : Json := .object [("error", .object a.members)]

/-- The response. -/
def response (a : Refusal) : Response where
  status := a.status
  contentType := some "application/json"
  allow := none
  body := a.toJson.toText.utf8Bytes

/-- A request that violates a schema is told the report, whole and line by line. -/
def validationError (message : String) : Refusal :=
  ⟨.unprocessable, "VALIDATION_ERROR", message, some (Text.lines message)⟩

/-- One that cannot be read is told why. -/
def badRequest (reason : String) : Refusal :=
  ⟨.unprocessable, "BAD_REQUEST", "bad request: " ++ reason, none⟩

/-- One with a body that is too long is told the limit. -/
def payloadTooLarge (limit : Nat) : Refusal :=
  ⟨.contentTooLarge, "PAYLOAD_TOO_LARGE",
    "request body exceeds " ++ String.ofList (Nat.toDigits 10 limit) ++ " bytes", none⟩

end Refusal

/-- What each failure is answered with. What went wrong inside the service is not told. -/
def Failure.refusal : Failure → Refusal
  | violation message => .validationError message
  | unreadable why => .badRequest why.message
  | tooLarge limit => .payloadTooLarge limit
  | internal _ => ⟨.internalError, "INTERNAL_ERROR", "An internal error occurred", none⟩

theorem Failure.response_eq (f : Failure) : f.response = f.refusal.response := by
  cases f <;> rfl

/-! ## Reading a refusal -/

namespace Refusal

variable {a b : Refusal}

theorem namesUnique_toJson (a : Refusal) : a.toJson.NamesUnique := by
  have hlines (lines : List String) : Json.AllNamesUnique (lines.map .string) := by
    rw [Json.allNamesUnique_iff, List.forall_mem_map]
    exact fun _ _ => trivial
  obtain ⟨status, code, message, _ | lines⟩ := a
  · exact ⟨by simp, ⟨by simp [members], trivial, trivial, trivial⟩, trivial⟩
  · exact ⟨by simp, ⟨by simp [members], trivial, trivial, hlines lines, trivial⟩, trivial⟩

theorem integersOnly_toJson (a : Refusal) : a.toJson.IntegersOnly := by
  have hlines (lines : List String) : Json.AllIntegersOnly (lines.map .string) := by
    rw [Json.allIntegersOnly_iff, List.forall_mem_map]
    exact fun _ _ => trivial
  obtain ⟨status, code, message, _ | lines⟩ := a
  · exact ⟨⟨trivial, trivial, trivial⟩, trivial⟩
  · exact ⟨⟨trivial, trivial, hlines lines, trivial⟩, trivial⟩

theorem depth_toJson_le (a : Refusal) : a.toJson.depth ≤ 3 := by
  have hlines (lines : List String) : Json.depthItems (lines.map .string) ≤ 0 := by
    rw [Json.depthItems_le_iff, List.forall_mem_map]
    exact fun _ _ => Nat.le_refl 0
  have hmembers : Json.depthMembers a.members ≤ 1 := by
    obtain ⟨status, code, message, _ | lines⟩ := a
    · exact Nat.zero_le 1
    · simpa [members, Json.depthMembers, Json.depth] using hlines lines
  have hdepth : a.toJson.depth = max (Json.depthMembers a.members + 1) 0 + 1 := rfl
  omega

/-- What a refusal says can be read off its body. -/
theorem read_body (a : Refusal) :
    Json.read a.response.body = .ok ⟨a.toJson, a.namesUnique_toJson⟩ := by
  have hdepth : a.toJson.depth ≤ Json.maxDepth := Nat.le_trans a.depth_toJson_le (by decide)
  have htext : a.response.body = Text.Utf8.encode a.toJson.write := by
    rw [response, Json.toText, String.utf8Bytes, String.toList_ofList]
  rw [htext]
  exact Json.read_encode_write (d := ⟨a.toJson, a.namesUnique_toJson⟩) a.integersOnly_toJson hdepth

/-- Whether there are lines shows in how many members there are. -/
theorem eq_of_members_eq (h : a.members = b.members) (hstatus : a.status = b.status) : a = b := by
  obtain ⟨_, code, message, lines?⟩ := a
  obtain ⟨_, code', message', lines'?⟩ := b
  obtain rfl := hstatus
  cases lines? with
  | none =>
    cases lines'? with
    | none =>
      cases h
      rfl
    | some lines' => cases h
  | some lines =>
    cases lines'? with
    | none => cases h
    | some lines' =>
      simp only [members, List.cons.injEq, Prod.mk.injEq, Json.string.injEq, Json.array.injEq,
        true_and, and_true] at h
      obtain ⟨rfl, rfl, hlines⟩ := h
      have hsame : lines = lines' := (List.map_inj_right fun _ _ => Json.string.inj).mp hlines
      rw [hsame]

/-- Refusals with one response are the same. -/
theorem response_inj : a.response = b.response ↔ a = b := by
  constructor
  · intro h
    have hread : Json.read a.response.body = Json.read b.response.body := by rw [h]
    rw [read_body, read_body] at hread
    have hjson : a.toJson = b.toJson := congrArg Subtype.val (Except.ok.inj hread)
    have hmembers : a.members = b.members := by
      simp only [toJson, Json.object.injEq, List.cons.injEq, Prod.mk.injEq, and_true,
        true_and] at hjson
      exact hjson
    exact eq_of_members_eq hmembers (congrArg Response.status h)
  · rintro rfl
    rfl

end Refusal

end RequestGuard.Service
