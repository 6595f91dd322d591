import RequestGuard.Proofs.Json.RoundTrip
import RequestGuard.Proofs.Request.FromJson
import RequestGuard.Proofs.Request.Lookup
import RequestGuard.Request.Payload

/-!
# Request data on the wire

Data that is written as JSON text and read back is the data it was (`read_toJson`), if its values are
ones that JSON keeps apart from each other and keeps exactly (`FieldValue.Survives`). The text does not
say which kind a value is of; the kind is found again from the form of what is read. A value may be 125
deep: the object and the source around it take the other two levels that the reader allows.
-/

namespace RequestGuard

open Json (ReadsBack readValue readMembers readString writeChar writeMember writeMembers nextName values afterCommas)
open Text.Utf8 (encode)

/-! ## Values -/

namespace FieldValue

/-- The value comes back from the wire as it was. -/
def Survives : FieldValue → Prop
  | text _ => True
  | integer _ => True
  | boolean _ => True
  | json d => d.val.staysJson = true ∧ d.val.IntegersOnly ∧ d.val.depth ≤ 125
  | number _ => False
  | date _ => False

variable {v : FieldValue}

theorem Survives.fromJson (h : v.Survives) : v.FromJson := by
  cases v with
  | json d => exact h.1
  | text _ | integer _ | boolean _ => trivial
  | number _ | date _ => exact h.elim

theorem Survives.integersOnly (h : v.Survives) : v.toJson.IntegersOnly := by
  cases v with
  | json d => exact h.2.1
  | text _ | boolean _ => trivial
  | integer i =>
    obtain ⟨fits, hi⟩ := toJson_integer i
    rw [hi]
    trivial
  | number _ | date _ => exact h.elim

theorem Survives.depth_le (h : v.Survives) : v.toJson.depth ≤ 125 := by
  cases v with
  | json d => exact h.2.2
  | text _ | boolean _ => exact Nat.zero_le 125
  | integer i =>
    obtain ⟨fits, hi⟩ := toJson_integer i
    rw [hi]
    exact Nat.zero_le 125
  | number _ | date _ => exact h.elim

end FieldValue

/-! ## Fields -/

/-- Members that stand as these documents are these documents. -/
theorem Members.toList_eq {ds : List (String × Document)} {ms : Members} (h : ms.val = values ds) : ms.toList = ds := by
  obtain ⟨ms, hnodup, hms⟩ := ms
  obtain rfl : ms = values ds := h
  show pairs (values ds) hms = ds
  clear hnodup
  induction ds with
  | nil => rfl
  | cons d ds ih => exact congrArg ((d.1, d.2) :: ·) (ih hms.2)

namespace Fields

theorem nodup_names (fs : Fields) : (fs.entries.map Prod.fst).Nodup := by
  apply List.pairwise_map.mpr
  apply fs.sorted.imp
  intro a b hlt heq
  rw [heq] at hlt
  exact String.lt_irrefl _ hlt

/-- Fields are what their entries make, given one after another. -/
theorem insertAll_entries (fs : Fields) : Fields.empty.insertAll fs.entries = fs := by
  apply ext_get?
  intro name
  rw [get?_insertAll, lookup_reverse_of_nodup fs.nodup_names, get?_empty, Option.or_none]
  rfl

/-- The fields as the members of an object. -/
def documents (fs : Fields) : List (String × Document) :=
  fs.entries.map fun e => (e.1, e.2.toDocument)

theorem toJson_eq (fs : Fields) : fs.toJson = .object (values fs.documents) := by
  rw [toJson, documents, values, List.map_map]
  rfl

theorem map_ofDocument_documents {fs : Fields} (h : ∀ e ∈ fs.entries, e.2.Survives) :
    (fs.documents.map fun m => (m.1, FieldValue.ofDocument m.2)) = fs.entries := by
  rw [documents, List.map_map]
  refine (List.map_congr_left fun e he => ?_).trans (List.map_id fs.entries)
  exact Prod.ext rfl (FieldValue.ofDocument_toDocument (h e he).fromJson)

end Fields

namespace RequestData

variable {limit : Nat}

theorem readFields_brace (depth : Nat) (rest : List UInt8) :
    readFields limit depth ('\x7b'.toUInt8 :: rest) =
      (readMembers (readValue limit depth) limit true .empty rest).map fun (ms, rest) =>
        (Fields.empty.insertAll (ms.toList.map fun m => (m.1, FieldValue.ofDocument m.2)), rest) := rfl

/-- The fields of a source are read back from their text. -/
theorem readFields_write {fs : Fields} (h : ∀ e ∈ fs.entries, e.2.Survives)
    (hlimit : (encode fs.toJson.write).length < limit) (rest : List UInt8) :
    readFields limit valueDepth (encode fs.toJson.write ++ rest) = .ok (fs, rest) := by
  rw [Fields.toJson_eq, Json.encode_write_object] at hlimit ⊢
  rw [List.length_cons, List.length_append] at hlimit
  have hds : ∀ m ∈ fs.documents, ReadsBack (readValue limit valueDepth) m.2 := by
    intro m hm
    obtain ⟨e, he, rfl⟩ := List.mem_map.mp hm
    have hmem : (e.1, e.2.toJson) ∈ values fs.documents := List.mem_map_of_mem hm
    have hmember := Json.length_le_writeMembers hmem
    rw [Json.encode_writeMember] at hmember
    simp only [List.length_cons, List.length_append] at hmember
    have hlength : (encode e.2.toJson.write).length < limit := by omega
    exact Json.readsBack_readValue _ (h e he).integersOnly (h e he).depth_le hlength
  have hnodup : (fs.documents.map Prod.fst).Nodup := by
    rw [Fields.documents, List.map_map]
    exact fs.nodup_names
  have hmembers : (encode (writeMembers (values fs.documents))).length < limit := by omega
  obtain ⟨ms, hread, hms⟩ := Json.readMembers_write hds hmembers hnodup rest
  rw [List.cons_append, List.append_assoc, List.singleton_append, readFields_brace, hread]
  show Except.ok (Fields.empty.insertAll (ms.toList.map fun m => (m.1, FieldValue.ofDocument m.2)), rest) = _
  rw [Members.toList_eq hms, Fields.map_ofDocument_documents h, fs.insertAll_entries]

/-! ## Data -/

/-- The member that holds a source's fields. -/
def sourceMember (d : RequestData) (s : Source) : String × Json :=
  (s.name, (d.fields s).toJson)

theorem encode_sourceMember (d : RequestData) (s : Source) :
    encode (writeMember (d.sourceMember s)) = '"'.toUInt8 ::
      (encode (s.name.toList.flatMap writeChar) ++ '"'.toUInt8 :: ':'.toUInt8 :: encode (d.fields s).toJson.write) :=
  Json.encode_writeMember _

theorem sourceOfName?_name (s : Source) : sourceOfName? s.name = some s := by
  cases s <;> rfl

/-- One source, behind what must come before its name. -/
theorem readObject_source {d : RequestData} {s : Source} (h : ∀ e ∈ (d.fields s).entries, e.2.Survives) {p : Partial}
    (hfresh : p.has s = false) (hlimit : (encode (writeMember (d.sourceMember s))).length < limit) {first : Bool}
    (front : List UInt8) (hname : ∀ bs, nextName first (front ++ '"'.toUInt8 :: bs) = .ok (.name bs)) (steps : Nat)
    (rest : List UInt8) :
    readObject limit (steps + 1) first p (front ++ (encode (writeMember (d.sourceMember s)) ++ rest)) =
      readObject limit steps false (p.set (d.fields s) s) rest := by
  rw [encode_sourceMember] at hlimit ⊢
  simp only [List.length_cons, List.length_append] at hlimit
  have hfields : (Json.colon (':'.toUInt8 :: (encode (d.fields s).toJson.write ++ rest))).bind
      (readFields limit valueDepth) = .ok (d.fields s, rest) := readFields_write h (by omega) rest
  have hstring : readString limit _ = _ := Json.readString_write s.name (by omega)
    (':'.toUInt8 :: (encode (d.fields s).toJson.write ++ rest))
  simp only [List.cons_append, List.append_assoc]
  rw [readObject, hname]
  simp only [hstring, sourceOfName?_name, hfresh, Bool.false_eq_true, if_false, hfields]

/-- Both sources and the closing brace. -/
theorem readObject_write {d : RequestData} (h : ∀ s, ∀ e ∈ (d.fields s).entries, e.2.Survives)
    (hlimit : ∀ s, (encode (writeMember (d.sourceMember s))).length < limit) (steps : Nat) (rest : List UInt8) :
    readObject limit (steps + 3) true {} (encode (writeMember (d.sourceMember .query)) ++
      ','.toUInt8 :: (encode (writeMember (d.sourceMember .body)) ++ '\x7d'.toUInt8 :: rest)) = .ok (d, rest) := by
  have hquery := readObject_source (h .query) (p := {}) rfl (hlimit .query) [] Json.nextName_first
  have hbody := readObject_source (h .body) (p := ({} : Partial).set d.query .query) rfl (hlimit .body) [','.toUInt8]
    Json.nextName_next
  rw [← List.nil_append (encode (writeMember (d.sourceMember .query)) ++ _), hquery]
  refine (hbody _ _).trans ?_
  rw [readObject, Json.nextName_close]
  rfl

theorem readFrom_brace (rest : List UInt8) :
    readFrom limit ('\x7b'.toUInt8 :: rest) = readObject limit limit true {} rest := rfl

/-- **Request data survives the wire.** -/
theorem read_toJson {d : RequestData} (h : ∀ s, ∀ e ∈ (d.fields s).entries, e.2.Survives) :
    RequestData.read d.toJson.toText.utf8Bytes = .ok d := by
  have hbytes : d.toJson.toText.utf8Bytes = '\x7b'.toUInt8 :: (encode (writeMember (d.sourceMember .query)) ++
      ','.toUInt8 :: (encode (writeMember (d.sourceMember .body)) ++ ['\x7d'.toUInt8])) := by
    have hobject : d.toJson = .object [d.sourceMember .query, d.sourceMember .body] := rfl
    rw [String.utf8Bytes, Json.toText, String.toList_ofList, hobject, Json.encode_write_object, Json.encode_writeMembers,
      Json.afterCommas_cons, Json.afterCommas_nil, List.append_nil, List.append_assoc, List.cons_append]
  have hsize := congrArg List.length hbytes
  simp only [List.length_cons, List.length_append] at hsize
  have hlimit (s : Source) : (encode (writeMember (d.sourceMember s))).length < 2 * d.toJson.toText.utf8Bytes.length + 2 := by
    cases s <;> omega
  obtain ⟨steps, hsteps⟩ : ∃ steps, 2 * d.toJson.toText.utf8Bytes.length + 2 = steps + 3 :=
    ⟨2 * d.toJson.toText.utf8Bytes.length - 1, by omega⟩
  have hread : readFrom (2 * d.toJson.toText.utf8Bytes.length + 2) d.toJson.toText.utf8Bytes = .ok (d, []) := by
    have hobject := readObject_write h hlimit steps []
    rw [hbytes] at hobject hsteps ⊢
    rw [readFrom_brace]
    rw [hsteps] at hobject ⊢
    exact hobject
  rw [RequestData.read, hread]
  rfl

/-- Data with what its text has to escape, both ends of the integers and members out of order. -/
def sample : RequestData where
  query := ⟨[("a \"b\"\\", .text "é\n\x01/😀")], by decide⟩
  body := ⟨[("count", .integer (-9223372036854775808)), ("flag", .boolean true),
    ("tree", .json ⟨.object [("z", .number (.integer 18446744073709551615 (by decide))),
      ("", .array [.null, .string "\"", .array []])], by decide, trivial, ⟨trivial, trivial, trivial, trivial⟩, trivial⟩)],
    by decide⟩

theorem read_toJson_sample : RequestData.read sample.toJson.toText.utf8Bytes = .ok sample := by
  apply read_toJson
  intro s
  cases s with
  | query => exact List.forall_mem_singleton.mpr trivial
  | body =>
    refine List.forall_mem_cons.mpr ⟨trivial, List.forall_mem_cons.mpr ⟨trivial, List.forall_mem_singleton.mpr ?_⟩⟩
    exact ⟨rfl, ⟨trivial, ⟨trivial, trivial, trivial, trivial⟩, trivial⟩, by decide⟩

end RequestData

end RequestGuard
