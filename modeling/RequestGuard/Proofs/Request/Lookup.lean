import RequestGuard.Service.Intake

/-!
# What the data of a request answers

Fields that are given one after another answer with the value that was given last. So a field of the
query has the text of the last pair of its name, and since no object names a member twice, a field
of a body in JSON has what its one member is converted into.
-/

namespace RequestGuard

/-! ## Lists of pairs -/

section

variable {α β : Type}

theorem lookup_singleton (n k : String) (a : α) :
    [(k, a)].lookup n = if n = k then some a else none := by
  rw [List.lookup_cons]
  by_cases h : n = k
  · rw [h, beq_self_eq_true, if_pos rfl]
  · rw [beq_eq_false_iff_ne.mpr h, if_neg h]
    rfl

theorem lookup_map_snd (f : α → β) (n : String) (es : List (String × α)) :
    (es.map fun e => (e.1, f e.2)).lookup n = (es.lookup n).map f := by
  induction es with
  | nil => rfl
  | cons e es ih =>
    rw [List.map_cons, List.lookup_cons, List.lookup_cons, ih]
    cases n == e.1 <;> rfl

/-- Where no two pairs have one name, the last pair of a name is the first. -/
theorem lookup_reverse_of_nodup {es : List (String × α)} (h : (es.map Prod.fst).Nodup)
    (n : String) : es.reverse.lookup n = es.lookup n := by
  induction es with
  | nil => rfl
  | cons e es ih =>
    obtain ⟨k, a⟩ := e
    obtain ⟨hk, hes⟩ := List.nodup_cons.mp h
    have hcons : ((k, a) :: es).lookup n = ([(k, a)].lookup n).or (es.lookup n) := by
      rw [← List.lookup_append, List.singleton_append]
    rw [List.reverse_cons, List.lookup_append, ih hes, hcons, lookup_singleton]
    split
    · rename_i hn
      have hnone : es.lookup n = none := by
        rw [List.lookup_eq_none_iff]
        intro e he
        have hmem : e.1 ∈ es.map Prod.fst := List.mem_map_of_mem he
        rw [hn, bne_iff_ne]
        intro hke
        rw [← hke] at hmem
        exact hk hmem
      rw [hnone]
      rfl
    · rw [Option.or_none, Option.none_or]

end

/-! ## Fields -/

/-- Given one after another, fields have the values given last. -/
theorem Fields.get?_insertAll (fs : Fields) (es : List (String × FieldValue)) (n : String) :
    (fs.insertAll es).get? n = (es.reverse.lookup n).or (fs.get? n) := by
  induction es generalizing fs with
  | nil => rfl
  | cons e es ih =>
    have hrest : (fs.insertAll (e :: es)).get? n =
        (es.reverse.lookup n).or ((fs.insert e.1 e.2).get? n) := ih (fs.insert e.1 e.2)
    have hfirst : (fs.insert e.1 e.2).get? n = ([e].lookup n).or (fs.get? n) := by
      rw [get?_insert, lookup_singleton]
      split <;> rfl
    rw [hrest, hfirst, List.reverse_cons, List.lookup_append, Option.or_assoc]

theorem RequestData.get?_insertAll (d : RequestData) (s : Source)
    (es : List (String × FieldValue)) (n : String) :
    (d.insertAll s es).get? s n = (es.reverse.lookup n).or (d.get? s n) := by
  rw [insertAll, get?, fields_setFields, if_pos rfl, Fields.get?_insertAll]
  rfl

theorem RequestData.get?_insertAll_of_ne {s t : Source} (h : t ≠ s) (d : RequestData)
    (es : List (String × FieldValue)) (n : String) : (d.insertAll s es).get? t n = d.get? t n := by
  rw [insertAll, get?, fields_setFields, if_neg h]
  rfl

/-! ## Members -/

namespace Members

/-- The value of a member. -/
def get? (ms : Members) (name : String) : Option Document := ms.toList.lookup name

theorem map_fst_pairs (ms : List (String × Json)) (h : Json.MembersNamesUnique ms) :
    (pairs ms h).map Prod.fst = ms.map Prod.fst := by
  induction ms with
  | nil => rfl
  | cons m ms ih => exact congrArg (m.1 :: ·) (ih h.2)

theorem nodup_toList (ms : Members) : (ms.toList.map Prod.fst).Nodup := by
  rw [toList, map_fst_pairs]
  exact ms.property.1

end Members

/-- The members of an object give the fields of their names what they are converted into. -/
theorem RequestData.get?_insertJson {d e : RequestData} {s : Source} {v : Document} {ms : Members}
    (hv : v.members? = some ms) (h : d.insertJson s v = .ok e) (n : String) :
    e.get? s n = ((ms.get? n).map FieldValue.ofDocument).or (d.get? s n) := by
  rw [insertJson, hv] at h
  cases h
  rw [get?_insertAll, ← List.map_reverse, lookup_map_snd, lookup_reverse_of_nodup ms.nodup_toList]
  rfl

namespace Service

/-! ## Requests that are read -/

/-- The text of the last pair of a name in a request's query. -/
def Request.parameter? (r : Request) (name : String) : Option String :=
  (UrlEncoded.pairs r.target.query).reverse.lookup name

variable {r : Request} {limit : Nat} {bytes : List UInt8}

/-- A request whose body is within the limit is read for its query, whatever the body is. -/
theorem exists_read_query (hbody : r.body.buffer limit = .ok bytes) :
    ∃ d, r.read limit .query = .ok (bytes, d) ∧
      ∀ n, d.get? .query n = (r.parameter? n).map .text := by
  refine ⟨insertPairs .empty .query (UrlEncoded.pairs r.target.query), ?_, ?_⟩
  · simp only [Request.read, hbody, readFields]
  · intro n
    rw [insertPairs, RequestData.get?_insertAll, ← List.map_reverse, lookup_map_snd]
    exact Option.or_none

/-- An object in JSON within the limit is read for its members, whatever the query is. -/
theorem exists_read_object (hbody : r.body.buffer limit = .ok bytes)
    (htype : MediaType.ofRequest r = .json) {v : Document} {ms : Members}
    (hread : Json.read bytes = .ok v) (hv : v.members? = some ms) :
    ∃ d, r.read limit .body = .ok (bytes, d) ∧
      ∀ n, d.get? .body n = (ms.get? n).map FieldValue.ofDocument := by
  have hempty : bytes.isEmpty = false := by
    cases bytes with
    | nil => cases hread
    | cons b bytes => rfl
  let d := insertPairs .empty .query (UrlEncoded.pairs r.target.query)
  have hinsert : ∃ e, d.insertJson .body v = .ok e := ⟨_, by rw [RequestData.insertJson, hv]⟩
  obtain ⟨e, he⟩ := hinsert
  refine ⟨e, ?_, ?_⟩
  · have hfields : readFields .body r bytes = .ok e := by
      simp only [readFields, readBody, hempty, htype, hread]
      rw [he]
      rfl
    simp only [Request.read, hbody, hfields]
  · intro n
    rw [RequestData.get?_insertJson hv he]
    exact Option.or_none

end Service

end RequestGuard
