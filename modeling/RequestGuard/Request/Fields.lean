import RequestGuard.Request.FieldValue

/-!
# Fields

A finite map from field names to values, kept in the order of the names, which is that of their code
points. The order makes the representation unique: two maps that answer every look-up alike are
equal (`Fields.ext_get?`), so a statement about what a request holds can be an equation.
-/

namespace RequestGuard

/-- The fields of one source, in the order of their names. -/
structure Fields where
  entries : List (String × FieldValue)
  sorted : entries.Pairwise fun a b => a.1 < b.1

namespace Fields

/-! ## Entries -/

/-- Gives a name a value, in its place in the order. -/
def insertEntry (name : String) (v : FieldValue) : List (String × FieldValue) → List (String × FieldValue)
  | [] => [(name, v)]
  | (n, w) :: es =>
    if name < n then (name, v) :: (n, w) :: es
    else if name = n then (name, v) :: es
    else (n, w) :: insertEntry name v es

theorem mem_insertEntry {name : String} {v : FieldValue} {e : String × FieldValue}
    {es : List (String × FieldValue)} (h : e ∈ insertEntry name v es) : e = (name, v) ∨ e ∈ es := by
  induction es with
  | nil => simpa [insertEntry] using h
  | cons x xs ih =>
    obtain ⟨n, w⟩ := x
    simp only [insertEntry] at h
    split at h
    · simpa using h
    · split at h
      · rcases List.mem_cons.1 h with h | h
        · exact .inl h
        · exact .inr (List.mem_cons_of_mem _ h)
      · rcases List.mem_cons.1 h with h | h
        · exact .inr (h ▸ List.mem_cons_self)
        · rcases ih h with h | h
          · exact .inl h
          · exact .inr (List.mem_cons_of_mem _ h)

theorem lt_of_not_lt_of_ne {a b : String} (h : ¬ a < b) (hne : a ≠ b) : b < a :=
  String.not_le.1 fun hle => hne (String.le_antisymm hle (String.not_lt.1 h))

theorem sorted_insertEntry {name : String} {v : FieldValue} {es : List (String × FieldValue)}
    (h : es.Pairwise fun a b => a.1 < b.1) : (insertEntry name v es).Pairwise fun a b => a.1 < b.1 := by
  induction es with
  | nil => simp [insertEntry]
  | cons x xs ih =>
    obtain ⟨n, w⟩ := x
    obtain ⟨hx, hxs⟩ := List.pairwise_cons.1 h
    simp only [insertEntry]
    split
    · rename_i hlt
      refine List.pairwise_cons.2 ⟨fun e he => ?_, h⟩
      rcases List.mem_cons.1 he with rfl | he
      · exact hlt
      · exact String.lt_trans hlt (hx e he)
    · rename_i hnlt
      split
      · rename_i heq
        subst heq
        exact List.pairwise_cons.2 ⟨hx, hxs⟩
      · rename_i hne
        refine List.pairwise_cons.2 ⟨fun e he => ?_, ih hxs⟩
        rcases mem_insertEntry he with rfl | he
        · exact lt_of_not_lt_of_ne hnlt hne
        · exact hx e he

/-! ## Operations -/

/-- No fields. -/
def empty : Fields := ⟨[], .nil⟩

/-- The value of a field. -/
def get? (fs : Fields) (name : String) : Option FieldValue :=
  fs.entries.lookup name

/-- Whether a field has a value. -/
def contains (fs : Fields) (name : String) : Bool :=
  (fs.get? name).isSome

/-- Gives a field a value. -/
def insert (fs : Fields) (name : String) (v : FieldValue) : Fields :=
  ⟨insertEntry name v fs.entries, sorted_insertEntry fs.sorted⟩

/-- Takes a field away. -/
def erase (fs : Fields) (name : String) : Fields :=
  ⟨fs.entries.filter fun e => e.1 != name, fs.sorted.filter _⟩

/-- The fields given one after another; the last value of a name stays. -/
def insertAll (fs : Fields) (es : List (String × FieldValue)) : Fields :=
  es.foldl (fun fs e => fs.insert e.1 e.2) fs

/-- The fields as a JSON object. -/
def toJson (fs : Fields) : Json :=
  .object (fs.entries.map fun e => (e.1, e.2.toJson))

/-! ## Look-up -/

@[simp] theorem get?_empty (name : String) : empty.get? name = none := rfl

theorem lookup_cons_if (n k : String) (w : FieldValue) (es : List (String × FieldValue)) :
    ((k, w) :: es).lookup n = if n = k then some w else es.lookup n := by
  rw [List.lookup_cons]
  by_cases h : n = k
  · simp [h]
  · rw [beq_eq_false_iff_ne.2 h, if_neg h]

theorem lookup_insertEntry (name n : String) (v : FieldValue) (es : List (String × FieldValue)) :
    (insertEntry name v es).lookup n = if n = name then some v else es.lookup n := by
  induction es with
  | nil => rw [insertEntry, lookup_cons_if]
  | cons x xs ih =>
    obtain ⟨k, w⟩ := x
    simp only [insertEntry]
    split
    · rw [lookup_cons_if]
    · split
      · rename_i heq
        subst heq
        rw [lookup_cons_if, lookup_cons_if]
        by_cases h : n = name <;> simp [h]
      · rename_i hne
        rw [lookup_cons_if, lookup_cons_if, ih]
        by_cases hk : n = k
        · subst hk
          simp [Ne.symm hne]
        · simp [hk]

theorem get?_insert (fs : Fields) (name n : String) (v : FieldValue) :
    (fs.insert name v).get? n = if n = name then some v else fs.get? n :=
  lookup_insertEntry name n v fs.entries

theorem lookup_filter_ne (name n : String) (es : List (String × FieldValue)) :
    (es.filter fun e => e.1 != name).lookup n = if n = name then none else es.lookup n := by
  induction es with
  | nil => simp
  | cons x xs ih =>
    obtain ⟨k, w⟩ := x
    by_cases hk : k = name
    · subst hk
      rw [List.filter_cons_of_neg (by simp), ih, lookup_cons_if]
      by_cases h : n = k <;> simp [h]
    · rw [List.filter_cons_of_pos (by simpa using hk), lookup_cons_if, lookup_cons_if, ih]
      by_cases h : n = k
      · subst h
        simp [hk]
      · simp [h]

theorem get?_erase (fs : Fields) (name n : String) :
    (fs.erase name).get? n = if n = name then none else fs.get? n :=
  lookup_filter_ne name n fs.entries

/-- In a sorted list, a name below all entries is not there. -/
theorem lookup_eq_none_of_lt {name : String} {es : List (String × FieldValue)}
    (h : ∀ e ∈ es, name < e.1) : es.lookup name = none := by
  induction es with
  | nil => rfl
  | cons x xs ih =>
    obtain ⟨k, w⟩ := x
    have hk : name ≠ k := fun heq => String.lt_irrefl k (heq ▸ h (k, w) List.mem_cons_self)
    rw [lookup_cons_if, if_neg hk]
    exact ih fun e he => h e (List.mem_cons_of_mem _ he)

theorem entries_eq_of_lookup_eq {as bs : List (String × FieldValue)}
    (ha : as.Pairwise fun a b => a.1 < b.1) (hb : bs.Pairwise fun a b => a.1 < b.1)
    (h : ∀ name, as.lookup name = bs.lookup name) : as = bs := by
  induction as generalizing bs with
  | nil =>
    cases bs with
    | nil => rfl
    | cons y ys =>
      obtain ⟨k, w⟩ := y
      simpa [lookup_cons_if] using h k
  | cons x xs ih =>
    obtain ⟨k, v⟩ := x
    obtain ⟨hx, hxs⟩ := List.pairwise_cons.1 ha
    cases bs with
    | nil => simpa [lookup_cons_if] using h k
    | cons y ys =>
      obtain ⟨l, w⟩ := y
      obtain ⟨hy, hys⟩ := List.pairwise_cons.1 hb
      have hkl : k = l := by
        by_cases hlt : k < l
        · have hn : ((l, w) :: ys).lookup k = none := by
            refine lookup_eq_none_of_lt fun e he => ?_
            rcases List.mem_cons.1 he with rfl | he
            · exact hlt
            · exact String.lt_trans hlt (hy e he)
          have hk := h k
          simp [hn] at hk
        · refine Classical.byContradiction fun hne => ?_
          have hgt := lt_of_not_lt_of_ne hlt hne
          have hn : ((k, v) :: xs).lookup l = none := by
            refine lookup_eq_none_of_lt fun e he => ?_
            rcases List.mem_cons.1 he with rfl | he
            · exact hgt
            · exact String.lt_trans hgt (hx e he)
          have hl := h l
          simp [hn] at hl
      subst hkl
      have hvw : v = w := by simpa [lookup_cons_if] using h k
      subst hvw
      refine congrArg _ (ih hxs hys fun name => ?_)
      by_cases hn : name = k
      · subst hn
        rw [lookup_eq_none_of_lt hx, lookup_eq_none_of_lt hy]
      · simpa [lookup_cons_if, hn] using h name

/-- Extensionality: fields that answer every look-up alike are equal. -/
theorem ext_get? {as bs : Fields} (h : ∀ name, as.get? name = bs.get? name) : as = bs := by
  obtain ⟨as, ha⟩ := as
  obtain ⟨bs, hb⟩ := bs
  have := entries_eq_of_lookup_eq ha hb h
  subst this
  rfl

end Fields

end RequestGuard
