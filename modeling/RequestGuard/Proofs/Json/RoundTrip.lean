import RequestGuard.Json.Read
import RequestGuard.Proofs.Json.Structure
import RequestGuard.Proofs.Json.Token

/-!
# Values that are read back

A value in which every number is an integer (`IntegersOnly`) is read back from its text, if arrays and
objects lie no deeper in one another than the reader goes (`depth`, `readsBack_readValue`). A number with
a fraction need not be, as reading rounds it twice.

A text is bytes here, as it is for the reader. A list of items or members is its first element and the
others behind their commas (`afterCommas`). The readers of lists are right if the reader of elements is
(`ReadsBack`), and as the text of a list is longer than it has elements, their steps suffice.
-/

namespace RequestGuard.Json

open Text.Utf8 (encode encode_cons encode_append)

/-! ## Depth and integers -/

mutual

/-- How deep arrays and objects lie in one another. -/
def depth : Json → Nat
  | array items => depthItems items + 1
  | object members => depthMembers members + 1
  | _ => 0

/-- The depth of the deepest item. -/
def depthItems : List Json → Nat
  | [] => 0
  | v :: vs => max v.depth (depthItems vs)

/-- The depth of the deepest member's value. -/
def depthMembers : List (String × Json) → Nat
  | [] => 0
  | (_, v) :: ms => max v.depth (depthMembers ms)

end

mutual

/-- Every number in the value is an integer. -/
def IntegersOnly : Json → Prop
  | number (.float _ _) => False
  | array items => AllIntegersOnly items
  | object members => MembersIntegersOnly members
  | _ => True

/-- Every item has `IntegersOnly`. -/
def AllIntegersOnly : List Json → Prop
  | [] => True
  | v :: vs => v.IntegersOnly ∧ AllIntegersOnly vs

/-- Every member has a value with `IntegersOnly`. -/
def MembersIntegersOnly : List (String × Json) → Prop
  | [] => True
  | (_, v) :: ms => v.IntegersOnly ∧ MembersIntegersOnly ms

end

theorem depthItems_le_iff {vs : List Json} {k : Nat} : depthItems vs ≤ k ↔ ∀ v ∈ vs, v.depth ≤ k := by
  induction vs with
  | nil => simp [depthItems]
  | cons v vs ih => rw [depthItems, Nat.max_le, ih, List.forall_mem_cons]

theorem depthMembers_le_iff {ms : List (String × Json)} {k : Nat} :
    depthMembers ms ≤ k ↔ ∀ m ∈ ms, m.2.depth ≤ k := by
  induction ms with
  | nil => simp [depthMembers]
  | cons m ms ih => rw [depthMembers, Nat.max_le, ih, List.forall_mem_cons]

theorem allIntegersOnly_iff {vs : List Json} : AllIntegersOnly vs ↔ ∀ v ∈ vs, v.IntegersOnly := by
  induction vs with
  | nil => simp [AllIntegersOnly]
  | cons v vs ih => rw [AllIntegersOnly, ih, List.forall_mem_cons]

theorem membersIntegersOnly_iff {ms : List (String × Json)} :
    MembersIntegersOnly ms ↔ ∀ m ∈ ms, m.2.IntegersOnly := by
  induction ms with
  | nil => simp [MembersIntegersOnly]
  | cons m ms ih => rw [MembersIntegersOnly, ih, List.forall_mem_cons]

/-! ## Texts of lists -/

/-- The text of the elements behind the first, each with its comma. -/
def afterCommas {α : Type} (f : α → List Char) (xs : List α) : List UInt8 :=
  encode (xs.flatMap fun x => ',' :: f x)

section Lists

variable {α : Type} {f : α → List Char}

theorem afterCommas_nil : afterCommas f [] = [] := rfl

theorem afterCommas_cons (x : α) (xs : List α) :
    afterCommas f (x :: xs) = ','.toUInt8 :: (encode (f x) ++ afterCommas f xs) := by
  rw [afterCommas, List.flatMap_cons, List.cons_append, encode_cons_ascii (by decide), encode_append, afterCommas]

/-- A comma or the closing bracket is what comes before another element or the end. -/
theorem follows_afterCommas (xs : List α) {b : UInt8} (hb : b = ']'.toUInt8 ∨ b = '\x7d'.toUInt8)
    (rest : List UInt8) : Follows (afterCommas f xs ++ b :: rest) := by
  cases xs with
  | nil => exact follows_cons (.inr hb) rest
  | cons x xs =>
    rw [afterCommas_cons, List.cons_append]
    exact follows_cons (.inl rfl) _

theorem length_le_afterCommas {x : α} {xs : List α} (h : x ∈ xs) :
    (encode (f x)).length ≤ (afterCommas f xs).length := by
  induction xs with
  | nil => cases h
  | cons y ys ih =>
    rw [afterCommas_cons, List.length_cons, List.length_append]
    rcases List.mem_cons.mp h with rfl | hmem
    · omega
    · have hle := ih hmem
      omega

end Lists

/-- A member as it is written. -/
def writeMember (m : String × Json) : List Char :=
  writeString m.1 ++ ':' :: m.2.write

theorem encode_writeItems (v : Json) (vs : List Json) :
    encode (writeItems (v :: vs)) = encode v.write ++ afterCommas write vs := by
  induction vs generalizing v with
  | nil => rw [writeItems, afterCommas_nil, List.append_nil]
  | cons w vs ih => rw [writeItems, encode_append, encode_cons_ascii (by decide), ih, afterCommas_cons]

theorem encode_writeMembers (m : String × Json) (ms : List (String × Json)) :
    encode (writeMembers (m :: ms)) = encode (writeMember m) ++ afterCommas writeMember ms := by
  induction ms generalizing m with
  | nil => rw [writeMembers, afterCommas_nil, List.append_nil, writeMember]
  | cons n ms ih =>
    have hcons : writeMembers (m :: n :: ms) = writeMember m ++ ',' :: writeMembers (n :: ms) := by
      rw [writeMembers, writeMember]
    rw [hcons, encode_append, encode_cons_ascii (by decide), ih, afterCommas_cons]

theorem length_le_writeItems {v : Json} {vs : List Json} (h : v ∈ vs) :
    (encode v.write).length ≤ (encode (writeItems vs)).length := by
  cases vs with
  | nil => cases h
  | cons w vs =>
    rw [encode_writeItems, List.length_append]
    rcases List.mem_cons.mp h with rfl | hmem
    · omega
    · have hle := length_le_afterCommas (f := write) hmem
      omega

theorem length_le_writeMembers {m : String × Json} {ms : List (String × Json)} (h : m ∈ ms) :
    (encode (writeMember m)).length ≤ (encode (writeMembers ms)).length := by
  cases ms with
  | nil => cases h
  | cons n ms =>
    rw [encode_writeMembers, List.length_append]
    rcases List.mem_cons.mp h with rfl | hmem
    · omega
    · have hle := length_le_afterCommas (f := writeMember) hmem
      omega

/-! ## Reading back -/

/-- A reader gives back a document from its text. The text does not begin like the end of an array. -/
structure ReadsBack (item : List UInt8 → Reading Document) (d : Document) : Prop where
  begins : ∃ b bs, encode d.val.write = b :: bs ∧ isSpace b = false ∧ b ≠ ']'.toUInt8
  reads : ∀ rest, Follows rest → item (encode d.val.write ++ rest) = .ok (d, rest)

theorem skip_cons {b : UInt8} (h : isSpace b = false) (bs : List UInt8) : skip (b :: bs) = b :: bs :=
  List.dropWhile_cons_of_neg (h ▸ Bool.false_ne_true)

variable {item : List UInt8 → Reading Document} {limit : Nat}

/-! ### Items -/

section Items

variable {held : List Document}

theorem readItems_close (rest : List UInt8) :
    readItems item (limit + 1) held (']'.toUInt8 :: rest) = .ok (held.reverse, rest) := rfl

theorem readItems_first {d : Document} (hd : ReadsBack item d) {rest : List UInt8} (h : Follows rest) :
    readItems item (limit + 1) [] (encode d.val.write ++ rest) = readItems item limit [d] rest := by
  obtain ⟨b, bs, hbytes, hspace, hclose⟩ := hd.begins
  have hread := hd.reads rest h
  rw [hbytes, List.cons_append] at hread ⊢
  simp only [readItems, skip_cons hspace, if_neg hclose, hread, List.isEmpty_nil, if_true]

theorem readItems_next {d : Document} (hd : ReadsBack item d) (hheld : held ≠ []) {rest : List UInt8}
    (h : Follows rest) :
    readItems item (limit + 1) held (','.toUInt8 :: (encode d.val.write ++ rest)) =
      readItems item limit (d :: held) rest := by
  obtain ⟨b, bs, hbytes, hspace, hclose⟩ := hd.begins
  have hread := hd.reads rest h
  have hcomma : isSpace ','.toUInt8 = false := by decide
  have hne : ¬ ','.toUInt8 = ']'.toUInt8 := by decide
  have hempty : held.isEmpty = false := by simpa using hheld
  rw [hbytes, List.cons_append] at hread ⊢
  simp only [readItems, skip_cons hcomma, skip_cons hspace, if_neg hne, if_neg hclose, hread, hempty,
    Bool.false_eq_true, if_false, if_true]

/-- The items behind the first. -/
theorem readItems_afterCommas {ds : List Document} (hds : ∀ d ∈ ds, ReadsBack item d)
    (hlimit : (afterCommas write (ds.map Subtype.val)).length < limit) (hheld : held ≠ []) (rest : List UInt8) :
    readItems item limit held (afterCommas write (ds.map Subtype.val) ++ ']'.toUInt8 :: rest) =
      .ok (held.reverse ++ ds, rest) := by
  obtain ⟨left, rfl⟩ : ∃ left, limit = left + 1 := ⟨limit - 1, by omega⟩
  induction ds generalizing held left with
  | nil =>
    rw [List.append_nil]
    exact readItems_close rest
  | cons d ds ih =>
    obtain ⟨hd, hds⟩ := List.forall_mem_cons.mp hds
    rw [List.map_cons, afterCommas_cons] at hlimit ⊢
    rw [List.length_cons, List.length_append] at hlimit
    obtain ⟨fewer, rfl⟩ : ∃ fewer, left = fewer + 1 := ⟨left - 1, by omega⟩
    rw [List.cons_append, List.append_assoc, readItems_next hd hheld (follows_afterCommas _ (.inl rfl) rest),
      ih hds (List.cons_ne_nil d held) fewer (by omega), List.reverse_cons, List.append_assoc, List.singleton_append]

/-- The items of an array. -/
theorem readItems_write {ds : List Document} (hds : ∀ d ∈ ds, ReadsBack item d)
    (hlimit : (encode (writeItems (ds.map Subtype.val))).length < limit) (rest : List UInt8) :
    readItems item limit [] (encode (writeItems (ds.map Subtype.val)) ++ ']'.toUInt8 :: rest) = .ok (ds, rest) := by
  obtain ⟨left, rfl⟩ : ∃ left, limit = left + 1 := ⟨limit - 1, by omega⟩
  cases ds with
  | nil => exact readItems_close rest
  | cons d ds =>
    obtain ⟨hd, hds⟩ := List.forall_mem_cons.mp hds
    obtain ⟨b, bs, hbytes, -⟩ := hd.begins
    rw [List.map_cons, encode_writeItems] at hlimit ⊢
    rw [hbytes, List.length_append, List.length_cons] at hlimit
    rw [List.append_assoc, readItems_first hd (follows_afterCommas _ (.inl rfl) rest),
      readItems_afterCommas hds (by omega) (List.cons_ne_nil d []), List.reverse_singleton, List.singleton_append]

end Items

/-! ### Members -/

theorem putMember_of_not_mem {name : String} {v : Json} {ms : List (String × Json)} (h : name ∉ ms.map Prod.fst) :
    putMember name v ms = ms ++ [(name, v)] := by
  induction ms with
  | nil => rfl
  | cons m ms ih =>
    rw [List.map_cons, List.mem_cons, not_or] at h
    rw [putMember, if_neg (Ne.symm h.1), ih h.2, List.cons_append]

theorem nextName_first (rest : List UInt8) : nextName true ('"'.toUInt8 :: rest) = .ok (.name rest) := rfl

theorem nextName_next (rest : List UInt8) : nextName false (','.toUInt8 :: '"'.toUInt8 :: rest) = .ok (.name rest) := rfl

theorem nextName_close (first : Bool) (rest : List UInt8) :
    nextName first ('\x7d'.toUInt8 :: rest) = .ok (.done rest) := by
  cases first <;> rfl

theorem colon_cons (rest : List UInt8) : colon (':'.toUInt8 :: rest) = .ok rest := rfl

/-- The text of a name, from its opening quote on. -/
theorem encode_writeString (s : String) (cs : List Char) :
    encode (writeString s ++ cs) =
      '"'.toUInt8 :: (encode (s.toList.flatMap writeChar) ++ '"'.toUInt8 :: encode cs) := by
  rw [writeString, List.cons_append, List.cons_append, encode_cons_ascii (by decide), List.append_assoc, encode_append,
    List.singleton_append, encode_cons_ascii (by decide)]

theorem encode_writeMember (m : String × Json) :
    encode (writeMember m) = '"'.toUInt8 ::
      (encode (m.1.toList.flatMap writeChar) ++ '"'.toUInt8 :: ':'.toUInt8 :: encode m.2.write) := by
  rw [writeMember, encode_writeString, encode_cons_ascii (by decide)]

/-- The members in the order in which they stand, each with its document. -/
def values (ds : List (String × Document)) : List (String × Json) :=
  ds.map fun m => (m.1, m.2.val)

section Members

variable {held : Members}

/-- One member, from its name on. -/
theorem readMembers_name {first : Bool} {bs rest : List UInt8} {m : String × Document} (hm : ReadsBack item m.2)
    (hlimit : (encode (m.1.toList.flatMap writeChar)).length < limit)
    (hname : nextName first bs = .ok (.name (encode (m.1.toList.flatMap writeChar) ++
      '"'.toUInt8 :: ':'.toUInt8 :: (encode m.2.val.write ++ rest)))) (h : Follows rest) :
    readMembers item (limit + 1) first held bs = readMembers item limit false (held.put m.1 m.2) rest := by
  rw [readMembers, hname]
  simp only [readString_write m.1 hlimit, colon_cons, hm.reads rest h]

/-- The members behind the first, with names of their own. -/
theorem readMembers_afterCommas {ds : List (String × Document)} (hds : ∀ m ∈ ds, ReadsBack item m.2)
    (hlimit : (afterCommas writeMember (values ds)).length < limit)
    (hnodup : (held.val.map Prod.fst ++ ds.map Prod.fst).Nodup) (rest : List UInt8) :
    ∃ ms, readMembers item limit false held (afterCommas writeMember (values ds) ++ '\x7d'.toUInt8 :: rest) =
      .ok (ms, rest) ∧ ms.val = held.val ++ values ds := by
  obtain ⟨left, rfl⟩ : ∃ left, limit = left + 1 := ⟨limit - 1, by omega⟩
  induction ds generalizing held left with
  | nil =>
    refine ⟨held, ?_, (List.append_nil _).symm⟩
    show readMembers item (left + 1) false held ('\x7d'.toUInt8 :: rest) = _
    rw [readMembers, nextName_close]
  | cons m ds ih =>
    obtain ⟨hm, hds⟩ := List.forall_mem_cons.mp hds
    have hcons : values (m :: ds) = (m.1, m.2.val) :: values ds := rfl
    have hbytes : afterCommas writeMember (values (m :: ds)) ++ '\x7d'.toUInt8 :: rest =
        ','.toUInt8 :: '"'.toUInt8 :: (encode (m.1.toList.flatMap writeChar) ++ '"'.toUInt8 :: ':'.toUInt8 ::
          (encode m.2.val.write ++ (afterCommas writeMember (values ds) ++ '\x7d'.toUInt8 :: rest))) := by
      rw [hcons, afterCommas_cons, encode_writeMember]
      simp only [List.cons_append, List.append_assoc]
    rw [hcons, afterCommas_cons, encode_writeMember] at hlimit
    simp only [List.cons_append, List.length_cons, List.length_append] at hlimit
    obtain ⟨fewer, rfl⟩ : ∃ fewer, left = fewer + 1 := ⟨left - 1, by omega⟩
    -- the name is new, so the member goes to the end and keeps its place
    have hput : (held.put m.1 m.2).val = held.val ++ [(m.1, m.2.val)] := by
      apply putMember_of_not_mem
      intro hmem
      exact (List.nodup_append.mp hnodup).2.2 m.1 hmem m.1 List.mem_cons_self rfl
    have hnodup' : ((held.put m.1 m.2).val.map Prod.fst ++ ds.map Prod.fst).Nodup := by
      rwa [hput, List.map_append, List.append_assoc]
    obtain ⟨ms, hread, hms⟩ := ih hds hnodup' fewer (by omega)
    refine ⟨ms, ?_, ?_⟩
    · rw [hbytes, readMembers_name hm (by omega) (nextName_next _) (follows_afterCommas _ (.inr rfl) rest), hread]
    · rw [hms, hput, List.append_assoc, hcons, List.singleton_append]

/-- The members of an object. -/
theorem readMembers_write {ds : List (String × Document)} (hds : ∀ m ∈ ds, ReadsBack item m.2)
    (hlimit : (encode (writeMembers (values ds))).length < limit) (hnodup : (ds.map Prod.fst).Nodup)
    (rest : List UInt8) :
    ∃ ms, readMembers item limit true .empty (encode (writeMembers (values ds)) ++ '\x7d'.toUInt8 :: rest) =
      .ok (ms, rest) ∧ ms.val = values ds := by
  obtain ⟨left, rfl⟩ : ∃ left, limit = left + 1 := ⟨limit - 1, by omega⟩
  cases ds with
  | nil =>
    refine ⟨.empty, ?_, rfl⟩
    show readMembers item (left + 1) true .empty ('\x7d'.toUInt8 :: rest) = _
    rw [readMembers, nextName_close]
  | cons m ds =>
    obtain ⟨hm, hds⟩ := List.forall_mem_cons.mp hds
    have hcons : values (m :: ds) = (m.1, m.2.val) :: values ds := rfl
    have hbytes : encode (writeMembers (values (m :: ds))) ++ '\x7d'.toUInt8 :: rest =
        '"'.toUInt8 :: (encode (m.1.toList.flatMap writeChar) ++ '"'.toUInt8 :: ':'.toUInt8 ::
          (encode m.2.val.write ++ (afterCommas writeMember (values ds) ++ '\x7d'.toUInt8 :: rest))) := by
      rw [hcons, encode_writeMembers, encode_writeMember]
      simp only [List.cons_append, List.append_assoc]
    rw [hcons, encode_writeMembers, encode_writeMember] at hlimit
    simp only [List.cons_append, List.length_cons, List.length_append] at hlimit
    have hput : (Members.empty.put m.1 m.2).val = [(m.1, m.2.val)] := rfl
    have hnodup' : ((Members.empty.put m.1 m.2).val.map Prod.fst ++ ds.map Prod.fst).Nodup := hnodup
    have hleft : (afterCommas writeMember (values ds)).length < left := by omega
    obtain ⟨ms, hread, hms⟩ := readMembers_afterCommas hds hleft hnodup' rest
    refine ⟨ms, ?_, ?_⟩
    · rw [hbytes, readMembers_name hm (by omega) (nextName_first _) (follows_afterCommas _ (.inr rfl) rest), hread]
    · rw [hms, hput, hcons, List.singleton_append]

end Members

/-! ### Values -/

theorem value_cons {item : Option (List UInt8 → Reading Document)} {b : UInt8} (h : isSpace b = false)
    (rest : List UInt8) : value limit item (b :: rest) = valueAt limit item b rest := by
  rw [value, skip_cons h]

section Values

variable {item : Option (List UInt8 → Reading Document)}

theorem value_null (rest : List UInt8) : value limit item (encode null.write ++ rest) = .ok (Document.null, rest) := rfl

theorem value_boolean (b : Bool) (rest : List UInt8) :
    value limit item (encode (boolean b).write ++ rest) = .ok (Document.boolean b, rest) := by
  cases b <;> rfl

theorem value_string (s : String) (h : (encode (string s).write).length < limit) (rest : List UInt8) :
    value limit item (encode (string s).write ++ rest) = .ok (Document.string s, rest) := by
  have hbytes : encode (string s).write = '"'.toUInt8 :: (encode (s.toList.flatMap writeChar) ++ ['"'.toUInt8]) := by
    have htext := encode_writeString s []
    rwa [List.append_nil] at htext
  rw [hbytes, List.length_cons, List.length_append] at h
  rw [hbytes, List.cons_append, List.append_assoc, List.singleton_append]
  show (readString limit _).map _ = _
  rw [readString_write s (by omega)]
  rfl

theorem ne_of_isDigit {b d : UInt8} (h : isDigit b = true) (hd : isDigit d = false) : b ≠ d := by
  rintro rfl
  rw [hd] at h
  cases h

theorem isSpace_of_isDigit {b : UInt8} (h : isDigit b = true) : isSpace b = false := by
  have hspace : b ≠ 0x20 := ne_of_isDigit h (by decide)
  have htab : b ≠ 0x09 := ne_of_isDigit h (by decide)
  have hfeed : b ≠ 0x0A := ne_of_isDigit h (by decide)
  have hreturn : b ≠ 0x0D := ne_of_isDigit h (by decide)
  simp [isSpace, hspace, htab, hfeed, hreturn]

/-- What begins with a digit is a number. -/
theorem valueAt_digit {b : UInt8} (h : isDigit b = true) (rest : List UInt8) :
    valueAt limit item b rest = (readNumber false (b :: rest)).map fun (n, rest) => (Document.number n, rest) := by
  have hnull : b ≠ 'n'.toUInt8 := ne_of_isDigit h (by decide)
  have htrue : b ≠ 't'.toUInt8 := ne_of_isDigit h (by decide)
  have hfalse : b ≠ 'f'.toUInt8 := ne_of_isDigit h (by decide)
  have hminus : b ≠ '-'.toUInt8 := ne_of_isDigit h (by decide)
  simp only [valueAt, hnull, htrue, hfalse, hminus, if_false, h, if_true]

theorem value_integer {i : Int} (fits : -0x8000000000000000 ≤ i ∧ i < 0x10000000000000000) {rest : List UInt8}
    (h : Follows rest) :
    value limit item (encode (number (.integer i fits)).write ++ rest) =
      .ok (Document.number (.integer i fits), rest) := by
  have hread := readNumber_writeInt fits h
  show value limit item (encode (Numeral.writeInt i) ++ rest) = _
  rw [Numeral.writeInt]
  by_cases hneg : i < 0
  · rw [decide_eq_true hneg] at hread
    rw [if_pos hneg, List.singleton_append, encode_cons_ascii (by decide), List.cons_append]
    show (readNumber true _).map _ = _
    rw [hread]
    rfl
  · rw [decide_eq_false hneg] at hread
    rw [if_neg hneg, List.nil_append]
    obtain ⟨c, ds, hcons⟩ := List.exists_cons_of_ne_nil (Nat.toDigits_ne_nil (b := 10) (n := i.natAbs))
    have hc : c.isDigit = true :=
      Nat.isDigit_of_mem_toDigits (by decide) (by decide) (hcons ▸ List.mem_cons_self : c ∈ Nat.toDigits 10 i.natAbs)
    have hrange : 48 ≤ c.toNat ∧ c.toNat ≤ 57 := Char.isDigit_iff_toNat.mp hc
    have hbyte := (isDigit_toUInt8 hc).1
    rw [hcons, encode_cons_ascii (by omega), List.cons_append] at hread ⊢
    rw [value_cons (isSpace_of_isDigit hbyte), valueAt_digit hbyte, hread]
    rfl

end Values

theorem encode_write_array (vs : List Json) :
    encode (array vs).write = '['.toUInt8 :: (encode (writeItems vs) ++ [']'.toUInt8]) := by
  rw [write, encode_append, encode_cons_ascii (by decide)]
  rfl

theorem encode_write_object (ms : List (String × Json)) :
    encode (object ms).write = '\x7b'.toUInt8 :: (encode (writeMembers ms) ++ ['\x7d'.toUInt8]) := by
  rw [write, encode_append, encode_cons_ascii (by decide)]
  rfl

/-- What the text of a value begins with is no white space and no closing bracket. -/
theorem exists_encode_write {v : Json} (h : v.IntegersOnly) :
    ∃ b bs, encode v.write = b :: bs ∧ isSpace b = false ∧ b ≠ ']'.toUInt8 := by
  cases v with
  | null => exact ⟨_, _, rfl, by decide, by decide⟩
  | boolean b => cases b <;> exact ⟨_, _, rfl, by decide, by decide⟩
  | number n =>
    cases n with
    | float _ _ => cases h
    | integer i fits =>
      show ∃ b bs, encode (Numeral.writeInt i) = b :: bs ∧ _
      rw [Numeral.writeInt]
      split
      · rw [List.singleton_append, encode_cons_ascii (by decide)]
        exact ⟨_, _, rfl, by decide, by decide⟩
      · have hdigits : ∀ c ∈ Nat.toDigits 10 i.natAbs, c.isDigit = true :=
          fun c hc => Nat.isDigit_of_mem_toDigits (by decide) (by decide) hc
        obtain ⟨c, ds, hcons⟩ := List.exists_cons_of_ne_nil (Nat.toDigits_ne_nil (b := 10) (n := i.natAbs))
        rw [hcons] at hdigits
        have hbyte := (isDigit_toUInt8 (hdigits c List.mem_cons_self)).1
        rw [List.nil_append, encode_digits (hcons ▸ hdigits), hcons]
        exact ⟨_, _, rfl, isSpace_of_isDigit hbyte, ne_of_isDigit hbyte (by decide)⟩
  | string s =>
    show ∃ b bs, encode (writeString s) = b :: bs ∧ _
    rw [writeString, List.cons_append, encode_cons_ascii (by decide)]
    exact ⟨_, _, rfl, by decide, by decide⟩
  | array vs =>
    rw [encode_write_array]
    exact ⟨_, _, rfl, by decide, by decide⟩
  | object ms =>
    rw [encode_write_object]
    exact ⟨_, _, rfl, by decide, by decide⟩

theorem exists_documents {vs : List Json} (h : AllNamesUnique vs) : ∃ ds : List Document, ds.map Subtype.val = vs :=
  ⟨vs.attachWith _ (allNamesUnique_iff.mp h), List.attachWith_map_subtype_val _⟩

theorem exists_values {ms : List (String × Json)} (h : MembersNamesUnique ms) :
    ∃ ds : List (String × Document), values ds = ms := by
  induction ms with
  | nil => exact ⟨[], rfl⟩
  | cons m ms ih =>
    obtain ⟨ds, hds⟩ := ih h.2
    exact ⟨(m.1, ⟨m.2, h.1⟩) :: ds, congrArg ((m.1, m.2) :: ·) hds⟩

/-- What is read alike by every reader of the level below is read so at any depth. -/
theorem readValue_of_forall {k : Nat} {bs : List UInt8} {r : Reading Document} (h : ∀ item, value limit item bs = r) :
    readValue limit k bs = r := by
  cases k with
  | zero => exact h none
  | succ k => exact h (some (readValue limit k))

/-- An array whose items are read back one level below. -/
theorem readValue_array {k : Nat} {ds : List Document} (hunique : (array (ds.map Subtype.val)).NamesUnique)
    (hds : ∀ d ∈ ds, ReadsBack (readValue limit k) d)
    (hlimit : (encode (writeItems (ds.map Subtype.val))).length < limit) (rest : List UInt8) :
    readValue limit (k + 1) (encode (array (ds.map Subtype.val)).write ++ rest) =
      .ok (⟨array (ds.map Subtype.val), hunique⟩, rest) := by
  rw [encode_write_array, List.cons_append, List.append_assoc, List.singleton_append]
  show (readItems (readValue limit k) limit [] _).map _ = _
  rw [readItems_write hds hlimit rest]
  rfl

/-- An object whose members are read back one level below. -/
theorem readValue_object {k : Nat} {ds : List (String × Document)} (hunique : (object (values ds)).NamesUnique)
    (hds : ∀ m ∈ ds, ReadsBack (readValue limit k) m.2)
    (hlimit : (encode (writeMembers (values ds))).length < limit) (rest : List UInt8) :
    readValue limit (k + 1) (encode (object (values ds)).write ++ rest) = .ok (⟨object (values ds), hunique⟩, rest) := by
  have hnodup : (ds.map Prod.fst).Nodup := by
    have hnames := hunique.1
    rwa [values, List.map_map] at hnames
  obtain ⟨members, hread, hmembers⟩ := readMembers_write hds hlimit hnodup rest
  have hdocument : members.toDocument = ⟨object (values ds), hunique⟩ := Subtype.ext (congrArg object hmembers)
  rw [encode_write_object, List.cons_append, List.append_assoc, List.singleton_append]
  show (readMembers (readValue limit k) limit true .empty _).map _ = _
  rw [hread]
  exact congrArg (fun d => Except.ok (d, rest)) hdocument

/-- **A value without fractions is read back from its text**, if it is no deeper than the reader goes. The
induction is on the value; each level hands the reader of the level below to the readers of items and
members. -/
theorem readsBack_readValue {v : Json} (hv : v.NamesUnique) (hints : v.IntegersOnly) {limit k : Nat}
    (hdepth : v.depth ≤ k) (hlimit : (encode v.write).length < limit) : ReadsBack (readValue limit k) ⟨v, hv⟩ := by
  refine ⟨exists_encode_write hints, fun rest hrest => ?_⟩
  -- the level varies, as items and members are one deeper than what holds them
  induction v using induct generalizing k rest with
  | null => exact readValue_of_forall fun _ => value_null rest
  | boolean b => exact readValue_of_forall fun _ => value_boolean b rest
  | number n =>
    cases n with
    | float _ _ => cases hints
    | integer i fits => exact readValue_of_forall fun _ => value_integer fits hrest
  | string s => exact readValue_of_forall fun _ => value_string s hlimit rest
  | array vs ih =>
    obtain ⟨ds, rfl⟩ := exists_documents hv
    obtain ⟨below, rfl⟩ : ∃ below, k = below + 1 := ⟨k - 1, by rw [depth] at hdepth; omega⟩
    rw [encode_write_array, List.length_cons, List.length_append] at hlimit
    have hbelow := depthItems_le_iff.mp (Nat.le_of_succ_le_succ hdepth)
    have hds : ∀ d ∈ ds, ReadsBack (readValue limit below) d := by
      intro d hd
      have hmem : d.val ∈ ds.map Subtype.val := List.mem_map_of_mem hd
      have hdints := allIntegersOnly_iff.mp hints d.val hmem
      have hlength := length_le_writeItems hmem
      exact ⟨exists_encode_write hdints, ih d.val hmem d.property hdints (hbelow d.val hmem) (by omega)⟩
    exact readValue_array hv hds (by omega) rest
  | object ms ih =>
    obtain ⟨ds, rfl⟩ := exists_values hv.2
    obtain ⟨below, rfl⟩ : ∃ below, k = below + 1 := ⟨k - 1, by rw [depth] at hdepth; omega⟩
    rw [encode_write_object, List.length_cons, List.length_append] at hlimit
    have hbelow := depthMembers_le_iff.mp (Nat.le_of_succ_le_succ hdepth)
    have hds : ∀ m ∈ ds, ReadsBack (readValue limit below) m.2 := by
      intro m hm
      have hmem : (m.1, m.2.val) ∈ values ds := List.mem_map_of_mem hm
      have hmints := membersIntegersOnly_iff.mp hints _ hmem
      have hlength := length_le_writeMembers hmem
      rw [encode_writeMember] at hlength
      simp only [List.length_cons, List.length_append] at hlength
      have hshort : (encode m.2.val.write).length < limit := by omega
      exact ⟨exists_encode_write hmints, ih _ hmem m.2.property hmints (hbelow _ hmem) hshort⟩
    have hmembers : (encode (writeMembers (values ds))).length < limit := by omega
    exact readValue_object hv hds hmembers rest

/-- A document without fractions is what its text is read as. -/
theorem read_encode_write {d : Document} (hints : d.val.IntegersOnly) (hdepth : d.val.depth ≤ maxDepth) :
    read (encode d.val.write) = .ok d := by
  have hread := (readsBack_readValue d.property hints hdepth (Nat.lt_succ_self _)).reads [] follows_nil
  rw [List.append_nil] at hread
  rw [read, hread]
  rfl

end RequestGuard.Json
