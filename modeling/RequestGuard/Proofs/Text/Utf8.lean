import Mathlib.Tactic.IntervalCases
import RequestGuard.Text.Utf8

/-!
# UTF-8 there and back

Decoding undoes encoding (`decode?_encode`): the bytes of each character take the reader from between
two characters to behind that character (`foldl_next_utf8EncodeChar`), by one, two, three or four
bytes. The second byte is the one whose range depends on the lead byte.
-/

namespace RequestGuard.Text.Utf8

variable {read : List (Option Char)}

/-! ## Bytes -/

theorem toNat_byte {n : Nat} (h : n < 256) : (UInt8.ofNat n).toNat = n :=
  UInt8.toNat_ofNat_of_lt' h

theorem le_byte_iff {a : UInt8} {n : Nat} (h : n < 256) : a ≤ UInt8.ofNat n ↔ a.toNat ≤ n := by
  rw [UInt8.le_iff_toNat_le, toNat_byte h]

theorem byte_le_iff {a : UInt8} {n : Nat} (h : n < 256) : UInt8.ofNat n ≤ a ↔ n ≤ a.toNat := by
  rw [UInt8.le_iff_toNat_le, toNat_byte h]

theorem encode_append (cs ds : List Char) : encode (cs ++ ds) = encode cs ++ encode ds :=
  List.flatMap_append

theorem encode_cons (c : Char) (cs : List Char) : encode (c :: cs) = String.utf8EncodeChar c ++ encode cs :=
  List.flatMap_cons

/-- The bytes of a character, by its size. -/
theorem utf8EncodeChar_cases (c : Char) :
    c.toNat ≤ 0x7f ∧ String.utf8EncodeChar c = [UInt8.ofNat c.toNat] ∨
      (0x80 ≤ c.toNat ∧ c.toNat ≤ 0x7ff) ∧
        String.utf8EncodeChar c = [UInt8.ofNat (c.toNat / 64 % 32 + 192), UInt8.ofNat (c.toNat % 64 + 128)] ∨
      (0x800 ≤ c.toNat ∧ c.toNat ≤ 0xffff) ∧
        String.utf8EncodeChar c = [UInt8.ofNat (c.toNat / 4096 % 16 + 224), UInt8.ofNat (c.toNat / 64 % 64 + 128),
          UInt8.ofNat (c.toNat % 64 + 128)] ∨
      0x10000 ≤ c.toNat ∧
        String.utf8EncodeChar c = [UInt8.ofNat (c.toNat / 262144 % 8 + 240), UInt8.ofNat (c.toNat / 4096 % 64 + 128),
          UInt8.ofNat (c.toNat / 64 % 64 + 128), UInt8.ofNat (c.toNat % 64 + 128)] := by
  rcases Nat.lt_or_ge 0x7f c.toNat with h1 | h1
  · rcases Nat.lt_or_ge 0x7ff c.toNat with h2 | h2
    · rcases Nat.lt_or_ge 0xffff c.toNat with h3 | h3
      · refine .inr (.inr (.inr ⟨h3, ?_⟩))
        exact (if_neg (Nat.not_le.mpr h1)).trans ((if_neg (Nat.not_le.mpr h2)).trans (if_neg (Nat.not_le.mpr h3)))
      · refine .inr (.inr (.inl ⟨⟨h2, h3⟩, ?_⟩))
        exact (if_neg (Nat.not_le.mpr h1)).trans ((if_neg (Nat.not_le.mpr h2)).trans (if_pos h3))
    · exact .inr (.inl ⟨⟨h1, h2⟩, (if_neg (Nat.not_le.mpr h1)).trans (if_pos h2)⟩)
  · exact .inl ⟨h1, if_pos h1⟩

/-- A character of one byte is that byte; no byte of a longer one is below `0x80`. -/
theorem toNat_of_mem_utf8EncodeChar {c : Char} {b : UInt8} (h : b ∈ String.utf8EncodeChar c) :
    b.toNat = c.toNat ∨ 0x80 ≤ b.toNat := by
  rcases utf8EncodeChar_cases c with ⟨hc, hbytes⟩ | ⟨-, hbytes⟩ | ⟨-, hbytes⟩ | ⟨-, hbytes⟩
  · left
    rw [hbytes, List.mem_singleton] at h
    rw [h, toNat_byte (by omega)]
  all_goals
    right
    simp only [hbytes, List.mem_cons, List.not_mem_nil, or_false] at h
  · rcases h with rfl | rfl <;> rw [toNat_byte (by omega)] <;> omega
  · rcases h with rfl | rfl | rfl <;> rw [toNat_byte (by omega)] <;> omega
  · rcases h with rfl | rfl | rfl | rfl <;> rw [toNat_byte (by omega)] <;> omega

/-! ## Lead bytes -/

theorem ofLead?_two {n : Nat} (hlow : 2 ≤ n) (hhigh : n < 32) :
    Pending.ofLead? (UInt8.ofNat (n + 192)) = some ⟨1, 0x80, 0xBF, n⟩ := by
  interval_cases n <;> rfl

/-- The lead of three bytes narrows the second one where an overlong form or a surrogate would begin. -/
theorem ofLead?_three {n : Nat} (h : n < 16) :
    Pending.ofLead? (UInt8.ofNat (n + 224)) =
      some ⟨2, if n = 0 then 0xA0 else 0x80, if n = 13 then 0x9F else 0xBF, n⟩ := by
  interval_cases n <;> rfl

/-- The lead of four bytes narrows the second one where an overlong form or what is beyond the last
character would begin. -/
theorem ofLead?_four {n : Nat} (h : n < 5) :
    Pending.ofLead? (UInt8.ofNat (n + 240)) =
      some ⟨3, if n = 0 then 0x90 else 0x80, if n = 4 then 0x8F else 0xBF, n⟩ := by
  interval_cases n <;> rfl

/-- A byte from `0x80` on begins what its lead says. -/
theorem next_lead {n : Nat} {p : Pending} (hlow : 0x80 ≤ n) (hhigh : n < 256)
    (h : Pending.ofLead? (UInt8.ofNat n) = some p) :
    Place.next ⟨none, read⟩ (UInt8.ofNat n) = ⟨some p, read⟩ := by
  have hplain : ¬UInt8.ofNat n < 0x80 := by
    rw [UInt8.lt_iff_toNat_lt, toNat_byte hhigh]
    exact Nat.not_lt.mpr hlow
  show Place.lead read (UInt8.ofNat n) = _
  rw [Place.lead, if_neg hplain, h]

/-! ## Continuation bytes -/

section Continuation

variable {need bits n : Nat} {low high : UInt8}

/-- The byte that is awaited brings six more bits. -/
theorem next_within (hn : n < 64) (hlow : low.toNat ≤ n + 128) (hhigh : n + 128 ≤ high.toNat) :
    Place.next ⟨some ⟨need, low, high, bits⟩, read⟩ (UInt8.ofNat (n + 128)) =
      if need ≤ 1 then ⟨none, some (Char.ofNat (bits * 64 + n)) :: read⟩
      else ⟨some ⟨need - 1, 0x80, 0xBF, bits * 64 + n⟩, read⟩ := by
  have hwithin : (decide (low ≤ UInt8.ofNat (n + 128)) && decide (UInt8.ofNat (n + 128) ≤ high)) = true := by
    rw [Bool.and_eq_true, decide_eq_true_eq, decide_eq_true_eq, le_byte_iff (by omega), byte_le_iff (by omega)]
    exact ⟨hlow, hhigh⟩
  have hbits : (UInt8.ofNat (n + 128)).toNat % 64 = n := by
    rw [toNat_byte (by omega)]
    omega
  simp only [Place.next, hwithin, if_true, hbits]

theorem next_middle (hn : n < 64) (hlow : low.toNat ≤ n + 128) (hhigh : n + 128 ≤ high.toNat) :
    Place.next ⟨some ⟨need + 2, low, high, bits⟩, read⟩ (UInt8.ofNat (n + 128)) =
      ⟨some ⟨need + 1, 0x80, 0xBF, bits * 64 + n⟩, read⟩ :=
  (next_within hn hlow hhigh).trans (if_neg (by omega))

theorem next_last (hn : n < 64) :
    Place.next ⟨some ⟨1, 0x80, 0xBF, bits⟩, read⟩ (UInt8.ofNat (n + 128)) =
      ⟨none, some (Char.ofNat (bits * 64 + n)) :: read⟩ := by
  have hlow : (0x80 : UInt8).toNat ≤ n + 128 := show 128 ≤ n + 128 by omega
  have hhigh : n + 128 ≤ (0xBF : UInt8).toNat := show n + 128 ≤ 191 by omega
  exact (next_within hn hlow hhigh).trans (if_pos (Nat.le_refl 1))

end Continuation

/-! ## Characters and texts -/

section Characters

variable {n : Nat}

theorem next_one (h : n ≤ 0x7f) : Place.next ⟨none, read⟩ (UInt8.ofNat n) = ⟨none, some (Char.ofNat n) :: read⟩ := by
  have hplain : UInt8.ofNat n < 0x80 := by
    rw [UInt8.lt_iff_toNat_lt, toNat_byte (by omega)]
    exact Nat.lt_succ_of_le h
  show Place.lead read (UInt8.ofNat n) = _
  rw [Place.lead, if_pos hplain, toNat_byte (by omega)]

theorem foldl_next_two (hlow : 0x80 ≤ n) (hhigh : n ≤ 0x7ff) :
    [UInt8.ofNat (n / 64 % 32 + 192), UInt8.ofNat (n % 64 + 128)].foldl Place.next ⟨none, read⟩ =
      ⟨none, some (Char.ofNat n) :: read⟩ := by
  have hbits : n / 64 % 32 * 64 + n % 64 = n := by omega
  rw [List.foldl_cons, next_lead (by omega) (by omega) (ofLead?_two (by omega) (by omega)), List.foldl_cons,
    next_last (by omega), hbits, List.foldl_nil]

/-- The second byte is in the range that its lead leaves: no shorter form would do and the character is
no surrogate. -/
theorem foldl_next_three (hlow : 0x800 ≤ n) (hhigh : n ≤ 0xffff) (hvalid : n < 0xD800 ∨ 0xDFFF < n) :
    [UInt8.ofNat (n / 4096 % 16 + 224), UInt8.ofNat (n / 64 % 64 + 128), UInt8.ofNat (n % 64 + 128)].foldl Place.next
      ⟨none, read⟩ = ⟨none, some (Char.ofNat n) :: read⟩ := by
  have hlead : n / 4096 % 16 = n / 4096 := by omega
  have hleast : (if n / 4096 = 0 then (0xA0 : UInt8) else 0x80).toNat ≤ n / 64 % 64 + 128 := by
    split
    · show 160 ≤ _
      omega
    · show 128 ≤ _
      omega
  have hmost : n / 64 % 64 + 128 ≤ (if n / 4096 = 13 then (0x9F : UInt8) else 0xBF).toNat := by
    split
    · show _ ≤ 159
      omega
    · show _ ≤ 191
      omega
  have hbits : (n / 4096 * 64 + n / 64 % 64) * 64 + n % 64 = n := by omega
  rw [hlead, List.foldl_cons, next_lead (by omega) (by omega) (ofLead?_three (by omega)), List.foldl_cons,
    next_middle (by omega) hleast hmost, List.foldl_cons, next_last (by omega), hbits, List.foldl_nil]

/-- The second byte is in the range that its lead leaves: no shorter form would do and the character is
not beyond the last. -/
theorem foldl_next_four (hlow : 0x10000 ≤ n) (hhigh : n < 0x110000) :
    [UInt8.ofNat (n / 262144 % 8 + 240), UInt8.ofNat (n / 4096 % 64 + 128), UInt8.ofNat (n / 64 % 64 + 128),
      UInt8.ofNat (n % 64 + 128)].foldl Place.next ⟨none, read⟩ = ⟨none, some (Char.ofNat n) :: read⟩ := by
  have hlead : n / 262144 % 8 = n / 262144 := by omega
  have hleast : (if n / 262144 = 0 then (0x90 : UInt8) else 0x80).toNat ≤ n / 4096 % 64 + 128 := by
    split
    · show 144 ≤ _
      omega
    · show 128 ≤ _
      omega
  have hmost : n / 4096 % 64 + 128 ≤ (if n / 262144 = 4 then (0x8F : UInt8) else 0xBF).toNat := by
    split
    · show _ ≤ 143
      omega
    · show _ ≤ 191
      omega
  have hthird : 128 ≤ n / 64 % 64 + 128 ∧ n / 64 % 64 + 128 ≤ 191 := by omega
  have hbits : ((n / 262144 * 64 + n / 4096 % 64) * 64 + n / 64 % 64) * 64 + n % 64 = n := by omega
  rw [hlead, List.foldl_cons, next_lead (by omega) (by omega) (ofLead?_four (by omega)), List.foldl_cons,
    next_middle (by omega) hleast hmost, List.foldl_cons, next_middle (by omega) hthird.1 hthird.2, List.foldl_cons,
    next_last (by omega), hbits, List.foldl_nil]

end Characters

/-- The bytes of a character are read as that character. -/
theorem foldl_next_utf8EncodeChar (c : Char) :
    (String.utf8EncodeChar c).foldl Place.next ⟨none, read⟩ = ⟨none, some c :: read⟩ := by
  have hvalid : c.toNat < 0xD800 ∨ 0xDFFF < c.toNat ∧ c.toNat < 0x110000 := c.valid
  have hself : Char.ofNat c.toNat = c := Char.ofNat_toNat c
  rcases utf8EncodeChar_cases c with ⟨hc, hbytes⟩ | ⟨⟨hlow, hhigh⟩, hbytes⟩ | ⟨⟨hlow, hhigh⟩, hbytes⟩ | ⟨hlow, hbytes⟩
  · rw [hbytes, List.foldl_cons, next_one hc, hself, List.foldl_nil]
  · rw [hbytes, foldl_next_two hlow hhigh, hself]
  · rw [hbytes, foldl_next_three hlow hhigh (by omega), hself]
  · rw [hbytes, foldl_next_four hlow (by omega), hself]

theorem foldl_next_encode (cs : List Char) :
    (encode cs).foldl Place.next ⟨none, read⟩ = ⟨none, (cs.map some).reverse ++ read⟩ := by
  induction cs generalizing read with
  | nil => rfl
  | cons c cs ih =>
    rw [encode_cons, List.foldl_append, foldl_next_utf8EncodeChar, ih, List.map_cons, List.reverse_cons,
      List.append_assoc]
    rfl

/-- **Decoding undoes encoding.** -/
theorem decode?_encode (cs : List Char) : decode? (encode cs) = some cs := by
  have hsymbols : symbols (encode cs) = cs.map some := by
    rw [symbols, foldl_next_encode, List.append_nil]
    exact List.reverse_reverse _
  rw [decode?, hsymbols, List.mapM_map]
  exact (List.mapM_pure (m := Option) (f := id)).trans (congrArg some (List.map_id cs))

end RequestGuard.Text.Utf8
