import Mathlib.Tactic.IntervalCases
import RequestGuard.Json.Token
import RequestGuard.Json.Written
import RequestGuard.Proofs.Text.Utf8

/-!
# Strings and integers that are read back

A string is read back from its text character by character: an escape stands for the character it was
written for, and any other character is its bytes, none of which ends the string or begins an escape
(`readString_write`). An integer is read back from its digits, which an unsigned word holds, when what
follows them is what may follow a value (`readNumber_writeInt`).
-/

namespace RequestGuard.Json

open Text.Utf8 (encode encode_cons encode_append decode?_encode)

/-! ## ASCII -/

theorem toNat_toUInt8 {c : Char} (h : c.toNat ≤ 0x7f) : c.toUInt8.toNat = c.toNat :=
  Text.Utf8.toNat_byte (Nat.lt_of_le_of_lt h (by decide))

theorem encode_cons_ascii {c : Char} (h : c.toNat ≤ 0x7f) (cs : List Char) :
    encode (c :: cs) = c.toUInt8 :: encode cs := by
  have hbyte : String.utf8EncodeChar c = [c.toUInt8] := if_pos h
  rw [encode_cons, hbyte, List.singleton_append]

theorem encode_ascii {cs : List Char} (h : ∀ c ∈ cs, c.toNat ≤ 0x7f) : encode cs = cs.map Char.toUInt8 := by
  induction cs with
  | nil => rfl
  | cons c cs ih =>
    obtain ⟨hc, hcs⟩ := List.forall_mem_cons.mp h
    rw [encode_cons_ascii hc, ih hcs, List.map_cons]

/-! ## Strings -/

/-- Whether a string has an escape for the character. -/
def IsEscaped (c : Char) : Prop :=
  c.toNat < 0x20 ∨ c = '"' ∨ c = '\\'

theorem writeChar_of_not_escaped {c : Char} (h : ¬IsEscaped c) : writeChar c = [c] := by
  have hplain : ¬c.toNat < 0x20 := fun hlt => h (.inl hlt)
  have hne {d : Char} (hd : IsEscaped d) : c ≠ d := fun heq => h (heq ▸ hd)
  have hval : ¬c.val < 0x20 := hplain
  rw [writeChar, if_neg (hne (.inr (.inl rfl))), if_neg (hne (.inr (.inr rfl))), if_neg (hne (.inl (by decide))),
    if_neg (hne (.inl (by decide))), if_neg (hne (.inl (by decide))), if_neg (hne (.inl (by decide))),
    if_neg (hne (.inl (by decide))), if_neg hval]

/-- An escape stands for the character that it is written for. -/
theorem escape_writeChar {c : Char} (h : IsEscaped c) :
    ∃ es, encode (writeChar c) = '\\'.toUInt8 :: es ∧ ∀ tail, escape (es ++ tail) = .ok (c, tail) := by
  have hcontrol (n : Nat) (hn : n < 0x20) : ∃ es, encode (writeChar (Char.ofNat n)) = '\\'.toUInt8 :: es ∧
      ∀ tail, escape (es ++ tail) = .ok (Char.ofNat n, tail) := by
    interval_cases n <;> exact ⟨_, rfl, fun _ => rfl⟩
  rcases h with hlt | rfl | rfl
  · have hself : Char.ofNat c.toNat = c := Char.ofNat_toNat c
    exact hself ▸ hcontrol c.toNat hlt
  · exact ⟨_, rfl, fun _ => rfl⟩
  · exact ⟨_, rfl, fun _ => rfl⟩

/-- Bytes that neither end the string nor begin an escape are kept. -/
theorem stringFrom_plain {bs : List UInt8}
    (h : ∀ b ∈ bs, b ≠ '"'.toUInt8 ∧ b ≠ '\\'.toUInt8 ∧ ¬b < 0x20) (limit : Nat) (held tail : List UInt8) :
    stringFrom (limit + bs.length) held (bs ++ tail) = stringFrom limit (bs.reverse ++ held) tail := by
  induction bs generalizing held with
  | nil => rfl
  | cons b bs ih =>
    obtain ⟨⟨hquote, hescape, hcontrol⟩, hbs⟩ := List.forall_mem_cons.mp h
    have hstep : stringFrom (limit + bs.length + 1) held (b :: (bs ++ tail)) =
        stringFrom (limit + bs.length) (b :: held) (bs ++ tail) := by
      rw [stringFrom, if_neg hquote, if_neg hescape, if_neg hcontrol]
    rw [List.length_cons, ← Nat.add_assoc, List.cons_append, hstep, ih hbs, List.reverse_cons, List.append_assoc,
      List.singleton_append]

/-- One character, in as many steps as its text has bytes or fewer. -/
theorem stringFrom_writeChar (c : Char) {limit : Nat} (h : (encode (writeChar c)).length ≤ limit)
    (held tail : List UInt8) : ∃ left, limit ≤ left + (encode (writeChar c)).length ∧
      stringFrom limit held (encode (writeChar c) ++ tail) =
        stringFrom left ((String.utf8EncodeChar c).reverse ++ held) tail := by
  by_cases hescaped : IsEscaped c
  · obtain ⟨es, hbytes, hread⟩ := escape_writeChar hescaped
    rw [hbytes, List.length_cons] at h ⊢
    obtain ⟨left, rfl⟩ : ∃ left, limit = left + 1 := ⟨limit - 1, by omega⟩
    refine ⟨left, by omega, ?_⟩
    have hquote : ¬ '\\'.toUInt8 = '"'.toUInt8 := by decide
    rw [List.cons_append, stringFrom, if_neg hquote, if_pos rfl, hread]
  · have hbytes : encode (writeChar c) = String.utf8EncodeChar c := by
      rw [writeChar_of_not_escaped hescaped, encode_cons]
      exact List.append_nil _
    rw [hbytes] at h ⊢
    obtain ⟨left, rfl⟩ : ∃ left, limit = left + (String.utf8EncodeChar c).length := ⟨_, (Nat.sub_add_cancel h).symm⟩
    refine ⟨left, Nat.le_refl _, stringFrom_plain (fun b hb => ?_) left held tail⟩
    -- a byte below `0x80` is the character itself, which has no escape
    have hval := Text.Utf8.toNat_of_mem_utf8EncodeChar hb
    have hne {d : Char} (hd : IsEscaped d) (hascii : d.toNat ≤ 0x7f) : b ≠ d.toUInt8 := by
      rintro rfl
      rw [toNat_toUInt8 hascii] at hval
      rcases hval with heq | hlarge
      · exact hescaped (Char.toNat_inj.mp heq ▸ hd)
      · omega
    refine ⟨hne (.inr (.inl rfl)) (by decide), hne (.inr (.inr rfl)) (by decide), fun hlt => ?_⟩
    have hsmall : b.toNat < 0x20 := UInt8.lt_iff_toNat_lt.mp hlt
    rcases hval with heq | hlarge
    · exact hescaped (.inl (heq ▸ hsmall))
    · omega

theorem stringFrom_write (pre cs : List Char) {limit : Nat}
    (h : (encode (cs.flatMap writeChar)).length < limit) (rest : List UInt8) :
    stringFrom limit (encode pre).reverse (encode (cs.flatMap writeChar) ++ '"'.toUInt8 :: rest) =
      .ok (String.ofList (pre ++ cs), rest) := by
  induction cs generalizing pre limit with
  | nil =>
    obtain ⟨left, rfl⟩ : ∃ left, limit = left + 1 := ⟨limit - 1, (Nat.succ_pred_eq_of_pos (Nat.zero_lt_of_lt h)).symm⟩
    show stringFrom (left + 1) (encode pre).reverse ('"'.toUInt8 :: rest) = _
    rw [stringFrom, if_pos rfl, List.reverse_reverse, decode?_encode, List.append_nil]
  | cons c cs ih =>
    rw [List.flatMap_cons, encode_append, List.length_append] at h
    have hchar : (encode (writeChar c)).length ≤ limit := by omega
    obtain ⟨left, hleft, hstep⟩ := stringFrom_writeChar c hchar (encode pre).reverse
      (encode (cs.flatMap writeChar) ++ '"'.toUInt8 :: rest)
    have hheld : (String.utf8EncodeChar c).reverse ++ (encode pre).reverse = (encode (pre ++ [c])).reverse := by
      rw [encode_append, encode_cons, List.reverse_append]
      exact congrArg (·.reverse ++ _) (List.append_nil _).symm
    rw [List.flatMap_cons, encode_append, List.append_assoc, hstep, hheld, ih _ (by omega), List.append_assoc,
      List.singleton_append]

/-- **A string is read back from its text.** -/
theorem readString_write (s : String) {limit : Nat} (h : (encode (s.toList.flatMap writeChar)).length < limit)
    (rest : List UInt8) :
    readString limit (encode (s.toList.flatMap writeChar) ++ '"'.toUInt8 :: rest) = .ok (s, rest) := by
  have hread := stringFrom_write [] s.toList h rest
  rwa [List.nil_append, String.ofList_toList] at hread

/-! ## Digits -/

/-- What may follow a value: nothing, a comma or a closing bracket. -/
def Follows (rest : List UInt8) : Prop :=
  ∀ b bs, rest = b :: bs → b = ','.toUInt8 ∨ b = ']'.toUInt8 ∨ b = '\x7d'.toUInt8

theorem follows_nil : Follows [] := nofun

theorem follows_cons {b : UInt8} (h : b = ','.toUInt8 ∨ b = ']'.toUInt8 ∨ b = '\x7d'.toUInt8) (rest : List UInt8) :
    Follows (b :: rest) := by
  rintro _ _ ⟨⟩
  exact h

/-- No digit, point or exponent follows a value. -/
theorem Follows.ends_number {b : UInt8} {rest : List UInt8} (h : Follows (b :: rest)) :
    isDigit b = false ∧ b ≠ '.'.toUInt8 ∧ ¬(b = 'e'.toUInt8 ∨ b = 'E'.toUInt8) := by
  rcases h b rest rfl with rfl | rfl | rfl <;> decide

/-- The byte of a digit is a digit of that value. -/
theorem isDigit_toUInt8 {c : Char} (h : c.isDigit = true) :
    isDigit c.toUInt8 = true ∧ c.toUInt8.toNat - 0x30 = c.toNat - '0'.toNat := by
  have hrange : 48 ≤ c.toNat ∧ c.toNat ≤ 57 := Char.isDigit_iff_toNat.mp h
  have hbyte : c.toUInt8.toNat = c.toNat := toNat_toUInt8 (by omega)
  constructor
  · rw [isDigit, Bool.and_eq_true, decide_eq_true_eq, decide_eq_true_eq, UInt8.le_iff_toNat_le, UInt8.le_iff_toNat_le,
      hbyte]
    exact hrange
  · rw [hbyte]
    rfl

theorem encode_digits {ds : List Char} (h : ∀ c ∈ ds, c.isDigit = true) : encode ds = ds.map Char.toUInt8 := by
  apply encode_ascii
  intro c hc
  have hrange : 48 ≤ c.toNat ∧ c.toNat ≤ 57 := Char.isDigit_iff_toNat.mp (h c hc)
  omega

/-- A run of digits ends where a value does. -/
theorem takeWhile_digits {ds : List Char} (h : ∀ c ∈ ds, c.isDigit = true) {rest : List UInt8} (hrest : Follows rest) :
    (ds.map Char.toUInt8 ++ rest).takeWhile isDigit = ds.map Char.toUInt8 ∧
      (ds.map Char.toUInt8 ++ rest).dropWhile isDigit = rest := by
  have hdigits : ∀ b ∈ ds.map Char.toUInt8, isDigit b = true := by
    intro b hb
    obtain ⟨c, hc, rfl⟩ := List.mem_map.mp hb
    exact (isDigit_toUInt8 (h c hc)).1
  rw [List.takeWhile_append_of_pos hdigits, List.dropWhile_append_of_pos hdigits]
  cases rest with
  | nil => exact ⟨List.append_nil _, rfl⟩
  | cons b rest =>
    have hend : ¬isDigit b = true := by
      rw [hrest.ends_number.1]
      exact Bool.false_ne_true
    rw [List.takeWhile_cons_of_neg hend, List.dropWhile_cons_of_neg hend, List.append_nil]
    exact ⟨rfl, rfl⟩

theorem le_ofDigitChars (ds : List Char) (init : Nat) : init ≤ Nat.ofDigitChars 10 ds init := by
  induction ds generalizing init with
  | nil => exact Nat.le_refl init
  | cons c ds ih =>
    rw [Nat.ofDigitChars_cons]
    refine Nat.le_trans ?_ (ih _)
    omega

/-- Digits that a word holds are all leading ones. -/
theorem foldl_addWhole {ds : List Char} (h : ∀ c ∈ ds, c.isDigit = true) {leading : Nat}
    (hfits : Nat.ofDigitChars 10 ds leading < UInt64.size) :
    (ds.map Char.toUInt8).foldl Digits.addWhole ⟨leading, 0, false⟩ = ⟨Nat.ofDigitChars 10 ds leading, 0, false⟩ := by
  induction ds generalizing leading with
  | nil => rfl
  | cons c ds ih =>
    obtain ⟨hc, hds⟩ := List.forall_mem_cons.mp h
    rw [Nat.ofDigitChars_cons] at hfits ⊢
    have hdigit := (isDigit_toUInt8 hc).2
    have hnext : leading * 10 + (c.toUInt8.toNat - 0x30) = 10 * leading + (c.toNat - '0'.toNat) := by
      rw [hdigit, Nat.mul_comm]
    have hholds : wordHolds leading c.toUInt8 = true := by
      rw [wordHolds, decide_eq_true_eq, hnext]
      exact Nat.lt_of_le_of_lt (le_ofDigitChars ds _) hfits
    have hstep : Digits.addWhole ⟨leading, 0, false⟩ c.toUInt8 = ⟨10 * leading + (c.toNat - '0'.toNat), 0, false⟩ := by
      rw [Digits.addWhole, hholds, ← hnext]
      rfl
    rw [List.map_cons, List.foldl_cons, hstep, ih hds hfits]

/-- The digits of a positive number do not begin with a zero. -/
theorem exists_toDigits_eq_cons {n : Nat} (h : 0 < n) : ∃ c ds, Nat.toDigits 10 n = c :: ds ∧ c ≠ '0' := by
  induction n using Nat.strongRecOn with
  | ind n ih =>
    rcases Nat.lt_or_ge n 10 with hlt | hge
    · refine ⟨n.digitChar, [], Nat.toDigits_of_lt_base hlt, ?_⟩
      interval_cases n <;> decide
    · obtain ⟨c, ds, hcons, hne⟩ := ih (n / 10) (by omega) (by omega)
      refine ⟨c, ds ++ [(n % 10).digitChar], ?_, hne⟩
      rw [Nat.toDigits_of_base_le (by decide) hge, hcons, List.cons_append]

/-! ## Integers -/

theorem afterWhole_of_follows (negative : Bool) (d : Digits) {rest : List UInt8} (h : Follows rest) :
    afterWhole negative d rest = inRange (d.plain? negative) rest := by
  cases rest with
  | nil => rfl
  | cons b rest =>
    obtain ⟨-, hpoint, hexponent⟩ := h.ends_number
    rw [afterWhole, if_neg hpoint, if_neg hexponent]

/-- The digits of a number that an unsigned word holds. -/
theorem readNumber_toDigits (negative : Bool) {n : Nat} (hn : n < UInt64.size) {rest : List UInt8}
    (h : Follows rest) :
    readNumber negative (encode (Nat.toDigits 10 n) ++ rest) =
      inRange (Digits.plain? negative ⟨n, 0, false⟩) rest := by
  have hdigits : ∀ c ∈ Nat.toDigits 10 n, c.isDigit = true :=
    fun c hc => Nat.isDigit_of_mem_toDigits (by decide) (by decide) hc
  have hvalue : Nat.ofDigitChars 10 (Nat.toDigits 10 n) 0 = n := Nat.ofDigitChars_ten_toDigits
  rw [encode_digits hdigits]
  -- a zero is read by itself, and digits that are more than that do not begin with one
  rcases Nat.eq_zero_or_pos n with rfl | hpos
  · show readNumber negative ('0'.toUInt8 :: rest) = _
    rw [← afterWhole_of_follows negative _ h]
    cases rest with
    | nil => rfl
    | cons b rest =>
      show (if isDigit b = true then Stop.atNext .invalidNumber (b :: rest)
        else afterWhole negative ⟨0, 0, false⟩ (b :: rest)) = _
      rw [h.ends_number.1]
      rfl
  · obtain ⟨c, ds, hcons, hzero⟩ := exists_toDigits_eq_cons hpos
    rw [hcons] at hdigits hvalue
    obtain ⟨hc, hds⟩ := List.forall_mem_cons.mp hdigits
    have hbyte := (isDigit_toUInt8 hc).1
    have hfirst : c.toUInt8 ≠ '0'.toUInt8 := by
      intro heq
      have hrange : 48 ≤ c.toNat ∧ c.toNat ≤ 57 := Char.isDigit_iff_toNat.mp hc
      apply hzero
      rw [← Char.toNat_inj, ← toNat_toUInt8 (c := c) (by omega), heq]
      rfl
    have hfold : (c.toUInt8 :: ds.map Char.toUInt8).foldl Digits.addWhole ⟨0, 0, false⟩ = ⟨n, 0, false⟩ := by
      rw [← List.map_cons, foldl_addWhole hdigits (by rw [hvalue]; exact hn), hvalue]
    obtain ⟨htake, hdrop⟩ := takeWhile_digits hds h
    rw [hcons, List.map_cons, List.cons_append]
    simp only [readNumber, if_neg hfirst, if_pos hbyte]
    rw [htake, hdrop, hfold, afterWhole_of_follows negative _ h]

/-- The number that the digits of an integer make with its sign. -/
theorem plain?_natAbs {i : Int} (fits : -0x8000000000000000 ≤ i ∧ i < 0x10000000000000000) :
    Digits.plain? (i < 0) ⟨i.natAbs, 0, false⟩ = some (.integer i fits) := by
  have hfits : Number.ofInt? i = some (.integer i fits) := dif_pos fits
  by_cases hneg : i < 0
  · have hword : ¬(i.natAbs = 0 ∨ 0x8000000000000000 < i.natAbs) := by omega
    have hback : -(i.natAbs : Int) = i := by omega
    simp only [Digits.plain?, decide_eq_true hneg, Bool.false_eq_true, if_false, if_true, if_neg hword, hback, hfits]
  · have hback : (i.natAbs : Int) = i := by omega
    simp only [Digits.plain?, decide_eq_false hneg, Bool.false_eq_true, if_false, hback, hfits]

/-- **An integer is read back from its text**, from behind its minus sign or from its first digit. -/
theorem readNumber_writeInt {i : Int} (fits : -0x8000000000000000 ≤ i ∧ i < 0x10000000000000000)
    {rest : List UInt8} (h : Follows rest) :
    readNumber (i < 0) (encode (Nat.toDigits 10 i.natAbs) ++ rest) = .ok (.integer i fits, rest) := by
  have hword : i.natAbs < UInt64.size := by
    have hsize : UInt64.size = 0x10000000000000000 := rfl
    omega
  rw [readNumber_toDigits _ hword h, plain?_natAbs fits]
  rfl

end RequestGuard.Json
