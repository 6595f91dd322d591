import RequestGuard.Proofs.Calendar.Parts
import RequestGuard.Proofs.Calendar.Reading
import RequestGuard.Request.FieldValue

/-!
# Leap seconds that are read

Whatever a text spells, the instant it denotes is one of UTC: a leap second, if it is one, follows
the last second of a minute. The readers take nothing but fractions below a second and offsets of
whole minutes (`IsRegular`), so only a spelled second 60 can give a leap second, and no offset moves
it away from the end of its minute.
-/

namespace RequestGuard

/-- The instant of a count of seconds keeps the second of the minute and the fraction. -/
theorem Instant.of_ofEpochSecond? {second : Int} {nano : Nat} {hnano : nano < 2000000000} {i : Instant}
    (h : ofEpochSecond? second nano hnano = some i) : (i.second : Int) = second % 86400 ∧ i.nano = nano := by
  rw [ofEpochSecond?] at h
  split at h
  · cases h
    exact ⟨by simp only; omega, rfl⟩
  · simp at h

namespace Calendar

/-- The fraction is below a second and the offset one of whole minutes. -/
def Parts.IsRegular (p : Parts) : Prop :=
  p.nano < 1000000000 ∧ p.offset % 60 = 0

/-- Regular parts name an instant of UTC. -/
theorem Parts.IsRegular.isUtc {p : Parts} {i : Instant} (hp : p.IsRegular) (h : p.instant? = some i) : i.IsUtc := by
  obtain ⟨hnano, hoffset⟩ := hp
  intro hleap
  simp only [instant?] at h
  split at h
  · rename_i hsixty
    split at h
    · split at h
      · have hsecond := (Instant.of_ofEpochSecond? h).1
        omega
      · simp at h
    · simp at h
  · split at h
    · split at h
      · -- any other second has the fraction that was read
        have hwhole := (Instant.of_ofEpochSecond? h).2
        exact absurd (hwhole ▸ hleap) (Nat.not_le.mpr hnano)
      · simp at h
    · simp at h

/-! ## Fractions and offsets -/

theorem ofDigitChars_lt {ds : List Char} (hds : ∀ c ∈ ds, c.isDigit = true) (init : Nat) :
    Nat.ofDigitChars 10 ds init < 10 ^ ds.length * (init + 1) := by
  induction ds generalizing init with
  | nil => simp
  | cons c ds ih =>
    obtain ⟨hc, hrest⟩ := List.forall_mem_cons.mp hds
    have hdigit : c.toNat - '0'.toNat ≤ 9 := by
      have hrange : 48 ≤ c.toNat ∧ c.toNat ≤ 57 := Char.isDigit_iff_toNat.mp hc
      have hzero : '0'.toNat = 48 := rfl
      omega
    rw [Nat.ofDigitChars_cons, List.length_cons, pow_succ, mul_assoc]
    refine (ih hrest _).trans_le (Nat.mul_le_mul_left _ ?_)
    omega

theorem fraction?_lt {cs rest : List Char} {n : Nat} (h : fraction? cs = some (n, rest)) : n < 1000000000 := by
  simp only [fraction?] at h
  split at h
  · simp at h
  · simp only [Option.some.injEq, Prod.mk.injEq] at h
    obtain ⟨rfl, -⟩ := h
    have hdigits : ∀ c ∈ (cs.takeWhile Char.isDigit).take 9, c.isDigit = true := fun c hc =>
      List.all_eq_true.mp List.all_takeWhile c (List.mem_of_mem_take hc)
    have hrun := ofDigitChars_lt hdigits 0
    rw [← Numeral.ofRun_eq_ofDigitChars, List.length_take] at hrun
    have hplaces : min 9 (cs.takeWhile Char.isDigit).length + (9 - (cs.takeWhile Char.isDigit).length) = 9 := by omega
    calc Numeral.ofRun ((cs.takeWhile Char.isDigit).take 9) * Nat.pow 10 (9 - (cs.takeWhile Char.isDigit).length)
        < 10 ^ min 9 (cs.takeWhile Char.isDigit).length * (0 + 1) *
            10 ^ (9 - (cs.takeWhile Char.isDigit).length) := Nat.mul_lt_mul_of_pos_right hrun (Nat.pow_pos (by decide))
      _ = 10 ^ 9 := by rw [zero_add, mul_one, ← pow_add, hplaces]

theorem offset?_mod {between : List Char → Option (List Char)} {minusSign : Bool} {cs rest : List Char} {n : Int}
    (h : offset? between minusSign cs = some (n, rest)) : n % 60 = 0 := by
  simp only [offset?] at h
  split at h
  · simp at h
  · split at h
    · simp at h
    · split at h
      · simp at h
      · split at h
        · simp only [Option.some.injEq, Prod.mk.injEq] at h
          obtain ⟨rfl, -⟩ := h
          split <;> omega
        · simp at h

theorem zuluOrOffset?_mod {cs rest : List Char} {n : Int} (h : zuluOrOffset? cs = some (n, rest)) : n % 60 = 0 := by
  cases cs with
  | nil => simp [zuluOrOffset?] at h
  | cons c cs =>
    rw [zuluOrOffset?] at h
    split at h
    · simp only [Option.some.injEq, Prod.mk.injEq] at h
      obtain ⟨rfl, -⟩ := h
      rfl
    · exact offset?_mod h

theorem optionalFraction?_lt {cs rest : List Char} {n : Nat} (h : optionalFraction? cs = some (n, rest)) :
    n < 1000000000 := by
  unfold optionalFraction? at h
  split at h
  · exact fraction?_lt h
  · simp only [Option.some.injEq, Prod.mk.injEq] at h
    omega

theorem zoneOffset?_mod {name : String} {n : Int} (h : zoneOffset? name = some n) : n % 60 = 0 := by
  rw [zoneOffset?] at h
  split at h
  · simp only [Option.some.injEq] at h
    omega
  · split at h <;> simp at h
    omega

theorem mailOffset?_mod {cs rest : List Char} {n : Int} (h : mailOffset? cs = some (n, rest)) : n % 60 = 0 := by
  simp only [mailOffset?] at h
  split at h
  · exact offset?_mod h
  · simp only [Option.map_eq_some_iff, Prod.mk.injEq] at h
    obtain ⟨m, hzone, rfl, -⟩ := h
    exact zoneOffset?_mod hzone

/-! ## Readers -/

/-- An item leaves regular parts regular. -/
theorem Item.isRegular_read? {p q : Parts} {cs rest : List Char} {item : Item} (hp : p.IsRegular)
    (h : item.read? p cs = some (q, rest)) : q.IsRegular := by
  cases item with
  | fraction =>
    simp only [Item.read?] at h
    split at h
    · simp only [Option.map_eq_some_iff, Prod.mk.injEq] at h
      obtain ⟨⟨n, cs'⟩, hread, rfl, -⟩ := h
      exact ⟨fraction?_lt hread, hp.2⟩
    · simp only [Option.some.injEq, Prod.mk.injEq] at h
      exact h.1 ▸ hp
  | offset =>
    simp only [Item.read?, Option.map_eq_some_iff, Prod.mk.injEq] at h
    obtain ⟨⟨n, cs'⟩, hread, rfl, -⟩ := h
    exact ⟨hp.1, offset?_mod hread⟩
  | blanks =>
    simp only [Item.read?, Option.some.injEq, Prod.mk.injEq] at h
    exact h.1 ▸ hp
  | text | year | month | day | hour | minute | second | weekdayName | monthName =>
    simp only [Item.read?, Option.map_eq_some_iff, Prod.mk.injEq] at h
    obtain ⟨_, -, rfl, -⟩ := h
    exact hp

theorem isRegular_readItems? {q : Parts} {rest : List Char} : ∀ {items : List Item} {p : Parts} {cs : List Char},
    p.IsRegular → readItems? p cs items = some (q, rest) → q.IsRegular
  | [], p, cs, hp, h => by
    simp only [readItems?, Option.some.injEq, Prod.mk.injEq] at h
    exact h.1 ▸ hp
  | item :: items, p, cs, hp, h => by
    rw [readItems?] at h
    split at h
    · rename_i hitem
      exact isRegular_readItems? (Item.isRegular_read? hp hitem) h
    · simp at h

theorem isRegular_rfc3339Parts? {p : Parts} {cs rest : List Char} (h : rfc3339Parts? cs = some (p, rest)) :
    p.IsRegular := by
  simp only [rfc3339Parts?, Option.bind_eq_bind, Option.bind_eq_some_iff] at h
  obtain ⟨_, -, _, -, _, -, _, -, _, -, _, -, _, -, _, -, _, -, _, -, _, -, fraction, hfraction, zone, hzone, h⟩ := h
  simp only [Option.some.injEq, Prod.mk.injEq] at h
  obtain ⟨rfl, -⟩ := h
  exact ⟨optionalFraction?_lt hfraction, zuluOrOffset?_mod hzone⟩

theorem isRegular_rfc2822Parts? {p : Parts} {cs rest : List Char} (h : rfc2822Parts? cs = some (p, rest)) :
    p.IsRegular := by
  simp only [rfc2822Parts?, Option.bind_eq_bind, Option.bind_eq_some_iff] at h
  obtain ⟨_, -, _, -, _, -, _, -, _, -, _, -, _, -, _, -, _, -, _, -, _, -, _, -, zone, hzone, h⟩ := h
  simp only [Option.some.injEq, Prod.mk.injEq] at h
  obtain ⟨rfl, -⟩ := h
  exact ⟨Nat.zero_lt_succ _, mailOffset?_mod hzone⟩

/-! ## Texts and values -/

theorem isUtc_of_ofPattern? {items : List Item} {cs : List Char} {i : Instant} (h : ofPattern? items cs = some i) :
    i.IsUtc := by
  rw [ofPattern?] at h
  split at h
  · rename_i hread
    exact (isRegular_readItems? ⟨by decide, rfl⟩ hread).isUtc h
  · simp at h

theorem isUtc_of_ofDateText? {cs : List Char} {i : Instant} (h : ofDateText? cs = some i) : i.IsUtc := by
  simp only [ofDateText?, Option.or_eq_some_iff] at h
  rcases h with hread | ⟨-, hread | ⟨-, hread | ⟨-, hread⟩⟩⟩
  · rw [ofRfc3339?] at hread
    split at hread
    · rename_i hparts
      exact (isRegular_rfc3339Parts? hparts).isUtc hread
    · simp at hread
  · rw [ofRfc2822?] at hread
    split at hread
    · rename_i hparts
      exact (isRegular_rfc2822Parts? hparts).isUtc hread
    · simp at hread
  · exact isUtc_of_ofPattern? hread
  · obtain ⟨items, -, hitems⟩ := List.exists_of_findSome?_eq_some hread
    exact isUtc_of_ofPattern? hitems

end Calendar

namespace Instant

/-- Milliseconds give no leap second. -/
theorem isUtc_of_ofEpochMillis? {ms : Int} {i : Instant} (h : ofEpochMillis? ms = some i) : i.IsUtc := by
  intro hleap
  rw [ofEpochMillis?] at h
  split at h
  · have hnano := (of_ofEpochSecond? h).2
    have hleast : 1000000000 ≤ i.nano := hleap
    omega
  · simp at h

theorem isUtc_of_ofBinary64? {x : Binary64} {i : Instant} (h : ofBinary64? x = some i) : i.IsUtc := by
  rw [ofBinary64?] at h
  split at h
  · obtain ⟨ms, -, hms⟩ := Option.bind_eq_some_iff.mp h
    exact isUtc_of_ofEpochMillis? hms
  · simp at h

/-- What a text denotes is an instant of UTC. -/
theorem isUtc_of_ofText? {s : String} {i : Instant} (h : ofText? s = some i) : i.IsUtc := by
  simp only [ofText?] at h
  split at h
  · exact isUtc_of_ofBinary64? h
  · exact Calendar.isUtc_of_ofDateText? h

end Instant

/-- Whatever value denotes an instant denotes one of UTC, unless it is a date that was none before. -/
theorem FieldValue.isUtc_of_instant? {v : FieldValue} {i : Instant} (h : v.instant? = some i)
    (hdate : ∀ d, v = .date d → d.IsUtc) : i.IsUtc := by
  cases v with
  | date d =>
    cases h
    exact hdate i rfl
  | integer ms => exact Instant.isUtc_of_ofEpochMillis? h
  | number ms => exact Instant.isUtc_of_ofBinary64? h
  | text s => exact Instant.isUtc_of_ofText? h
  | boolean | json => cases h

end RequestGuard
