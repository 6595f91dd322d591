import Mathlib.Computability.Language
import RequestGuard.Schema.Coercion

/-!
# The grammar of addresses

`IsAddress` says which texts are addresses, by how they may be put together: a local part, an at sign
and a domain, each in one of two forms. It says nothing of how they are taken apart. The main
statement, `coerce?_mailbox_eq_some_iff`, is that a value is taken for an address just when it is a
text of this grammar.

What makes the recogniser's single pass enough is that no domain holds an at sign, whatever a quoted
local part may hold, and no piece of a dotted form holds a dot. So the last at sign divides and every
dot does.

The same texts are the language of a pattern (`Pattern.mem_address_iff`), with unions, products and closures
for its alternatives, sequences and repetitions.
-/

namespace RequestGuard

namespace Mailbox

open Text (isBlank split splitLast?)
open scoped Computability

/-! ## The grammar -/

/-- No white space, and none of the marks that mean something between atoms. -/
def AtomChar (c : Char) : Prop :=
  isBlank c = false ∧
    c ∉ ['<', '>', '(', ')', '[', ']', '\\', '.', ',', ';', ':', '@', '"']

/-- One or more atoms with single dots between them. -/
def IsAtoms (cs : List Char) : Prop :=
  ∃ atoms : List (List Char), atoms ≠ [] ∧ (∀ a ∈ atoms, a ≠ [] ∧ ∀ c ∈ a, AtomChar c) ∧
    cs = ['.'].intercalate atoms

/-- One or more characters between double quotes, no line feed among them. -/
def IsQuotation (cs : List Char) : Prop :=
  ∃ inner : List Char, inner ≠ [] ∧ '\n' ∉ inner ∧ cs = '"' :: (inner ++ ['"'])

/-- One to three digits. -/
def IsDigitGroup (cs : List Char) : Prop :=
  1 ≤ cs.length ∧ cs.length ≤ 3 ∧ ∀ c ∈ cs, c.isDigit = true

/-- Four groups of digits with dots between them, in square brackets. -/
def IsAddressLiteral (cs : List Char) : Prop :=
  ∃ a b c d, IsDigitGroup a ∧ IsDigitGroup b ∧ IsDigitGroup c ∧ IsDigitGroup d ∧
    cs = '[' :: (a ++ '.' :: (b ++ '.' :: (c ++ '.' :: (d ++ [']']))))

/-- One or more labels with a dot behind each, and a last one of two or more letters. -/
def IsHostName (cs : List Char) : Prop :=
  ∃ (labels : List (List Char)) (top : List Char), labels ≠ [] ∧
    (∀ l ∈ labels, l ≠ [] ∧ ∀ c ∈ l, c.isAlphanum = true ∨ c = '-') ∧
    2 ≤ top.length ∧ (∀ c ∈ top, c.isAlpha = true) ∧
    cs = labels.flatMap (fun l => l ++ ['.']) ++ top

/-- A local part, an at sign and a domain. -/
def IsAddress (cs : List Char) : Prop :=
  ∃ localPart domain, (IsAtoms localPart ∨ IsQuotation localPart) ∧
    (IsAddressLiteral domain ∨ IsHostName domain) ∧ cs = localPart ++ '@' :: domain

/-! ## Local parts -/

theorem isAtomChar_iff {c : Char} : isAtomChar c = true ↔ AtomChar c := by
  simp [isAtomChar, AtomChar]

theorem dot_not_mem_of_atom {a : List Char} (h : ∀ c ∈ a, AtomChar c) : '.' ∉ a := by
  intro hdot
  exact (h _ hdot).2 (by decide)

theorem isDotted_iff {cs : List Char} : isDotted cs = true ↔ IsAtoms cs := by
  simp only [isDotted, List.all_eq_true, Bool.and_eq_true, Bool.not_eq_true', List.isEmpty_eq_false_iff,
    isAtomChar_iff]
  constructor
  · intro h
    exact ⟨split '.' cs, Text.split_ne_nil '.' cs, h, (Text.intercalate_split '.' cs).symm⟩
  · rintro ⟨atoms, hne, hatoms, rfl⟩
    rw [Text.split_intercalate hne fun a ha => dot_not_mem_of_atom (hatoms a ha).2]
    exact hatoms

/-- What is said of all but the last character, where the last one is given. -/
theorem getLast?_and_dropLast_iff (P : List Char → Prop) (x : Char) (cs : List Char) :
    (cs.getLast? = some x ∧ P cs.dropLast) ↔ ∃ inner, P inner ∧ cs = inner ++ [x] := by
  constructor
  · rintro ⟨hlast, hinner⟩
    obtain ⟨inner, rfl⟩ := List.getLast?_eq_some_iff.mp hlast
    rw [List.dropLast_concat] at hinner
    exact ⟨inner, hinner, rfl⟩
  · rintro ⟨inner, hinner, rfl⟩
    rw [List.dropLast_concat]
    exact ⟨List.getLast?_concat, hinner⟩

theorem isQuoted_iff {cs : List Char} : isQuoted cs = true ↔ IsQuotation cs := by
  unfold isQuoted IsQuotation
  split
  · rename_i rest
    have hinner := getLast?_and_dropLast_iff (fun inner => inner ≠ [] ∧ '\n' ∉ inner) '"' rest
    have hfeed : ∀ inner : List Char, inner.all (· != '\n') = true ↔ '\n' ∉ inner := by
      intro inner
      rw [List.all_eq_true, ← List.forall_mem_ne']
      simp only [bne_iff_ne, ne_eq]
    simp only [Bool.and_eq_true, beq_iff_eq, bne_iff_ne, hfeed, and_assoc, List.cons.injEq,
      true_and] at hinner ⊢
    exact hinner
  · rename_i hquote
    constructor
    · exact fun h => absurd h Bool.false_ne_true
    · rintro ⟨inner, -, -, rfl⟩
      exact absurd rfl (hquote _)

/-! ## Domains -/

theorem dot_not_mem_of_digits {cs : List Char} (h : IsDigitGroup cs) : '.' ∉ cs := by
  intro hdot
  exact absurd (h.2.2 _ hdot) (by decide)

/-- Four pieces between dots are four groups of digits, put together in one way. -/
theorem split_four_iff {cs : List Char} :
    ((split '.' cs).length = 4 ∧ ∀ g ∈ split '.' cs, IsDigitGroup g) ↔
      ∃ a b c d, IsDigitGroup a ∧ IsDigitGroup b ∧ IsDigitGroup c ∧ IsDigitGroup d ∧
        cs = a ++ '.' :: (b ++ '.' :: (c ++ '.' :: d)) := by
  constructor
  · rintro ⟨hlength, hgroups⟩
    have hjoined := Text.intercalate_split '.' cs
    match hsplit : split '.' cs with
    | [a, b, c, d] =>
      rw [hsplit] at hgroups hjoined
      simp only [List.forall_mem_cons] at hgroups
      obtain ⟨ha, hb, hc, hd, -⟩ := hgroups
      refine ⟨a, b, c, d, ha, hb, hc, hd, ?_⟩
      rw [← hjoined]
      simp [List.intercalate_cons_cons]
    | [] | [_] | [_, _] | [_, _, _] | _ :: _ :: _ :: _ :: _ :: _ =>
      rw [hsplit] at hlength
      simp at hlength
  · rintro ⟨a, b, c, d, ha, hb, hc, hd, rfl⟩
    rw [Text.split_append (dot_not_mem_of_digits ha), Text.split_append (dot_not_mem_of_digits hb),
      Text.split_append (dot_not_mem_of_digits hc), Text.split_of_not_mem (dot_not_mem_of_digits hd)]
    simp only [List.forall_mem_cons]
    exact ⟨rfl, ha, hb, hc, hd, nofun⟩

theorem isBracketed_iff {cs : List Char} : isBracketed cs = true ↔ IsAddressLiteral cs := by
  unfold isBracketed IsAddressLiteral
  split
  · rename_i rest
    have hinner := getLast?_and_dropLast_iff
      (fun inner => (split '.' inner).length = 4 ∧ ∀ g ∈ split '.' inner, IsDigitGroup g)
      ']' rest
    have hgroup : ∀ g : List Char, (decide (1 ≤ g.length) && decide (g.length ≤ 3) &&
        g.all Char.isDigit) = true ↔ IsDigitGroup g := by
      intro g
      simp only [IsDigitGroup, Bool.and_eq_true, decide_eq_true_eq, List.all_eq_true, and_assoc]
    simp only [Bool.and_eq_true, beq_iff_eq, List.all_eq_true, hgroup, and_assoc] at hinner ⊢
    rw [hinner]
    constructor
    · rintro ⟨inner, hlength, hgroups, rfl⟩
      obtain ⟨a, b, c, d, ha, hb, hc, hd, rfl⟩ := split_four_iff.mp ⟨hlength, hgroups⟩
      exact ⟨a, b, c, d, ha, hb, hc, hd, by simp⟩
    · rintro ⟨a, b, c, d, ha, hb, hc, hd, hrest⟩
      obtain ⟨hlength, hgroups⟩ := split_four_iff.mpr ⟨a, b, c, d, ha, hb, hc, hd, rfl⟩
      refine ⟨_, hlength, hgroups, ?_⟩
      rw [(List.cons.inj hrest).2]
      simp
  · rename_i hbracket
    constructor
    · exact fun h => absurd h Bool.false_ne_true
    · rintro ⟨a, b, c, d, -, -, -, -, rfl⟩
      exact absurd rfl (hbracket _)

/-- Labels with a dot behind each and one more are pieces with dots between them. -/
theorem flatMap_append_eq_intercalate (labels : List (List Char)) (top : List Char) :
    labels.flatMap (fun l => l ++ ['.']) ++ top = ['.'].intercalate (labels ++ [top]) := by
  induction labels with
  | nil => simp
  | cons l labels ih =>
    rw [List.flatMap_cons, List.append_assoc, ih]
    cases labels with
    | nil => simp [List.intercalate_cons_cons]
    | cons m labels => simp [List.intercalate_cons_cons]

theorem isLabel_iff {cs : List Char} :
    isLabel cs = true ↔ cs ≠ [] ∧ ∀ c ∈ cs, c.isAlphanum = true ∨ c = '-' := by
  simp [isLabel]

theorem isTopLabel_iff {cs : List Char} :
    isTopLabel cs = true ↔ 2 ≤ cs.length ∧ ∀ c ∈ cs, c.isAlpha = true := by
  simp [isTopLabel]

theorem dot_not_mem_of_label {l : List Char} (h : ∀ c ∈ l, c.isAlphanum = true ∨ c = '-') :
    '.' ∉ l := by
  intro hdot
  rcases h _ hdot with hdot | hdot
  · exact absurd hdot (by decide)
  · exact absurd hdot (by decide)

theorem dot_not_mem_of_topLabel {l : List Char} (h : ∀ c ∈ l, c.isAlpha = true) : '.' ∉ l := by
  intro hdot
  exact absurd (h _ hdot) (by decide)

theorem isDomainName_iff {cs : List Char} : isDomainName cs = true ↔ IsHostName cs := by
  constructor
  · intro h
    unfold isDomainName at h
    split at h
    · rename_i top label labels hsplit
      rw [Bool.and_eq_true, List.all_eq_true] at h
      obtain ⟨htop, hlabels⟩ := h
      have hpieces : split '.' cs = (label :: labels).reverse ++ [top] := by
        rw [← List.reverse_cons, ← hsplit, List.reverse_reverse]
      obtain ⟨hlength, halpha⟩ := isTopLabel_iff.mp htop
      refine ⟨(label :: labels).reverse, top, by simp, ?_, hlength, halpha, ?_⟩
      · intro l hl
        exact isLabel_iff.mp (hlabels l (List.mem_reverse.mp hl))
      · rw [flatMap_append_eq_intercalate, ← hpieces, Text.intercalate_split]
    · exact absurd h Bool.false_ne_true
  · rintro ⟨labels, top, hne, hlabels, hlength, halpha, rfl⟩
    have hdots : ∀ p ∈ labels ++ [top], '.' ∉ p := by
      intro p hp
      rcases List.mem_append.mp hp with hp | hp
      · exact dot_not_mem_of_label (hlabels p hp).2
      · rw [List.mem_singleton.mp hp]
        exact dot_not_mem_of_topLabel halpha
    rw [flatMap_append_eq_intercalate, isDomainName,
      Text.split_intercalate (List.concat_ne_nil top labels) hdots, List.reverse_append]
    obtain ⟨label, rest, hrest⟩ := List.exists_cons_of_ne_nil (List.reverse_ne_nil_iff.mpr hne)
    rw [hrest]
    simp only [List.reverse_singleton, List.singleton_append, Bool.and_eq_true, List.all_eq_true]
    refine ⟨isTopLabel_iff.mpr ⟨hlength, halpha⟩, ?_⟩
    intro l hl
    rw [← hrest, List.mem_reverse] at hl
    exact isLabel_iff.mpr (hlabels l hl)

theorem at_not_mem_of_isAddressLiteral {cs : List Char} (h : IsAddressLiteral cs) : '@' ∉ cs := by
  obtain ⟨a, b, c, d, ha, hb, hc, hd, rfl⟩ := h
  have hgroup : ∀ g, IsDigitGroup g → '@' ∉ g := by
    intro g hg hat
    exact absurd (hg.2.2 _ hat) (by decide)
  simp [hgroup a ha, hgroup b hb, hgroup c hc, hgroup d hd]

theorem at_not_mem_of_isHostName {cs : List Char} (h : IsHostName cs) : '@' ∉ cs := by
  obtain ⟨labels, top, -, hlabels, -, halpha, rfl⟩ := h
  intro hat
  rcases List.mem_append.mp hat with hat | hat
  · obtain ⟨l, hl, hat⟩ := List.mem_flatMap.mp hat
    rcases List.mem_append.mp hat with hat | hat
    · rcases (hlabels l hl).2 _ hat with hat | hat
      · exact absurd hat (by decide)
      · exact absurd hat (by decide)
    · exact absurd hat (by decide)
  · exact absurd (halpha _ hat) (by decide)

/-! ## Addresses -/

/-- The recogniser accepts the texts of the grammar. -/
theorem accepts_iff {cs : List Char} : accepts cs = true ↔ IsAddress cs := by
  constructor
  · intro h
    unfold accepts at h
    split at h
    · rename_i localPart domain hcut
      simp only [Bool.and_eq_true, Bool.or_eq_true, isDotted_iff, isQuoted_iff, isBracketed_iff,
        isDomainName_iff] at h
      obtain ⟨hlocal, hdomain⟩ := h
      exact ⟨localPart, domain, hlocal, hdomain, (Text.splitLast?_eq_some_iff.mp hcut).1⟩
    · exact absurd h Bool.false_ne_true
  · rintro ⟨localPart, domain, hlocal, hdomain, rfl⟩
    -- The at sign in front of a domain is the last one, whatever the local part holds.
    have hat : '@' ∉ domain :=
      hdomain.elim at_not_mem_of_isAddressLiteral at_not_mem_of_isHostName
    have hcut : splitLast? '@' (localPart ++ '@' :: domain) = some (localPart, domain) :=
      Text.splitLast?_eq_some_iff.mpr ⟨rfl, hat⟩
    simp only [accepts, hcut, Bool.and_eq_true, Bool.or_eq_true, isDotted_iff, isQuoted_iff,
      isBracketed_iff, isDomainName_iff]
    exact ⟨hlocal, hdomain⟩

example : accepts "\"a@b.\"@x-1.io".toList = true := by decide

/-! ## The pattern -/

namespace Pattern

/-- One character of a kind. -/
def oneOf (p : Char → Prop) : Language Char := {cs | ∃ c, p c ∧ cs = [c]}

/-- One or more texts in a row. -/
def oneOrMore (l : Language Char) : Language Char := l * l∗

/-- The dot between pieces. -/
def dot : Language Char := oneOf (· = '.')

/-- A letter. -/
def letter : Language Char := oneOf (Char.isAlpha · = true)

/-- One, two or three digits. -/
def digits : Language Char :=
  let digit := oneOf (Char.isDigit · = true)
  digit + digit * digit + digit * (digit * digit)

/-- One or more characters that may stand in an atom. -/
def atom : Language Char := oneOrMore (oneOf AtomChar)

/-- One or more letters, digits and hyphens. -/
def label : Language Char := oneOrMore (oneOf fun c => c.isAlphanum = true ∨ c = '-')

/-- An atom and any number of atoms behind it, each behind a dot. -/
def atoms : Language Char := atom * (dot * atom)∗

/-- Characters in double quotes. -/
def quotation : Language Char :=
  oneOf (· = '"') * (oneOrMore (oneOf (· ≠ '\n')) * oneOf (· = '"'))

/-- Four groups of digits in brackets. -/
def bracketed : Language Char :=
  oneOf (· = '[') * (digits * (dot * (digits * (dot * (digits * (dot * (digits *
    oneOf (· = ']'))))))))

/-- Labels, each in front of a dot, and two or more letters. -/
def hostName : Language Char := oneOrMore (label * dot) * (letter * oneOrMore letter)

/-- The pattern of addresses. -/
def address : Language Char :=
  (atoms + quotation) * (oneOf (· = '@') * (bracketed + hostName))

section

variable {p : Char → Prop} {l : Language Char} {cs : List Char}

theorem mem_oneOf_iff : cs ∈ oneOf p ↔ ∃ c, p c ∧ cs = [c] := Iff.rfl

theorem mem_oneOf_mul_iff : cs ∈ oneOf p * l ↔ ∃ c rest, p c ∧ rest ∈ l ∧ cs = c :: rest := by
  rw [Language.mem_mul]
  constructor
  · rintro ⟨_, ⟨c, hc, rfl⟩, rest, hrest, rfl⟩
    exact ⟨c, rest, hc, hrest, rfl⟩
  · rintro ⟨c, rest, hc, hrest, rfl⟩
    exact ⟨[c], ⟨c, hc, rfl⟩, rest, hrest, rfl⟩

/-- A mark and what follows it. -/
theorem mem_mark_mul_iff {m : Char} : cs ∈ oneOf (· = m) * l ↔ ∃ rest ∈ l, cs = m :: rest := by
  rw [mem_oneOf_mul_iff]
  constructor
  · rintro ⟨_, rest, rfl, hrest, rfl⟩
    exact ⟨rest, hrest, rfl⟩
  · rintro ⟨rest, hrest, rfl⟩
    exact ⟨m, rest, rfl, hrest, rfl⟩

theorem mem_kstar_oneOf_iff : cs ∈ (oneOf p)∗ ↔ ∀ c ∈ cs, p c := by
  rw [Language.mem_kstar]
  constructor
  · rintro ⟨pieces, rfl, hpieces⟩ c hc
    obtain ⟨piece, hpiece, hc⟩ := List.mem_flatten.mp hc
    obtain ⟨d, hd, rfl⟩ := hpieces piece hpiece
    rw [List.mem_singleton.mp hc]
    exact hd
  · intro h
    refine ⟨cs.map fun c => [c], ?_, ?_⟩
    · rw [← List.flatMap_def, List.flatMap_singleton']
    intro piece hpiece
    obtain ⟨c, hc, rfl⟩ := List.mem_map.mp hpiece
    exact ⟨c, h c hc, rfl⟩

/-- A run of characters of a kind. -/
theorem mem_oneOrMore_oneOf_iff : cs ∈ oneOrMore (oneOf p) ↔ cs ≠ [] ∧ ∀ c ∈ cs, p c := by
  rw [oneOrMore, mem_oneOf_mul_iff]
  simp only [mem_kstar_oneOf_iff]
  constructor
  · rintro ⟨c, rest, hc, hrest, rfl⟩
    exact ⟨List.cons_ne_nil c rest, List.forall_mem_cons.mpr ⟨hc, hrest⟩⟩
  · rintro ⟨hne, h⟩
    obtain ⟨c, rest, rfl⟩ := List.exists_cons_of_ne_nil hne
    obtain ⟨hc, hrest⟩ := List.forall_mem_cons.mp h
    exact ⟨c, rest, hc, hrest, rfl⟩

theorem mem_oneOrMore_iff : cs ∈ oneOrMore l ↔
    ∃ pieces : List (List Char), pieces ≠ [] ∧ (∀ t ∈ pieces, t ∈ l) ∧ cs = pieces.flatten := by
  rw [oneOrMore, Language.mem_mul]
  simp only [Language.mem_kstar]
  constructor
  · rintro ⟨t, ht, _, ⟨pieces, rfl, hpieces⟩, rfl⟩
    exact ⟨t :: pieces, List.cons_ne_nil t pieces, List.forall_mem_cons.mpr ⟨ht, hpieces⟩, rfl⟩
  · rintro ⟨pieces, hne, hpieces, rfl⟩
    obtain ⟨t, rest, rfl⟩ := List.exists_cons_of_ne_nil hne
    obtain ⟨ht, hrest⟩ := List.forall_mem_cons.mp hpieces
    exact ⟨t, ht, rest.flatten, ⟨rest, rfl, hrest⟩, rfl⟩

theorem mem_atom_iff : cs ∈ atom ↔ cs ≠ [] ∧ ∀ c ∈ cs, AtomChar c := mem_oneOrMore_oneOf_iff

theorem mem_digits_iff : cs ∈ digits ↔ IsDigitGroup cs := by
  simp only [digits, Language.mem_add, mem_oneOf_mul_iff, mem_oneOf_iff, IsDigitGroup]
  constructor
  · rintro ((⟨a, ha, rfl⟩ | ⟨a, _, ha, ⟨b, hb, rfl⟩, rfl⟩) |
      ⟨a, _, ha, ⟨b, _, hb, ⟨c, hc, rfl⟩, rfl⟩, rfl⟩)
    · simp [ha]
    · simp [ha, hb]
    · simp [ha, hb, hc]
  · rintro ⟨hleast, hmost, hdigits⟩
    match cs with
    | [a] => exact .inl (.inl ⟨a, hdigits a (by simp), rfl⟩)
    | [a, b] =>
      exact .inl (.inr ⟨a, _, hdigits a (by simp), ⟨b, hdigits b (by simp), rfl⟩, rfl⟩)
    | [a, b, c] =>
      exact .inr ⟨a, _, hdigits a (by simp),
        ⟨b, _, hdigits b (by simp), ⟨c, hdigits c (by simp), rfl⟩, rfl⟩, rfl⟩
    | [] => simp at hleast
    | _ :: _ :: _ :: _ :: _ =>
      simp only [List.length_cons] at hmost
      omega

theorem mem_digits_mul_iff :
    cs ∈ digits * l ↔ ∃ a rest, IsDigitGroup a ∧ rest ∈ l ∧ cs = a ++ rest := by
  rw [Language.mem_mul]
  constructor
  · rintro ⟨a, ha, rest, hrest, rfl⟩
    exact ⟨a, rest, mem_digits_iff.mp ha, hrest, rfl⟩
  · rintro ⟨a, rest, ha, hrest, rfl⟩
    exact ⟨a, mem_digits_iff.mpr ha, rest, hrest, rfl⟩

theorem mem_digits_mul_dot_mul_iff :
    cs ∈ digits * (dot * l) ↔ ∃ a rest, IsDigitGroup a ∧ rest ∈ l ∧ cs = a ++ '.' :: rest := by
  simp only [dot, mem_digits_mul_iff, mem_mark_mul_iff]
  constructor
  · rintro ⟨a, _, ha, ⟨rest, hrest, rfl⟩, rfl⟩
    exact ⟨a, rest, ha, hrest, rfl⟩
  · rintro ⟨a, rest, ha, hrest, rfl⟩
    exact ⟨a, _, ha, ⟨rest, hrest, rfl⟩, rfl⟩

/-- Texts that are each made from one of a language are made from as many of it. -/
theorem exists_map_of_forall {f : List Char → List Char} {ts : List (List Char)}
    (h : ∀ t ∈ ts, ∃ u ∈ l, t = f u) :
    ∃ us : List (List Char), (∀ u ∈ us, u ∈ l) ∧ ts = us.map f := by
  induction ts with
  | nil => exact ⟨[], nofun, rfl⟩
  | cons t ts ih =>
    obtain ⟨⟨u, hu, rfl⟩, hts⟩ := List.forall_mem_cons.mp h
    obtain ⟨us, hus, rfl⟩ := ih hts
    exact ⟨u :: us, List.forall_mem_cons.mpr ⟨hu, hus⟩, rfl⟩

theorem intercalate_cons_eq_flatMap (a : List Char) (atoms : List (List Char)) :
    ['.'].intercalate (a :: atoms) = a ++ (atoms.map fun b => '.' :: b).flatten := by
  induction atoms generalizing a with
  | nil => simp
  | cons b atoms ih => rw [List.intercalate_cons_cons, ih]; simp

theorem mem_label_iff :
    cs ∈ label ↔ cs ≠ [] ∧ ∀ c ∈ cs, c.isAlphanum = true ∨ c = '-' := mem_oneOrMore_oneOf_iff

theorem mem_atoms_iff : cs ∈ atoms ↔ IsAtoms cs := by
  rw [atoms, Language.mem_mul]
  simp only [Language.mem_kstar, dot, mem_mark_mul_iff]
  constructor
  · rintro ⟨a, ha, _, ⟨pieces, rfl, hpieces⟩, rfl⟩
    obtain ⟨atoms, hatoms, rfl⟩ := exists_map_of_forall hpieces
    refine ⟨a :: atoms, List.cons_ne_nil a atoms, ?_, (intercalate_cons_eq_flatMap a atoms).symm⟩
    intro b hb
    rw [← mem_atom_iff]
    exact List.forall_mem_cons.mpr ⟨ha, hatoms⟩ b hb
  · rintro ⟨atoms, hne, hatoms, rfl⟩
    obtain ⟨a, rest, rfl⟩ := List.exists_cons_of_ne_nil hne
    simp only [← mem_atom_iff] at hatoms
    obtain ⟨ha, hrest⟩ := List.forall_mem_cons.mp hatoms
    refine ⟨a, ha, _, ⟨_, rfl, ?_⟩, (intercalate_cons_eq_flatMap a rest).symm⟩
    intro piece hpiece
    obtain ⟨b, hb, rfl⟩ := List.mem_map.mp hpiece
    exact ⟨b, hrest b hb, rfl⟩

theorem mem_quotation_iff : cs ∈ quotation ↔ IsQuotation cs := by
  rw [quotation, mem_mark_mul_iff]
  simp only [Language.mem_mul, mem_oneOrMore_oneOf_iff, mem_oneOf_iff, IsQuotation]
  constructor
  · rintro ⟨_, ⟨inner, ⟨hne, hinner⟩, _, ⟨_, rfl, rfl⟩, rfl⟩, rfl⟩
    exact ⟨inner, hne, fun hfeed => hinner _ hfeed rfl, rfl⟩
  · rintro ⟨inner, hne, hfeed, rfl⟩
    refine ⟨_, ⟨inner, ⟨hne, ?_⟩, _, ⟨_, rfl, rfl⟩, rfl⟩, rfl⟩
    rintro c hc rfl
    exact hfeed hc

theorem mem_bracketed_iff : cs ∈ bracketed ↔ IsAddressLiteral cs := by
  simp only [bracketed, mem_mark_mul_iff, mem_digits_mul_dot_mul_iff]
  simp only [mem_digits_mul_iff, mem_oneOf_iff, IsAddressLiteral]
  constructor
  · rintro ⟨_, ⟨a, _, ha, ⟨b, _, hb, ⟨c, _, hc, ⟨d, _, hd, ⟨_, rfl, rfl⟩, rfl⟩, rfl⟩, rfl⟩, rfl⟩, rfl⟩
    exact ⟨a, b, c, d, ha, hb, hc, hd, rfl⟩
  · rintro ⟨a, b, c, d, ha, hb, hc, hd, rfl⟩
    exact ⟨_, ⟨a, _, ha, ⟨b, _, hb, ⟨c, _, hc, ⟨d, _, hd, ⟨_, rfl, rfl⟩, rfl⟩, rfl⟩, rfl⟩, rfl⟩, rfl⟩

theorem mem_label_mul_dot_iff : cs ∈ label * dot ↔ ∃ l ∈ label, cs = l ++ ['.'] := by
  rw [Language.mem_mul]
  constructor
  · rintro ⟨l, hl, _, ⟨_, rfl, rfl⟩, rfl⟩
    exact ⟨l, hl, rfl⟩
  · rintro ⟨l, hl, rfl⟩
    exact ⟨l, hl, ['.'], ⟨'.', rfl, rfl⟩, rfl⟩

theorem mem_letters_iff :
    cs ∈ letter * oneOrMore letter ↔ 2 ≤ cs.length ∧ ∀ c ∈ cs, c.isAlpha = true := by
  simp only [letter, mem_oneOf_mul_iff, mem_oneOrMore_oneOf_iff]
  constructor
  · rintro ⟨c, rest, hc, ⟨hne, hrest⟩, rfl⟩
    have hlength : 0 < rest.length := List.length_pos_iff.mpr hne
    refine ⟨?_, List.forall_mem_cons.mpr ⟨hc, hrest⟩⟩
    rw [List.length_cons]
    omega
  · rintro ⟨hlength, halpha⟩
    match cs with
    | c :: d :: rest =>
      obtain ⟨hc, hrest⟩ := List.forall_mem_cons.mp halpha
      exact ⟨c, d :: rest, hc, ⟨List.cons_ne_nil d rest, hrest⟩, rfl⟩
    | [] | [_] => simp at hlength

theorem mem_hostName_iff : cs ∈ hostName ↔ IsHostName cs := by
  rw [hostName, Language.mem_mul]
  constructor
  · rintro ⟨_, hfront, top, htop, rfl⟩
    obtain ⟨pieces, hne, hpieces, rfl⟩ := mem_oneOrMore_iff.mp hfront
    obtain ⟨labels, hlabels, rfl⟩ :=
      exists_map_of_forall fun t ht => mem_label_mul_dot_iff.mp (hpieces t ht)
    obtain ⟨hlength, halpha⟩ := mem_letters_iff.mp htop
    refine ⟨labels, top, ?_, fun l hl => mem_label_iff.mp (hlabels l hl), hlength, halpha, ?_⟩
    · rintro rfl
      exact hne rfl
    · rw [List.flatMap_def]
  · rintro ⟨labels, top, hne, hlabels, hlength, halpha, rfl⟩
    refine ⟨_, mem_oneOrMore_iff.mpr ⟨labels.map fun l => l ++ ['.'], ?_, ?_, rfl⟩, top,
      mem_letters_iff.mpr ⟨hlength, halpha⟩, ?_⟩
    · rw [Ne, List.map_eq_nil_iff]
      exact hne
    · intro piece hpiece
      obtain ⟨l, hl, rfl⟩ := List.mem_map.mp hpiece
      exact mem_label_mul_dot_iff.mpr ⟨l, mem_label_iff.mpr (hlabels l hl), rfl⟩
    · rw [List.flatMap_def]

end

/-- The texts of the grammar are the language of the pattern. -/
theorem mem_address_iff {cs : List Char} : cs ∈ address ↔ IsAddress cs := by
  rw [address, Language.mem_mul]
  simp only [mem_mark_mul_iff, Language.mem_add, mem_atoms_iff, mem_quotation_iff,
    mem_bracketed_iff, mem_hostName_iff]
  constructor
  · rintro ⟨localPart, hlocal, _, ⟨domain, hdomain, rfl⟩, rfl⟩
    exact ⟨localPart, domain, hlocal, hdomain, rfl⟩
  · rintro ⟨localPart, domain, hlocal, hdomain, rfl⟩
    exact ⟨localPart, hlocal, _, ⟨domain, hdomain, rfl⟩, rfl⟩

end Pattern

end Mailbox

/-- **The coercion to an address accepts its grammar and nothing else.** What it gives is the value
itself, which is a text of the grammar; every other text and every value that is no text is refused.
The grammar is the language of the pattern. -/
theorem Coercion.coerce?_mailbox_eq_some_iff (v w : FieldValue) :
    (Coercion.mailbox.coerce? v = some w ↔
        ∃ s, v = .text s ∧ w = .text s ∧ Mailbox.IsAddress s.toList) ∧
      ∀ cs, Mailbox.IsAddress cs ↔ cs ∈ Mailbox.Pattern.address := by
  refine ⟨?_, fun cs => Mailbox.Pattern.mem_address_iff.symm⟩
  simp only [← Mailbox.accepts_iff]
  constructor
  · intro h
    cases v with
    | text s =>
      obtain ⟨hs, hw⟩ := Option.ite_none_right_eq_some.mp h
      exact ⟨s, rfl, (Option.some.inj hw).symm, hs⟩
    | number _ | integer _ | boolean _ | date _ | json _ =>
      exact absurd h (by simp [coerce?, toMailbox?])
  · rintro ⟨s, rfl, rfl, hs⟩
    exact if_pos hs

end RequestGuard
