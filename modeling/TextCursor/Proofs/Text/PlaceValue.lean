import Mathlib.Data.List.Induction
import Mathlib.Data.Nat.Digits.Defs
import TextCursor.Proofs.Text.Numeral

namespace TextCursor

def digitAlphabet : Text :=
  ['0', '1', '2', '3', '4', '5', '6', '7', '8', '9', 'a', 'b', 'c', 'd', 'e', 'f']

def isHexDigit (ch : Char) : Bool :=
  digitAlphabet.contains ch.toLower

/-- The number that digits denote by their places, of which the last counts ones. -/
def placeValue (radix : Nat) (digits : Text) : Nat :=
  Nat.ofDigits radix (digits.reverse.map fun ch ↦ digitAlphabet.idxOf ch)

def hexValue (digits : Text) : Nat :=
  placeValue 16 (digits.map Char.toLower)

theorem mem_digitAlphabet {ch : Char} : ch ∈ digitAlphabet ↔ ∃ k < 16, k.digitChar = ch := by
  have hdigits : digitAlphabet = (List.range 16).map Nat.digitChar := rfl
  simp only [hdigits, List.mem_map, List.mem_range]

theorem digitValue?_of_mem {ch : Char} (h : ch ∈ digitAlphabet) :
    digitValue? ch = some (digitAlphabet.idxOf ch) := by
  have hindex : ∀ k < 16, digitAlphabet.idxOf k.digitChar = k := by decide
  obtain ⟨k, hk, rfl⟩ := mem_digitAlphabet.1 h
  rw [digitValue?_digitChar k hk, hindex k hk]

theorem mem_digitAlphabet_of_mem_toDigits (n : Nat) :
    ∀ ch ∈ Nat.toDigits 16 n, ch ∈ digitAlphabet := by
  intro ch hch
  obtain ⟨k, hk, rfl⟩ := exists_digitChar_of_mem_toDigits (by decide) n ch hch
  exact mem_digitAlphabet.2 ⟨k, hk, rfl⟩

theorem forall_char_of_ascii {P : Char → Prop} (hascii : ∀ n < 128, P (Char.ofNat n))
    (hother : ∀ ch : Char, 128 ≤ ch.toNat → P ch) (ch : Char) : P ch := by
  by_cases hch : ch.toNat < 128
  · rw [← Char.ofNat_toNat ch]
    exact hascii _ hch
  · exact hother ch (Nat.not_lt.1 hch)

theorem toLower_of_not_ascii {ch : Char} (h : 128 ≤ ch.toNat) : ch.toLower = ch := by
  apply dif_neg
  rintro ⟨-, hz⟩
  have hbound : ch.toNat ≤ 90 := hz
  omega

theorem digitValue?_toLower : ∀ ch : Char, digitValue? ch.toLower = digitValue? ch := by
  apply forall_char_of_ascii
  · decide +kernel
  · intro ch hch
    rw [toLower_of_not_ascii hch]

theorem isDigit_sixteen : ∀ ch : Char, isDigit 16 ch = isHexDigit ch := by
  have hbound : ∀ k < 16, k.digitChar.toNat < 128 := by decide
  apply forall_char_of_ascii
  · decide +kernel
  · intro ch hch
    rw [Bool.eq_iff_iff]
    constructor
    · intro h
      have hlt := toNat_lt_of_isDigit h
      omega
    · intro h
      obtain ⟨k, hk, hdigit⟩ := mem_digitAlphabet.1 (List.contains_iff_mem.1 h)
      have hlt := hbound k hk
      rw [hdigit, toLower_of_not_ascii hch] at hlt
      omega

theorem mem_digitAlphabet_of_isDigit : ∀ ch : Char, ch.isDigit = true → ch ∈ digitAlphabet := by
  apply forall_char_of_ascii
  · decide +kernel
  · intro ch hch h
    rw [← isDigit_ten] at h
    have hlt := toNat_lt_of_isDigit h
    omega

theorem placeValue_append (radix : Nat) (digits : Text) (ch : Char) :
    placeValue radix (digits ++ [ch]) =
      digitAlphabet.idxOf ch + radix * placeValue radix digits := by
  simp [placeValue, Nat.ofDigits_cons]

theorem placeValue_zeros (radix zeros : Nat) (digits : Text) :
    placeValue radix (List.replicate zeros '0' ++ digits) = placeValue radix digits := by
  have hzero : digitAlphabet.idxOf '0' = 0 := rfl
  simp [placeValue, hzero, Nat.ofDigits_append, Nat.ofDigits_replicate_zero]

theorem digitsValue_eq_placeValue (radix : Nat) {digits : Text}
    (h : ∀ ch ∈ digits, ch ∈ digitAlphabet) :
    digitsValue radix digits = placeValue radix digits := by
  induction digits using List.reverseRecOn with
  | nil => rfl
  | append_singleton digits ch ih =>
    have hvalue := digitValue?_of_mem (h ch (by simp))
    rw [digitsValue_append, placeValue_append, ih fun ch hch ↦ h ch (by simp [hch]), hvalue,
      Option.getD_some, Nat.mul_comm, Nat.add_comm]

theorem digitsValue_map_toLower (radix : Nat) (digits : Text) :
    digitsValue radix (digits.map Char.toLower) = digitsValue radix digits := by
  simp only [digitsValue, List.foldl_map, digitValue?_toLower]

theorem digitsValue_sixteen {digits : Text} (h : ∀ ch ∈ digits, isHexDigit ch = true) :
    digitsValue 16 digits = hexValue digits := by
  rw [hexValue, ← digitsValue_eq_placeValue, digitsValue_map_toLower]
  intro ch hch
  obtain ⟨ch, hmem, rfl⟩ := List.mem_map.1 hch
  exact List.contains_iff_mem.1 (h ch hmem)

/-- A number in base sixteen as it may be written: with zeros in front, and with each letter in
either case. -/
def HexRendering (n : Nat) (digits : Text) : Prop :=
  ∃ zeros, digits.map Char.toLower = List.replicate zeros '0' ++ Nat.toDigits 16 n

namespace HexRendering

variable {n : Nat} {digits : Text}

theorem ne_nil (h : HexRendering n digits) : digits ≠ [] := by
  rintro rfl
  obtain ⟨zeros, hdigits⟩ := h
  exact Nat.toDigits_ne_nil (List.append_eq_nil_iff.1 hdigits.symm).2

theorem digit (h : HexRendering n digits) : ∀ ch ∈ digits, isHexDigit ch = true := by
  obtain ⟨zeros, hdigits⟩ := h
  intro ch hch
  have hmem : ch.toLower ∈ List.replicate zeros '0' ++ Nat.toDigits 16 n :=
    hdigits ▸ List.mem_map_of_mem hch
  apply List.contains_iff_mem.2
  rcases List.mem_append.1 hmem with hzero | hdigit
  · rw [List.eq_of_mem_replicate hzero]
    decide
  · exact mem_digitAlphabet_of_mem_toDigits n _ hdigit

theorem value (h : HexRendering n digits) : hexValue digits = n := by
  obtain ⟨zeros, hdigits⟩ := h
  rw [hexValue, hdigits, placeValue_zeros,
    ← digitsValue_eq_placeValue 16 (mem_digitAlphabet_of_mem_toDigits n)]
  exact digitsValue_toDigits (by decide) (by decide) n

end HexRendering

def signAhead (t : Text) : Text :=
  (t.head?.filter fun ch ↦ ch == '+' || ch == '-').toList

abbrev Text.DecimalNumeral (t sign digits rest : Text) : Prop :=
  Text.Numeral signAhead Char.isDigit t sign digits rest

/-- The integer that a sign and the digits behind it denote in base ten. -/
def signedValue (sign digits : Text) : Int :=
  if sign = ['-'] then -(placeValue 10 digits : Int) else placeValue 10 digits

theorem Text.DecimalNumeral.append {t sign digits rest rest' : Text}
    (h : t.DecimalNumeral sign digits rest) (hne : digits ≠ [])
    (hrest' : ∀ ch ∈ rest'.head?, ch.isDigit = false) :
    Text.DecimalNumeral (sign ++ digits ++ rest') sign digits rest' := by
  have hhead : (sign ++ digits ++ rest').head? = t.head? := by
    rw [h.eq]
    cases hnumber : sign ++ digits with
    | nil => exact absurd hnumber (List.append_ne_nil_of_right_ne_nil _ hne)
    | cons _ _ => rfl
  refine ⟨?_, rfl, h.all, hrest'⟩
  rw [signAhead, hhead]
  exact h.lead_eq

namespace Decimal

theorem signText_ahead (t : Text) : (ahead t).signText = signAhead t := by
  cases t with
  | nil => rfl
  | cons ch t =>
    by_cases hplus : ch = '+'
    · subst hplus
      rfl
    · by_cases hminus : ch = '-'
      · subst hminus
        rfl
      · simp [ahead, Sign.ofChar?, signText, signAhead, hplus, hminus]

theorem signText_eq_minus {d : Decimal} : d.signText = ['-'] ↔ d.sign = some .minus := by
  obtain ⟨sign, digits⟩ := d
  rcases sign with _ | _ | _ <;> simp [signText, Sign.char]

theorem numeral_ahead (t : Text) :
    ∃ rest, t.DecimalNumeral (ahead t).signText (ahead t).digits rest := by
  obtain ⟨rest, ht, hdigit, hrest⟩ := ahead_spec t
  simp only [NoDigitAhead, isDigit_ten] at hdigit hrest
  exact ⟨rest, signText_ahead t, ht, hdigit, hrest⟩

theorem Proper.numeral {d : Decimal} (hd : d.Proper) {rest : Text} (hrest : NoDigitAhead rest) :
    Text.DecimalNumeral (d.text ++ rest) d.signText d.digits rest := by
  obtain ⟨rest', hahead⟩ := numeral_ahead (d.text ++ rest)
  rw [ahead_append hd hrest] at hahead
  obtain rfl : rest = rest' := List.append_cancel_left hahead.eq
  exact hahead

theorem value_eq {d : Decimal} (h : ∀ ch ∈ d.digits, ch.isDigit = true) :
    d.value = signedValue d.signText d.digits := by
  have hdigits : digitsValue 10 d.digits = placeValue 10 d.digits :=
    digitsValue_eq_placeValue 10 fun ch hch ↦ mem_digitAlphabet_of_isDigit ch (h ch hch)
  simp only [value, signedValue, signText_eq_minus, hdigits]

theorem signedValue_ofInt (n : Int) : signedValue (ofInt n).signText (ofInt n).digits = n := by
  rw [← value_eq, value_ofInt]
  simpa only [isDigit_ten] using (ofInt_proper n).digit

end Decimal

namespace IntegerType

/-- The type has the number that is written, and takes the sign that it is written with. -/
def Takes (type : IntegerType) (sign digits : Text) : Prop :=
  type.min ≤ signedValue sign digits ∧ signedValue sign digits ≤ type.max ∧
    ¬ (sign = ['-'] ∧ type.signed = false)

instance (type : IntegerType) (sign digits : Text) : Decidable (type.Takes sign digits) :=
  inferInstanceAs (Decidable (_ ∧ _ ∧ ¬ _))

theorem ofDecimal?_eq (type : IntegerType) {d : Decimal}
    (h : ∀ ch ∈ d.digits, ch.isDigit = true) :
    type.ofDecimal? d =
      if type.Takes d.signText d.digits then some (signedValue d.signText d.digits) else none := by
  simp only [ofDecimal?, Takes, Decimal.value_eq h, Decimal.signText_eq_minus]
  by_cases hminus : d.sign = some .minus ∧ type.signed = false
  · rw [if_pos hminus, if_neg fun htakes ↦ htakes.2.2 hminus]
  · simp only [hminus, if_false, not_false_eq_true, and_true]

theorem takes_ofInt {type : IntegerType} {n : Int} (hmin : type.min ≤ n) (hmax : n ≤ type.max) :
    type.Takes (Decimal.ofInt n).signText (Decimal.ofInt n).digits := by
  rw [Takes, Decimal.signedValue_ofInt]
  refine ⟨hmin, hmax, ?_⟩
  rintro ⟨hsign, hsigned⟩
  simp only [min, hsigned, Bool.false_eq_true, if_false] at hmin
  rw [Decimal.signText_eq_minus, Decimal.ofInt, if_neg (Int.not_lt.2 hmin)] at hsign
  cases hsign

end IntegerType

def markerAhead (t : Text) : Text :=
  if ['0', 'x'] <+: t then ['0', 'x'] else []

abbrev Text.HexNumeral (t marker digits rest : Text) : Prop :=
  Text.Numeral markerAhead isHexDigit t marker digits rest

theorem Text.HexNumeral.whole {t marker digits rest : Text} (h : t.HexNumeral marker digits rest) :
    Text.HexNumeral (marker ++ digits) marker digits [] := by
  refine ⟨?_, (List.append_nil _).symm, h.all, nofun⟩
  have hlead := h.lead_eq
  rw [markerAhead] at hlead ⊢
  split at hlead
  · rw [hlead, if_pos (List.prefix_append _ _)]
  · rename_i habsent
    rw [if_neg, hlead]
    intro hmarker
    exact habsent (h.eq ▸ hmarker.trans (List.prefix_append _ _))

theorem Text.HexNumeral.le_max_iff {t marker digits rest : Text}
    (h : t.HexNumeral marker digits rest) :
    (digitsValue 16 digits : Int) ≤ IntegerType.int64.max ↔ hexValue digits < 2 ^ 63 := by
  have hmax : IntegerType.int64.max = 2 ^ 63 - 1 := rfl
  rw [hmax, digitsValue_sixteen h.all]
  omega

theorem Hexadecimal.numeral_ahead (t : Text) :
    ∃ rest, t.HexNumeral (ahead t).marker (ahead t).digits rest := by
  obtain ⟨rest, ht, hdigit, hrest⟩ := ahead_spec t
  have hmarker : (ahead t).marker = markerAhead t := by
    simp only [ahead, markerAhead, List.isPrefixOf_iff_prefix]
    split <;> rfl
  simp only [isDigit_sixteen] at hdigit hrest
  exact ⟨rest, hmarker, ht, hdigit, hrest⟩

end TextCursor
