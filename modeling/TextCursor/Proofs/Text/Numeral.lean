import TextCursor.IntegerType
import TextCursor.Proofs.Text.Run

namespace TextCursor

def NoDigitAhead (t : Text) : Prop :=
  ∀ ch ∈ t.head?, isDigit 10 ch = false

theorem isDigit_ten (ch : Char) : isDigit 10 ch = ch.isDigit := by
  unfold isDigit digitValue?
  by_cases hd : '0' ≤ ch ∧ ch ≤ '9'
  · obtain ⟨hl, hu⟩ := hd
    have hnine : ch.toNat ≤ 57 := hu
    have hlt : ch.toNat - 48 < 10 := by omega
    have hdigit : ch.isDigit = true := by
      simp only [Char.isDigit, Bool.and_eq_true, decide_eq_true_eq]
      exact ⟨hl, hu⟩
    rw [if_pos ⟨hl, hu⟩, hdigit]
    simpa using hlt
  · have hdigit : ch.isDigit = false := by
      simp only [Char.isDigit, Bool.and_eq_false_iff, decide_eq_false_iff_not]
      exact Decidable.not_and_iff_not_or_not.1 hd
    rw [if_neg hd, hdigit]
    split
    · simp
    · split <;> simp

theorem toNat_lt_of_isDigit {radix : Nat} {ch : Char} (h : isDigit radix ch = true) :
    ch.toNat < 128 := by
  unfold isDigit digitValue? at h
  split at h
  · rename_i hd
    have hnine : ch.toNat ≤ 57 := hd.2
    omega
  · split at h
    · rename_i hd
      have hz : ch.toNat ≤ 122 := hd.2
      omega
    · split at h
      · rename_i hd
        have hz : ch.toNat ≤ 90 := hd.2
        omega
      · cases h

theorem digitsAhead_append {digits rest : Text} (hd : ∀ ch ∈ digits, isDigit 10 ch = true)
    (hr : NoDigitAhead rest) : digitsAhead 10 (digits ++ rest) = digits :=
  (Text.Run.mk rfl hd hr).takeWhile_eq.1

theorem digitsAhead_run (radix : Nat) (t : Text) :
    Text.Run (isDigit radix) t (digitsAhead radix t) (t.dropWhile (isDigit radix)) :=
  .takeWhile _ _

theorem digitValue?_digitChar : ∀ n < 16, digitValue? n.digitChar = some n := by
  decide

theorem digitsValue_append (radix : Nat) (digits : Text) (ch : Char) :
    digitsValue radix (digits ++ [ch]) =
      digitsValue radix digits * radix + (digitValue? ch).getD 0 := by
  simp [digitsValue]

theorem exists_digitChar_of_mem_toDigits {radix : Nat} (hradix : 1 < radix) (n : Nat) :
    ∀ ch ∈ Nat.toDigits radix n, ∃ k < radix, ch = k.digitChar := by
  induction n using Nat.strongRecOn with
  | ind n ih =>
    intro ch hch
    by_cases hn : n < radix
    · rw [Nat.toDigits_of_lt_base hn, List.mem_singleton] at hch
      exact ⟨n, hn, hch⟩
    · rw [Nat.toDigits_of_base_le hradix (Nat.not_lt.1 hn), List.mem_append] at hch
      rcases hch with hch | hch
      · exact ih (n / radix) (Nat.div_lt_self (by omega) hradix) ch hch
      · rw [List.mem_singleton] at hch
        exact ⟨n % radix, Nat.mod_lt n (by omega), hch⟩

section toDigits

variable {radix : Nat} (hradix : 1 < radix) (hle : radix ≤ 16)
include hradix hle

theorem isDigit_of_mem_toDigits (n : Nat) :
    ∀ ch ∈ Nat.toDigits radix n, isDigit radix ch = true := by
  intro ch hch
  obtain ⟨k, hk, rfl⟩ := exists_digitChar_of_mem_toDigits hradix n ch hch
  simpa [isDigit, digitValue?_digitChar k (by omega)] using hk

theorem digitsValue_toDigits (n : Nat) : digitsValue radix (Nat.toDigits radix n) = n := by
  induction n using Nat.strongRecOn with
  | ind n ih =>
    by_cases hn : n < radix
    · rw [Nat.toDigits_of_lt_base hn]
      simp [digitsValue, digitValue?_digitChar n (by omega)]
    · have hmod : n % radix < radix := Nat.mod_lt n (by omega)
      rw [Nat.toDigits_of_base_le hradix (Nat.not_lt.1 hn), digitsValue_append,
        ih (n / radix) (Nat.div_lt_self (by omega) hradix),
        digitValue?_digitChar (n % radix) (by omega), Option.getD_some]
      exact Nat.div_add_mod' n radix

end toDigits

theorem Sign.ofChar?_of_isDigit {ch : Char} (h : isDigit 10 ch = true) :
    Sign.ofChar? ch = none := by
  have hplus : ch ≠ '+' := by rintro rfl; revert h; decide
  have hminus : ch ≠ '-' := by rintro rfl; revert h; decide
  simp [Sign.ofChar?, hplus, hminus]

theorem Sign.ofChar?_char (s : Sign) : Sign.ofChar? s.char = some s := by
  cases s <;> rfl

theorem Sign.char_of_ofChar? {ch : Char} {s : Sign} (h : Sign.ofChar? ch = some s) :
    s.char = ch := by
  unfold Sign.ofChar? at h
  split at h
  · cases h; exact (‹ch = '+'›).symm
  · split at h
    · cases h; exact (‹ch = '-'›).symm
    · cases h

namespace Decimal

structure Proper (d : Decimal) : Prop where
  ne_nil : d.digits ≠ []
  digit : ∀ ch ∈ d.digits, isDigit 10 ch = true

theorem ahead_append {d : Decimal} (hd : d.Proper) {rest : Text} (hr : NoDigitAhead rest) :
    ahead (d.text ++ rest) = d := by
  obtain ⟨sign, digits⟩ := d
  have hrun := digitsAhead_append hd.digit hr
  cases sign with
  | some s =>
    simp only [text, signText, Option.map_some, Option.toList_some, List.cons_append,
      List.nil_append, ahead, Sign.ofChar?_char, hrun]
  | none =>
    cases digits with
    | nil => exact absurd rfl hd.ne_nil
    | cons ch digits =>
      have hch := Sign.ofChar?_of_isDigit (hd.digit ch List.mem_cons_self)
      simp only [text, signText, Option.map_none, Option.toList_none, List.nil_append,
        List.cons_append, ahead, hch]
      exact congrArg (Decimal.mk none) hrun

theorem ahead_spec (t : Text) :
    ∃ rest, t = (ahead t).text ++ rest ∧ (∀ ch ∈ (ahead t).digits, isDigit 10 ch = true) ∧
      NoDigitAhead rest := by
  cases t with
  | nil => exact ⟨[], rfl, by simp [ahead], by simp [NoDigitAhead]⟩
  | cons ch t =>
    cases h : Sign.ofChar? ch with
    | some s =>
      have hrun := digitsAhead_run 10 t
      simp only [ahead, h, text, signText]
      refine ⟨_, ?_, hrun.all, hrun.stops⟩
      simp [Sign.char_of_ofChar? h, ← hrun.eq]
    | none =>
      have hrun := digitsAhead_run 10 (ch :: t)
      simp only [ahead, h, text, signText]
      exact ⟨_, by simpa using hrun.eq, hrun.all, hrun.stops⟩

/-- The number as it is usually written: a minus sign where it is needed, and no digit too many. -/
def ofInt (n : Int) : Decimal :=
  ⟨if n < 0 then some .minus else none, Nat.toDigits 10 n.natAbs⟩

theorem ofInt_proper (n : Int) : (ofInt n).Proper :=
  ⟨Nat.toDigits_ne_nil, isDigit_of_mem_toDigits (by decide) (by decide) _⟩

theorem value_ofInt (n : Int) : (ofInt n).value = n := by
  unfold value ofInt
  rw [digitsValue_toDigits (by decide) (by decide)]
  by_cases hn : n < 0
  · simp only [hn, if_true]
    omega
  · simp only [hn, if_false, reduceCtorEq]
    omega

theorem text_ofInt (n : Int) : (ofInt n).text = (toString n).toList := by
  cases n with
  | ofNat n =>
    have h : ¬ Int.ofNat n < 0 := by simp
    simp only [text, signText, ofInt, h, if_false]
    simp [toString, Int.repr]
  | negSucc n =>
    have h : Int.negSucc n < 0 := Int.negSucc_lt_zero n
    simp only [text, signText, ofInt, h, if_true]
    simp [toString, Int.repr, Sign.char]

end Decimal

namespace Hexadecimal

theorem ahead_spec (t : Text) :
    ∃ rest, t = (ahead t).text ++ rest ∧ (∀ ch ∈ (ahead t).digits, isDigit 16 ch = true) ∧
      ∀ ch ∈ rest.head?, isDigit 16 ch = false := by
  by_cases h : ['0', 'x'].isPrefixOf t
  · obtain ⟨unmarked, rfl⟩ := List.isPrefixOf_iff_prefix.1 h
    have hrun := digitsAhead_run 16 unmarked
    refine ⟨_, ?_, hrun.all, hrun.stops⟩
    exact congrArg (['0', 'x'] ++ ·) hrun.eq
  · have hrun := digitsAhead_run 16 t
    have hahead : ahead t = ⟨[], digitsAhead 16 t⟩ := if_neg h
    rw [hahead]
    exact ⟨_, hrun.eq, hrun.all, hrun.stops⟩

end Hexadecimal

end TextCursor
