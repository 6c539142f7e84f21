import TextCursor.Operation
import TextCursor.Proofs.Cursor.Numbers

namespace TextCursor

namespace IntegerType

/-- The integer that a word of the type stands for. -/
def wordValue (type : IntegerType) (w : BitVec type.width.bits) : Int :=
  if type.signed then w.toInt else w.toNat

theorem between_iff (type : IntegerType) (n : Int) :
    type.min ≤ n ∧ n ≤ type.max ↔ ∃ w, type.wordValue w = n := by
  have hbits : 0 < type.width.bits := by cases type.width <;> decide
  have hpow (k : Nat) : Int.pow 2 k = 2 ^ k := rfl
  obtain ⟨signed, width⟩ := type
  cases signed with
  | false =>
    simp only [min, max, wordValue, Bool.false_eq_true, if_false, hpow]
    constructor
    · rintro ⟨hmin, hmax⟩
      have hlt : n.toNat < 2 ^ width.bits := by
        zify
        omega
      refine ⟨BitVec.ofNat _ n.toNat, ?_⟩
      rw [BitVec.toNat_ofNat, Nat.mod_eq_of_lt hlt]
      omega
    · rintro ⟨w, rfl⟩
      have hlt : (w.toNat : Int) < 2 ^ width.bits := by exact_mod_cast w.isLt
      omega
  | true =>
    simp only [min, max, wordValue, if_true, hpow]
    constructor
    · rintro ⟨hmin, hmax⟩
      exact ⟨BitVec.ofInt _ n,
        BitVec.toInt_ofInt_eq_self hbits hmin (Int.lt_of_le_sub_one hmax)⟩
    · rintro ⟨w, rfl⟩
      exact ⟨w.le_toInt, Int.le_sub_one_of_lt w.toInt_lt⟩

end IntegerType

/-- A decimal number is read as the integer that it denotes, and the cursor moves over just its
text. Where there is no digit, or the type does not take the number, the cursor stays. -/
theorem decimals_are_read_exactly (type : IntegerType) (c : Cursor) :
    (∀ n, type.min ≤ n ∧ n ≤ type.max ↔ ∃ w, type.wordValue w = n) ∧
    (∃ sign digits rest, c.remaining.DecimalNumeral sign digits rest) ∧
    ∀ sign digits rest, c.remaining.DecimalNumeral sign digits rest →
      (digits = [] → (Operation.tryReadInteger type).run c =
        .ok (.attempt (.error ⟨.missingDigits 10, c.offset + sign.byteLength⟩)) c) ∧
      (digits ≠ [] → type.Takes sign digits → ∃ next, (Operation.tryReadInteger type).run c =
          .ok (.attempt (.ok (signedValue sign digits))) next ∧
        next.remaining = rest ∧ next.consumed = c.consumed ++ (sign ++ digits)) ∧
      (digits ≠ [] → ¬ type.Takes sign digits → (Operation.tryReadInteger type).run c =
        .ok (.attempt (.error ⟨.outOfRange (sign ++ digits) type.name.toList, c.offset⟩)) c) := by
  obtain ⟨rest, hahead⟩ := Decimal.numeral_ahead c.remaining
  refine ⟨type.between_iff, ⟨_, _, rest, hahead⟩, fun sign digits rest' hnumeral ↦ ?_⟩
  have hread : c.readInteger? type = _ := Cursor.readInteger?_eq hnumeral
  refine ⟨fun hempty ↦ ?_, fun hne htakes ↦ ?_, fun hne htakes ↦ ?_⟩
  · rw [if_pos hempty] at hread
    exact Scan.map_ok (Scan.attemptExcept_error hread)
  · rw [if_neg hne, if_pos htakes] at hread
    exact ⟨_, Scan.map_ok (Scan.attemptExcept_ok hread), Cursor.advance_record hnumeral.eq _⟩
  · rw [if_neg hne, if_neg htakes] at hread
    exact Scan.map_ok (Scan.attemptExcept_error hread)

theorem decimals_are_read_exactly_signs :
    (∃ next, (Operation.tryReadInteger ⟨true, .bits8⟩).run
        (.ofText {} ['-', '0', '0', '1', '2', '8', '٣']) = .ok (.attempt (.ok (-128))) next ∧
      next.remaining = ['٣'] ∧ next.consumed = ['-', '0', '0', '1', '2', '8']) ∧
    (Operation.tryReadInteger ⟨false, .bits8⟩).run (.ofText {} ['-', '0', 'x']) =
      .ok (.attempt (.error ⟨.outOfRange ['-', '0'] ['u', '8'], 0⟩))
        (.ofText {} ['-', '0', 'x']) := by
  constructor
  · obtain ⟨-, -, hread⟩ := decimals_are_read_exactly ⟨true, .bits8⟩
      (.ofText {} ['-', '0', '0', '1', '2', '8', '٣'])
    have hvalue : signedValue ['-'] ['0', '0', '1', '2', '8'] = -128 := by decide +kernel
    obtain ⟨-, htaken, -⟩ := hread ['-'] ['0', '0', '1', '2', '8'] ['٣']
      ⟨rfl, rfl, List.all_eq_true.1 rfl, by rintro _ ⟨⟩; decide⟩
    rw [hvalue] at htaken
    exact htaken (by decide) (by decide +kernel)
  · obtain ⟨-, -, hread⟩ := decimals_are_read_exactly ⟨false, .bits8⟩
      (.ofText {} ['-', '0', 'x'])
    obtain ⟨-, -, hrefused⟩ := hread ['-'] ['0'] ['x']
      ⟨rfl, rfl, List.all_eq_true.1 rfl, by rintro _ ⟨⟩; decide⟩
    exact hrefused (by decide) (by decide +kernel)

end TextCursor
