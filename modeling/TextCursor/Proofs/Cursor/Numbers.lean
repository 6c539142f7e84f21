import TextCursor.Proofs.Cursor.Onward
import TextCursor.Proofs.Text.PlaceValue

namespace TextCursor.Cursor

variable {c next : Cursor} {type : IntegerType} {v : Int}

section Decimal

variable {d : Decimal} (hd : Decimal.ahead c.remaining = d)
include hd

theorem readInteger?_missing (h : d.digits = []) :
    c.readInteger? type = .error ⟨.missingDigits 10, c.offset + d.signText.byteLength⟩ := by
  simp only [readInteger?, hd, h, List.isEmpty_nil, if_true]

theorem readInteger?_outOfRange (h : d.digits ≠ []) (hv : type.ofDecimal? d = none) :
    c.readInteger? type = .error ⟨.outOfRange d.text type.name.toList, c.offset⟩ := by
  have hdigits : d.digits.isEmpty = false := by simpa using h
  simp only [readInteger?, hd, hdigits, hv, Bool.false_eq_true, if_false]

theorem readInteger?_inRange (h : d.digits ≠ []) (hv : type.ofDecimal? d = some v) :
    c.readInteger? type = .ok (v, (c.advance d.text.length).record c .integer) := by
  have hdigits : d.digits.isEmpty = false := by simpa using h
  simp only [readInteger?, hd, hdigits, hv, Bool.false_eq_true, if_false]

end Decimal

section Hexadecimal

variable {d : Hexadecimal} (hd : Hexadecimal.ahead c.remaining = d)
include hd

theorem readHex?_missing (h : d.digits = []) :
    c.readHex? = .error ⟨.missingDigits 16, c.offset + d.marker.byteLength⟩ := by
  simp only [readHex?, hd, h, List.isEmpty_nil, if_true]

theorem readHex?_outOfRange (h : d.digits ≠ [])
    (hv : ¬ (digitsValue 16 d.digits : Int) ≤ IntegerType.int64.max) :
    c.readHex? = .error ⟨.outOfRange d.digits IntegerType.int64.name.toList, c.offset⟩ := by
  have hdigits : d.digits.isEmpty = false := by simpa using h
  simp only [readHex?, Hexadecimal.value, hd, hdigits, if_neg hv, Bool.false_eq_true, if_false]

theorem readHex?_inRange (h : d.digits ≠ [])
    (hv : (digitsValue 16 d.digits : Int) ≤ IntegerType.int64.max) :
    c.readHex? =
      .ok (digitsValue 16 d.digits, (c.advance d.text.length).record c .hexadecimal) := by
  have hdigits : d.digits.isEmpty = false := by simpa using h
  simp only [readHex?, Hexadecimal.value, hd, hdigits, if_pos hv, Bool.false_eq_true, if_false]

end Hexadecimal

section Numeral

variable {sign marker digits rest : Text}

theorem readInteger?_eq (h : c.remaining.DecimalNumeral sign digits rest) :
    c.readInteger? type =
      if digits = [] then .error ⟨.missingDigits 10, c.offset + sign.byteLength⟩
      else if type.Takes sign digits then
        .ok (signedValue sign digits, (c.advance (sign ++ digits).length).record c .integer)
      else .error ⟨.outOfRange (sign ++ digits) type.name.toList, c.offset⟩ := by
  obtain ⟨rest', hahead⟩ := Decimal.numeral_ahead c.remaining
  obtain ⟨rfl, rfl, rfl⟩ := hahead.unique h
  have hv := type.ofDecimal?_eq hahead.all
  split
  · exact readInteger?_missing rfl ‹_›
  · split at hv
    · rw [if_pos ‹_›]
      exact readInteger?_inRange rfl ‹_› hv
    · rw [if_neg ‹_›]
      exact readInteger?_outOfRange rfl ‹_› hv

theorem readHex?_eq (h : c.remaining.HexNumeral marker digits rest) :
    c.readHex? =
      if digits = [] then .error ⟨.missingDigits 16, c.offset + marker.byteLength⟩
      else if hexValue digits < 2 ^ 63 then
        .ok (hexValue digits, (c.advance (marker ++ digits).length).record c .hexadecimal)
      else .error ⟨.outOfRange digits ['i', '6', '4'], c.offset⟩ := by
  obtain ⟨rest', hahead⟩ := Hexadecimal.numeral_ahead c.remaining
  obtain ⟨rfl, rfl, rfl⟩ := hahead.unique h
  have hfits := hahead.le_max_iff
  rw [← digitsValue_sixteen hahead.all] at hfits ⊢
  split
  · exact readHex?_missing rfl ‹_›
  · split
    · exact readHex?_inRange rfl ‹_› (hfits.2 ‹_›)
    · exact readHex?_outOfRange rfl ‹_› (mt hfits.1 ‹_›)

end Numeral

theorem of_readInteger?_ok (h : c.readInteger? type = .ok (v, next)) :
    ∃ sign digits, c.remaining.DecimalNumeral sign digits next.remaining ∧ digits ≠ [] ∧
      type.Takes sign digits ∧ v = signedValue sign digits := by
  obtain ⟨rest, hahead⟩ := Decimal.numeral_ahead c.remaining
  rw [readInteger?_eq hahead] at h
  split at h
  · cases h
  · split at h
    · cases h
      have hrest := (advance_record hahead.eq .integer).1
      exact ⟨_, _, hrest ▸ hahead, ‹_›, ‹_›, rfl⟩
    · cases h

theorem of_readHex?_ok (h : c.readHex? = .ok (v, next)) :
    ∃ marker digits, c.remaining.HexNumeral marker digits next.remaining ∧ digits ≠ [] ∧
      v = hexValue digits := by
  obtain ⟨rest, hahead⟩ := Hexadecimal.numeral_ahead c.remaining
  rw [readHex?_eq hahead] at h
  split at h
  · cases h
  · split at h
    · cases h
      have hrest := (advance_record hahead.eq .hexadecimal).1
      exact ⟨_, _, hrest ▸ hahead, ‹_›, rfl⟩
    · cases h

theorem readInteger?_of_numeral {sign digits rest : Text}
    (h : c.remaining.DecimalNumeral sign digits rest) (hne : digits ≠ [])
    (htakes : type.Takes sign digits) :
    ∃ next, c.readInteger? type = .ok (signedValue sign digits, next) ∧ next.remaining = rest := by
  rw [readInteger?_eq h, if_neg hne, if_pos htakes]
  exact ⟨_, rfl, (advance_record h.eq _).1⟩

theorem eq_of_readInteger?_ok (h : c.readInteger? type = .ok (v, next)) :
    ∃ n, next = (c.advance n).record c .integer := by
  simp only [readInteger?] at h
  split at h
  · cases h
  · split at h <;> cases h
    exact ⟨_, rfl⟩

end TextCursor.Cursor
