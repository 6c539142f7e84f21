import TextCursor.Proofs.Operation.Attempt

namespace TextCursor

section numeral

variable {c : Cursor} {marker digits rest : Text} (h : c.remaining.HexNumeral marker digits rest)
include h

theorem tryReadHex_missing (hempty : digits = []) : Operation.tryReadHex.run c =
    .ok (.attempt (.error ⟨.missingDigits 16, c.offset + marker.byteLength⟩)) c := by
  have hread := Cursor.readHex?_eq h
  rw [if_pos hempty] at hread
  exact Scan.map_ok (Scan.attemptExcept_error hread)

theorem tryReadHex_outOfRange (hne : digits ≠ []) (hvalue : 2 ^ 63 ≤ hexValue digits) :
    Operation.tryReadHex.run c =
      .ok (.attempt (.error ⟨.outOfRange digits ['i', '6', '4'], c.offset⟩)) c := by
  have hread := Cursor.readHex?_eq h
  rw [if_neg hne, if_neg (Nat.not_lt.2 hvalue)] at hread
  exact Scan.map_ok (Scan.attemptExcept_error hread)

theorem tryReadHex_inRange (hne : digits ≠ []) (hvalue : hexValue digits < 2 ^ 63) :
    ∃ next, Operation.tryReadHex.run c = .ok (.attempt (.ok (hexValue digits))) next ∧
      next.remaining = rest ∧ next.consumed = c.consumed ++ (marker ++ digits) := by
  have hread := Cursor.readHex?_eq h
  rw [if_neg hne, if_pos hvalue] at hread
  exact ⟨_, Scan.map_ok (Scan.attemptExcept_ok hread), Cursor.advance_record h.eq _⟩

end numeral

theorem HexRendering.numeral {n : Nat} {marker digits rest : Text} (h : HexRendering n digits)
    (hmarker : marker = [] ∨ marker = ['0', 'x'])
    (hrest : ∀ ch ∈ rest.head?, isHexDigit ch = false)
    (hx : ¬ (marker = [] ∧ digits = ['0'] ∧ rest.head? = some 'x')) :
    Text.HexNumeral (marker ++ digits ++ rest) marker digits rest := by
  refine ⟨?_, rfl, h.digit, hrest⟩
  rcases hmarker with rfl | rfl
  · symm
    apply if_neg
    rintro ⟨after, hafter⟩
    match digits, h.ne_nil with
    | [zero], _ =>
      obtain ⟨rfl, rfl⟩ : '0' = zero ∧ 'x' :: after = rest := by simpa using hafter
      exact hx ⟨rfl, rfl, rfl⟩
    | zero :: ch :: digits, _ =>
      obtain ⟨-, rfl, -⟩ : '0' = zero ∧ 'x' = ch ∧ after = digits ++ rest := by simpa using hafter
      have hdigit := h.digit 'x' (by simp)
      revert hdigit
      decide
  · exact (if_pos (List.prefix_append _ _)).symm

/-- A hexadecimal number is read as what its digits denote, and the cursor moves over just its text.
However a number that is in range is written, it is read back, unless the text behind it turns a
lone zero into a marker. -/
theorem hexadecimals_are_read_exactly (c : Cursor) :
    (∃ marker digits rest, c.remaining.HexNumeral marker digits rest) ∧
    (∀ marker digits rest, c.remaining.HexNumeral marker digits rest →
      (digits = [] → Operation.tryReadHex.run c =
        .ok (.attempt (.error ⟨.missingDigits 16, c.offset + marker.byteLength⟩)) c) ∧
      (digits ≠ [] → hexValue digits < 2 ^ 63 →
        ∃ next, Operation.tryReadHex.run c = .ok (.attempt (.ok (hexValue digits))) next ∧
          next.remaining = rest ∧ next.consumed = c.consumed ++ (marker ++ digits)) ∧
      (digits ≠ [] → 2 ^ 63 ≤ hexValue digits → Operation.tryReadHex.run c =
        .ok (.attempt (.error ⟨.outOfRange digits ['i', '6', '4'], c.offset⟩)) c)) ∧
    ∀ n < 2 ^ 63, ∀ marker digits rest : Text, (marker = [] ∨ marker = ['0', 'x']) →
      HexRendering n digits → c.remaining = marker ++ digits ++ rest →
      (∀ ch ∈ rest.head?, isHexDigit ch = false) →
      ¬ (marker = [] ∧ digits = ['0'] ∧ rest.head? = some 'x') →
      ∃ next, Operation.tryReadHex.run c = .ok (.attempt (.ok n)) next ∧
        Operation.readHex.run c = .ok (.integer n) next ∧
        next.remaining = rest ∧ next.consumed = c.consumed ++ (marker ++ digits) := by
  refine ⟨?_, ?_, ?_⟩
  · obtain ⟨rest, hahead⟩ := Hexadecimal.numeral_ahead c.remaining
    exact ⟨_, _, rest, hahead⟩
  · intro marker digits rest h
    exact ⟨tryReadHex_missing h, tryReadHex_inRange h, tryReadHex_outOfRange h⟩
  · intro n hn marker digits rest hmarker hrendering hc hrest hx
    have h : c.remaining.HexNumeral marker digits rest :=
      hc ▸ hrendering.numeral hmarker hrest hx
    have hvalue := hrendering.value
    obtain ⟨next, hrun, hnext⟩ := tryReadHex_inRange h hrendering.ne_nil (by omega)
    rw [hvalue] at hrun
    have hread : Operation.readHex.run c = .ok (.integer n) next :=
      (Operation.run_endsLike rfl c).ok_iff.2 ⟨_, hrun, rfl⟩
    exact ⟨next, hrun, hread, hnext⟩

theorem hexadecimals_are_read_exactly_cases :
    (∃ next, Operation.tryReadHex.run (.ofText {} ['0', 'x', '0', 'a', 'F', 'g']) =
        .ok (.attempt (.ok 175)) next ∧
      Operation.readHex.run (.ofText {} ['0', 'x', '0', 'a', 'F', 'g']) = .ok (.integer 175) next ∧
      next.remaining = ['g'] ∧ next.consumed = ['0', 'x', '0', 'a', 'F']) ∧
    Operation.tryReadHex.run (.ofText {} ('8' :: List.replicate 15 '0')) =
      .ok (.attempt (.error ⟨.outOfRange ('8' :: List.replicate 15 '0') ['i', '6', '4'], 0⟩))
        (.ofText {} ('8' :: List.replicate 15 '0')) := by
  constructor
  · obtain ⟨-, -, hread⟩ :=
      hexadecimals_are_read_exactly (.ofText {} ['0', 'x', '0', 'a', 'F', 'g'])
    exact hread 175 (by decide) ['0', 'x'] ['0', 'a', 'F'] ['g'] (.inr rfl) ⟨1, by decide +kernel⟩
      rfl (by rintro _ ⟨⟩; decide) (by decide)
  · obtain ⟨-, hread, -⟩ :=
      hexadecimals_are_read_exactly (.ofText {} ('8' :: List.replicate 15 '0'))
    obtain ⟨-, -, hrefused⟩ := hread [] ('8' :: List.replicate 15 '0') []
      ⟨by decide, rfl, List.all_eq_true.1 (by decide), nofun⟩
    exact hrefused (by decide) (by decide +kernel)

end TextCursor
