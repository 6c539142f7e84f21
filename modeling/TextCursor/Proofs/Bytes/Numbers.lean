import TextCursor.Proofs.Bytes.Consumption

namespace TextCursor

theorem utf8Size_of_isDigit {radix : Nat} {ch : Char} (h : isDigit radix ch = true) :
    ch.utf8Size = 1 := by
  rw [Char.utf8Size_eq_one_iff, UInt32.le_iff_toNat_le]
  exact Nat.le_of_lt_succ (toNat_lt_of_isDigit h)

theorem byteLength_digitsAhead (radix : Nat) (t : Text) :
    Text.byteLength (digitsAhead radix t) = (digitsAhead radix t).length := by
  have hdigit : ∀ ch ∈ digitsAhead radix t, isDigit radix ch = true :=
    (digitsAhead_run _ _).all
  generalize digitsAhead radix t = digits at hdigit
  induction digits with
  | nil => rfl
  | cons ch digits ih =>
    rw [Text.byteLength_cons, utf8Size_of_isDigit (hdigit ch List.mem_cons_self),
      ih fun ch hch ↦ hdigit ch (List.mem_cons_of_mem _ hch), List.length_cons, Nat.add_comm]

theorem Sign.utf8Size_char (s : Sign) : s.char.utf8Size = 1 := by
  cases s <;> rfl

theorem Decimal.ahead_cut (t : Text) :
    ∃ unsigned, t = (ahead t).signText ++ unsigned ∧ (ahead t).digits = digitsAhead 10 unsigned ∧
      Text.byteLength (ahead t).signText =
        if t.head?.any fun ch ↦ (Sign.ofChar? ch).isSome then 1 else 0 := by
  cases t with
  | nil => exact ⟨[], rfl, rfl, rfl⟩
  | cons ch t =>
    cases h : Sign.ofChar? ch with
    | some s =>
      refine ⟨t, ?_, ?_, ?_⟩
      · simp [ahead, h, signText, Sign.char_of_ofChar? h]
      · simp [ahead, h]
      · simp [ahead, h, signText, Sign.utf8Size_char]
    | none =>
      refine ⟨ch :: t, ?_, ?_, ?_⟩
      · simp [ahead, h, signText]
      · simp [ahead, h]
      · simp [ahead, h, signText]

theorem Hexadecimal.ahead_cut (t : Text) :
    ∃ unmarked, t = (ahead t).marker ++ unmarked ∧ (ahead t).digits = digitsAhead 16 unmarked ∧
      Text.byteLength (ahead t).marker = if ['0', 'x'].isPrefixOf t then 2 else 0 := by
  by_cases h : ['0', 'x'].isPrefixOf t
  · obtain ⟨unmarked, rfl⟩ := List.isPrefixOf_iff_prefix.1 h
    exact ⟨unmarked, rfl, rfl, rfl⟩
  · simp only [ahead, if_neg h]
    exact ⟨t, rfl, rfl, rfl⟩

namespace ByteScan

theorem tryReadInteger_follows (type : IntegerType) :
    (tryReadInteger type).Follows (Scan.attemptExcept (Cursor.readInteger? type)) := by
  intro c
  obtain ⟨unsigned, hc, hdigits, hsign⟩ := Decimal.ahead_cut c.remaining
  obtain ⟨-, -, hdigit, -⟩ := Decimal.ahead_spec c.remaining
  generalize hd : Decimal.ahead c.remaining = d at hc hdigits hsign hdigit
  have hcut : c.remaining.cut? (Text.byteLength d.signText) = some (d.signText, unsigned) := by
    rw [hc]
    exact Text.cut?_append _ _
  rw [tryReadInteger, bind_ok (remaining_toBytes c), bind_ok (position_toBytes c)]
  dsimp only
  rw [← hsign, bind_ok (require_ok hcut)]
  dsimp only
  rw [show unsigned.takeWhile (isDigit 10) = d.digits from hdigits.symm]
  by_cases hempty : d.digits = []
  · rw [if_pos (by rw [hempty]; rfl),
      Scan.attemptExcept_error (Cursor.readInteger?_missing hd hempty)]
    rfl
  · have hcount : d.digits.length ≠ 0 := fun h ↦ hempty (List.length_eq_zero_iff.1 h)
    have hlength : Text.byteLength d.signText + d.digits.length = d.text.byteLength := by
      rw [Decimal.text, Text.byteLength_append, hdigits, byteLength_digitsAhead]
    have htext : c.remaining = d.text ++ unsigned.dropWhile (isDigit 10) := by
      rw [Decimal.text, hdigits, List.append_assoc, digitsAhead, List.takeWhile_append_dropWhile]
      exact hc
    have htoken : c.remaining.cut? (Text.byteLength d.text) =
        some (d.text, unsigned.dropWhile (isDigit 10)) := by
      rw [htext]
      exact Text.cut?_append _ _
    have hself : Decimal.ahead d.text = d := by
      have happend : Decimal.ahead (d.text ++ []) = d :=
        Decimal.ahead_append ⟨hempty, hdigit⟩ (by simp [NoDigitAhead])
      rwa [List.append_nil] at happend
    rw [if_neg hcount, hlength, bind_ok (require_ok htoken)]
    dsimp only
    rw [hself]
    cases hv : type.ofDecimal? d with
    | none =>
      rw [Scan.attemptExcept_error (Cursor.readInteger?_outOfRange hd hempty hv)]
      rfl
    | some v =>
      rw [Scan.attemptExcept_ok (Cursor.readInteger?_inRange hd hempty hv)]
      dsimp only
      rw [bind_ok (advance_toBytes c htext), bind_ok (record_toBytes _ (c.source_advance _) _)]
      rfl

theorem tryReadHex_follows : tryReadHex.Follows (Scan.attemptExcept Cursor.readHex?) := by
  intro c
  obtain ⟨unmarked, hc, hdigits, hmarker⟩ := Hexadecimal.ahead_cut c.remaining
  generalize hd : Hexadecimal.ahead c.remaining = d at hc hdigits hmarker
  have hcut : c.remaining.cut? (Text.byteLength d.marker) = some (d.marker, unmarked) := by
    rw [hc]
    exact Text.cut?_append _ _
  have hlength : Text.byteLength d.digits = d.digits.length := by
    rw [hdigits, byteLength_digitsAhead]
  have hrest : unmarked = d.digits ++ unmarked.dropWhile (isDigit 16) := by
    rw [hdigits, digitsAhead, List.takeWhile_append_dropWhile]
  have htext : c.remaining = d.marker ++ (d.digits ++ unmarked.dropWhile (isDigit 16)) := by
    rw [← hrest]
    exact hc
  have hslice : c.remaining.slice? (Text.byteLength d.marker)
      (Text.byteLength d.marker + d.digits.length) = some d.digits := by
    rw [htext, ← hlength]
    exact Text.slice?_append _ _ _
  rw [tryReadHex, bind_ok (remaining_toBytes c), bind_ok (position_toBytes c)]
  dsimp only
  rw [isPrefixOf_bytes, ← hmarker, bind_ok (require_ok hcut)]
  dsimp only
  rw [show unmarked.takeWhile (isDigit 16) = d.digits from hdigits.symm,
    bind_ok (require_ok hslice)]
  by_cases hempty : d.digits = []
  · rw [if_pos (by rw [hempty]; rfl), Scan.attemptExcept_error (Cursor.readHex?_missing hd hempty)]
    rfl
  · rw [if_neg (by simpa using hempty)]
    by_cases hfits : (digitsValue 16 d.digits : Int) ≤ IntegerType.int64.max
    · rw [← List.append_assoc] at htext
      have hadvance := advance_toBytes c htext
      rw [Text.byteLength_append, hlength] at hadvance
      rw [if_pos hfits, Scan.attemptExcept_ok (Cursor.readHex?_inRange hd hempty hfits),
        bind_ok hadvance, bind_ok (record_toBytes _ (c.source_advance _) _)]
      rfl
    · rw [if_neg hfits, Scan.attemptExcept_error (Cursor.readHex?_outOfRange hd hempty hfits)]
      rfl

theorem orRaise_follows {α : Type} {attempt : ByteScan (Except Failure α)}
    {f : Cursor → Except Failure (α × Cursor)} (h : attempt.Follows (Scan.attemptExcept f)) :
    (orRaise attempt).Follows (Scan.demandExcept f) := by
  intro c
  have htry := h c
  cases hf : f c with
  | ok p =>
    rw [Scan.attemptExcept_ok hf] at htry
    rw [orRaise, bind_ok htry, Scan.demandExcept_ok hf]
    rfl
  | error e =>
    rw [Scan.attemptExcept_error hf] at htry
    rw [orRaise, bind_ok htry, Scan.demandExcept_fail hf]
    rfl

end ByteScan

end TextCursor
