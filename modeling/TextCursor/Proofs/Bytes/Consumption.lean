import TextCursor.Proofs.Bytes.Follows

namespace TextCursor

namespace ByteScan

variable {σ : Type}

theorem isPrefixOf_bytes (a t : Text) : a.bytes.isPrefixOf t.bytes = a.isPrefixOf t := by
  rw [Bool.eq_iff_iff, List.isPrefixOf_iff_prefix, List.isPrefixOf_iff_prefix,
    Text.bytes_prefix_iff]

theorem tryConsume_follows (literal : Text) :
    (tryConsume literal).Follows
      ((·.isSome) <$> Scan.attempt fun c ↦ (c.consume? literal).map ((), ·)) := by
  intro c
  rw [tryConsume, bind_ok (remaining_toBytes c), isPrefixOf_bytes]
  by_cases h : literal <+: c.remaining
  · have hconsume := Cursor.consume?_ahead h
    rw [if_pos (List.isPrefixOf_iff_prefix.2 h), Scan.map_ok (Scan.attempt_unit_some hconsume)]
    obtain ⟨rest, hrest⟩ := h
    rw [bind_ok (position_toBytes c), bind_ok (advance_toBytes c hrest.symm),
      bind_ok (recordText_toBytes _ (c.source_advance _) _ _)]
    rfl
  · rw [if_neg (mt List.isPrefixOf_iff_prefix.1 h),
      Scan.map_ok (Scan.attempt_unit_none (Cursor.consume?_absent h))]
    rfl

theorem consume_follows (literal : Text) : (consume literal).Follows (Scan.consume literal) := by
  intro c
  have htry := tryConsume_follows literal c
  cases hconsume : c.consume? literal with
  | some next =>
    rw [Scan.map_ok (Scan.attempt_unit_some hconsume)] at htry
    rw [consume, bind_ok htry, Scan.consume, Scan.demand_some (by rw [hconsume]; rfl)]
    rfl
  | none =>
    rw [Scan.map_ok (Scan.attempt_unit_none hconsume)] at htry
    rw [consume, bind_ok htry, Scan.consume, Scan.demand_none (by rw [hconsume]; rfl)]
    exact bind_ok (remaining_toBytes c)

theorem find_toBytes (separator : Char) (c : Cursor) :
    find separator c.toBytes = .ok (c.remaining.indexOf? separator) c.toBytes := by
  rw [find, bind_ok (remaining_toBytes c), Text.idxOf?_bytes, Text.indexOf?]
  split <;> rfl

theorem consumeUpTo_follows (separator : Char) :
    (consumeUpTo separator).Follows (Scan.attempt (Cursor.consumeUpTo? separator)) := by
  intro c
  rw [consumeUpTo, bind_ok (find_toBytes separator c)]
  cases h : c.remaining.indexOf? separator with
  | none =>
    rw [Scan.attempt_none (Cursor.consumeUpTo?_of_not_mem (Text.indexOf?_eq_iff.1 h))]
    rfl
  | some i =>
    obtain ⟨fragment, rest, hsplit, rfl⟩ := Text.indexOf?_eq_iff.1 h
    rw [Scan.attempt_some (Cursor.consumeUpTo?_of_splitsAt hsplit), fragment.length_bytes]
    dsimp only
    rw [bind_ok (position_toBytes c), bind_ok (advance_toBytes c hsplit.eq),
      bind_ok (record_toBytes _ (c.source_advance _) _)]
    rfl

theorem consumeThrough_follows (separator : Char) :
    (consumeThrough separator).Follows (Scan.attempt (Cursor.consumeThrough? separator)) := by
  intro c
  rw [consumeThrough, bind_ok (find_toBytes separator c)]
  cases h : c.remaining.indexOf? separator with
  | none =>
    rw [Scan.attempt_none (Cursor.consumeThrough?_of_not_mem (Text.indexOf?_eq_iff.1 h))]
    rfl
  | some i =>
    obtain ⟨fragment, rest, hsplit, rfl⟩ := Text.indexOf?_eq_iff.1 h
    have hskip : skip separator.utf8Size (c.advance fragment.length).toBytes =
        .ok () (c.advance (fragment.length + 1)).toBytes := by
      have hlength : (fragment ++ [separator]).length = fragment.length + 1 := List.length_append
      rw [← hlength, toBytes_advance c hsplit.eq_append, toBytes_advance c hsplit.eq,
        Text.byteLength_append, ← Nat.add_assoc]
      rfl
    rw [Scan.attempt_some (Cursor.consumeThrough?_of_splitsAt hsplit), fragment.length_bytes]
    dsimp only
    rw [bind_ok (position_toBytes c), bind_ok (advance_toBytes c hsplit.eq), bind_ok hskip,
      bind_ok (record_toBytes _ (c.source_advance _) _)]
    rfl

theorem sub?_source {c : Cursor} {t rest : Text} (h : c.remaining = t ++ rest) :
    sub? c.toBytes.source.byteLength rest.byteLength = some (c.offset + t.byteLength) := by
  have hlength : c.toBytes.source.byteLength = c.offset + t.byteLength + rest.byteLength := by
    rw [show c.toBytes.source = c.source from rfl, c.byteLength_source, h, Text.byteLength_append,
      Nat.add_assoc]
  rw [hlength, sub?_add_right]

theorem consumeCopiesOf_follows (ch : Char) :
    (consumeCopiesOf ch).Follows (Scan.move fun c ↦ ((), c.skipCopies ch)) := by
  intro c
  have hc : c.remaining = c.remaining.takeWhile (· == ch) ++ c.remaining.dropWhile (· == ch) :=
    List.takeWhile_append_dropWhile.symm
  rw [consumeCopiesOf, bind_ok (remaining_toBytes c), bind_ok (require_ok (sub?_source hc))]
  rw [Scan.move, Cursor.skipCopies, retell, toBytes_advance c hc]
  rfl

theorem consumeWhile_follows (test : CharTest σ) :
    (consumeWhile test).Follows (Scan.move (Cursor.consumeWhile test)) := by
  intro c
  have hc := (List.take_append_drop (test.accepted c.remaining) c.remaining).symm
  have hsub : sub? c.remaining.byteLength
      (Text.byteLength (c.remaining.drop (test.accepted c.remaining))) =
        some (Text.byteLength (c.remaining.take (test.accepted c.remaining))) := by
    have hlength := congrArg Text.byteLength hc
    rw [Text.byteLength_append] at hlength
    rw [hlength, sub?_add_right]
  rw [consumeWhile, bind_ok (remaining_toBytes c), bind_ok (require_ok hsub), advance_toBytes c hc,
    Cursor.advance_length_take]
  rfl

theorem peek_toBytes (c : Cursor) : peek c.toBytes = .ok c.peek? c.toBytes :=
  map_ok (remaining_toBytes c)

theorem tryConsumeNext_follows : tryConsumeNext.Follows (Scan.attempt Cursor.next?) := by
  intro c
  rw [tryConsumeNext, bind_ok (peek_toBytes c), Cursor.peek?]
  cases hc : c.remaining with
  | nil =>
    have hnone : c.next? = none := by
      rw [Cursor.next?, hc]
      rfl
    rw [Scan.attempt_none hnone]
    rfl
  | cons ch rest =>
    have hsome : c.next? = some (ch, c.advance 1) := by
      rw [Cursor.next?, hc]
      rfl
    have hskip : skip ch.utf8Size c.toBytes = .ok () (c.advance 1).toBytes := by
      rw [show 1 = [ch].length from rfl, toBytes_advance c (t := [ch]) hc]
      rfl
    rw [Scan.attempt_some hsome]
    dsimp only [List.head?]
    rw [bind_ok hskip]
    rfl

theorem consumeNext_follows : consumeNext.Follows Scan.next := by
  intro c
  have htry := tryConsumeNext_follows c
  cases hnext : c.next? with
  | none =>
    rw [Scan.attempt_none hnext] at htry
    rw [consumeNext, bind_ok htry, Scan.next, Scan.demand_none hnext]
    rfl
  | some p =>
    rw [Scan.attempt_some hnext] at htry
    rw [consumeNext, bind_ok htry, Scan.next, Scan.demand_some hnext]
    rfl

theorem tryConsumeNextN_follows (n : Nat) :
    (tryConsumeNextN n).Follows (Scan.attempt (Cursor.nextN? n)) := by
  intro c
  have htake := advance_toBytes c (List.take_append_drop n c.remaining).symm
  rw [Cursor.advance_length_take] at htake
  rw [tryConsumeNextN, bind_ok (remaining_toBytes c)]
  by_cases hlt : n < c.remaining.length
  · have hsome : c.nextN? n = some (c.remaining.take n, c.advance n) := if_pos (Nat.le_of_lt hlt)
    rw [if_pos hlt, map_ok htake, Scan.attempt_some hsome]
    rfl
  · by_cases heq : c.remaining.length = n
    · have hsome : c.nextN? n = some (c.remaining.take n, c.advance n) := if_pos (by omega)
      have hall : c.remaining.take n = c.remaining := List.take_of_length_le (by omega)
      rw [hall] at htake
      rw [if_neg hlt, if_pos heq, map_ok htake, Scan.attempt_some hsome, hall]
      rfl
    · have hnone : c.nextN? n = none := if_neg (by omega)
      rw [if_neg hlt, if_neg heq, Scan.attempt_none hnone]
      rfl

theorem consumeNextN_follows (n : Nat) : (consumeNextN n).Follows (Scan.nextN n) := by
  intro c
  have htry := tryConsumeNextN_follows n c
  cases hnext : c.nextN? n with
  | none =>
    rw [Scan.attempt_none hnext] at htry
    rw [consumeNextN, bind_ok htry, Scan.nextN, Scan.demand_none hnext]
    exact bind_ok (remaining_toBytes c)
  | some p =>
    rw [Scan.attempt_some hnext] at htry
    rw [consumeNextN, bind_ok htry, Scan.nextN, Scan.demand_some hnext]
    rfl

theorem consumeRest_follows : consumeRest.Follows (Scan.move Cursor.consumeRest) := by
  intro c
  have hc : c.remaining = c.remaining ++ [] := (List.append_nil _).symm
  have hsub : sub? c.toBytes.source.byteLength c.toBytes.position =
      some c.remaining.byteLength := by
    rw [show c.toBytes.source = c.source from rfl, c.byteLength_source]
    exact sub?_add_left _ _
  rw [consumeRest, bind_ok (position_toBytes c), bind_ok (require_ok hsub),
    bind_ok (advance_toBytes c hc), bind_ok (recordText_toBytes _ (c.source_advance _) _ _)]
  rfl

theorem readWord_follows : readWord.Follows Scan.readWord := by
  intro c
  have hword := consumeWhile_follows (.ofBool isWordCharacter) c
  have hsource : (c.consumeWhile (.ofBool isWordCharacter)).2.source = c.source :=
    c.source_advance _
  rw [readWord, bind_ok (position_toBytes c), bind_ok hword,
    bind_ok (recordText_toBytes _ hsource _ _)]
  rfl

end ByteScan

end TextCursor
