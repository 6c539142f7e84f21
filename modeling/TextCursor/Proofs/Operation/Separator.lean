import TextCursor.Proofs.Bytes.Reading

namespace TextCursor

namespace Operation

variable {separator : Char} {c : Cursor} {before after : Text}

theorem consumeThrough_absent (h : separator ∉ c.remaining) :
    (consumeThrough separator).run c = .ok .nothing c :=
  Scan.map_ok (Scan.attempt_none (Cursor.consumeThrough?_of_not_mem h))

theorem consumeUpTo_absent (h : separator ∉ c.remaining) :
    (consumeUpTo separator).run c = .ok .nothing c :=
  Scan.map_ok (Scan.attempt_none (Cursor.consumeUpTo?_of_not_mem h))

section Found

variable (h : c.remaining.SplitsAt separator before after)
include h

theorem consumeThrough_found :
    ∃ next, (consumeThrough separator).run c = .ok (.text before) next ∧
      next.remaining = after ∧ next.consumed = c.consumed ++ (before ++ [separator]) := by
  have hnext := Cursor.advance_record h.eq_append .throughSeparator
  rw [List.length_append, List.length_singleton] at hnext
  exact ⟨_, Scan.map_ok (Scan.attempt_some (Cursor.consumeThrough?_of_splitsAt h)), hnext⟩

theorem consumeUpTo_found :
    ∃ next, (consumeUpTo separator).run c = .ok (.text before) next ∧
      next.remaining = separator :: after ∧ next.consumed = c.consumed ++ before :=
  ⟨_, Scan.map_ok (Scan.attempt_some (Cursor.consumeUpTo?_of_splitsAt h)),
    Cursor.advance_record h.eq .upToSeparator⟩

end Found

end Operation

/-- A separator is found where it first occurs, by its characters and by its bytes alike. What is
consumed through it or up to it is the text before, and the cursor ends just behind it or just
before it. -/
theorem separator_searches_agree (separator : Char) (c : Cursor) :
    (∀ found, ByteScan.find separator c.toBytes = .ok found c.toBytes ↔
      c.remaining.FoundAt separator found) ∧
    (∀ (t : Text) (found : Option Nat), t.indexOf? separator = found ↔
      t.FoundAt separator found) ∧
    (separator.toNat < 128 → ∀ (t : Text) (found : Option Nat),
      t.bytes.idxOf? (UInt8.ofNat separator.toNat) = found ↔ t.FoundAt separator found) ∧
    (separator ∉ c.remaining →
      (Operation.consumeThrough separator).run c = .ok .nothing c ∧
      (Operation.consumeThrough separator).runBytes c.toBytes = .ok .nothing c.toBytes ∧
      (Operation.consumeUpTo separator).run c = .ok .nothing c ∧
      (Operation.consumeUpTo separator).runBytes c.toBytes = .ok .nothing c.toBytes) ∧
    ∀ before after, c.remaining.SplitsAt separator before after →
      (∃ next, (Operation.consumeThrough separator).run c = .ok (.text before) next ∧
        (Operation.consumeThrough separator).runBytes c.toBytes = .ok (.text before) next.toBytes ∧
        next.remaining = after ∧ next.consumed = c.consumed ++ (before ++ [separator])) ∧
      ∃ next, (Operation.consumeUpTo separator).run c = .ok (.text before) next ∧
        (Operation.consumeUpTo separator).runBytes c.toBytes = .ok (.text before) next.toBytes ∧
        next.remaining = separator :: after ∧ next.consumed = c.consumed ++ before := by
  refine ⟨fun found ↦ ?_, fun t found ↦ Text.indexOf?_eq_iff, ?_, ?_, ?_⟩
  · rw [ByteScan.find_toBytes, EStateM.Result.ok.injEq, and_iff_left rfl, Text.indexOf?_eq_iff]
  · intro hascii t found
    exact Text.idxOf?_bytes_eq_iff hascii
  · intro habsent
    have hthrough := Operation.consumeThrough_absent habsent
    have hupTo := Operation.consumeUpTo_absent habsent
    exact ⟨hthrough, Operation.runBytes_of_run hthrough, hupTo, Operation.runBytes_of_run hupTo⟩
  · intro before after hsplit
    obtain ⟨behind, hthrough, hbehind⟩ := Operation.consumeThrough_found hsplit
    obtain ⟨upTo, hupTo, hends⟩ := Operation.consumeUpTo_found hsplit
    exact ⟨⟨behind, hthrough, Operation.runBytes_of_run hthrough, hbehind⟩,
      upTo, hupTo, Operation.runBytes_of_run hupTo, hends⟩

theorem separator_searches_agree_wide :
    Text.bytes ['é', '–', '𝄞', ',', ','] =
        [0xC3, 0xA9, 0xE2, 0x80, 0x93, 0xF0, 0x9D, 0x84, 0x9E, 0x2C, 0x2C] ∧
      Text.FoundAt ',' ['é', '–', '𝄞', ',', ','] (some 9) ∧
      (∃ next, (Operation.consumeThrough ',').run (.ofText {} ['é', '–', '𝄞', ',', ',']) =
          .ok (.text ['é', '–', '𝄞']) next ∧
        next.remaining = [','] ∧ next.offset = 10) ∧
      (Operation.consumeUpTo ',').run (.ofText {} ['é']) = .ok .nothing (.ofText {} ['é']) := by
  have hsplit : Text.SplitsAt ',' ['é', '–', '𝄞', ',', ','] ['é', '–', '𝄞'] [','] :=
    ⟨rfl, by decide⟩
  obtain ⟨-, -, hbytes, -, hfound⟩ :=
    separator_searches_agree ',' (.ofText {} ['é', '–', '𝄞', ',', ','])
  obtain ⟨-, -, -, habsent, -⟩ := separator_searches_agree ',' (.ofText {} ['é'])
  have hindex : (Text.bytes ['é', '–', '𝄞', ',', ',']).idxOf? (UInt8.ofNat ','.toNat) = some 9 := by
    decide
  obtain ⟨next, hthrough, -, hremaining, hconsumed⟩ := (hfound _ _ hsplit).1
  have hoffset : next.offset = 10 := by
    rw [← next.byteLength_consumed, hconsumed]
    rfl
  exact ⟨by decide, (hbytes (by decide) _ _).1 hindex, ⟨next, hthrough, hremaining, hoffset⟩,
    (habsent (by decide)).2.2.1⟩

end TextCursor
