import TextCursor.Proofs.CharTest
import TextCursor.Proofs.Cursor.Onward
import TextCursor.Proofs.Text.Search

namespace TextCursor.Cursor

variable {σ : Type} {c next : Cursor} {ch : Char} {run rest : Text}

section RecordText

variable (c start : Cursor) (event : Event) (fragment : Text)

@[simp] theorem remaining_recordText :
    (c.recordText start event fragment).remaining = c.remaining := by
  unfold recordText
  split
  · rfl
  · exact remaining_record _ _ _

@[simp] theorem source_recordText : (c.recordText start event fragment).source = c.source := by
  unfold recordText
  split
  · rfl
  · exact source_record _ _ _

@[simp] theorem offset_recordText : (c.recordText start event fragment).offset = c.offset := by
  unfold recordText
  split
  · rfl
  · exact offset_record _ _ _

end RecordText

theorem consume?_ahead {literal : Text} (h : literal <+: c.remaining) :
    c.consume? literal = some ((c.advance literal.length).recordText c .literal literal) :=
  if_pos (List.isPrefixOf_iff_prefix.2 h)

theorem consume?_absent {literal : Text} (h : ¬ literal <+: c.remaining) :
    c.consume? literal = none :=
  if_neg (mt List.isPrefixOf_iff_prefix.1 h)

theorem consume?_eq_some_iff {literal : Text} :
    c.consume? literal = some next ↔ literal <+: c.remaining ∧
      next = (c.advance literal.length).recordText c .literal literal := by
  by_cases h : literal <+: c.remaining
  · simp only [consume?_ahead h, Option.some.injEq, h, true_and, eq_comm]
  · simp only [consume?_absent h, reduceCtorEq, h, false_and]

theorem remaining_of_consume? {literal : Text} (h : c.consume? literal = some next) :
    c.remaining = literal ++ next.remaining := by
  obtain ⟨⟨rest, hrest⟩, rfl⟩ := consume?_eq_some_iff.1 h
  rw [remaining_recordText, (advance_length hrest.symm).1, hrest]

theorem not_prefix_of_consume? {literal : Text} (h : c.consume? literal = none) :
    ¬ literal <+: c.remaining := by
  intro hbegins
  rw [consume?_ahead hbegins] at h
  cases h

theorem consumeChar?_of_remaining (h : c.remaining = ch :: rest) :
    ∃ next, c.consumeChar? ch = some next ∧ next.remaining = rest := by
  refine ⟨(c.advance 1).recordText c .literal [ch], ?_, ?_⟩
  · simp [consumeChar?, consume?, h]
  · simp [recordText, h]

theorem consumeChar?_eq_none_iff : c.consumeChar? ch = none ↔ c.remaining.head? ≠ some ch := by
  constructor
  · intro h hhead
    obtain ⟨rest, hrest⟩ := List.head?_eq_some_iff.1 hhead
    obtain ⟨next, hnext, -⟩ := consumeChar?_of_remaining hrest
    rw [h] at hnext
    cases hnext
  · intro h
    unfold consumeChar? consume?
    cases hr : c.remaining with
    | nil => rfl
    | cons first rest =>
      have hne : ch ≠ first := fun he ↦ h (by rw [hr, he]; rfl)
      simp [hne]

theorem remaining_of_consumeChar? (h : c.consumeChar? ch = some next) :
    c.remaining = ch :: next.remaining :=
  remaining_of_consume? h

theorem eq_of_consumeChar? (h : c.consumeChar? ch = some next) :
    next = (c.advance 1).record c .literal :=
  (consume?_eq_some_iff.1 h).2

theorem consumeChar?_onward (h : c.consumeChar? ch = some next) : c.Onward next :=
  .of_move (consume?_move h)

theorem skipCopies_onward (ch : Char) (c : Cursor) : c.Onward (c.skipCopies ch) :=
  .of_move (skipCopies_move ch c)

theorem drop_length_takeWhile {α : Type} (p : α → Bool) (l : List α) :
    l.drop (l.takeWhile p).length = l.dropWhile p := by
  calc l.drop (l.takeWhile p).length
      = (l.takeWhile p ++ l.dropWhile p).drop (l.takeWhile p).length := by
        rw [List.takeWhile_append_dropWhile]
    _ = l.dropWhile p := List.drop_left

@[simp] theorem remaining_skipCopies (ch : Char) (c : Cursor) :
    (c.skipCopies ch).remaining = c.remaining.dropWhile (· == ch) := by
  rw [skipCopies, remaining_advance, drop_length_takeWhile]

theorem exists_takesRun (test : CharTest σ) (c : Cursor) :
    ∃ run rest, test.TakesRun c.remaining run rest :=
  ⟨_, _, test.takesRun_resume test.start c.remaining⟩

theorem consumeWhile_of_takesRun {test : CharTest σ} (h : test.TakesRun c.remaining run rest) :
    c.consumeWhile test = (run, c.advance run.length) := by
  obtain ⟨hrun, -⟩ := h.unique (test.takesRun_resume test.start c.remaining)
  have htake : c.remaining.take (test.accepted c.remaining) = run := hrun
  rw [consumeWhile, ← htake, advance_length_take]

theorem consumeWhile_ofBool {p : Char → Bool} (h : Text.Run p c.remaining run rest) :
    c.consumeWhile (.ofBool p) = (run, c.advance run.length) :=
  consumeWhile_of_takesRun (CharTest.takesRun_ofBool.2 h)

theorem readWord_eq (c : Cursor) :
    c.readWord.1 = c.remaining.takeWhile isWordCharacter ∧
      c.readWord.2.remaining = c.remaining.dropWhile isWordCharacter := by
  rw [readWord, consumeWhile_ofBool (.takeWhile isWordCharacter c.remaining)]
  refine ⟨rfl, ?_⟩
  rw [remaining_recordText, remaining_advance, drop_length_takeWhile]

theorem next?_of_remaining (h : c.remaining = ch :: rest) :
    ∃ next, c.next? = some (ch, next) ∧ next.remaining = rest := by
  refine ⟨c.advance 1, ?_, ?_⟩
  · simp [next?, h]
  · simp [h]

theorem remaining_of_next? (h : c.next? = some (ch, next)) :
    c.remaining = ch :: next.remaining := by
  obtain ⟨first, hfirst, h⟩ := Option.map_eq_some_iff.1 h
  obtain ⟨rest, hrest⟩ := List.head?_eq_some_iff.1 hfirst
  cases h
  simp [hrest]

section Separator

variable {separator : Char} {fragment : Text}

theorem fragmentBefore?_of_splitsAt (h : c.remaining.SplitsAt separator fragment rest) :
    c.fragmentBefore? separator = some fragment := by
  rw [fragmentBefore?, Text.indexOf?_eq, Text.firstChar?_of_splitsAt h, Option.map_some, h.eq,
    Text.splitAtByte_append]

theorem fragmentBefore?_of_not_mem (h : separator ∉ c.remaining) :
    c.fragmentBefore? separator = none := by
  have hnone : c.remaining.indexOf? separator = none := Text.indexOf?_eq_iff.2 h
  rw [fragmentBefore?, hnone, Option.map_none]

theorem exists_splitsAt_of_fragmentBefore? (h : c.fragmentBefore? separator = some fragment) :
    ∃ rest, c.remaining.SplitsAt separator fragment rest := by
  by_cases hmem : separator ∈ c.remaining
  · obtain ⟨before, rest, hsplit⟩ := Text.exists_splitsAt hmem
    rw [fragmentBefore?_of_splitsAt hsplit] at h
    cases h
    exact ⟨rest, hsplit⟩
  · rw [fragmentBefore?_of_not_mem hmem] at h
    cases h

theorem consumeThrough?_of_splitsAt (h : c.remaining.SplitsAt separator fragment rest) :
    c.consumeThrough? separator =
      some (fragment, (c.advance (fragment.length + 1)).record c .throughSeparator) := by
  rw [consumeThrough?, fragmentBefore?_of_splitsAt h, Option.map_some]

theorem consumeUpTo?_of_splitsAt (h : c.remaining.SplitsAt separator fragment rest) :
    c.consumeUpTo? separator =
      some (fragment, (c.advance fragment.length).record c .upToSeparator) := by
  rw [consumeUpTo?, fragmentBefore?_of_splitsAt h, Option.map_some]

theorem consumeThrough?_of_not_mem (h : separator ∉ c.remaining) :
    c.consumeThrough? separator = none := by
  rw [consumeThrough?, fragmentBefore?_of_not_mem h, Option.map_none]

theorem consumeUpTo?_of_not_mem (h : separator ∉ c.remaining) :
    c.consumeUpTo? separator = none := by
  rw [consumeUpTo?, fragmentBefore?_of_not_mem h, Option.map_none]

theorem remaining_of_consumeThrough? (h : c.consumeThrough? separator = some (fragment, next)) :
    c.remaining = (fragment ++ [separator]) ++ next.remaining := by
  obtain ⟨_, hbefore, h⟩ := Option.map_eq_some_iff.1 h
  cases h
  obtain ⟨rest, hsplit⟩ := exists_splitsAt_of_fragmentBefore? hbefore
  have hnext := (advance_record hsplit.eq_append .throughSeparator).1
  rw [List.length_append, List.length_singleton] at hnext
  rw [hnext, hsplit.eq_append]

theorem remaining_of_consumeUpTo? (h : c.consumeUpTo? separator = some (fragment, next)) :
    c.remaining = fragment ++ next.remaining := by
  obtain ⟨_, hbefore, h⟩ := Option.map_eq_some_iff.1 h
  cases h
  obtain ⟨rest, hsplit⟩ := exists_splitsAt_of_fragmentBefore? hbefore
  rw [(advance_record hsplit.eq .upToSeparator).1, hsplit.eq]

end Separator

theorem remaining_of_nextN? {n : Nat} {fragment : Text} (h : c.nextN? n = some (fragment, next)) :
    c.remaining = fragment ++ next.remaining := by
  unfold nextN? at h
  split at h
  · cases h
    exact (List.take_append_drop n c.remaining).symm
  · cases h

theorem length_lt_of_nextN? {n : Nat} (h : c.nextN? n = none) : c.remaining.length < n := by
  unfold nextN? at h
  split at h
  · cases h
  · exact Nat.not_le.1 ‹_›

theorem consumeWhile_eq (test : CharTest σ) (c : Cursor) :
    c.remaining = (c.consumeWhile test).1 ++ (c.consumeWhile test).2.remaining :=
  (List.take_append_drop _ _).symm

theorem skipCopies_eq (ch : Char) (c : Cursor) :
    ∃ n, c.remaining = List.replicate n ch ++ (c.skipCopies ch).remaining := by
  refine ⟨(c.remaining.takeWhile (· == ch)).length, ?_⟩
  have hrun : c.remaining.takeWhile (· == ch) =
      List.replicate (c.remaining.takeWhile (· == ch)).length ch := by
    rw [List.eq_replicate_iff]
    refine ⟨rfl, fun first hfirst ↦ ?_⟩
    have hall := List.all_eq_true.1 List.all_takeWhile first hfirst
    simpa using hall
  rw [← hrun, remaining_skipCopies, List.takeWhile_append_dropWhile]

@[simp] theorem remaining_consumeRest (c : Cursor) : c.consumeRest.2.remaining = [] := by
  simp only [consumeRest, remaining_recordText, remaining_advance, List.drop_length]

theorem consumeRest_eq (c : Cursor) :
    c.remaining = c.consumeRest.1 ++ c.consumeRest.2.remaining := by
  rw [remaining_consumeRest, List.append_nil]
  rfl

end TextCursor.Cursor
