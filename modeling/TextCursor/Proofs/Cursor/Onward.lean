import TextCursor.Proofs.Cursor.Move

namespace TextCursor

structure Journal.SameSettings (j j' : Journal) : Prop where
  enabled : j'.enabled = j.enabled
  window : j'.window = j.window
  tracksPath : j'.tracksPath = j.tracksPath

namespace Journal.SameSettings

variable {j j' j'' : Journal}

theorem refl (j : Journal) : j.SameSettings j := ⟨rfl, rfl, rfl⟩

theorem trans (h : j.SameSettings j') (h' : j'.SameSettings j'') : j.SameSettings j'' :=
  ⟨h'.enabled.trans h.enabled, h'.window.trans h.window, h'.tracksPath.trans h.tracksPath⟩

theorem symm (h : j.SameSettings j') : j'.SameSettings j :=
  ⟨h.enabled.symm, h.window.symm, h.tracksPath.symm⟩

theorem enter (j : Journal) (index : Nat) : j.SameSettings (j.enter index) := by
  unfold Journal.enter
  split <;> exact ⟨rfl, rfl, rfl⟩

theorem leave (j : Journal) : j.SameSettings j.leave := by
  unfold Journal.leave
  split <;> exact ⟨rfl, rfl, rfl⟩

end Journal.SameSettings

namespace Cursor

section Fields

variable (c start : Cursor) (n index : Nat) (event : Event)

@[simp] theorem behind_record : (c.record start event).behind = c.behind := by
  unfold record
  split <;> rfl

@[simp] theorem remaining_record : (c.record start event).remaining = c.remaining := by
  unfold record
  split <;> rfl

@[simp] theorem delimiters_record : (c.record start event).delimiters = c.delimiters := by
  unfold record
  split <;> rfl

@[simp] theorem path_record : (c.record start event).journal.path = c.journal.path := by
  unfold record
  split <;> rfl

theorem entries_record : (c.record start event).journal.entries =
    c.journal.entries ++
      if c.journal.enabled then [c.journal.entry c.source start.offset event] else [] := by
  unfold record
  split
  · rfl
  · exact (List.append_nil _).symm

theorem settings_record : c.journal.SameSettings (c.record start event).journal := by
  unfold record
  split <;> exact ⟨rfl, rfl, rfl⟩

@[simp] theorem consumed_record : (c.record start event).consumed = c.consumed := by
  simp only [consumed, behind_record]

@[simp] theorem source_record : (c.record start event).source = c.source := by
  simp only [source, consumed_record, remaining_record]

@[simp] theorem offset_record : (c.record start event).offset = c.offset := by
  simp only [offset, behind_record]

@[simp] theorem entries_enter : (c.enter index).journal.entries = c.journal.entries := by
  unfold enter Journal.enter
  split <;> rfl

@[simp] theorem entries_leave : c.leave.journal.entries = c.journal.entries := by
  unfold leave Journal.leave
  split <;> rfl

@[simp] theorem remaining_enter : (c.enter index).remaining = c.remaining := rfl

@[simp] theorem delimiters_enter : (c.enter index).delimiters = c.delimiters := rfl

@[simp] theorem consumed_enter : (c.enter index).consumed = c.consumed := rfl

@[simp] theorem source_enter : (c.enter index).source = c.source := rfl

@[simp] theorem remaining_leave : c.leave.remaining = c.remaining := rfl

@[simp] theorem delimiters_leave : c.leave.delimiters = c.delimiters := rfl

@[simp] theorem consumed_leave : c.leave.consumed = c.consumed := rfl

@[simp] theorem source_leave : c.leave.source = c.source := rfl

@[simp] theorem delimiters_advance : (c.advance n).delimiters = c.delimiters := rfl

@[simp] theorem journal_advance : (c.advance n).journal = c.journal := rfl

theorem offset_advance :
    (c.advance n).offset = c.offset + Text.byteLength (c.remaining.take n) := by
  rw [← byteLength_consumed, consumed_advance, Text.byteLength_append, byteLength_consumed]

end Fields

theorem length_consumed (c : Cursor) : c.consumed.length = c.charOffset :=
  List.length_reverse

theorem charOffset_of_consumed {c c' : Cursor} {t : Text} (h : c'.consumed = c.consumed ++ t) :
    c'.charOffset = c.charOffset + t.length := by
  rw [← c'.length_consumed, h, List.length_append, c.length_consumed]

theorem advance_length {c : Cursor} {read rest : Text} (hc : c.remaining = read ++ rest) :
    (c.advance read.length).remaining = rest ∧
      (c.advance read.length).consumed = c.consumed ++ read := by
  rw [remaining_advance, consumed_advance, hc, List.drop_left, List.take_left]
  exact ⟨rfl, rfl⟩

theorem advance_length_take (n : Nat) (c : Cursor) :
    c.advance (c.remaining.take n).length = c.advance n := by
  have htake : c.remaining.take (c.remaining.take n).length = c.remaining.take n := by
    rw [List.length_take, ← List.take_eq_take_min]
  have hdrop : c.remaining.drop (c.remaining.take n).length = c.remaining.drop n := by
    have hsplit := List.take_append_drop (c.remaining.take n).length c.remaining
    rw [htake] at hsplit
    exact List.append_cancel_left (hsplit.trans (List.take_append_drop n c.remaining).symm)
  rw [advance, advance, htake, hdrop]

theorem advance_record {c : Cursor} {read rest : Text} (hc : c.remaining = read ++ rest)
    (event : Event) :
    ((c.advance read.length).record c event).remaining = rest ∧
      ((c.advance read.length).record c event).consumed = c.consumed ++ read := by
  rw [remaining_record, consumed_record]
  exact advance_length hc

/-- The second cursor stands at or after the first in the same text, and is set up in the same
way. -/
structure Onward (c c' : Cursor) : Prop where
  source : c'.source = c.source
  delimiters : c'.delimiters = c.delimiters
  settings : c.journal.SameSettings c'.journal
  consumed : c.consumed <+: c'.consumed

namespace Onward

variable {c c' c'' : Cursor}

theorem refl (c : Cursor) : c.Onward c := ⟨rfl, rfl, .refl _, List.prefix_rfl⟩

theorem trans (h : c.Onward c') (h' : c'.Onward c'') : c.Onward c'' :=
  ⟨h'.source.trans h.source, h'.delimiters.trans h.delimiters, h.settings.trans h'.settings,
    h.consumed.trans h'.consumed⟩

theorem advance (n : Nat) (c : Cursor) : c.Onward (c.advance n) := by
  refine ⟨c.source_advance n, rfl, .refl _, ?_⟩
  rw [consumed_advance]
  exact List.prefix_append _ _

theorem record (c start : Cursor) (event : Event) : c.Onward (c.record start event) := by
  refine ⟨c.source_record start event, c.delimiters_record start event,
    c.settings_record start event, ?_⟩
  simp only [consumed_record, List.prefix_rfl]

theorem enter (index : Nat) (c : Cursor) : c.Onward (c.enter index) :=
  ⟨rfl, rfl, .enter _ _, List.prefix_rfl⟩

theorem leave (c : Cursor) : c.Onward c.leave := ⟨rfl, rfl, .leave _, List.prefix_rfl⟩

theorem of_move (h : c.Move c') : c.Onward c' := by
  cases h with
  | advance n => exact advance n c
  | record n event => exact (advance n c).trans (record _ _ _)

theorem of_run (op : Operation) (c : Cursor) : c.Onward (ending (op.run c)) := by
  by_cases h : op = .takeLog
  · subst h
    exact ⟨rfl, rfl, ⟨rfl, rfl, rfl⟩, List.prefix_rfl⟩
  · exact of_move (op.run_move h c)

theorem exists_between (h : c.Onward c') :
    ∃ t, c'.consumed = c.consumed ++ t ∧ c.remaining = t ++ c'.remaining := by
  obtain ⟨t, ht⟩ := h.consumed
  refine ⟨t, ht.symm, ?_⟩
  have hs := h.source
  rw [Cursor.source, Cursor.source, ← ht, List.append_assoc] at hs
  exact (List.append_cancel_left hs).symm

theorem length_remaining_le (h : c.Onward c') : c'.remaining.length ≤ c.remaining.length := by
  obtain ⟨t, -, ht⟩ := h.exists_between
  rw [ht, List.length_append]
  omega

theorem offset_le (h : c.Onward c') : c.offset ≤ c'.offset := by
  obtain ⟨t, ht, -⟩ := h.exists_between
  rw [← byteLength_consumed, ← byteLength_consumed, ht, Text.byteLength_append]
  omega

/-- Text consumed from equal remainders down to equal remainders is equal. -/
theorem consumed_eq {t : Text} (h : c.Onward c') (hc : c.remaining = t ++ c'.remaining) :
    c'.consumed = c.consumed ++ t := by
  obtain ⟨u, hu, hr⟩ := h.exists_between
  rw [hc] at hr
  rw [hu, List.append_cancel_right hr]

end Onward

end Cursor

end TextCursor
