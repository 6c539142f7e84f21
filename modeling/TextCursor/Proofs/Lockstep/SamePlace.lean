import TextCursor.Proofs.Lockstep.Reading

namespace TextCursor.Cursor

/-- Both cursors stand at the same place of the same text. If `configured`, they have the same list
form, and if `noted`, the same journal. -/
structure SamePlace (configured noted : Prop) (c c' : Cursor) : Prop where
  behind : c'.behind = c.behind
  remaining : c'.remaining = c.remaining
  delimiters : configured → c'.delimiters = c.delimiters
  journal : noted → c'.journal = c.journal

namespace SamePlace

variable {configured noted : Prop} {c c' : Cursor}

theorem offset (h : SamePlace configured noted c c') : c'.offset = c.offset := by
  rw [Cursor.offset, h.behind]
  rfl

theorem source (h : SamePlace configured noted c c') : c'.source = c.source := by
  rw [Cursor.source, Cursor.consumed, h.behind, h.remaining]
  rfl

theorem advance (n : Nat) (h : SamePlace configured noted c c') :
    SamePlace configured noted (c.advance n) (c'.advance n) where
  behind := by simp only [Cursor.advance, h.remaining, h.behind]
  remaining := by rw [remaining_advance, remaining_advance, h.remaining]
  delimiters := h.delimiters
  journal := h.journal

theorem record {start start' : Cursor} (event : Event)
    (hstart : SamePlace configured noted start start') (h : SamePlace configured noted c c') :
    SamePlace configured noted (c.record start event) (c'.record start' event) where
  behind := by rw [behind_record, behind_record, h.behind]
  remaining := by rw [remaining_record, remaining_record, h.remaining]
  delimiters hd := by rw [delimiters_record, delimiters_record, h.delimiters hd]
  journal hnoted := by
    unfold Cursor.record
    rw [h.journal hnoted, h.source, hstart.offset]
    split
    · rfl
    · exact h.journal hnoted

theorem enter (index : Nat) (h : SamePlace configured noted c c') :
    SamePlace configured noted (c.enter index) (c'.enter index) where
  behind := h.behind
  remaining := h.remaining
  delimiters := h.delimiters
  journal hnoted := congrArg (Journal.enter · index) (h.journal hnoted)

theorem leave (h : SamePlace configured noted c c') :
    SamePlace configured noted c.leave c'.leave where
  behind := h.behind
  remaining := h.remaining
  delimiters := h.delimiters
  journal hnoted := congrArg Journal.leave (h.journal hnoted)

theorem takeEntries (h : SamePlace configured noted c c') :
    SamePlace configured noted c.takeEntries.2 c'.takeEntries.2 where
  behind := h.behind
  remaining := h.remaining
  delimiters := h.delimiters
  journal hnoted := congrArg (fun j ↦ { j with entries := [] }) (h.journal hnoted)

/-- From the same place two runs go the same way and answer the same. Only who reads lists of the
configured form has to have the same one, and only who takes the log the same journal. -/
theorem lockstep (configured noted : Prop) :
    Lockstep Eq Eq
      (fun step ↦ (step = .perform .takeLog → noted) ∧
        ∀ element, step = .read (.list element) → configured)
      (SamePlace configured noted) where
  remaining h := h.remaining
  advance := advance
  record := record
  enter := enter
  leave := leave
  failure cause n h := by rw [h.offset]
  place {op} hop hlocal c c' h := by
    by_cases htake : op = .takeLog
    · subst htake
      have hentries : c.journal.entries = c'.journal.entries := by rw [h.journal (hop.1 rfl)]
      exact .ok (.entries hentries) h.takeEntries
    · exact Operation.alike_of_place hlocal htake h h.behind h.remaining
  delimiters hlist _ _ h := h.delimiters (hlist.2 _ rfl)

theorem read {shape : Shape}
    (htake : Step.Contains (.read shape) (.perform .takeLog) → noted)
    (hlist : ∀ element, Step.Contains (.read shape) (.read (.list element)) → configured)
    (h : SamePlace configured noted c c') :
    Alike Eq Eq (SamePlace configured noted) (shape.read c) (shape.read c') := by
  have hP : ∀ inner, Step.Contains (.read shape) inner →
      (inner = .perform .takeLog → noted) ∧
        ∀ element, inner = .read (.list element) → configured :=
    fun inner hin ↦ ⟨fun he ↦ htake (he ▸ hin), fun element he ↦ hlist element (he ▸ hin)⟩
  have hread := (lockstep configured noted).read shape hP h
  generalize shape.read c = ended, shape.read c' = ended' at hread
  cases hread with
  | ok hv hlast => exact .ok hv.eq.symm hlast
  | error he hlast => exact .error he hlast

end SamePlace

end TextCursor.Cursor
