import TextCursor.Proofs.Lockstep.Reading
import TextCursor.Proofs.Reading.IndexPath

namespace TextCursor

/-- The same failure, at places that lie as far apart as `p` and `p'` do. -/
structure Failure.Shifted (p p' : Nat) (e e' : Failure) : Prop where
  cause : e'.cause = e.cause
  position : e'.position + p = e.position + p'

structure Entry.Shifted (p p' : Nat) (e e' : Entry) : Prop where
  event : e'.event = e.event
  path : e'.path = e.path
  position : e'.position + p = e.position + p'

namespace Cursor

/-- The same text lies ahead of both cursors, and they are set up to read and to note it in the
same way. What lies behind them may differ, and so may their journals. -/
structure SameAhead (c c' : Cursor) : Prop where
  remaining : c'.remaining = c.remaining
  delimiters : c'.delimiters = c.delimiters
  settings : c.journal.SameSettings c'.journal
  path : c'.path = c.path

/-- The cursors have gone the same way from `o` and from `o'`, and have noted the same on it. -/
structure Abreast (o o' c c' : Cursor) : Prop extends c.SameAhead c' where
  offset : c'.offset + o.offset = c.offset + o'.offset
  entries : ∃ noted noted', c.journal.entries = o.journal.entries ++ noted ∧
    c'.journal.entries = o'.journal.entries ++ noted' ∧
    List.Forall₂ (Entry.Shifted o.offset o'.offset) noted noted'

namespace Abreast

variable {o o' c c' : Cursor}

theorem refl (h : o.SameAhead o') : o.Abreast o' o o' where
  toSameAhead := h
  offset := Nat.add_comm _ _
  entries := ⟨[], [], by simp, by simp, .nil⟩

theorem advance (n : Nat) (h : o.Abreast o' c c') : o.Abreast o' (c.advance n) (c'.advance n) where
  remaining := by rw [remaining_advance, remaining_advance, h.remaining]
  delimiters := h.delimiters
  settings := h.settings
  path := h.path
  offset := by
    have hoffset := h.offset
    rw [offset_advance, offset_advance, h.remaining]
    omega
  entries := h.entries

theorem record {start start' : Cursor} (event : Event) (hstart : o.Abreast o' start start')
    (h : o.Abreast o' c c') : o.Abreast o' (c.record start event) (c'.record start' event) where
  remaining := by rw [remaining_record, remaining_record, h.remaining]
  delimiters := by rw [delimiters_record, delimiters_record, h.delimiters]
  settings := ((c.settings_record start event).symm.trans h.settings).trans
    (c'.settings_record start' event)
  path := (path_record _ _ _).trans (h.path.trans (path_record _ _ _).symm)
  offset := by rw [offset_record, offset_record, h.offset]
  entries := by
    obtain ⟨noted, noted', hnoted, hnoted', hall⟩ := h.entries
    have hpath : c'.journal.path = c.journal.path := h.path
    have hentry : Entry.Shifted o.offset o'.offset (c.journal.entry c.source start.offset event)
        (c'.journal.entry c'.source start'.offset event) :=
      ⟨rfl, by simp only [Journal.entry, h.settings.tracksPath, hpath], hstart.offset⟩
    have hnew : List.Forall₂ (Entry.Shifted o.offset o'.offset)
        (if c.journal.enabled then [c.journal.entry c.source start.offset event] else [])
        (if c'.journal.enabled then [c'.journal.entry c'.source start'.offset event] else []) := by
      rw [h.settings.enabled]
      split
      · exact .cons hentry .nil
      · exact .nil
    refine ⟨_, _, ?_, ?_, List.rel_append hall hnew⟩
    · rw [entries_record, hnoted, List.append_assoc]
    · rw [entries_record, hnoted', List.append_assoc]

theorem keepsPath (h : o.Abreast o' c c') : c'.keepsPath = c.keepsPath :=
  h.settings.keepsPath

theorem enter (index : Nat) (h : o.Abreast o' c c') :
    o.Abreast o' (c.enter index) (c'.enter index) where
  remaining := h.remaining
  delimiters := h.delimiters
  settings := ((Journal.SameSettings.enter _ index).symm.trans h.settings).trans (.enter _ index)
  path := by rw [path_enter, path_enter, h.path, h.keepsPath]
  offset := h.offset
  entries := by
    rw [entries_enter, entries_enter]
    exact h.entries

theorem leave (h : o.Abreast o' c c') : o.Abreast o' c.leave c'.leave where
  remaining := h.remaining
  delimiters := h.delimiters
  settings := ((Journal.SameSettings.leave _).symm.trans h.settings).trans (.leave _)
  path := by rw [path_leave, path_leave, h.path, h.keepsPath]
  offset := h.offset
  entries := by
    rw [entries_leave, entries_leave]
    exact h.entries

theorem failure (cause : Cause) (n : Nat) (h : o.Abreast o' c c') :
    Failure.Shifted o.offset o'.offset ⟨cause, c.offset + n⟩ ⟨cause, c'.offset + n⟩ := by
  have hoffset := h.offset
  refine ⟨rfl, ?_⟩
  dsimp only
  omega

theorem lockstep (o o' : Cursor) :
    Lockstep (Failure.Shifted o.offset o'.offset) (fun _ _ ↦ False)
      (fun step ↦ ∀ op, step = .perform op → op.Local) (Abreast o o') where
  remaining h := h.remaining
  advance := advance
  record := record
  enter := enter
  leave := leave
  failure := failure
  place h hop := absurd (h _ rfl) hop
  delimiters _ _ _ h := h.delimiters

end Abreast

end Cursor

/-- What lies behind a cursor, and how far it has come, has no part in what is answered from there
on. It only shifts the places that failures and entries tell of. -/
theorem answers_from_text_ahead {c c' : Cursor} (h : c.SameAhead c') {steps : List Step}
    (hlocal : ∀ step ∈ steps, ∀ op, step.Contains (.perform op) → op.Local) :
    List.Forall₂
      (Report.Like (Failure.Shifted c.offset c'.offset) (fun _ _ ↦ False) (c.Abreast c'))
      (runScript steps ⟨c, []⟩).1 (runScript steps ⟨c', []⟩).1 ∧
    c.Abreast c' (runScript steps ⟨c, []⟩).2.cursor (runScript steps ⟨c', []⟩).2.cursor := by
  have hP : ∀ step ∈ steps, ∀ inner, step.Contains inner →
      ∀ op, inner = .perform op → op.Local := by
    intro step hstep inner hinner op hop
    subst hop
    exact hlocal step hstep op hinner
  have hstart : Session.Alongside (c.Abreast c') ⟨c, []⟩ ⟨c', []⟩ := ⟨.refl h, .nil⟩
  obtain ⟨hreports, hlast⟩ := (Cursor.Abreast.lockstep c c').script steps hP hstart
  exact ⟨hreports, hlast.cursor⟩

theorem answers_from_text_ahead_accent :
    ∃ (c c' : Cursor) (steps : List Step), c.offset = 0 ∧ c'.offset = 2 ∧ c.SameAhead c' ∧
      (∀ step ∈ steps, ∀ op, step.Contains (.perform op) → op.Local) ∧
      (runScript steps ⟨c, []⟩).1.map Report.outcome =
        [.error ⟨.missingDigits 10, 2⟩, .ok (.text ['x'])] ∧
      (runScript steps ⟨c', []⟩).1.map Report.outcome =
        [.error ⟨.missingDigits 10, 4⟩, .ok (.text ['x'])] ∧
      List.Forall₂
        (Report.Like (Failure.Shifted c.offset c'.offset) (fun _ _ ↦ False) (c.Abreast c'))
        (runScript steps ⟨c, []⟩).1 (runScript steps ⟨c', []⟩).1 ∧
      c.Abreast c' (runScript steps ⟨c, []⟩).2.cursor (runScript steps ⟨c', []⟩).2.cursor := by
  have hahead : (Cursor.ofText { logging := true, listPaths := true } ['1', ';', 'x']).SameAhead
      ⟨['é'], ['1', ';', 'x'], {}, .ofSettings { logging := true, listPaths := true }⟩ :=
    ⟨rfl, rfl, ⟨rfl, rfl, rfl⟩, rfl⟩
  have hlocal : ∀ step ∈ [Step.read (.listWith ⟨';', ' '⟩ (.integer .int64)),
      .perform .consumeRest], ∀ op, step.Contains (.perform op) → op.Local := by
    intro step hstep op hop
    rcases List.mem_pair.1 hstep with rfl | rfl
    · cases hop with
      | listWith hop => cases hop
    · cases hop
      trivial
  exact ⟨_, _, _, rfl, rfl, hahead, hlocal, rfl, rfl, answers_from_text_ahead hahead hlocal⟩

end TextCursor
