import TextCursor.Proofs.Lockstep.SamePlace
import TextCursor.Proofs.Reading.IndexPath

namespace TextCursor

/-- Entries of one event at one place. Their contexts agree where the windows are equally wide, and
their paths where both are shown or neither is. -/
structure Entry.Agrees (s s' : Settings) (e e' : Entry) : Prop where
  position : e'.position = e.position
  event : e'.event = e.event
  context : s'.window = s.window → e'.context = e.context
  path : s'.listPaths = s.listPaths → e'.path = e.path

structure EntriesAgree (s s' : Settings) (es es' : List Entry) : Prop where
  both : s.logging = true → s'.logging = true → List.Forall₂ (Entry.Agrees s s') es es'
  off : s.logging = false → es = []
  off' : s'.logging = false → es' = []

theorem EntriesAgree.nil (s s' : Settings) : EntriesAgree s s' [] [] :=
  ⟨fun _ _ ↦ .nil, fun _ ↦ rfl, fun _ ↦ rfl⟩

/-- Both cursors stand at the same place of the same text, and the entries that each has noted
under its settings agree. -/
structure Cursor.AtSamePlace (s s' : Settings) (c c' : Cursor) : Prop where
  behind : c'.behind = c.behind
  remaining : c'.remaining = c.remaining
  delimiters : c'.delimiters = c.delimiters
  settings : (Journal.ofSettings s).SameSettings c.journal
  settings' : (Journal.ofSettings s').SameSettings c'.journal
  path : (s.logging && s.listPaths) = true → (s'.logging && s'.listPaths) = true →
    c'.path = c.path
  entries : EntriesAgree s s' c.journal.entries c'.journal.entries

namespace Cursor.AtSamePlace

variable {s s' : Settings} {c c' : Cursor}

theorem ofText (h : s'.delimiters = s.delimiters) (t : Text) :
    AtSamePlace s s' (.ofText s t) (.ofText s' t) where
  behind := rfl
  remaining := rfl
  delimiters := h
  settings := .refl _
  settings' := .refl _
  path _ _ := rfl
  entries := .nil s s'

theorem samePlace (h : AtSamePlace s s' c c') : SamePlace True False c c' :=
  ⟨h.behind, h.remaining, fun _ ↦ h.delimiters, False.elim⟩

theorem offset (h : AtSamePlace s s' c c') : c'.offset = c.offset := h.samePlace.offset

theorem source (h : AtSamePlace s s' c c') : c'.source = c.source := h.samePlace.source

theorem keepsPath (h : AtSamePlace s s' c c') : c.keepsPath = (s.logging && s.listPaths) :=
  h.settings.keepsPath

theorem keepsPath' (h : AtSamePlace s s' c c') : c'.keepsPath = (s'.logging && s'.listPaths) :=
  h.settings'.keepsPath

theorem advance (n : Nat) (h : AtSamePlace s s' c c') :
    AtSamePlace s s' (c.advance n) (c'.advance n) where
  behind := (h.samePlace.advance n).behind
  remaining := (h.samePlace.advance n).remaining
  delimiters := h.delimiters
  settings := h.settings
  settings' := h.settings'
  path := h.path
  entries := h.entries

theorem enter (index : Nat) (h : AtSamePlace s s' c c') :
    AtSamePlace s s' (c.enter index) (c'.enter index) where
  behind := h.behind
  remaining := h.remaining
  delimiters := h.delimiters
  settings := h.settings.trans (.enter _ index)
  settings' := h.settings'.trans (.enter _ index)
  path hkeeps hkeeps' := by
    rw [path_enter, path_enter, h.path hkeeps hkeeps', h.keepsPath, h.keepsPath', hkeeps, hkeeps']
  entries := by
    rw [entries_enter, entries_enter]
    exact h.entries

theorem leave (h : AtSamePlace s s' c c') : AtSamePlace s s' c.leave c'.leave where
  behind := h.behind
  remaining := h.remaining
  delimiters := h.delimiters
  settings := h.settings.trans (.leave _)
  settings' := h.settings'.trans (.leave _)
  path hkeeps hkeeps' := by
    rw [path_leave, path_leave, h.path hkeeps hkeeps', h.keepsPath, h.keepsPath', hkeeps, hkeeps']
  entries := by
    rw [entries_leave, entries_leave]
    exact h.entries

theorem entry {start start' : Cursor} (event : Event) (hstart : AtSamePlace s s' start start')
    (h : AtSamePlace s s' c c') (hon : s.logging = true) (hon' : s'.logging = true) :
    Entry.Agrees s s' (c.journal.entry c.source start.offset event)
      (c'.journal.entry c'.source start'.offset event) where
  position := hstart.offset
  event := rfl
  context hwindow := by
    have hwidth : c'.journal.window = c.journal.window := by
      rw [h.settings.window, h.settings'.window]
      exact hwindow
    simp only [Journal.entry, hwidth, h.source, hstart.offset]
  path hpaths := by
    have htracks : c.journal.tracksPath = s.listPaths := h.settings.tracksPath
    have htracks' : c'.journal.tracksPath = s.listPaths := h.settings'.tracksPath.trans hpaths
    simp only [Journal.entry, htracks, htracks']
    split
    · rename_i hshown
      refine congrArg some (h.path ?_ ?_)
      · rw [hon, hshown]
        rfl
      · rw [hon', hpaths, hshown]
        rfl
    · rfl

theorem record {start start' : Cursor} (event : Event) (hstart : AtSamePlace s s' start start')
    (h : AtSamePlace s s' c c') :
    AtSamePlace s s' (c.record start event) (c'.record start' event) where
  behind := (hstart.samePlace.record event h.samePlace).behind
  remaining := (hstart.samePlace.record event h.samePlace).remaining
  delimiters := by rw [delimiters_record, delimiters_record, h.delimiters]
  settings := h.settings.trans (c.settings_record start event)
  settings' := h.settings'.trans (c'.settings_record start' event)
  path hkeeps hkeeps' :=
    (path_record _ _ _).trans ((h.path hkeeps hkeeps').trans (path_record _ _ _).symm)
  entries := by
    have hon : c.journal.enabled = s.logging := h.settings.enabled
    have hon' : c'.journal.enabled = s'.logging := h.settings'.enabled
    rw [entries_record, entries_record, hon, hon']
    refine ⟨fun hlog hlog' ↦ ?_, fun hlog ↦ ?_, fun hlog' ↦ ?_⟩
    · rw [if_pos hlog, if_pos hlog']
      exact List.rel_append (h.entries.both hlog hlog')
        (.cons (entry event hstart h hlog hlog') .nil)
    · rw [hlog, h.entries.off hlog]
      rfl
    · rw [hlog', h.entries.off' hlog']
      rfl

theorem takeEntries (h : AtSamePlace s s' c c') :
    AtSamePlace s s' c.takeEntries.2 c'.takeEntries.2 where
  behind := h.behind
  remaining := h.remaining
  delimiters := h.delimiters
  settings := ⟨h.settings.enabled, h.settings.window, h.settings.tracksPath⟩
  settings' := ⟨h.settings'.enabled, h.settings'.window, h.settings'.tracksPath⟩
  path := h.path
  entries := .nil s s'

theorem lockstep (s s' : Settings) :
    Lockstep Eq (EntriesAgree s s') (fun _ ↦ True) (AtSamePlace s s') where
  remaining h := h.remaining
  advance := advance
  record := record
  enter := enter
  leave := leave
  failure cause n h := by rw [h.offset]
  place {op} _ hop c c' h := by
    by_cases htake : op = .takeLog
    · subst htake
      exact .ok (.entries h.entries) h.takeEntries
    · exact Operation.alike_of_place hop htake h h.behind h.remaining
  delimiters _ _ _ h := h.delimiters

end Cursor.AtSamePlace

theorem Cursor.kept_silent :
    Kept fun c c' ↦ c'.journal.enabled = c.journal.enabled ∧
      (c.journal.enabled = false → c.journal.entries = [] → c'.journal.entries = []) where
  refl c := ⟨rfl, fun _ h ↦ h⟩
  trans h h' := ⟨h'.1.trans h.1, fun hoff hnil ↦ h'.2 (h.1.trans hoff) (h.2 hoff hnil)⟩
  run op c := by
    refine ⟨(Cursor.Onward.of_run op c).settings.enabled, fun hoff hnil ↦ ?_⟩
    by_cases hop : op = .takeLog
    · subst hop
      rfl
    · have hmove := op.run_move hop c
      generalize ending (op.run c) = c' at hmove
      cases hmove with
      | advance n => exact hnil
      | record n event => rw [entries_record, journal_advance, hoff, hnil]; rfl
  enter index c :=
    ⟨(Journal.SameSettings.enter _ index).enabled, fun _ hnil ↦ (c.entries_enter index).trans hnil⟩
  leave c := ⟨(Journal.SameSettings.leave _).enabled, fun _ hnil ↦ c.entries_leave.trans hnil⟩
  record c start :=
    ⟨(c.settings_record start _).enabled, fun hoff hnil ↦ by rw [entries_record, hoff, hnil]; rfl⟩

theorem Reachable.entries_eq_nil {settings : Settings} {t : Text} {s : Session}
    (h : Reachable settings t s) (hoff : settings.logging = false) :
    s.cursor.journal.entries = [] ∧ ∀ slot ∈ s.slots, slot.2.journal.entries = [] := by
  obtain ⟨hcursor, hslots⟩ := Cursor.kept_silent.reachable h
  exact ⟨hcursor.2 hoff rfl, fun slot hslot ↦ (hslots slot hslot).2 hoff rfl⟩

/-- What is noted has no part in what is read. Under settings that differ only there, two runs over
one text give the same answers and come to the same places, and what both have noted agrees. -/
theorem logging_changes_no_answer {s s' : Settings} (h : s'.delimiters = s.delimiters)
    (t : Text) :
    (∀ steps : List Step,
      List.Forall₂ (Report.Like Eq (EntriesAgree s s') (Cursor.AtSamePlace s s'))
        (runScript steps ⟨.ofText s t, []⟩).1 (runScript steps ⟨.ofText s' t, []⟩).1 ∧
      (runScript steps ⟨.ofText s t, []⟩).2.Alongside (Cursor.AtSamePlace s s')
        (runScript steps ⟨.ofText s' t, []⟩).2 ∧
      ∀ (step inner : Step) (opened : List (List Value)) (mid : Session),
        Visits step (runScript steps ⟨.ofText s t, []⟩).2 opened inner mid →
        ∃ opened' mid', Visits step (runScript steps ⟨.ofText s' t, []⟩).2 opened' inner mid' ∧
          List.Forall₂ (List.Forall₂ (Value.Like Eq (EntriesAgree s s'))) opened opened' ∧
          mid.Alongside (Cursor.AtSamePlace s s') mid') ∧
    (s.logging = false → ∀ session : Session, Reachable s t session →
      session.cursor.journal.entries = [] ∧
        ∀ slot ∈ session.slots, slot.2.journal.entries = []) := by
  refine ⟨fun steps ↦ ?_, fun hoff session hreach ↦ hreach.entries_eq_nil hoff⟩
  have hstart : Session.Alongside (Cursor.AtSamePlace s s') ⟨.ofText s t, []⟩ ⟨.ofText s' t, []⟩ :=
    ⟨.ofText h t, .nil⟩
  have hlock := Cursor.AtSamePlace.lockstep s s'
  obtain ⟨hreports, hlast⟩ := hlock.script steps (fun _ _ _ _ ↦ trivial) hstart
  exact ⟨hreports, hlast, fun step inner opened mid ↦ hlock.visits (fun _ _ ↦ trivial) hlast⟩

theorem logging_changes_no_answer_numbers :
    ∃ (s s' : Settings) (t : Text) (steps : List Step) (es : List Entry),
      s.logging = false ∧ s'.logging = true ∧ s'.delimiters = s.delimiters ∧
      (runScript steps ⟨.ofText s t, []⟩).1.map Report.outcome =
        [.ok (.list [.integer 1, .integer 2]), .ok (.entries [])] ∧
      (runScript steps ⟨.ofText s' t, []⟩).1.map Report.outcome =
        [.ok (.list [.integer 1, .integer 2]), .ok (.entries es)] ∧
      es.map Entry.position = [0, 0, 1, 3, 3] ∧
      List.Forall₂ (Report.Like Eq (EntriesAgree s s') (Cursor.AtSamePlace s s'))
        (runScript steps ⟨.ofText s t, []⟩).1 (runScript steps ⟨.ofText s' t, []⟩).1 := by
  obtain ⟨es, hnoted, hpositions⟩ : ∃ es,
      (runScript [.read (.list (.integer .int64)), .perform .takeLog]
        ⟨.ofText { logging := true, window := 2, listPaths := true } ['1', ',', ' ', '2', 'x'],
          []⟩).1.map Report.outcome =
            [.ok (.list [.integer 1, .integer 2]), .ok (.entries es)] ∧
      es.map Entry.position = [0, 0, 1, 3, 3] := ⟨_, rfl, rfl⟩
  have hdelimiters :
      ({ logging := true, window := 2, listPaths := true } : Settings).delimiters =
        ({} : Settings).delimiters := rfl
  refine ⟨{}, { logging := true, window := 2, listPaths := true }, ['1', ',', ' ', '2', 'x'],
    [.read (.list (.integer .int64)), .perform .takeLog], es, rfl, rfl, hdelimiters, rfl, hnoted,
    hpositions, ?_⟩
  exact ((logging_changes_no_answer hdelimiters _).1 _).1

end TextCursor
