import TextCursor.Proofs.Bytes.InBounds

namespace TextCursor

/-- The entry tells of a place between two characters of the text, not before `first` and not behind
`last`, and it shows a path if and only if paths are shown. -/
structure Entry.LiesWithin (t : Text) (shown : Bool) (first last : Nat) (e : Entry) : Prop where
  boundary : String.Pos.Raw.IsValid (String.ofList t) ⟨e.position⟩
  first_le : first ≤ e.position
  le_last : e.position ≤ last
  path : e.path.isSome = shown

def Journal.LiesBehind (t : Text) (shown : Bool) (position : Nat) (j : Journal) : Prop :=
  ∀ e ∈ j.entries, e.LiesWithin t shown 0 position

/-- In the second journal entries have been put behind those of the first, and these tell of places
from `first` to `last`. -/
def Journal.Adds (t : Text) (shown : Bool) (first last : Nat) (j j' : Journal) : Prop :=
  ∃ noted, j'.entries = j.entries ++ noted ∧ ∀ e ∈ noted, e.LiesWithin t shown first last

theorem Entry.LiesWithin.mono {t : Text} {shown : Bool} {first first' last last' : Nat} {e : Entry}
    (h : e.LiesWithin t shown first last) (hfirst : first' ≤ first) (hlast : last ≤ last') :
    e.LiesWithin t shown first' last' :=
  ⟨h.boundary, Nat.le_trans hfirst h.first_le, Nat.le_trans h.le_last hlast, h.path⟩

namespace Cursor

/-- On the way between the two cursors entries have been noted that tell of places on this way. If
`taking`, then those from before, and some of the new ones, may have been taken out. -/
structure NotesWithin (taking : Prop) (c c' : Cursor) : Prop extends c.Onward c' where
  entries : ∃ noted, (c'.journal.entries = c.journal.entries ++ noted ∨
      taking ∧ c'.journal.entries = noted) ∧
    ∀ e ∈ noted, e.LiesWithin c.source c.journal.tracksPath c.offset c'.offset

namespace NotesWithin

variable {taking : Prop} {c c' c'' start : Cursor}

theorem of_entries_eq (h : c.Onward c') (hentries : c'.journal.entries = c.journal.entries) :
    c.NotesWithin taking c' :=
  ⟨h, [], .inl (by rw [hentries, List.append_nil]), by simp⟩

theorem trans (h : c.NotesWithin taking c') (h' : c'.NotesWithin taking c'') :
    c.NotesWithin taking c'' := by
  obtain ⟨noted, hnoted, hall⟩ := h.entries
  obtain ⟨noted', hnoted', hall'⟩ := h'.entries
  rw [h.source, h.settings.tracksPath] at hall'
  have hfirst : ∀ e ∈ noted, e.LiesWithin c.source c.journal.tracksPath c.offset c''.offset :=
    fun e he ↦ (hall e he).mono (Nat.le_refl _) h'.offset_le
  have hlast : ∀ e ∈ noted', e.LiesWithin c.source c.journal.tracksPath c.offset c''.offset :=
    fun e he ↦ (hall' e he).mono h.offset_le (Nat.le_refl _)
  refine ⟨h.toOnward.trans h'.toOnward, ?_⟩
  rcases hnoted' with hnoted' | ⟨htaking, hnoted'⟩
  · refine ⟨noted ++ noted', ?_, List.forall_mem_append.2 ⟨hfirst, hlast⟩⟩
    rcases hnoted with hnoted | ⟨htaking, hnoted⟩
    · exact .inl (by rw [hnoted', hnoted, List.append_assoc])
    · exact .inr ⟨htaking, by rw [hnoted', hnoted]⟩
  · exact ⟨noted', .inr ⟨htaking, hnoted'⟩, hlast⟩

theorem record (h : start.NotesWithin taking c) (event : Event) :
    start.NotesWithin taking (c.record start event) := by
  obtain ⟨noted, hnoted, hall⟩ := h.entries
  have hentry : (c.journal.entry c.source start.offset event).LiesWithin start.source
      start.journal.tracksPath start.offset c.offset := by
    refine ⟨(Cursor.placed rfl).boundary, Nat.le_refl _, h.offset_le, ?_⟩
    rw [← h.settings.tracksPath]
    cases hshown : c.journal.tracksPath <;> simp [Journal.entry, hshown]
  refine ⟨h.toOnward.trans (.record _ _ _), ?_⟩
  rw [entries_record, offset_record]
  refine ⟨noted ++ if c.journal.enabled then [c.journal.entry c.source start.offset event] else [],
    ?_, List.forall_mem_append.2 ⟨hall, ?_⟩⟩
  · rcases hnoted with hnoted | ⟨htaking, hnoted⟩
    · exact .inl (by rw [hnoted, List.append_assoc])
    · exact .inr ⟨htaking, by rw [hnoted]⟩
  · split
    · exact List.forall_mem_singleton.2 hentry
    · simp

theorem keptOnward (taking : Prop) : KeptOnward taking (NotesWithin taking) :=
  .of_notes of_entries_eq trans record fun htaking c ↦
    ⟨.of_run .takeLog c, [], .inr ⟨htaking, rfl⟩, by simp⟩

theorem liesBehind {settings : Settings} {t : Text}
    (h : (Cursor.ofText settings t).NotesWithin taking c) :
    c.journal.LiesBehind t settings.listPaths c.offset := by
  obtain ⟨noted, hnoted, hall⟩ := h.entries
  have hentries : c.journal.entries = noted := by
    rcases hnoted with hnoted | ⟨-, hnoted⟩ <;> exact hnoted
  intro e he
  rw [hentries] at he
  exact hall e he

theorem adds (h : c.NotesWithin False c') :
    c.journal.Adds c.source c.journal.tracksPath c.offset c'.offset c'.journal := by
  obtain ⟨noted, hnoted, hall⟩ := h.entries
  exact ⟨noted, hnoted.resolve_right And.left, hall⟩

end NotesWithin

end Cursor

theorem Step.notesWithin {step : Step} (hrestore : ∀ slot, step ≠ .restore slot)
    (htake : ¬ step.Contains (.perform .takeLog)) (s : Session) :
    s.cursor.NotesWithin False (ending (step.run s)).cursor := by
  have hkept := Cursor.NotesWithin.keptOnward False
  cases step with
  | perform op =>
    rw [Step.run, Session.ending_scan]
    exact hkept.run op (fun h ↦ htake (h ▸ .self _)) s.cursor
  | read shape =>
    rw [Step.run, Session.ending_scan]
    exact hkept.read shape htake s.cursor
  | save slot => exact hkept.refl s.cursor
  | restore slot => exact absurd rfl (hrestore slot)

variable {settings : Settings} {t : Text}

theorem Reachable.liesBehind {s : Session} (h : Reachable settings t s) :
    s.cursor.journal.LiesBehind t settings.listPaths s.cursor.offset ∧
      ∀ slot ∈ s.slots, slot.2.journal.LiesBehind t settings.listPaths slot.2.offset := by
  obtain ⟨hcursor, hslots⟩ := (Cursor.NotesWithin.keptOnward True).reachable h
  exact ⟨hcursor.liesBehind, fun slot hslot ↦ (hslots slot hslot).liesBehind⟩

theorem Reachable.adds {s : Session} (h : Reachable settings t s) {step : Step}
    (hrestore : ∀ slot, step ≠ .restore slot) (htake : ¬ step.Contains (.perform .takeLog)) :
    s.cursor.journal.Adds t settings.listPaths s.cursor.offset
      (ending (step.run s)).cursor.offset (ending (step.run s)).cursor.journal := by
  have honward := (Cursor.Onward.kept.reachable h).1
  have hadds := (Step.notesWithin hrestore htake s).adds
  rw [honward.source, honward.settings.tracksPath] at hadds
  exact hadds

/-- The entries that are pending anywhere in a run, and those in the snapshots, tell of places that
are not ahead. Beside going back to a snapshot, a step adds entries behind the others, which tell of
places between its start and its end. -/
theorem entries_lie_behind (settings : Settings) (t : Text) :
    (∀ s : Session, Reachable settings t s →
      (s.cursor.journal.LiesBehind t settings.listPaths s.cursor.offset ∧
        ∀ slot ∈ s.slots, slot.2.journal.LiesBehind t settings.listPaths slot.2.offset) ∧
      ∀ step : Step, (∀ slot, step ≠ .restore slot) → ¬ step.Contains (.perform .takeLog) →
        s.cursor.journal.Adds t settings.listPaths s.cursor.offset
          (ending (step.run s)).cursor.offset (ending (step.run s)).cursor.journal) ∧
    ∀ b : ByteSession, ByteReachable settings t b →
      (b.cursor.journal.LiesBehind t settings.listPaths b.cursor.position ∧
        ∀ slot ∈ b.slots, slot.2.journal.LiesBehind t settings.listPaths slot.2.position) ∧
      ∀ step : Step, (∀ slot, step ≠ .restore slot) → ¬ step.Contains (.perform .takeLog) →
        b.cursor.journal.Adds t settings.listPaths b.cursor.position
          (ending (step.runBytes b)).cursor.position (ending (step.runBytes b)).cursor.journal := by
  constructor
  · intro s hs
    exact ⟨hs.liesBehind, fun step ↦ hs.adds⟩
  · intro b hb
    obtain ⟨s, hs, rfl⟩ := hb.exists_session
    obtain ⟨hcursor, hslots⟩ := hs.liesBehind
    refine ⟨⟨hcursor, List.forall_mem_map.2 hslots⟩, fun step hrestore htake ↦ ?_⟩
    rw [step.ending_runBytes]
    exact hs.adds hrestore htake

def Shape.glancedInteger : Shape :=
  .steps [.save "here", .perform .consumeRest, .restore "here", .perform .readInt]

theorem entries_lie_behind_glances :
    ∃ (s : Session) (b : ByteSession) (step : Step),
      Reachable { logging := true, listPaths := true } ['é', '1', ',', 'x'] s ∧
      ByteReachable { logging := true, listPaths := true } ['é', '1', ',', 'x'] b ∧
      s.cursor.offset = 2 ∧ b.cursor.position = 4 ∧ step = .read (.list .glancedInteger) ∧
      (∀ slot, step ≠ .restore slot) ∧ ¬ step.Contains (.perform .takeLog) ∧
      (ending (step.run s)).cursor.journal.entries.map Entry.position = [2, 2, 3] ∧
      s.cursor.journal.Adds ['é', '1', ',', 'x'] true 2 4
        (ending (step.run s)).cursor.journal ∧
      b.cursor.journal.entries.map Entry.position = [2, 2, 3] ∧
      b.cursor.journal.LiesBehind ['é', '1', ',', 'x'] true 4 := by
  have hreach : Reachable { logging := true, listPaths := true } ['é', '1', ',', 'x'] _ :=
    .after (.perform .consumeNext) .fresh
  have hfirst : ByteReachable { logging := true, listPaths := true } ['é', '1', ',', 'x']
      (Session.toBytes
        ⟨⟨['é'], ['1', ',', 'x'], {}, .ofSettings { logging := true, listPaths := true }⟩, []⟩) :=
    .after (.perform .consumeNext) .fresh
  have hbytes := hfirst.after (.read (.list .glancedInteger))
  rw [Step.ending_runBytes] at hbytes
  have htake : ¬ (Step.read (.list .glancedInteger)).Contains (.perform .takeLog) := by
    intro h
    cases h with
    | list h =>
      cases h with
      | steps hstep h =>
        simp only [List.mem_cons, List.not_mem_nil, or_false] at hstep
        rcases hstep with rfl | rfl | rfl | rfl <;> cases h
  obtain ⟨hsessions, hbytesessions⟩ :=
    entries_lie_behind { logging := true, listPaths := true } ['é', '1', ',', 'x']
  exact ⟨_, _, _, hreach, hbytes, rfl, rfl, rfl, nofun, htake, rfl,
    (hsessions _ hreach).2 _ nofun htake, rfl, (hbytesessions _ hbytes).1.1⟩

end TextCursor
