import TextCursor.Proofs.Bytes.InBounds
import TextCursor.Proofs.Text.Window

namespace TextCursor

/-- The entry tells of a place between two characters of the text and shows the window around it. -/
structure Entry.ShowsWindow (t : Text) (width : Nat) (e : Entry) : Prop where
  boundary : String.Pos.Raw.IsValid (String.ofList t) ⟨e.position⟩
  context : e.context = t.window e.position width

namespace Cursor

structure NotesWindows (c c' : Cursor) : Prop extends c.Onward c' where
  entries : ∀ e ∈ c'.journal.entries,
    e ∈ c.journal.entries ∨ e.ShowsWindow c.source c.journal.window

namespace NotesWindows

variable {c c' c'' start : Cursor}

theorem of_entries_eq (h : c.Onward c') (hentries : c'.journal.entries = c.journal.entries) :
    c.NotesWindows c' := by
  refine ⟨h, fun e he ↦ .inl ?_⟩
  rw [← hentries]
  exact he

theorem trans (h : c.NotesWindows c') (h' : c'.NotesWindows c'') : c.NotesWindows c'' := by
  refine ⟨h.toOnward.trans h'.toOnward, fun e he ↦ ?_⟩
  rcases h'.entries e he with he' | hshows
  · exact h.entries e he'
  · rw [h.source, h.settings.window] at hshows
    exact .inr hshows

theorem record (h : start.NotesWindows c) (event : Event) :
    start.NotesWindows (c.record start event) := by
  have hentry : (c.journal.entry c.source start.offset event).ShowsWindow start.source
      start.journal.window := by
    refine ⟨(placed rfl).boundary, ?_⟩
    rw [← h.source, ← h.settings.window]
    rfl
  refine ⟨h.toOnward.trans (.record _ _ _), fun e he ↦ ?_⟩
  rw [entries_record, List.mem_append] at he
  rcases he with he | he
  · exact h.entries e he
  · split at he
    · rw [List.mem_singleton] at he
      rw [he]
      exact .inr hentry
    · cases he

theorem keptOnward : KeptOnward True NotesWindows :=
  .of_notes of_entries_eq trans record fun _ c ↦ ⟨.of_run .takeLog c, nofun⟩

end NotesWindows

end Cursor

theorem Reachable.showsWindow {settings : Settings} {t : Text} {s : Session}
    (h : Reachable settings t s) :
    ∀ e ∈ s.cursor.journal.entries, e.ShowsWindow t settings.window := by
  have hnotes := (Cursor.NotesWindows.keptOnward.reachable h).1
  intro e he
  exact (hnotes.entries e he).resolve_left (by simp [Cursor.ofText, Journal.ofSettings])

/-- Around a place between two characters a window shows as many characters of either side as it is
wide, or all that there are. This is what every entry shows that is pending anywhere in a run. -/
theorem entries_show_windows (t : Text) :
    (∀ p, String.Pos.Raw.IsValid (String.ofList t) ⟨p⟩ →
      ∃ before after, t = before ++ after ∧ before.byteLength = p ∧
        (∀ width, ∃ skipped left right dropped,
          Text.WindowOn before after width skipped left right dropped ∧
          t.window p width = left ++ right ∧
          (t.window p width).length = min width before.length + min width after.length ∧
          t.slice? skipped.byteLength (skipped.byteLength + (t.window p width).byteLength) =
            some (t.window p width)) ∧
        t.window p 0 = [] ∧
        (∀ width, max before.length after.length ≤ width → t.window p width = t) ∧
        ∀ width wider, width ≤ wider →
          ∃ front back, t.window p wider = front ++ t.window p width ++ back) ∧
    ∀ settings,
      (∀ s : Session, Reachable settings t s →
        ∀ e ∈ s.cursor.journal.entries, e.ShowsWindow t settings.window) ∧
      ∀ b : ByteSession, ByteReachable settings t b →
        ∀ e ∈ b.cursor.journal.entries, e.ShowsWindow t settings.window := by
  refine ⟨fun p hp ↦ ?_, fun settings ↦ ⟨fun s hs ↦ hs.showsWindow, fun b hb ↦ ?_⟩⟩
  · obtain ⟨⟨before, after⟩, hcut⟩ := Option.isSome_iff_exists.1 (Text.cut?_isSome_iff.2 hp)
    obtain ⟨rfl, rfl⟩ := Text.of_cut? hcut
    refine ⟨before, after, rfl, rfl, fun width ↦ ?_, ?_, fun width hwidth ↦ ?_,
      fun width wider hle ↦ ?_⟩
    · obtain ⟨skipped, left, right, dropped, h⟩ := Text.exists_windowOn before after width
      refine ⟨skipped, left, right, dropped, h, h.window_eq, ?_⟩
      rw [h.window_eq]
      exact ⟨h.length_shown, h.slice?_eq⟩
    · obtain ⟨skipped, left, right, dropped, h⟩ := Text.exists_windowOn before after 0
      rw [h.window_eq, ← List.length_eq_zero_iff, h.length_shown]
      omega
    · obtain ⟨skipped, left, right, dropped, h⟩ := Text.exists_windowOn before after width
      rw [h.window_eq, h.shows_all hwidth]
    · obtain ⟨_, _, _, _, h⟩ := Text.exists_windowOn before after width
      obtain ⟨_, _, _, _, h'⟩ := Text.exists_windowOn before after wider
      rw [h.window_eq, h'.window_eq]
      exact h.widen h' hle
  · obtain ⟨s, hs, rfl⟩ := hb.exists_session
    exact hs.showsWindow

theorem entries_show_windows_accent :
    String.Pos.Raw.IsValid (String.ofList ['h', 'é', 'l', 'l', 'o']) ⟨3⟩ ∧
      (∃ before after, ['h', 'é', 'l', 'l', 'o'] = before ++ after ∧ Text.byteLength before = 3 ∧
        Text.window ['h', 'é', 'l', 'l', 'o'] 3 18446744073709551615 = before ++ after) ∧
      ∃ (s : Session) (b : ByteSession) (e : Entry),
        Reachable { logging := true, window := 1 } ['h', 'é', 'l', 'l', 'o'] s ∧
        ByteReachable { logging := true, window := 1 } ['h', 'é', 'l', 'l', 'o'] b ∧
        e ∈ s.cursor.journal.entries ∧ e ∈ b.cursor.journal.entries ∧
        e.context = ['é', 'l'] ∧ e.ShowsWindow ['h', 'é', 'l', 'l', 'o'] 1 := by
  have hvalid : String.Pos.Raw.IsValid (String.ofList ['h', 'é', 'l', 'l', 'o']) ⟨3⟩ :=
    Text.cut?_isSome_iff.1 rfl
  obtain ⟨hplace, hruns⟩ := entries_show_windows ['h', 'é', 'l', 'l', 'o']
  have hreach : Reachable { logging := true, window := 1 } ['h', 'é', 'l', 'l', 'o'] _ :=
    .after (.perform .consumeRest) (.after (.perform (.tryConsumeNextN 2)) .fresh)
  have hbytes : ByteReachable { logging := true, window := 1 } ['h', 'é', 'l', 'l', 'o'] _ :=
    .after (.perform .consumeRest) (.after (.perform (.tryConsumeNextN 2)) .fresh)
  refine ⟨hvalid, ?_, _, _, ⟨3, .rest, ['é', 'l'], none⟩, hreach, hbytes, .head _, .head _, rfl, ?_⟩
  · obtain ⟨before, after, ht, hp, -, -, hall, -⟩ := hplace 3 hvalid
    refine ⟨before, after, ht, hp, ?_⟩
    rw [← ht]
    apply hall
    have hlength := congrArg List.length ht
    simp only [List.length_cons, List.length_nil, List.length_append] at hlength
    omega
  · exact (hruns _).1 _ hreach _ (.head _)

end TextCursor
