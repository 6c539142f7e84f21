import TextCursor.Proofs.Reading.Provenance
import TextCursor.Proofs.Text.PathText

namespace TextCursor

theorem Entry.NotedUnder.pathText?_eq {settings : Settings} {t : Text} {p : Path} {e : Entry}
    (hpaths : settings.listPaths = true) (h : e.NotedUnder settings t p) :
    e.pathText? = some p.render := by
  rw [Entry.pathText?, h.path_eq, if_pos hpaths]
  rfl

/-- No two paths have the same text, and the text of one begins with that of another just where its
indexes do. Each pending entry shows the text of the indexes that it was noted under. -/
theorem path_texts_are_unambiguous :
    (∀ p q : Path, (p.render = q.render ↔ p = q) ∧ (p.render <+: q.render ↔ p <+: q)) ∧
    ∀ (settings : Settings) (t : Text), settings.listPaths = true →
      (∀ s : Session, Reachable settings t s →
        ∀ e ∈ s.cursor.journal.entries, ∃ p, e.NotedUnder settings t p) ∧
      (∀ b : ByteSession, ByteReachable settings t b →
        ∀ e ∈ b.cursor.journal.entries, ∃ p, e.NotedUnder settings t p) ∧
      (∀ (e : Entry) (p : Path), e.NotedUnder settings t p → e.pathText? = some p.render ∧
        ∀ (e' : Entry) (p' : Path), e'.NotedUnder settings t p' →
          (e.pathText? = e'.pathText? ↔ p = p')) ∧
      ∀ (s : Session) (d : Delimiters) (element shape : Shape) (vs : List Value) (mid : Cursor),
        Reachable settings t s → Shape.Lists s.cursor d element shape →
        Scan.Completed d element.read s.cursor vs mid →
        (∀ (v : Value) (next : Cursor) (e : Entry),
          element.read (mid.atElement d vs.length) = .ok v next →
          e.NotedAt next (mid.skipCopies d.padding) .listElement →
            e.pathText? = some (Path.render (s.cursor.path ++ [vs.length]))) ∧
        ∀ (opened : List (List Value)) (e : Entry),
          Step.Notes (.read element) (mid.atElement d vs.length) opened e →
            ∃ rest, e.pathText? = some (Path.render (s.cursor.path ++ [vs.length]) ++ rest) := by
  refine ⟨fun p q ↦ ⟨Path.render_inj, Path.render_prefix_iff⟩, fun settings t hpaths ↦ ?_⟩
  refine ⟨fun s hs e ↦ hs.notedUnder, fun b hb e he ↦ ?_,
    fun e p h ↦ ⟨h.pathText?_eq hpaths, fun e' p' h' ↦ ?_⟩,
    fun s d element shape vs mid hs hlist hcompleted ↦ ⟨fun v next e hread he ↦ ?_,
      fun opened e h ↦ ?_⟩⟩
  · obtain ⟨s, hs, rfl⟩ := hb.exists_session
    exact hs.notedUnder he
  · rw [h.pathText?_eq hpaths, h'.pathText?_eq hpaths, Option.some_inj]
    exact Path.render_inj
  · have hnotes := Step.Notes.itself (.element hlist hcompleted hread he)
    exact Entry.NotedUnder.pathText?_eq hpaths ⟨s, _, _, hs, hnotes, rfl⟩
  · have hnotes := h.insideList hlist hcompleted
    have hbegins : Path.render (s.cursor.path ++ [vs.length]) <+:
        Path.render (s.cursor.path ++ (vs :: opened).map List.length) := by
      rw [Path.render_prefix_iff, List.prefix_append_right_inj]
      exact List.prefix_append _ _
    obtain ⟨behind, hbehind⟩ := hbegins
    refine ⟨behind, ?_⟩
    rw [hbehind]
    exact Entry.NotedUnder.pathText?_eq hpaths ⟨s, _, _, hs, hnotes, rfl⟩

theorem path_texts_are_unambiguous_eleven :
    ¬ Path.render [1] <+: Path.render [10] ∧
    (∃ s e e', Reachable { logging := true, listPaths := true } "5,5,5,5,5,5,5,5,5,5,5".toList s ∧
      e ∈ s.cursor.journal.entries ∧ e' ∈ s.cursor.journal.entries ∧
      e.path = some [1] ∧ e'.path = some [10] ∧ e.pathText? ≠ e'.pathText?) ∧
    ∃ mid e behind, Scan.Completed {} (Shape.integer .int64).read
        (.ofText { logging := true, listPaths := true } "5,5,5,5,5,5,5,5,5,5,5".toList)
        [.integer 5] mid ∧
      Step.Notes (.read (.integer .int64)) (mid.atElement {} 1) [] e ∧
      e.position = 2 ∧ e.pathText? = some (Path.render [1] ++ behind) := by
  obtain ⟨htexts, hruns⟩ := path_texts_are_unambiguous
  obtain ⟨hnoted, -, hsame, hinside⟩ :=
    hruns { logging := true, listPaths := true } "5,5,5,5,5,5,5,5,5,5,5".toList rfl
  refine ⟨fun h ↦ ?_, ?_, ?_⟩
  · exact absurd ((htexts _ _).2.1 h) (by decide)
  · have hreach : Reachable { logging := true, listPaths := true }
        "5,5,5,5,5,5,5,5,5,5,5".toList _ := .after (.read (.commaList (.integer .int64))) .fresh
    obtain ⟨e, he, hpath⟩ : ∃ e ∈ (ending (Step.run (.read (.commaList (.integer .int64)))
        ⟨.ofText { logging := true, listPaths := true } "5,5,5,5,5,5,5,5,5,5,5".toList, []⟩)
          ).cursor.journal.entries, e.path = some [1] := by decide +kernel
    obtain ⟨e', he', hpath'⟩ : ∃ e ∈ (ending (Step.run (.read (.commaList (.integer .int64)))
        ⟨.ofText { logging := true, listPaths := true } "5,5,5,5,5,5,5,5,5,5,5".toList, []⟩)
          ).cursor.journal.entries, e.path = some [10] := by decide +kernel
    obtain ⟨p, hp⟩ := hnoted _ hreach e he
    obtain ⟨p', hp'⟩ := hnoted _ hreach e' he'
    refine ⟨_, e, e', hreach, he, he', hpath, hpath', fun h ↦ ?_⟩
    have hone := (hsame e p hp).1
    have hten := (hsame e' p' hp').1
    rw [Entry.pathText?, hpath, Option.map_some, Option.some_inj, (htexts _ _).1] at hone
    rw [Entry.pathText?, hpath', Option.map_some, Option.some_inj, (htexts _ _).1] at hten
    rw [(hsame e p hp).2 e' p' hp', ← hone, ← hten] at h
    exact absurd h (by decide)
  · have hcompleted : Scan.Completed {} (Shape.integer .int64).read
        (.ofText { logging := true, listPaths := true } "5,5,5,5,5,5,5,5,5,5,5".toList)
        [.integer 5] _ := .more .none rfl rfl
    have hwithin := (hinside _ _ _ _ _ _ .fresh (.listWith {} (.integer .int64)) hcompleted).2
    obtain ⟨behind, hbehind⟩ := hwithin [] _ (.itself (.operation rfl rfl ⟨rfl, rfl⟩))
    exact ⟨_, _, behind, hcompleted, .itself (.operation rfl rfl ⟨rfl, rfl⟩), rfl, hbehind⟩

end TextCursor
