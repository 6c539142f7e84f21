import TextCursor.Proofs.Bytes.Session

namespace TextCursor

inductive ByteReachable (settings : Settings) (t : Text) : ByteSession → Prop
  | fresh : ByteReachable settings t ⟨⟨t, 0, settings.delimiters, .ofSettings settings⟩, []⟩
  | after {b : ByteSession} (step : Step) :
      ByteReachable settings t b → ByteReachable settings t (ending (step.runBytes b))

/-- The cursor stands between two characters of the text, or at an end of it, and all that it tells
of its place agrees. -/
structure Cursor.Placed (t : Text) (c : Cursor) : Prop where
  source : c.source = t
  text : t = c.consumed ++ c.remaining
  boundary : String.Pos.Raw.IsValid (String.ofList t) ⟨c.offset⟩
  offset_le : c.offset ≤ t.bytes.length
  offset : c.offset = c.consumed.bytes.length
  charOffset : c.charOffset = c.consumed.length
  atEnd : c.offset = t.bytes.length ↔ c.remaining = []
  isDone : c.isDone ↔ c.remaining = []
  peek : c.peek? = none ↔ c.remaining = []

theorem Cursor.placed {t : Text} {c : Cursor} (h : c.source = t) : c.Placed t := by
  subst h
  have hcut : (c.source.cut? c.offset).isSome := by
    rw [c.cut?_source]
    rfl
  refine ⟨rfl, rfl, Text.cut?_isSome_iff.1 hcut, ?_, ?_, c.length_consumed.symm, ?_,
    List.isEmpty_iff, List.head?_eq_none_iff⟩
  · rw [Text.length_bytes, c.byteLength_source]
    omega
  · rw [Text.length_bytes, c.byteLength_consumed]
  · rw [Text.length_bytes]
    exact c.offset_eq_byteLength_iff

theorem Step.offset_le {step : Step} (h : ∀ slot, step ≠ .restore slot) (s : Session) :
    s.cursor.offset ≤ (ending (step.run s)).cursor.offset := by
  cases step with
  | perform op =>
    rw [Step.run, Session.ending_scan]
    exact (Cursor.Onward.of_run op s.cursor).offset_le
  | read shape =>
    rw [Step.run, Session.ending_scan]
    exact (shape.read_onward s.cursor).offset_le
  | save slot => exact Nat.le_refl _
  | restore slot => exact absurd rfl (h slot)

theorem Step.runBytes_toBytes (step : Step) (s : Session) :
    step.runBytes s.toBytes = retell Session.toBytes (step.run s) :=
  Step.run_toBytes (fun shape _ ↦ shape.readBytes_follows) s

theorem Step.ending_runBytes (step : Step) (s : Session) :
    ending (step.runBytes s.toBytes) = (ending (step.run s)).toBytes := by
  rw [step.runBytes_toBytes]
  cases step.run s <;> rfl

variable {settings : Settings} {t : Text}

theorem Reachable.placed {s : Session} (h : Reachable settings t s) :
    s.cursor.Placed t ∧ ∀ slot ∈ s.slots, slot.2.Placed t := by
  obtain ⟨hcursor, hslots⟩ := Cursor.Onward.kept.reachable h
  exact ⟨Cursor.placed hcursor.source, fun slot hslot ↦ Cursor.placed (hslots slot hslot).source⟩

theorem ByteReachable.exists_session {b : ByteSession} (h : ByteReachable settings t b) :
    ∃ s, Reachable settings t s ∧ b = s.toBytes := by
  induction h with
  | fresh => exact ⟨_, .fresh, rfl⟩
  | after step _ ih =>
    obtain ⟨s, hs, rfl⟩ := ih
    exact ⟨ending (step.run s), hs.after step, step.ending_runBytes s⟩

/-- Wherever a run comes to, it stands between two characters of its text. Run over byte positions,
it goes the same way, and so it never goes out of bounds. -/
theorem positions_in_bounds (settings : Settings) (t : Text) :
    (∀ b : ByteSession, ByteReachable settings t b →
      ∃ s, Reachable settings t s ∧ b = s.toBytes) ∧
    ∀ s : Session, Reachable settings t s →
      (s.cursor.Placed t ∧ ∀ slot ∈ s.slots, slot.2.Placed t) ∧
      (∀ step : Step, (∀ slot, step ≠ .restore slot) →
        s.cursor.offset ≤ (ending (step.run s)).cursor.offset) ∧
      (∀ step : Step, step.runBytes s.toBytes = retell Session.toBytes (step.run s)) ∧
      ∀ (step : Step) (b : ByteSession), step.runBytes s.toBytes ≠ .error .bounds b := by
  refine ⟨fun b ↦ ByteReachable.exists_session, fun s hs ↦
    ⟨hs.placed, fun step h ↦ Step.offset_le h s, fun step ↦ step.runBytes_toBytes s, ?_⟩⟩
  intro step b h
  rw [step.runBytes_toBytes] at h
  cases hrun : step.run s <;> rw [hrun] at h <;> cases h

theorem positions_in_bounds_accent :
    ∃ s, Reachable {} ['é', 'x'] s ∧ s.cursor.offset = 2 ∧
      String.Pos.Raw.IsValid (String.ofList ['é', 'x']) ⟨2⟩ ∧
      ∀ (step : Step) (b : ByteSession), step.runBytes s.toBytes ≠ .error .bounds b := by
  have hreach : Reachable {} ['é', 'x'] _ := Reachable.after (.perform .consumeNext) .fresh
  obtain ⟨hplaced, -, -, hbounds⟩ := (positions_in_bounds {} ['é', 'x']).2 _ hreach
  exact ⟨_, hreach, rfl, hplaced.1.boundary, hbounds⟩

end TextCursor
