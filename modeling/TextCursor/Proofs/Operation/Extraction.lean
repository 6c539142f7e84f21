import TextCursor.Proofs.Operation.Conservation
import TextCursor.Shape.FromText

namespace TextCursor

variable {ε σ α : Type}

def Event.unlessEmpty (event : Event) (t : Text) : Option Event :=
  if t.isEmpty then none else some event

/-- What an operation extracts, told from its answer. There is no answer where it fails. -/
def Operation.extracted? : Operation → Option Value → Option Event
  | tryConsume literal, some (.flag true) => Event.literal.unlessEmpty literal
  | consume literal, some .nothing => Event.literal.unlessEmpty literal
  | tryConsumeChar _, some (.flag true) => some .literal
  | consumeThrough _, some (.text _) => some .throughSeparator
  | consumeUpTo _, some (.text _) => some .upToSeparator
  | tryReadInteger _, some (.attempt (.ok _)) => some .integer
  | readInteger _, some (.integer _) => some .integer
  | tryReadHex, some (.attempt (.ok _)) => some .hexadecimal
  | readHex, some (.integer _) => some .hexadecimal
  | readWord, some (.text word) => Event.word.unlessEmpty word
  | consumeRest, some (.text rest) => Event.rest.unlessEmpty rest
  | _, _ => none

def Settings.entry (settings : Settings) (source : Text) (position : Nat) (path : Path)
    (event : Event) : Entry :=
  ⟨position, event, source.window position settings.window,
    if settings.listPaths then some path else none⟩

/-- Whichever operation is taken in state `s`, beside taking the log, one entry is put behind the
others for what it extracts, and none where it extracts nothing. -/
def Operation.NotesExtraction (settings : Settings) (source : Text)
    (run : Operation → EStateM ε σ Value) (journal : σ → Journal) (position : σ → Nat) (s : σ) :
    Prop :=
  ∀ op : Operation, op ≠ takeLog →
    (journal (ending (run op s))).entries = (journal s).entries ++
      (op.extracted? (answer? (run op s))).toList.map
        (settings.entry source (position s) (journal s).path)

namespace Cursor

def NotesOne (c : Cursor) (event? : Option Event) (next : Cursor) : Prop :=
  next.journal.entries = c.journal.entries ++
    if c.journal.enabled then event?.toList.map (c.journal.entry c.source c.offset) else []

variable {c next : Cursor}

theorem NotesOne.advance (n : Nat) (c : Cursor) : c.NotesOne none (c.advance n) := by
  unfold NotesOne
  split <;> exact (List.append_nil _).symm

theorem NotesOne.refl (c : Cursor) : c.NotesOne none c :=
  .advance 0 c

theorem NotesOne.record (n : Nat) (event : Event) (c : Cursor) :
    c.NotesOne (some event) ((c.advance n).record c event) := by
  rw [NotesOne, entries_record, source_advance]
  rfl

theorem NotesOne.recordText (n : Nat) (event : Event) (fragment : Text) (c : Cursor) :
    c.NotesOne (event.unlessEmpty fragment) ((c.advance n).recordText c event fragment) := by
  unfold Cursor.recordText Event.unlessEmpty
  split
  · exact .advance n c
  · exact .record n event c

theorem consume?_notesOne {literal : Text} (h : c.consume? literal = some next) :
    c.NotesOne (Event.literal.unlessEmpty literal) next := by
  obtain ⟨-, rfl⟩ := consume?_eq_some_iff.1 h
  exact .recordText _ _ _ c

theorem consumeThrough?_notesOne {separator : Char} {fragment : Text}
    (h : c.consumeThrough? separator = some (fragment, next)) :
    c.NotesOne (some .throughSeparator) next := by
  obtain ⟨_, -, h⟩ := Option.map_eq_some_iff.1 h
  cases h
  exact .record _ _ c

theorem consumeUpTo?_notesOne {separator : Char} {fragment : Text}
    (h : c.consumeUpTo? separator = some (fragment, next)) :
    c.NotesOne (some .upToSeparator) next := by
  obtain ⟨_, -, h⟩ := Option.map_eq_some_iff.1 h
  cases h
  exact .record _ _ c

theorem next?_notesOne {ch : Char} (h : c.next? = some (ch, next)) : c.NotesOne none next := by
  obtain ⟨_, -, h⟩ := Option.map_eq_some_iff.1 h
  cases h
  exact .advance 1 c

theorem nextN?_notesOne {n : Nat} {fragment : Text} (h : c.nextN? n = some (fragment, next)) :
    c.NotesOne none next := by
  unfold nextN? at h
  split at h
  · cases h
    exact .advance n c
  · cases h

theorem readInteger?_notesOne {t : IntegerType} {v : Int} (h : c.readInteger? t = .ok (v, next)) :
    c.NotesOne (some .integer) next := by
  obtain ⟨n, rfl⟩ := eq_of_readInteger?_ok h
  exact .record n .integer c

theorem readHex?_notesOne {v : Int} (h : c.readHex? = .ok (v, next)) :
    c.NotesOne (some .hexadecimal) next := by
  simp only [readHex?] at h
  split at h
  · cases h
  · split at h
    · cases h
      exact .record _ _ c
    · cases h

end Cursor

namespace Operation

variable {op : Operation} {c : Cursor}

def NotesAnswer (op : Operation) (c : Cursor) (ended : EStateM.Result Failure Cursor Value) :
    Prop :=
  c.NotesOne (op.extracted? (answer? ended)) (ending ended)

theorem extracted?_failed (op : Operation) : op.extracted? none = none := by
  cases op <;> rfl

theorem NotesAnswer.failed (op : Operation) (e : Failure) (c : Cursor) :
    op.NotesAnswer c (.error e c) := by
  rw [NotesAnswer, answer?, extracted?_failed]
  exact .refl c

theorem attempt_notes {f : Cursor → Option (α × Cursor)} {answer : Option α → Value}
    (hnone : op.extracted? (some (answer none)) = none)
    (hsome : ∀ a next, f c = some (a, next) →
      c.NotesOne (op.extracted? (some (answer (some a)))) next) :
    op.NotesAnswer c ((answer <$> Scan.attempt f) c) := by
  cases hf : f c with
  | none =>
    rw [Scan.map_ok (Scan.attempt_none hf), NotesAnswer, answer?, hnone]
    exact .refl c
  | some found =>
    rw [Scan.map_ok (Scan.attempt_some hf)]
    exact hsome _ _ hf

theorem demand_notes {f : Cursor → Option (α × Cursor)} {cause : Cursor → Cause} {give : α → Value}
    (hsome : ∀ a next, f c = some (a, next) → c.NotesOne (op.extracted? (some (give a))) next) :
    op.NotesAnswer c ((give <$> Scan.demand f cause) c) := by
  cases hf : f c with
  | none =>
    rw [Scan.map_error (Scan.demand_none hf)]
    exact .failed op _ c
  | some found =>
    rw [Scan.map_ok (Scan.demand_some hf)]
    exact hsome _ _ hf

theorem attemptExcept_notes {f : Cursor → Except Failure (Int × Cursor)}
    (herror : ∀ e, op.extracted? (some (.attempt (.error e))) = none)
    (hok : ∀ n next, f c = .ok (n, next) →
      c.NotesOne (op.extracted? (some (.attempt (.ok n)))) next) :
    op.NotesAnswer c ((Value.attempt <$> Scan.attemptExcept f) c) := by
  cases hf : f c with
  | error e =>
    rw [Scan.map_ok (Scan.attemptExcept_error hf), NotesAnswer, answer?, herror]
    exact .refl c
  | ok found =>
    rw [Scan.map_ok (Scan.attemptExcept_ok hf)]
    exact hok _ _ hf

theorem demandExcept_notes {f : Cursor → Except Failure (Int × Cursor)}
    (hok : ∀ n next, f c = .ok (n, next) → c.NotesOne (op.extracted? (some (.integer n))) next) :
    op.NotesAnswer c ((Value.integer <$> Scan.demandExcept f) c) := by
  cases hf : f c with
  | error e =>
    rw [Scan.map_error (Scan.demandExcept_fail hf)]
    exact .failed op _ c
  | ok found =>
    rw [Scan.map_ok (Scan.demandExcept_ok hf)]
    exact hok _ _ hf

theorem of_unit {f : Cursor → Option Cursor} {event? : Option Event}
    (h : ∀ next, f c = some next → c.NotesOne event? next) (a : Unit) (next : Cursor)
    (hfound : (f c).map ((), ·) = some (a, next)) : c.NotesOne event? next := by
  obtain ⟨_, hnext, hpair⟩ := Option.map_eq_some_iff.1 hfound
  cases hpair
  exact h _ hnext

theorem run_notes {op : Operation} (h : op ≠ takeLog) (c : Cursor) :
    op.NotesAnswer c (op.run c) := by
  cases op with
  | takeLog => exact absurd rfl h
  | source | remaining | isDone | peek | offset | charOffset => exact .refl c
  | tryConsume literal =>
    apply attempt_notes rfl
    exact of_unit fun _ ↦ Cursor.consume?_notesOne
  | consume literal =>
    apply demand_notes
    exact of_unit fun _ ↦ Cursor.consume?_notesOne
  | tryConsumeChar ch =>
    apply attempt_notes rfl
    exact of_unit fun _ ↦ Cursor.consume?_notesOne
  | consumeThrough separator =>
    apply attempt_notes rfl
    exact fun _ _ ↦ Cursor.consumeThrough?_notesOne
  | consumeUpTo separator =>
    apply attempt_notes rfl
    exact fun _ _ ↦ Cursor.consumeUpTo?_notesOne
  | consumeCopiesOf ch => exact .advance _ c
  | consumeWhile p => exact .advance _ c
  | consumeBlanks => exact .advance _ c
  | tryConsumeNext =>
    apply attempt_notes rfl
    exact fun _ _ ↦ Cursor.next?_notesOne
  | consumeNext =>
    apply demand_notes
    exact fun _ _ ↦ Cursor.next?_notesOne
  | tryConsumeNextN n =>
    apply attempt_notes rfl
    exact fun _ _ ↦ Cursor.nextN?_notesOne
  | consumeNextN n =>
    apply demand_notes
    exact fun _ _ ↦ Cursor.nextN?_notesOne
  | consumeRest => exact .recordText _ _ _ c
  | tryReadInteger type =>
    apply attemptExcept_notes fun _ ↦ rfl
    exact fun _ _ ↦ Cursor.readInteger?_notesOne
  | readInteger type =>
    apply demandExcept_notes
    exact fun _ _ ↦ Cursor.readInteger?_notesOne
  | tryReadHex =>
    apply attemptExcept_notes fun _ ↦ rfl
    exact fun _ _ ↦ Cursor.readHex?_notesOne
  | readHex =>
    apply demandExcept_notes
    exact fun _ _ ↦ Cursor.readHex?_notesOne
  | readWord => exact .recordText _ _ _ c

end Operation

section Runs

variable {settings : Settings} {t : Text}

theorem Journal.SameSettings.entry_eq {j : Journal}
    (h : (Journal.ofSettings settings).SameSettings j) (source : Text) (position : Nat)
    (event : Event) :
    j.entry source position event = settings.entry source position j.path event := by
  rw [Journal.entry, h.window, h.tracksPath]
  rfl

theorem Reachable.notesExtraction {s : Session} (hlog : settings.logging = true)
    (h : Reachable settings t s) :
    Operation.NotesExtraction settings t Operation.run Cursor.journal Cursor.offset s.cursor := by
  have honward := (Cursor.Onward.kept.reachable h).1
  have henabled : s.cursor.journal.enabled = true := honward.settings.enabled.trans hlog
  have hsource : s.cursor.source = t := honward.source
  intro op hop
  have hnotes := op.run_notes hop s.cursor
  rw [Operation.NotesAnswer, Cursor.NotesOne, if_pos henabled, hsource] at hnotes
  rw [hnotes]
  congr 2
  exact funext (honward.settings.entry_eq t s.cursor.offset)

theorem ByteReachable.notesExtraction {b : ByteSession} (hlog : settings.logging = true)
    (h : ByteReachable settings t b) :
    Operation.NotesExtraction settings t Operation.runBytes ByteCursor.journal ByteCursor.position
      b.cursor := by
  obtain ⟨s, hs, rfl⟩ := h.exists_session
  intro op hop
  have hnotes := hs.notesExtraction hlog op hop
  rw [show s.toBytes.cursor = s.cursor.toBytes from rfl, op.runBytes_follows s.cursor]
  cases hrun : op.run s.cursor <;> rw [hrun] at hnotes <;> exact hnotes

/-- A single operation beside taking the log, or putting a snapshot aside. -/
def Step.IsSingle (step : Step) : Prop :=
  (∃ op, step.operation? = some op ∧ op ≠ .takeLog) ∨ ∃ slot, step = .save slot

/-- The entries of what a step extracts by itself. -/
def Step.extractions (settings : Settings) (source : Text) (step : Step) (s : Session) :
    List Entry :=
  match step.operation? with
  | some op => (op.extracted? (answer? (step.run s))).toList.map
      (settings.entry source s.cursor.offset s.cursor.journal.path)
  | none => []

def Step.extractionsInTurn (settings : Settings) (source : Text) : List Step → Session → List Entry
  | [], _ => []
  | step :: rest, s =>
    step.extractions settings source s ++
      extractionsInTurn settings source rest (ending (step.run s))

theorem Step.IsSingle.entries_run {step : Step} (hsingle : step.IsSingle)
    (hlog : settings.logging = true) {s : Session} (h : Reachable settings t s) :
    (ending (step.run s)).cursor.journal.entries =
      s.cursor.journal.entries ++ step.extractions settings t s := by
  rcases hsingle with ⟨op, hop, htake⟩ | ⟨slot, rfl⟩
  · have hnotes := h.notesExtraction hlog op htake
    rw [Step.extractions, hop, Step.run_operation hop, Session.ending_scan, hnotes, Session.scan]
    cases op.run s.cursor <;> rfl
  · exact (List.append_nil _).symm

theorem Step.entries_runScript {steps : List Step} (hsingle : ∀ step ∈ steps, step.IsSingle)
    (hlog : settings.logging = true) {s : Session} (h : Reachable settings t s) :
    (runScript steps s).2.cursor.journal.entries =
      s.cursor.journal.entries ++ Step.extractionsInTurn settings t steps s := by
  induction steps generalizing s with
  | nil => exact (List.append_nil _).symm
  | cons step rest ih =>
    have hstep := (hsingle step List.mem_cons_self).entries_run hlog h
    have hrest := ih (fun step' h' ↦ hsingle step' (List.mem_cons_of_mem _ h')) (h.after step)
    simp only [runScript, step.snd_report, extractionsInTurn]
    rw [hrest, hstep, List.append_assoc]

end Runs

/-- Each operation beside taking the log notes at most one entry: what it extracts by its answer, at
the place where it began. The log of a run of single operations is made up of these, in this order.
-/
theorem extractions_are_noted {settings : Settings} (hlog : settings.logging = true) (t : Text) :
    (∀ s : Session, Reachable settings t s →
      Operation.NotesExtraction settings t Operation.run Cursor.journal Cursor.offset s.cursor ∧
      ∀ steps : List Step, (∀ step ∈ steps, step.IsSingle) →
        (runScript steps s).2.cursor.journal.entries =
          s.cursor.journal.entries ++ Step.extractionsInTurn settings t steps s) ∧
    (∀ steps : List Step, (∀ step ∈ steps, step.IsSingle) →
      (transcript settings t steps).entries =
        Step.extractionsInTurn settings t steps ⟨.ofText settings t, []⟩) ∧
    (∀ b : ByteSession, ByteReachable settings t b →
      Operation.NotesExtraction settings t Operation.runBytes ByteCursor.journal
        ByteCursor.position b.cursor) ∧
    ∀ (τ : Type) (test : CharTest τ) (c : Cursor), (c.consumeWhile test).2.journal = c.journal := by
  refine ⟨fun s hs ↦ ⟨hs.notesExtraction hlog, fun steps hsingle ↦ ?_⟩, fun steps hsingle ↦ ?_,
    fun b hb ↦ hb.notesExtraction hlog, fun τ test c ↦ rfl⟩
  · exact Step.entries_runScript hsingle hlog hs
  · exact Step.entries_runScript hsingle hlog .fresh

theorem extractions_are_noted_fragments :
    (transcript { logging := true, window := 1, listPaths := true } ['é', ';', '7', 'x']
        [.perform (.consumeUpTo 'é'), .perform .readInt, .perform (.tryConsume []),
          .perform (.consumeThrough ';'), .save "here", .read (.integer .int64),
          .perform .consumeBlanks, .perform .consumeRest, .perform .consumeRest]).entries =
      [⟨0, .upToSeparator, ['é'], some []⟩, ⟨0, .throughSeparator, ['é'], some []⟩,
        ⟨3, .integer, [';', '7'], some []⟩, ⟨4, .rest, ['7', 'x'], some []⟩] := by
  rw [(extractions_are_noted rfl _).2.1 _ (by simp [Step.IsSingle, Step.operation?])]
  rfl

end TextCursor
