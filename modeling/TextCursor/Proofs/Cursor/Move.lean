import TextCursor.Operation

namespace TextCursor

variable {ε σ α β : Type}

/-- The state that a run ends in, whether it gives a value or fails. -/
def ending : EStateM.Result ε σ α → σ
  | .ok _ s | .error _ s => s

@[simp] theorem ending_ok (a : α) (s : σ) : ending (.ok a s : EStateM.Result ε σ α) = s := rfl

@[simp] theorem ending_error (e : ε) (s : σ) : ending (.error e s : EStateM.Result ε σ α) = s := rfl

@[simp] theorem ending_map (f : α → β) (run : EStateM ε σ α) (s : σ) :
    ending ((f <$> run) s) = ending (run s) := by
  simp only [Functor.map, EStateM.map]
  cases run s <;> rfl

namespace Cursor

/-- What a single operation makes of a cursor, unless it takes the log: it moves over characters,
and may note one event. -/
inductive Move (c : Cursor) : Cursor → Prop
  | advance (n : Nat) : Move c (c.advance n)
  | record (n : Nat) (event : Event) : Move c ((c.advance n).record c event)

variable {c next : Cursor}

@[simp] theorem advance_zero (c : Cursor) : c.advance 0 = c := rfl

theorem Move.refl (c : Cursor) : c.Move c := .advance 0

theorem Move.recordText (n : Nat) (event : Event) (fragment : Text) :
    c.Move ((c.advance n).recordText c event fragment) := by
  unfold Cursor.recordText
  split
  · exact .advance n
  · exact .record n event

theorem consume?_move {literal : Text} (h : c.consume? literal = some next) : c.Move next := by
  unfold consume? at h
  split at h
  · cases h; exact .recordText _ _ _
  · cases h

theorem skipCopies_move (ch : Char) (c : Cursor) : c.Move (c.skipCopies ch) := .advance _

theorem consumeThrough?_move {separator : Char} {fragment : Text}
    (h : c.consumeThrough? separator = some (fragment, next)) : c.Move next := by
  obtain ⟨_, -, h⟩ := Option.map_eq_some_iff.1 h
  cases h
  exact .record _ _

theorem consumeUpTo?_move {separator : Char} {fragment : Text}
    (h : c.consumeUpTo? separator = some (fragment, next)) : c.Move next := by
  obtain ⟨_, -, h⟩ := Option.map_eq_some_iff.1 h
  cases h
  exact .record _ _

theorem next?_move {ch : Char} (h : c.next? = some (ch, next)) : c.Move next := by
  obtain ⟨_, -, h⟩ := Option.map_eq_some_iff.1 h
  cases h
  exact .advance _

theorem nextN?_move {n : Nat} {fragment : Text} (h : c.nextN? n = some (fragment, next)) :
    c.Move next := by
  unfold nextN? at h
  split at h
  · cases h; exact .advance n
  · cases h

theorem readInteger?_move {t : IntegerType} {v : Int} (h : c.readInteger? t = .ok (v, next)) :
    c.Move next := by
  simp only [readInteger?] at h
  split at h
  · cases h
  · split at h
    · cases h; exact .record _ _
    · cases h

theorem readHex?_move {v : Int} (h : c.readHex? = .ok (v, next)) : c.Move next := by
  simp only [readHex?] at h
  split at h
  · cases h
  · split at h
    · cases h; exact .record _ _
    · cases h

end Cursor

namespace Scan

variable {c : Cursor}

theorem attempt_move {f : Cursor → Option (α × Cursor)}
    (h : ∀ a next, f c = some (a, next) → c.Move next) : c.Move (ending (attempt f c)) := by
  unfold attempt
  split
  · exact h _ _ ‹_›
  · exact .refl c

theorem attemptExcept_move {f : Cursor → Except Failure (α × Cursor)}
    (h : ∀ a next, f c = .ok (a, next) → c.Move next) : c.Move (ending (attemptExcept f c)) := by
  unfold attemptExcept
  split
  · exact h _ _ ‹_›
  · exact .refl c

theorem demand_move {f : Cursor → Option (α × Cursor)} {cause : Cursor → Cause}
    (h : ∀ a next, f c = some (a, next) → c.Move next) : c.Move (ending (demand f cause c)) := by
  unfold demand
  split
  · exact h _ _ ‹_›
  · exact .refl c

theorem demandExcept_move {f : Cursor → Except Failure (α × Cursor)}
    (h : ∀ a next, f c = .ok (a, next) → c.Move next) : c.Move (ending (demandExcept f c)) := by
  unfold demandExcept
  split
  · exact h _ _ ‹_›
  · exact .refl c

end Scan

theorem Operation.run_move (op : Operation) (h : op ≠ .takeLog) (c : Cursor) :
    c.Move (ending (op.run c)) := by
  cases op with
  | takeLog => exact absurd rfl h
  | source | remaining | isDone | peek | offset | charOffset => exact .refl c
  | tryConsume literal | tryConsumeChar literal =>
    simp only [run, ending_map]
    refine Scan.attempt_move fun _ next h ↦ ?_
    obtain ⟨_, hc, h⟩ := Option.map_eq_some_iff.1 h
    cases h
    exact Cursor.consume?_move hc
  | consume literal =>
    simp only [run, ending_map]
    refine Scan.demand_move fun _ next h ↦ ?_
    obtain ⟨_, hc, h⟩ := Option.map_eq_some_iff.1 h
    cases h
    exact Cursor.consume?_move hc
  | consumeThrough separator =>
    simp only [run, ending_map]
    exact Scan.attempt_move fun _ _ ↦ Cursor.consumeThrough?_move
  | consumeUpTo separator =>
    simp only [run, ending_map]
    exact Scan.attempt_move fun _ _ ↦ Cursor.consumeUpTo?_move
  | consumeCopiesOf ch => exact Cursor.skipCopies_move ch c
  | consumeWhile p => exact .advance _
  | consumeBlanks => exact .advance _
  | tryConsumeNext =>
    simp only [run, ending_map]
    exact Scan.attempt_move fun _ _ ↦ Cursor.next?_move
  | consumeNext =>
    simp only [run, ending_map]
    exact Scan.demand_move fun _ _ ↦ Cursor.next?_move
  | tryConsumeNextN n =>
    simp only [run, ending_map]
    exact Scan.attempt_move fun _ _ ↦ Cursor.nextN?_move
  | consumeNextN n =>
    simp only [run, ending_map]
    exact Scan.demand_move fun _ _ ↦ Cursor.nextN?_move
  | consumeRest => exact .recordText _ _ _
  | tryReadInteger type =>
    simp only [run, ending_map]
    exact Scan.attemptExcept_move fun _ _ ↦ Cursor.readInteger?_move
  | readInteger type =>
    simp only [run, ending_map]
    exact Scan.demandExcept_move fun _ _ ↦ Cursor.readInteger?_move
  | tryReadHex =>
    simp only [run, ending_map]
    exact Scan.attemptExcept_move fun _ _ ↦ Cursor.readHex?_move
  | readHex =>
    simp only [run, ending_map]
    exact Scan.demandExcept_move fun _ _ ↦ Cursor.readHex?_move
  | readWord => exact .recordText _ _ _

namespace Scan

variable {c next : Cursor} {a : α} {e : Failure}

theorem attempt_some {f : Cursor → Option (α × Cursor)} (h : f c = some (a, next)) :
    attempt f c = .ok (some a) next := by
  simp only [attempt, h]

theorem attempt_none {f : Cursor → Option (α × Cursor)} (h : f c = none) :
    attempt f c = .ok none c := by
  simp only [attempt, h]

theorem attempt_unit_some {f : Cursor → Option Cursor} (h : f c = some next) :
    attempt (fun c ↦ (f c).map ((), ·)) c = .ok (some ()) next :=
  attempt_some (by rw [h]; rfl)

theorem attempt_unit_none {f : Cursor → Option Cursor} (h : f c = none) :
    attempt (fun c ↦ (f c).map ((), ·)) c = .ok none c :=
  attempt_none (by rw [h]; rfl)

theorem demand_some {f : Cursor → Option (α × Cursor)} {cause : Cursor → Cause}
    (h : f c = some (a, next)) : demand f cause c = .ok a next := by
  simp only [demand, h]

theorem demand_none {f : Cursor → Option (α × Cursor)} {cause : Cursor → Cause} (h : f c = none) :
    demand f cause c = .error ⟨cause c, c.offset⟩ c := by
  simp only [demand, h]

theorem attemptExcept_ok {f : Cursor → Except Failure (α × Cursor)} (h : f c = .ok (a, next)) :
    attemptExcept f c = .ok (.ok a) next := by
  simp only [attemptExcept, h]

theorem attemptExcept_error {f : Cursor → Except Failure (α × Cursor)} (h : f c = .error e) :
    attemptExcept f c = .ok (.error e) c := by
  simp only [attemptExcept, h]

theorem demandExcept_ok {f : Cursor → Except Failure (α × Cursor)} (h : f c = .ok (a, next)) :
    demandExcept f c = .ok a next := by
  simp only [demandExcept, h]

theorem demandExcept_fail {f : Cursor → Except Failure (α × Cursor)} (h : f c = .error e) :
    demandExcept f c = .error e c := by
  simp only [demandExcept, h]

end Scan

theorem Scan.map_ok {f : α → β} {read : Scan α} {c c' : Cursor} {a : α} (h : read c = .ok a c') :
    (f <$> read) c = .ok (f a) c' := by
  simp only [Functor.map, EStateM.map, h]

theorem Scan.map_error {f : α → β} {read : Scan α} {c c' : Cursor} {e : Failure}
    (h : read c = .error e c') : (f <$> read) c = .error e c' := by
  simp only [Functor.map, EStateM.map, h]

theorem Scan.of_map_ok {f : α → β} {read : Scan α} {c c' : Cursor} {b : β}
    (h : (f <$> read) c = .ok b c') : ∃ a, read c = .ok a c' ∧ f a = b := by
  simp only [Functor.map, EStateM.map] at h
  split at h
  · cases h; exact ⟨_, ‹_›, rfl⟩
  · cases h

theorem Scan.eq_of_map_error {f : α → β} {read : Scan α} {c c' : Cursor} {e : Failure}
    (h : (f <$> read) c = .error e c') : read c = .error e c' := by
  simp only [Functor.map, EStateM.map] at h
  split at h
  · cases h
  · cases h; assumption

theorem Scan.of_demandExcept_ok {f : Cursor → Except Failure (α × Cursor)}
    {c next : Cursor} {a : α} (h : demandExcept f c = .ok a next) : f c = .ok (a, next) := by
  unfold demandExcept at h
  split at h <;> cases h
  assumption

theorem Scan.of_demand_ok {f : Cursor → Option (α × Cursor)} {cause : Cursor → Cause}
    {c next : Cursor} {a : α} (h : demand f cause c = .ok a next) : f c = some (a, next) := by
  unfold demand at h
  split at h <;> cases h
  assumption

theorem Scan.of_demand_error {f : Cursor → Option (α × Cursor)} {cause : Cursor → Cause}
    {c c' : Cursor} {e : Failure} (h : demand f cause c = .error e c') : f c = none ∧ c' = c := by
  unfold demand at h
  split at h <;> cases h
  exact ⟨‹_›, rfl⟩

theorem Scan.of_demandExcept_error {f : Cursor → Except Failure (α × Cursor)} {c c' : Cursor}
    {e : Failure} (h : demandExcept f c = .error e c') : f c = .error e ∧ c' = c := by
  unfold demandExcept at h
  split at h <;> cases h
  exact ⟨‹_›, rfl⟩

theorem Operation.run_error {op : Operation} {c c' : Cursor} {e : Failure}
    (h : op.run c = .error e c') : c' = c := by
  cases op with
  | consume literal | consumeNext | consumeNextN n =>
    exact (Scan.of_demand_error (Scan.eq_of_map_error h)).2
  | readInteger type | readHex => exact (Scan.of_demandExcept_error (Scan.eq_of_map_error h)).2
  | tryConsume literal | tryConsumeChar ch | consumeThrough ch | consumeUpTo ch
  | tryConsumeNext | tryConsumeNextN n =>
    have h := Scan.eq_of_map_error h
    unfold Scan.attempt at h
    split at h <;> cases h
  | tryReadInteger type | tryReadHex =>
    have h := Scan.eq_of_map_error h
    unfold Scan.attemptExcept at h
    split at h <;> cases h
  | _ => cases h

end TextCursor
