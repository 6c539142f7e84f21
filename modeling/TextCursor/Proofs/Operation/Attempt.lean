import TextCursor.Proofs.Bytes.InBounds

namespace TextCursor

variable {ε σ α : Type}

namespace Operation

def MayDecline : Operation → Prop
  | tryConsume _ | tryConsumeChar _ | consumeThrough _ | consumeUpTo _ | tryConsumeNext
  | tryConsumeNextN _ | tryReadInteger _ | tryReadHex => True
  | _ => False

/-- The trying form of an operation that takes the text for well formed. -/
def attempt? : Operation → Option Operation
  | consume literal => some (tryConsume literal)
  | consumeNext => some tryConsumeNext
  | consumeNextN n => some (tryConsumeNextN n)
  | readInteger type => some (tryReadInteger type)
  | readHex => some tryReadHex
  | _ => none

end Operation

/-- What the other form gives where the trying form has answered this; nothing where the answer is
that nothing was found. -/
def Value.granted? : Value → Option Value
  | .flag found => if found then some .nothing else none
  | .nothing | .attempt (.error _) => none
  | .attempt (.ok n) => some (.integer n)
  | v => some v

/-- The failure of an operation whose trying form has answered `v` at a place with `rest` ahead. A
trying form that says why is repeated. -/
inductive Operation.FailsOn (rest : Text) (position : Nat) : Operation → Value → Failure → Prop
  | literal (expected : Text) :
      FailsOn rest position (.consume expected) (.flag false)
        ⟨.unexpectedLiteral expected (rest.take expected.length), position⟩
  | next : FailsOn rest position .consumeNext .nothing ⟨.unexpectedEnd 1 0, position⟩
  | nextN (n : Nat) :
      FailsOn rest position (.consumeNextN n) .nothing ⟨.unexpectedEnd n rest.length, position⟩
  | told (op : Operation) (e : Failure) : FailsOn rest position op (.attempt (.error e)) e

namespace Operation

variable {op attempt : Operation} {rest : Text} {position : Nat} {e e' : Failure} {w : Value}

theorem FailsOn.granted? (h : FailsOn rest position op w e) : w.granted? = none := by
  cases h <;> rfl

theorem FailsOn.unique (h : FailsOn rest position op w e) (h' : FailsOn rest position op w e') :
    e' = e := by
  cases h <;> cases h' <;> rfl

/-- From state `s` on, what finds nothing leaves no trace of its search, and the operations that
then fail go along with their trying forms: same value and same state, or no new state at all. -/
structure FailsWithoutTrace (run : Operation → EStateM ε σ Value) (fail : Failure → ε)
    (rest : Text) (position : Nat) (s : σ) : Prop where
  declines : ∀ op : Operation, op.MayDecline →
    ∃ v s', run op s = .ok v s' ∧ (v.granted? = none → s' = s)
  grants : ∀ op attempt : Operation, op.attempt? = some attempt → ∀ v s',
    run op s = .ok v s' ↔ ∃ w, run attempt s = .ok w s' ∧ w.granted? = some v
  fails : ∀ op attempt : Operation, op.attempt? = some attempt → ∀ p s',
    run op s = .error p s' ↔ s' = s ∧ ∃ w e, p = fail e ∧ run attempt s = .ok w s ∧
      op.FailsOn rest position w e

inductive EndsLike (op : Operation) (fail : Failure → ε) (rest : Text) (position : Nat) (s : σ) :
    EStateM.Result ε σ Value → EStateM.Result ε σ Value → Prop
  | granted {w v : Value} {s' : σ} :
      w.granted? = some v → EndsLike op fail rest position s (.ok w s') (.ok v s')
  | declined {w : Value} {e : Failure} :
      op.FailsOn rest position w e →
      EndsLike op fail rest position s (.ok w s) (.error (fail e) s)

namespace EndsLike

variable {fail : Failure → ε} {s s' : σ} {tried ended : EStateM.Result ε σ Value}
variable (h : EndsLike op fail rest position s tried ended)
include h

theorem ok_iff {v : Value} :
    ended = .ok v s' ↔ ∃ w, tried = .ok w s' ∧ w.granted? = some v := by
  cases h with
  | @granted w v' s₁ hw =>
    constructor
    · intro hended
      cases hended
      exact ⟨w, rfl, hw⟩
    · rintro ⟨w', htried, hw'⟩
      cases htried
      rw [hw] at hw'
      cases hw'
      rfl
  | @declined w e hfails =>
    constructor
    · intro hended
      cases hended
    · rintro ⟨w', htried, hw'⟩
      cases htried
      rw [hfails.granted?] at hw'
      cases hw'

theorem error_iff {p : ε} :
    ended = .error p s' ↔ s' = s ∧ ∃ w e, p = fail e ∧ tried = .ok w s ∧
      op.FailsOn rest position w e := by
  cases h with
  | @granted w v s₁ hw =>
    constructor
    · intro hended
      cases hended
    · rintro ⟨-, w', e, -, htried, hfails⟩
      cases htried
      rw [hfails.granted?] at hw
      cases hw
  | @declined w e hfails =>
    constructor
    · intro hended
      cases hended
      exact ⟨rfl, w, e, rfl, rfl, hfails⟩
    · rintro ⟨rfl, w', e', rfl, htried, hfails'⟩
      cases htried
      rw [hfails.unique hfails']

end EndsLike

end Operation

namespace Scan

variable {op : Operation} {c : Cursor}

theorem attempt_endsLike {f : Cursor → Option (α × Cursor)} {cause : Cursor → Cause}
    {answer : Option α → Value} {give : α → Value}
    (hsome : ∀ a, (answer (some a)).granted? = some (give a))
    (hnone : op.FailsOn c.remaining c.offset (answer none) ⟨cause c, c.offset⟩) :
    op.EndsLike id c.remaining c.offset c ((answer <$> attempt f) c)
      ((give <$> demand f cause) c) := by
  simp only [Functor.map, EStateM.map]
  cases hf : f c with
  | none =>
    rw [attempt_none hf, demand_none hf]
    exact .declined hnone
  | some found =>
    rw [attempt_some hf, demand_some hf]
    exact .granted (hsome _)

theorem attemptExcept_endsLike {f : Cursor → Except Failure (Int × Cursor)} :
    op.EndsLike id c.remaining c.offset c ((Value.attempt <$> attemptExcept f) c)
      ((Value.integer <$> demandExcept f) c) := by
  simp only [Functor.map, EStateM.map]
  cases hf : f c with
  | error e =>
    rw [attemptExcept_error hf, demandExcept_fail hf]
    exact .declined (.told op e)
  | ok found =>
    rw [attemptExcept_ok hf, demandExcept_ok hf]
    exact .granted rfl

theorem attempt_declines {f : Cursor → Option (α × Cursor)} {answer : Option α → Value}
    (hsome : ∀ a, (answer (some a)).granted? ≠ none) :
    ∃ v next, (answer <$> attempt f) c = .ok v next ∧ (v.granted? = none → next = c) := by
  cases hf : f c with
  | none => exact ⟨_, _, map_ok (attempt_none hf), fun _ ↦ rfl⟩
  | some found => exact ⟨_, _, map_ok (attempt_some hf), fun h ↦ absurd h (hsome _)⟩

theorem attemptExcept_declines {f : Cursor → Except Failure (Int × Cursor)} :
    ∃ v next, (Value.attempt <$> attemptExcept f) c = .ok v next ∧
      (v.granted? = none → next = c) := by
  cases hf : f c with
  | error e => exact ⟨_, _, map_ok (attemptExcept_error hf), fun _ ↦ rfl⟩
  | ok found =>
    refine ⟨_, _, map_ok (attemptExcept_ok hf), ?_⟩
    intro hnone
    cases hnone

end Scan

namespace Operation

theorem run_declines {op : Operation} (h : op.MayDecline) (c : Cursor) :
    ∃ v next, op.run c = .ok v next ∧ (v.granted? = none → next = c) := by
  cases op with
  | tryConsume _ | tryConsumeChar _ | consumeThrough _ | consumeUpTo _ | tryConsumeNext
  | tryConsumeNextN _ =>
    apply Scan.attempt_declines
    intro a hnone
    cases hnone
  | tryReadInteger type | tryReadHex => exact Scan.attemptExcept_declines
  | _ => exact h.elim

theorem run_endsLike {op attempt : Operation} (h : op.attempt? = some attempt) (c : Cursor) :
    op.EndsLike id c.remaining c.offset c (attempt.run c) (op.run c) := by
  cases op with
  | consume literal =>
    cases h
    exact Scan.attempt_endsLike (fun _ ↦ rfl) (.literal literal)
  | consumeNext =>
    cases h
    exact Scan.attempt_endsLike (fun _ ↦ rfl) .next
  | consumeNextN n =>
    cases h
    exact Scan.attempt_endsLike (fun _ ↦ rfl) (.nextN n)
  | readInteger type | readHex =>
    cases h
    exact Scan.attemptExcept_endsLike
  | _ => cases h

theorem run_failsWithoutTrace (c : Cursor) :
    FailsWithoutTrace run id c.remaining c.offset c where
  declines _ h := run_declines h c
  grants _ _ h _ _ := (run_endsLike h c).ok_iff
  fails _ _ h _ _ := (run_endsLike h c).error_iff

theorem EndsLike.retell {op : Operation} {rest : Text} {position : Nat} {c : Cursor}
    {tried ended : EStateM.Result Failure Cursor Value}
    (h : op.EndsLike id rest position c tried ended) :
    op.EndsLike Panic.failure rest position c.toBytes (TextCursor.retell Cursor.toBytes tried)
      (TextCursor.retell Cursor.toBytes ended) := by
  cases h with
  | granted hw => exact .granted hw
  | declined hfails => exact .declined hfails

theorem runBytes_failsWithoutTrace (c : Cursor) :
    FailsWithoutTrace runBytes .failure c.remaining c.offset c.toBytes := by
  have hends {op attempt : Operation} (h : op.attempt? = some attempt) :
      op.EndsLike .failure c.remaining c.offset c.toBytes (attempt.runBytes c.toBytes)
        (op.runBytes c.toBytes) := by
    rw [attempt.runBytes_follows c, op.runBytes_follows c]
    exact (run_endsLike h c).retell
  refine ⟨?_, fun _ _ h _ _ ↦ (hends h).ok_iff, fun _ _ h _ _ ↦ (hends h).error_iff⟩
  intro op h
  obtain ⟨v, next, hrun, hnext⟩ := run_declines h c
  refine ⟨v, next.toBytes, ?_, ?_⟩
  · rw [op.runBytes_follows c, hrun]
    rfl
  · intro hnone
    rw [hnext hnone]

end Operation

/-- An operation that finds nothing leaves the cursor as it was. One that takes the text for well
formed gives what its trying form gives, and where that one finds nothing it fails and has not
moved. -/
theorem failures_leave_no_trace (settings : Settings) (t : Text) :
    (∀ c : Cursor, Operation.FailsWithoutTrace Operation.run id c.remaining c.offset c) ∧
    ∀ b : ByteSession, ByteReachable settings t b →
      ∃ before rest, t.cut? b.cursor.position = some (before, rest) ∧
        Operation.FailsWithoutTrace Operation.runBytes .failure rest b.cursor.position
          b.cursor := by
  refine ⟨Operation.run_failsWithoutTrace, ?_⟩
  intro b hb
  obtain ⟨s, hs, rfl⟩ := hb.exists_session
  refine ⟨s.cursor.consumed, s.cursor.remaining, ?_, Operation.runBytes_failsWithoutTrace s.cursor⟩
  rw [← hs.placed.1.source]
  exact s.cursor.cut?_source

theorem failures_leave_no_trace_digits :
    ∃ b : ByteSession, ByteReachable { logging := true } ['é', '3', '0', '0'] b ∧
      b.cursor.position = 2 ∧
      (Operation.readInteger ⟨false, .bits8⟩).runBytes b.cursor =
        .error (.failure ⟨.outOfRange ['3', '0', '0'] ['u', '8'], 2⟩) b.cursor := by
  have hreach : ByteReachable { logging := true } ['é', '3', '0', '0'] _ :=
    .after (.perform .consumeNext) .fresh
  obtain ⟨before, rest, -, htrace⟩ := (failures_leave_no_trace _ _).2 _ hreach
  refine ⟨_, hreach, rfl, (htrace.fails _ _ rfl _ _).2 ⟨rfl, _, _, rfl, rfl, .told _ _⟩⟩

end TextCursor
