import TextCursor.Proofs.Operation.Stepwise

namespace TextCursor

/-- The longest accepted run is consumed. Its characters are shown to the test once each, in their
order and up to the first that is refused; what the test would say to anything else makes no
difference. -/
theorem accepted_run_is_consumed (c : Cursor) :
    (∀ (σ : Type) (test : CharTest σ), ∃ run rest next, test.TakesRun c.remaining run rest ∧
      c.consumeWhile test = (run, next) ∧
      ByteScan.consumeWhile test c.toBytes = .ok run next.toBytes ∧
      next.remaining = rest ∧ next.consumed = c.consumed ++ run ∧
      (∀ run' rest', test.TakesRun c.remaining run' rest' → run' = run ∧ rest' = rest) ∧
      ∀ (τ : Type) (other : CharTest τ),
        (∀ before ch after, run ++ rest.head?.toList = before ++ ch :: after →
          other.verdict before ch = test.verdict before ch) →
        c.consumeWhile other = (run, next)) ∧
    (∀ p : Char → Bool, ∃ run next, c.consumeWhile (.ofBool p) = (run, next) ∧
      Text.Run p c.remaining run next.remaining ∧
      (∀ front, front <+: c.remaining → (∀ ch ∈ front, p ch = true) → front <+: run) ∧
      next.consumeWhile (.ofBool p) = ([], next)) ∧
    (∀ ch : Char, ∃ run next, c.consumeWhile (.ofBool (· == ch)) = (run, next) ∧
      (Operation.consumeCopiesOf ch).run c = .ok .nothing next ∧
      (Operation.consumeCopiesOf ch).runBytes c.toBytes = .ok .nothing next.toBytes) ∧
    ∀ (σ : Type) (test : CharTest σ) (n : Nat),
      (∀ shown ch, shown.length < n → test.verdict shown ch = true) →
      (∀ shown ch, shown.length = n → test.verdict shown ch = false) →
      (c.consumeWhile test).1 = c.remaining.take (min n c.remaining.length) ∧
      ∀ t next, (Operation.tryConsumeNextN n).run c = .ok (.text t) next →
        c.consumeWhile test = (t, next) := by
  refine ⟨fun σ test ↦ ?_, fun p ↦ ?_, fun ch ↦ ?_, fun σ test n haccepts hrefuses ↦ ?_⟩
  · obtain ⟨run, rest, hrun⟩ := Cursor.exists_takesRun test c
    have htake := Cursor.consumeWhile_of_takesRun hrun
    obtain ⟨hremaining, hconsumed⟩ := Cursor.advance_length hrun.eq
    refine ⟨run, rest, c.advance run.length, hrun, htake, ?_, hremaining, hconsumed, ?_, ?_⟩
    · rw [ByteScan.consumeWhile_follows test c, Scan.move, htake]
      rfl
    · intro run' rest'
      exact hrun.unique
    · intro τ other hagree
      exact Cursor.consumeWhile_of_takesRun (hrun.of_agree hagree)
  · have hrun := Text.Run.takeWhile p c.remaining
    have hremaining := (Cursor.advance_length hrun.eq).1
    refine ⟨_, _, Cursor.consumeWhile_ofBool hrun, ?_, fun front ↦ hrun.longest, ?_⟩
    · rw [hremaining]
      exact hrun
    · rw [← hremaining] at hrun
      exact Cursor.consumeWhile_ofBool ⟨rfl, List.forall_mem_nil _, hrun.stops⟩
  · have hcopies : (Operation.consumeCopiesOf ch).run c = .ok .nothing (c.skipCopies ch) := rfl
    exact ⟨_, _, Cursor.consumeWhile_ofBool (.takeWhile _ _), hcopies,
      Operation.runBytes_of_run hcopies⟩
  · have htake := Cursor.consumeWhile_of_takesRun
      (CharTest.takesRun_counting haccepts hrefuses c.remaining)
    constructor
    · rw [htake, ← List.take_eq_take_min]
    · intro t next hnext
      obtain ⟨rfl, hbegins, rfl⟩ := Operation.tryConsumeNextN_iff.1 hnext
      rw [htake, ← List.prefix_iff_eq_take.1 hbegins]

theorem accepted_run_is_consumed_dash :
    ∃ c : Cursor, c = (Cursor.ofText {} ['é', 'a', '–', 'a']).advance 1 ∧ c.offset = 2 ∧
      (∃ run rest next, CharTest.increasing.TakesRun c.remaining run rest ∧
        c.consumeWhile .increasing = (run, next) ∧ next.remaining = rest ∧ next.offset = 6) ∧
      (∀ shown ch, shown.length < 2 → (CharTest.first 2).verdict shown ch = true) ∧
      (∀ shown ch, shown.length = 2 → (CharTest.first 2).verdict shown ch = false) ∧
      (c.consumeWhile (.first 2)).1 = ['a', '–'] ∧
      ∃ next, (Operation.tryConsumeNextN 2).run c = .ok (.text ['a', '–']) next ∧
        c.consumeWhile (.first 2) = (['a', '–'], next) := by
  have haccepts (shown : Text) (ch : Char) (h : shown.length < 2) :
      (CharTest.first 2).verdict shown ch = true := by
    rw [CharTest.verdict_first, decide_eq_true h]
  have hrefuses (shown : Text) (ch : Char) (h : shown.length = 2) :
      (CharTest.first 2).verdict shown ch = false := by
    rw [CharTest.verdict_first, decide_eq_false (by omega)]
  obtain ⟨htest, -, -, hcount⟩ :=
    accepted_run_is_consumed ((Cursor.ofText {} ['é', 'a', '–', 'a']).advance 1)
  obtain ⟨run, rest, next, hrun, hconsumed, -, hremaining, -⟩ := htest _ .increasing
  obtain ⟨htaken, hnext⟩ := hcount _ (.first 2) 2 haccepts hrefuses
  refine ⟨_, rfl, rfl, ⟨run, rest, next, hrun, hconsumed, hremaining, ?_⟩, haccepts, hrefuses,
    htaken, _, rfl, hnext _ _ rfl⟩
  cases hconsumed
  rfl

end TextCursor
