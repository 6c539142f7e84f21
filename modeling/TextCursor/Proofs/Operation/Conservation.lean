import Mathlib.Data.List.Forall2
import TextCursor.Proofs.Operation.Attempt

namespace TextCursor

variable {ε σ τ α : Type}

def answer? : EStateM.Result ε σ α → Option α
  | .ok a _ => some a
  | .error _ _ => none

namespace Operation

def OnlyTells : Operation → Prop
  | source | remaining | isDone | peek | offset | charOffset | takeLog => True
  | _ => False

def GivesFragment : Operation → Prop
  | consumeUpTo _ | consumeWhile _ | consumeBlanks | tryConsumeNextN _ | consumeRest
  | readWord => True
  | _ => False

/-- The text that an operation stands for, given its answer. There is no answer where it fails. -/
inductive StandsFor : Operation → Option Value → Text → Prop
  | failed (op : Operation) : StandsFor op none []
  | declined {op : Operation} {v : Value} :
      op.MayDecline → v.granted? = none → StandsFor op (some v) []
  | told {op : Operation} (v : Value) : op.OnlyTells → StandsFor op (some v) []
  | literal (t : Text) : StandsFor (.tryConsume t) (some (.flag true)) t
  | literalChar (ch : Char) : StandsFor (.tryConsumeChar ch) (some (.flag true)) [ch]
  | fragment {op : Operation} (t : Text) : op.GivesFragment → StandsFor op (some (.text t)) t
  | through (separator : Char) (t : Text) :
      StandsFor (.consumeThrough separator) (some (.text t)) (t ++ [separator])
  | copies (ch : Char) (n : Nat) :
      StandsFor (.consumeCopiesOf ch) (some .nothing) (List.replicate n ch)
  | char (ch : Char) : StandsFor .tryConsumeNext (some (.char ch)) [ch]
  | integer (type : IntegerType) {t sign digits : Text} :
      t.DecimalNumeral sign digits [] → digits ≠ [] →
      StandsFor (.tryReadInteger type) (some (.attempt (.ok (signedValue sign digits)))) t
  | hexadecimal {t marker digits : Text} :
      t.HexNumeral marker digits [] → digits ≠ [] →
      StandsFor .tryReadHex (some (.attempt (.ok (hexValue digits)))) t
  | demanded {op attempt : Operation} {w v : Value} {t : Text} :
      op.attempt? = some attempt → w.granted? = some v → StandsFor attempt (some w) t →
      StandsFor op (some v) t

def AccountedBy (op : Operation) (move : Report × Text) : Prop :=
  op.StandsFor move.1.outcome.toOption move.2

/-- Whichever operation is taken in state `s`, the text that it moves over is what it stands for. -/
def Accounts (run : Operation → EStateM ε σ Value) (position : σ → Nat) (source : Text)
    (s : σ) : Prop :=
  ∀ op : Operation, ∃ t, source.slice? (position s) (position (ending (run op s))) = some t ∧
    op.StandsFor (answer? (run op s)) t

end Operation

theorem Cursor.slice?_between {c next : Cursor} {t : Text} (h : c.Onward next)
    (hc : c.remaining = t ++ next.remaining) :
    c.source.slice? c.offset next.offset = some t := by
  have hnext : next.offset = c.consumed.byteLength + t.byteLength := by
    rw [← next.byteLength_consumed, h.consumed_eq hc, Text.byteLength_append]
  rw [hnext, ← c.byteLength_consumed, Cursor.source, hc]
  exact Text.slice?_append _ _ _

namespace Operation

variable {op : Operation} {c : Cursor}

theorem attempt_standsFor {f : Cursor → Option (α × Cursor)} {answer : Option α → Value}
    (hop : op.MayDecline) (hnone : (answer none).granted? = none)
    (hsome : ∀ a next, f c = some (a, next) →
      ∃ t, c.remaining = t ++ next.remaining ∧ op.StandsFor (some (answer (some a))) t) :
    ∃ t, c.remaining = t ++ (ending ((answer <$> Scan.attempt f) c)).remaining ∧
      op.StandsFor (answer? ((answer <$> Scan.attempt f) c)) t := by
  cases hf : f c with
  | none =>
    rw [Scan.map_ok (Scan.attempt_none hf)]
    exact ⟨[], rfl, .declined hop hnone⟩
  | some found =>
    rw [Scan.map_ok (Scan.attempt_some hf)]
    exact hsome _ _ hf

theorem attemptExcept_standsFor {f : Cursor → Except Failure (Int × Cursor)}
    (hop : op.MayDecline)
    (hok : ∀ n next, f c = .ok (n, next) →
      ∃ t, c.remaining = t ++ next.remaining ∧ op.StandsFor (some (.attempt (.ok n))) t) :
    ∃ t, c.remaining = t ++ (ending ((Value.attempt <$> Scan.attemptExcept f) c)).remaining ∧
      op.StandsFor (answer? ((Value.attempt <$> Scan.attemptExcept f) c)) t := by
  cases hf : f c with
  | error e =>
    rw [Scan.map_ok (Scan.attemptExcept_error hf)]
    exact ⟨[], rfl, .declined hop rfl⟩
  | ok found =>
    rw [Scan.map_ok (Scan.attemptExcept_ok hf)]
    exact hok _ _ hf

theorem run_standsFor_of_mayDecline (h : op.MayDecline) (c : Cursor) :
    ∃ t, c.remaining = t ++ (ending (op.run c)).remaining ∧
      op.StandsFor (answer? (op.run c)) t := by
  cases op with
  | tryConsume literal =>
    apply attempt_standsFor h rfl
    intro _ next hfound
    obtain ⟨_, hnext, hpair⟩ := Option.map_eq_some_iff.1 hfound
    cases hpair
    exact ⟨literal, Cursor.remaining_of_consume? hnext, .literal literal⟩
  | tryConsumeChar ch =>
    apply attempt_standsFor h rfl
    intro _ next hfound
    obtain ⟨_, hnext, hpair⟩ := Option.map_eq_some_iff.1 hfound
    cases hpair
    exact ⟨[ch], Cursor.remaining_of_consumeChar? hnext, .literalChar ch⟩
  | consumeThrough separator =>
    apply attempt_standsFor h rfl
    intro fragment next hfound
    exact ⟨fragment ++ [separator], Cursor.remaining_of_consumeThrough? hfound,
      .through separator fragment⟩
  | consumeUpTo separator =>
    apply attempt_standsFor h rfl
    intro fragment next hfound
    exact ⟨fragment, Cursor.remaining_of_consumeUpTo? hfound, .fragment fragment trivial⟩
  | tryConsumeNext =>
    apply attempt_standsFor h rfl
    intro ch next hfound
    exact ⟨[ch], Cursor.remaining_of_next? hfound, .char ch⟩
  | tryConsumeNextN n =>
    apply attempt_standsFor h rfl
    intro fragment next hfound
    exact ⟨fragment, Cursor.remaining_of_nextN? hfound, .fragment fragment trivial⟩
  | tryReadInteger type =>
    apply attemptExcept_standsFor h
    intro n next hread
    obtain ⟨sign, digits, hnumeral, hne, -, rfl⟩ := Cursor.of_readInteger?_ok hread
    have hwhole : Text.DecimalNumeral (sign ++ digits ++ []) sign digits [] :=
      hnumeral.append hne nofun
    rw [List.append_nil] at hwhole
    exact ⟨sign ++ digits, hnumeral.eq, .integer type hwhole hne⟩
  | tryReadHex =>
    apply attemptExcept_standsFor h
    intro n next hread
    obtain ⟨marker, digits, hnumeral, hne, rfl⟩ := Cursor.of_readHex?_ok hread
    exact ⟨marker ++ digits, hnumeral.eq, .hexadecimal hnumeral.whole hne⟩
  | _ => exact h.elim

theorem mayDecline_of_attempt? {attempt : Operation} (h : op.attempt? = some attempt) :
    attempt.MayDecline := by
  cases op with
  | consume _ | consumeNext | consumeNextN _ | readInteger _ | readHex =>
    cases h
    exact trivial
  | _ => cases h

theorem run_standsFor_of_attempt? {attempt : Operation} (h : op.attempt? = some attempt)
    (c : Cursor) :
    ∃ t, c.remaining = t ++ (ending (op.run c)).remaining ∧
      op.StandsFor (answer? (op.run c)) t := by
  have hends := run_endsLike h c
  obtain ⟨t, hc, ht⟩ := run_standsFor_of_mayDecline (mayDecline_of_attempt? h) c
  generalize attempt.run c = tried, op.run c = ended at hends hc ht
  cases hends with
  | granted hv => exact ⟨t, hc, .demanded h hv ht⟩
  | declined _ => exact ⟨[], rfl, .failed op⟩

theorem run_standsFor (op : Operation) (c : Cursor) :
    ∃ t, c.remaining = t ++ (ending (op.run c)).remaining ∧
      op.StandsFor (answer? (op.run c)) t := by
  cases op with
  | source | remaining | isDone | peek | offset | charOffset | takeLog =>
    exact ⟨[], rfl, .told _ trivial⟩
  | tryConsume _ | tryConsumeChar _ | consumeThrough _ | consumeUpTo _ | tryConsumeNext
  | tryConsumeNextN _ | tryReadInteger _ | tryReadHex =>
    apply run_standsFor_of_mayDecline
    exact trivial
  | consume _ | consumeNext | consumeNextN _ | readInteger _ | readHex =>
    exact run_standsFor_of_attempt? rfl c
  | consumeCopiesOf ch =>
    obtain ⟨n, hc⟩ := c.skipCopies_eq ch
    exact ⟨List.replicate n ch, hc, .copies ch n⟩
  | consumeWhile p => exact ⟨_, Cursor.consumeWhile_eq p.test c, .fragment _ trivial⟩
  | consumeBlanks =>
    exact ⟨_, Cursor.consumeWhile_eq (.ofBool isBlank) c, .fragment _ trivial⟩
  | consumeRest => exact ⟨_, c.consumeRest_eq, .fragment _ trivial⟩
  | readWord =>
    obtain ⟨hword, hnext⟩ := c.readWord_eq
    refine ⟨c.readWord.1, ?_, .fragment _ trivial⟩
    calc c.remaining
        = c.remaining.takeWhile isWordCharacter ++ c.remaining.dropWhile isWordCharacter :=
          List.takeWhile_append_dropWhile.symm
      _ = c.readWord.1 ++ c.readWord.2.remaining := by rw [hword, hnext]

theorem run_accounts (c : Cursor) : Accounts run Cursor.offset c.source c := by
  intro op
  obtain ⟨t, hc, ht⟩ := op.run_standsFor c
  exact ⟨t, Cursor.slice?_between (.of_run op c) hc, ht⟩

theorem runBytes_accounts (c : Cursor) :
    Accounts runBytes ByteCursor.position c.source c.toBytes := by
  intro op
  obtain ⟨t, hslice, ht⟩ := run_accounts c op
  refine ⟨t, ?_⟩
  rw [op.runBytes_follows c]
  cases hrun : op.run c <;> rw [hrun] at hslice ht <;> exact ⟨hslice, ht⟩

theorem runScript_standsFor (ops : List Operation) (s : Session) :
    ∃ moves : List (Report × Text),
      moves.map Prod.fst = (runScript (ops.map .perform) s).1 ∧
      List.Forall₂ AccountedBy ops moves ∧
      s.cursor.remaining = (moves.map Prod.snd).flatten ++
        (runScript (ops.map .perform) s).2.cursor.remaining := by
  induction ops generalizing s with
  | nil => exact ⟨[], rfl, .nil, rfl⟩
  | cons op ops ih =>
    obtain ⟨t, hc, ht⟩ := op.run_standsFor s.cursor
    have hreport : op.StandsFor ((Step.perform op).report s).1.outcome.toOption t ∧
        s.cursor.remaining = t ++ ((Step.perform op).report s).2.cursor.remaining := by
      unfold Step.report Step.run Session.scan
      cases hrun : op.run s.cursor <;> rw [hrun] at hc ht <;> exact ⟨ht, hc⟩
    obtain ⟨moves, hreports, hmoves, hrest⟩ := ih ((Step.perform op).report s).2
    refine ⟨(((Step.perform op).report s).1, t) :: moves, ?_, .cons hreport.1 hmoves, ?_⟩
    · rw [List.map_cons, hreports]
      rfl
    · rw [List.map_cons, List.flatten_cons, List.append_assoc, hreport.2]
      exact congrArg (t ++ ·) hrest

end Operation

/-- On the text ahead, whatever a test remembers of the characters before, it does no more than to
count. -/
theorem Cursor.exists_consumeWhile_first (test : CharTest τ) (c : Cursor) :
    ∃ n, c.consumeWhile test = c.consumeWhile (Predicate.first n).test := by
  obtain ⟨run, rest, hrun⟩ := Cursor.exists_takesRun test c
  have hfirst : (CharTest.first run.length).TakesRun c.remaining run rest := by
    have htakes := CharTest.takesRun_first run.length c.remaining
    rwa [hrun.eq, List.take_left, List.drop_left, ← hrun.eq] at htakes
  exact ⟨run.length, (consumeWhile_of_takesRun hrun).trans (consumeWhile_of_takesRun hfirst).symm⟩

/-- Each operation moves over the very text that it stands for, and over nothing where it finds
nothing or fails. So the texts of a run and what is ahead in the end make up the source. -/
theorem source_is_made_up (settings : Settings) (t : Text) :
    (∀ s : Session, Reachable settings t s →
      Operation.Accounts Operation.run Cursor.offset t s.cursor ∧
      ∀ ops : List Operation, ∃ moves : List (Report × Text),
        moves.map Prod.fst = (runScript (ops.map .perform) s).1 ∧
        List.Forall₂ Operation.AccountedBy ops moves ∧
        s.cursor.consumed ++ ((moves.map Prod.snd).flatten ++
          (runScript (ops.map .perform) s).2.cursor.remaining) = t) ∧
    (∀ b : ByteSession, ByteReachable settings t b →
      Operation.Accounts Operation.runBytes ByteCursor.position t b.cursor) ∧
    ∀ (τ : Type) (test : CharTest τ) (c : Cursor),
      ∃ n, c.consumeWhile test = c.consumeWhile (Predicate.first n).test := by
  refine ⟨?_, ?_, fun τ test c ↦ c.exists_consumeWhile_first test⟩
  · intro s hs
    have hsource := hs.placed.1.source
    constructor
    · rw [← hsource]
      exact Operation.run_accounts s.cursor
    · intro ops
      obtain ⟨moves, hreports, hmoves, hremaining⟩ := Operation.runScript_standsFor ops s
      refine ⟨moves, hreports, hmoves, ?_⟩
      rw [← hremaining]
      exact hsource
  · intro b hb
    obtain ⟨s, hs, rfl⟩ := hb.exists_session
    rw [← hs.placed.1.source]
    exact Operation.runBytes_accounts s.cursor

theorem source_is_made_up_dash :
    ∃ s : Session, Reachable {} ['é', 'a', '–', '-', '4', '2', 'x'] s ∧ s.cursor.offset = 2 ∧
      (∃ moves : List (Report × Text),
        moves.map Prod.fst = (runScript [.perform (.consumeThrough '–'), .perform .readInt,
          .perform .readInt, .perform .consumeRest] s).1 ∧
        List.Forall₂ Operation.AccountedBy
          [.consumeThrough '–', .readInt, .readInt, .consumeRest] moves ∧
        ['é'] ++ ((moves.map Prod.snd).flatten ++ []) = ['é', 'a', '–', '-', '4', '2', 'x']) ∧
      ∃ b : ByteSession, ByteReachable {} ['é', 'a', '–', '-', '4', '2', 'x'] b ∧ b = s.toBytes ∧
        ∃ t, Text.slice? 2 6 ['é', 'a', '–', '-', '4', '2', 'x'] = some t ∧
          (Operation.consumeThrough '–').StandsFor (some (.text ['a'])) t := by
  have hreach : Reachable {} ['é', 'a', '–', '-', '4', '2', 'x'] _ :=
    .after (.perform .consumeNext) .fresh
  have hbytes : ByteReachable {} ['é', 'a', '–', '-', '4', '2', 'x'] _ :=
    .after (.perform .consumeNext) .fresh
  obtain ⟨hrun, haccounts, -⟩ := source_is_made_up {} ['é', 'a', '–', '-', '4', '2', 'x']
  refine ⟨_, hreach, rfl,
    (hrun _ hreach).2 [.consumeThrough '–', .readInt, .readInt, .consumeRest], ?_⟩
  exact ⟨_, hbytes, rfl, haccounts _ hbytes (.consumeThrough '–')⟩

end TextCursor
