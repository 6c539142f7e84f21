import TextCursor.Proofs.Bytes.InBounds

namespace TextCursor

variable {ε σ κ : Type}

def Cursor.place (c : Cursor) : Text × Nat :=
  (c.source, c.offset)

def ByteCursor.place (b : ByteCursor) : Text × Nat :=
  (b.source, b.position)

namespace Operation

/-- From state `s`, single characters are taken one after another, and make up the text. -/
inductive TakesChars (run : Operation → EStateM ε σ Value) : σ → Text → σ → Prop
  | nil (s : σ) : TakesChars run s [] s
  | cons {s next last : σ} {ch : Char} {t : Text} :
      run .tryConsumeNext s = .ok (.char ch) next → TakesChars run next t last →
      TakesChars run s (ch :: t) last

/-- From state `s`, whatever takes several characters at once finds them just where they can be
taken one by one, ends where that ends, and otherwise stays. It can be divided at will. -/
structure Stepwise (run : Operation → EStateM ε σ Value) (place : σ → κ) (s : σ) : Prop where
  count : ∀ n t last, run (.tryConsumeNextN n) s = .ok (.text t) last ↔
    t.length = n ∧ TakesChars run s t last
  count_stays : ∀ n, (∀ t last, TakesChars run s t last → t.length ≠ n) →
    run (.tryConsumeNextN n) s = .ok .nothing s
  count_add : ∀ m n t last, run (.tryConsumeNextN (m + n)) s = .ok (.text t) last ↔
    ∃ t₁ mid t₂, run (.tryConsumeNextN m) s = .ok (.text t₁) mid ∧
      run (.tryConsumeNextN n) mid = .ok (.text t₂) last ∧ t = t₁ ++ t₂
  literal : ∀ t p, (∃ last, run (.tryConsume t) s = .ok (.flag true) last ∧ place last = p) ↔
    ∃ last, TakesChars run s t last ∧ place last = p
  literal_stays : ∀ t, (∀ last, ¬ TakesChars run s t last) →
    run (.tryConsume t) s = .ok (.flag false) s
  literal_append : ∀ t u p,
    (∃ last, run (.tryConsume (t ++ u)) s = .ok (.flag true) last ∧ place last = p) ↔
      ∃ mid last, run (.tryConsume t) s = .ok (.flag true) mid ∧
        run (.tryConsume u) mid = .ok (.flag true) last ∧ place last = p
  char : ∀ ch, run (.tryConsumeChar ch) s = run (.tryConsume [ch]) s

end Operation

namespace Cursor

variable {c : Cursor}

theorem advance_advance (m n : Nat) (c : Cursor) :
    (c.advance m).advance n = c.advance (m + n) := by
  simp only [advance, List.take_add, List.drop_drop, List.reverse_append, List.append_assoc]

theorem place_recordText (c start : Cursor) (event : Event) (fragment : Text) :
    (c.recordText start event fragment).place = c.place := by
  rw [place, source_recordText, offset_recordText, place]

theorem place_advance_recordText (n : Nat) (c start : Cursor) (event : Event) (fragment : Text) :
    ((c.recordText start event fragment).advance n).place = (c.advance n).place := by
  simp only [place, source_advance, offset_advance, source_recordText, offset_recordText,
    remaining_recordText]

end Cursor

namespace Operation

variable {c next last : Cursor} {ch : Char} {t u : Text} {n : Nat}

theorem tryConsumeNext_iff :
    tryConsumeNext.run c = .ok (.char ch) next ↔
      c.remaining.head? = some ch ∧ next = c.advance 1 := by
  cases hc : c.remaining with
  | nil =>
    have hnone : c.next? = none := by rw [Cursor.next?, hc]; rfl
    have hrun : tryConsumeNext.run c = .ok .nothing c := Scan.map_ok (Scan.attempt_none hnone)
    simp [hrun]
  | cons first rest =>
    have hsome : c.next? = some (first, c.advance 1) := by rw [Cursor.next?, hc]; rfl
    have hrun : tryConsumeNext.run c = .ok (.char first) (c.advance 1) :=
      Scan.map_ok (Scan.attempt_some hsome)
    simp [hrun, eq_comm]

theorem append_prefix_iff {l : Text} : t ++ u <+: l ↔ t <+: l ∧ u <+: l.drop t.length := by
  constructor
  · rintro ⟨rest, rfl⟩
    rw [List.append_assoc, List.drop_left]
    exact ⟨List.prefix_append _ _, List.prefix_append _ _⟩
  · rintro ⟨⟨rest, rfl⟩, hsecond⟩
    rw [List.drop_left] at hsecond
    exact (List.prefix_append_right_inj t).2 hsecond

theorem takesChars_iff :
    TakesChars run c t last ↔ t <+: c.remaining ∧ last = c.advance t.length := by
  induction t generalizing c with
  | nil =>
    constructor
    · rintro ⟨⟩
      exact ⟨List.nil_prefix, rfl⟩
    · rintro ⟨-, rfl⟩
      exact .nil c
  | cons ch t ih =>
    constructor
    · rintro (_ | ⟨hfirst, hmore⟩)
      obtain ⟨hhead, rfl⟩ := tryConsumeNext_iff.1 hfirst
      obtain ⟨rest, hc⟩ := List.head?_eq_some_iff.1 hhead
      obtain ⟨hbegins, rfl⟩ := ih.1 hmore
      rw [Cursor.remaining_advance, hc] at hbegins
      rw [hc, Cursor.advance_advance, Nat.add_comm]
      exact ⟨List.cons_prefix_cons.2 ⟨rfl, hbegins⟩, rfl⟩
    · rintro ⟨⟨rest, hc⟩, rfl⟩
      have hfirst : tryConsumeNext.run c = .ok (.char ch) (c.advance 1) :=
        tryConsumeNext_iff.2 ⟨by rw [← hc]; rfl, rfl⟩
      refine .cons hfirst (ih.2 ⟨⟨rest, ?_⟩, ?_⟩)
      · rw [Cursor.remaining_advance, ← hc]
        rfl
      · rw [Cursor.advance_advance, List.length_cons, Nat.add_comm]

theorem tryConsumeNextN_enough (h : n ≤ c.remaining.length) :
    (tryConsumeNextN n).run c = .ok (.text (c.remaining.take n)) (c.advance n) :=
  Scan.map_ok (Scan.attempt_some (if_pos h))

theorem tryConsumeNextN_short (h : c.remaining.length < n) :
    (tryConsumeNextN n).run c = .ok .nothing c :=
  Scan.map_ok (Scan.attempt_none (if_neg (Nat.not_le.2 h)))

theorem tryConsumeNextN_iff :
    (tryConsumeNextN n).run c = .ok (.text t) last ↔
      t.length = n ∧ t <+: c.remaining ∧ last = c.advance n := by
  by_cases h : n ≤ c.remaining.length
  · rw [tryConsumeNextN_enough h]
    constructor
    · rintro ⟨⟩
      exact ⟨List.length_take_of_le h, List.take_prefix _ _, rfl⟩
    · rintro ⟨rfl, hbegins, rfl⟩
      rw [← List.prefix_iff_eq_take.1 hbegins]
  · rw [tryConsumeNextN_short (Nat.not_le.1 h)]
    constructor
    · nofun
    · rintro ⟨rfl, hbegins, -⟩
      exact absurd hbegins.length_le h

theorem tryConsume_ahead (h : t <+: c.remaining) :
    (tryConsume t).run c =
      .ok (.flag true) ((c.advance t.length).recordText c .literal t) :=
  Scan.map_ok (Scan.attempt_unit_some (Cursor.consume?_ahead h))

theorem tryConsume_absent (h : ¬ t <+: c.remaining) :
    (tryConsume t).run c = .ok (.flag false) c :=
  Scan.map_ok (Scan.attempt_unit_none (Cursor.consume?_absent h))

theorem tryConsume_iff :
    (tryConsume t).run c = .ok (.flag true) last ↔
      t <+: c.remaining ∧ last = (c.advance t.length).recordText c .literal t := by
  by_cases h : t <+: c.remaining
  · simp [tryConsume_ahead h, h, eq_comm]
  · simp [tryConsume_absent h, h]

theorem run_stepwise (c : Cursor) : Stepwise run Cursor.place c where
  count n t last := by
    rw [tryConsumeNextN_iff, takesChars_iff]
    constructor
    · rintro ⟨rfl, h⟩
      exact ⟨rfl, h⟩
    · rintro ⟨rfl, h⟩
      exact ⟨rfl, h⟩
  count_stays n h := by
    apply tryConsumeNextN_short
    apply Nat.lt_of_not_le
    intro hle
    exact h _ _ (takesChars_iff.2 ⟨List.take_prefix n _, rfl⟩) (List.length_take_of_le hle)
  count_add m n t last := by
    simp only [tryConsumeNextN_iff]
    constructor
    · rintro ⟨hlength, hbegins, rfl⟩
      have hsplit := (List.take_append_drop m t).symm
      rw [hsplit, append_prefix_iff, List.length_take_of_le (by omega)] at hbegins
      exact ⟨t.take m, _, t.drop m, ⟨List.length_take_of_le (by omega), hbegins.1, rfl⟩,
        ⟨by rw [List.length_drop]; omega, hbegins.2, (c.advance_advance m n).symm⟩, hsplit⟩
    · rintro ⟨t₁, _, t₂, ⟨rfl, hfirst, rfl⟩, ⟨rfl, hsecond, rfl⟩, rfl⟩
      exact ⟨List.length_append, append_prefix_iff.2 ⟨hfirst, hsecond⟩, c.advance_advance _ _⟩
  literal t p := by
    simp only [tryConsume_iff, takesChars_iff, and_assoc, exists_and_left, exists_eq_left,
      Cursor.place_recordText]
  literal_stays t h := by
    apply tryConsume_absent
    intro hbegins
    exact h _ (takesChars_iff.2 ⟨hbegins, rfl⟩)
  literal_append t u p := by
    simp only [tryConsume_iff, append_prefix_iff, and_assoc, exists_and_left, exists_eq_left,
      Cursor.place_recordText, Cursor.remaining_recordText, Cursor.remaining_advance,
      Cursor.place_advance_recordText, Cursor.advance_advance, List.length_append]
  char _ := rfl

theorem takesChars_toBytes_iff {b : ByteCursor} :
    TakesChars runBytes c.toBytes t b ↔ ∃ last, TakesChars run c t last ∧ b = last.toBytes := by
  induction t generalizing c with
  | nil =>
    constructor
    · rintro ⟨⟩
      exact ⟨c, .nil c, rfl⟩
    · rintro ⟨_, ⟨⟩, rfl⟩
      exact .nil _
  | cons ch t ih =>
    constructor
    · rintro (_ | ⟨hfirst, hmore⟩)
      obtain ⟨next, hnext, rfl⟩ := runBytes_eq_ok_iff.1 hfirst
      obtain ⟨last, hlast, rfl⟩ := ih.1 hmore
      exact ⟨last, .cons hnext hlast, rfl⟩
    · rintro ⟨last, _ | ⟨hfirst, hmore⟩, rfl⟩
      exact .cons (runBytes_of_run hfirst) (ih.2 ⟨last, hmore, rfl⟩)

theorem exists_toBytes_place_iff {P : Cursor → Prop} {p : Text × Nat} :
    (∃ b : ByteCursor, (∃ last, P last ∧ b = last.toBytes) ∧ b.place = p) ↔
      ∃ last, P last ∧ last.place = p := by
  constructor
  · rintro ⟨_, ⟨last, hlast, rfl⟩, hplace⟩
    exact ⟨last, hlast, hplace⟩
  · rintro ⟨last, hlast, hplace⟩
    exact ⟨last.toBytes, ⟨last, hlast, rfl⟩, hplace⟩

theorem runBytes_stepwise (c : Cursor) : Stepwise runBytes ByteCursor.place c.toBytes where
  count n t b := by
    simp only [runBytes_eq_ok_iff, takesChars_toBytes_iff, (run_stepwise c).count, and_assoc,
      exists_and_left]
  count_stays n h := by
    apply runBytes_of_run
    apply (run_stepwise c).count_stays
    intro t last htake
    exact h t _ (takesChars_toBytes_iff.2 ⟨last, htake, rfl⟩)
  count_add m n t b := by
    simp only [runBytes_eq_ok_iff, (run_stepwise c).count_add]
    constructor
    · rintro ⟨last, ⟨t₁, mid, t₂, hfirst, hsecond, rfl⟩, rfl⟩
      exact ⟨t₁, mid.toBytes, t₂, ⟨mid, hfirst, rfl⟩, runBytes_of_run hsecond, rfl⟩
    · rintro ⟨t₁, _, t₂, ⟨mid, hfirst, rfl⟩, hsecond, rfl⟩
      obtain ⟨last, hlast, rfl⟩ := runBytes_eq_ok_iff.1 hsecond
      exact ⟨last, ⟨t₁, mid, t₂, hfirst, hlast, rfl⟩, rfl⟩
  literal t p := by
    simp only [runBytes_eq_ok_iff, takesChars_toBytes_iff, exists_toBytes_place_iff]
    exact (run_stepwise c).literal t p
  literal_stays t h := by
    apply runBytes_of_run
    apply (run_stepwise c).literal_stays
    intro last htake
    exact h _ (takesChars_toBytes_iff.2 ⟨last, htake, rfl⟩)
  literal_append t u p := by
    simp only [runBytes_eq_ok_iff, exists_toBytes_place_iff, (run_stepwise c).literal_append]
    constructor
    · rintro ⟨mid, last, hfirst, hsecond, hplace⟩
      exact ⟨mid.toBytes, last.toBytes, ⟨mid, hfirst, rfl⟩,
        runBytes_of_run hsecond, hplace⟩
    · rintro ⟨_, _, ⟨mid, hfirst, rfl⟩, hsecond, hplace⟩
      obtain ⟨last, hlast, rfl⟩ := runBytes_eq_ok_iff.1 hsecond
      exact ⟨mid, last, hfirst, hlast, hplace⟩
  char _ := rfl

end Operation

/-- To take several characters at once, by their number or as a literal, is to take them one by one
and to go back where that cannot be done. What is taken at once can be taken in two parts. -/
theorem bulk_consumption_is_stepwise (settings : Settings) (t : Text) :
    (∀ c : Cursor, Operation.Stepwise Operation.run Cursor.place c) ∧
    ∀ b : ByteSession, ByteReachable settings t b →
      Operation.Stepwise Operation.runBytes ByteCursor.place b.cursor := by
  refine ⟨Operation.run_stepwise, ?_⟩
  intro b hb
  obtain ⟨s, -, rfl⟩ := hb.exists_session
  exact Operation.runBytes_stepwise s.cursor

theorem bulk_consumption_is_stepwise_dash :
    ∃ (b : ByteSession) (last : ByteCursor), ByteReachable {} ['a', '–', 'b'] b ∧
      last.place = (['a', '–', 'b'], 5) ∧
      (Operation.tryConsumeNextN (1 + 1)).runBytes b.cursor = .ok (.text ['–', 'b']) last ∧
      Operation.TakesChars Operation.runBytes b.cursor ['–', 'b'] last ∧
      (∃ t₁ mid t₂, (Operation.tryConsumeNextN 1).runBytes b.cursor = .ok (.text t₁) mid ∧
        (Operation.tryConsumeNextN 1).runBytes mid = .ok (.text t₂) last ∧
        ['–', 'b'] = t₁ ++ t₂) ∧
      ∃ mid last', (Operation.tryConsume ['–']).runBytes b.cursor = .ok (.flag true) mid ∧
        (Operation.tryConsume ['b']).runBytes mid = .ok (.flag true) last' ∧
        last'.place = last.place := by
  have hreach : ByteReachable {} ['a', '–', 'b'] _ := .after (.perform .consumeNext) .fresh
  have hstep := (bulk_consumption_is_stepwise _ _).2 _ hreach
  refine ⟨_, _, hreach, rfl, rfl, ((hstep.count 2 _ _).1 rfl).2, ?_, ?_⟩
  · exact (hstep.count_add 1 1 _ _).1 rfl
  · exact (hstep.literal_append ['–'] ['b'] _).1 ⟨_, rfl, rfl⟩

end TextCursor
