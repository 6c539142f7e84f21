import TextCursor.Proofs.Operation.Attempt

namespace TextCursor

variable {ε σ τ α : Type}

/-- An answer shows a failure if a trying form has given it, or if it is a list and one of its
members shows it. -/
inductive Value.Shows (e : Failure) : Value → Prop
  | attempt : Shows e (.attempt (.error e))
  | list {vs : List Value} {v : Value} : v ∈ vs → Shows e v → Shows e (.list vs)

theorem Value.not_shows_ofOption {e : Failure} {f : α → Value} (hf : ∀ a, ¬ (f a).Shows e)
    (found : Option α) : ¬ (Value.ofOption f found).Shows e := by
  intro h
  cases found with
  | none => cases h
  | some a => exact hf a h

inductive ComesOut (fail : Failure → ε) (e : Failure) : EStateM.Result ε σ Value → Prop
  | raised (s : σ) : ComesOut fail e (.error (fail e) s)
  | shown {v : Value} (s : σ) : v.Shows e → ComesOut fail e (.ok v s)

/-- What an operation that fails says of the text behind the place that it names. -/
inductive Operation.Says (rest : Text) : Operation → Cause → Prop
  | literal {expected found : Text} :
      found <+: rest → found.length = min expected.length rest.length → found ≠ expected →
      Says rest (.consume expected) (.unexpectedLiteral expected found)
  | next : rest.length < 1 → Says rest .consumeNext (.unexpectedEnd 1 rest.length)
  | nextN {n : Nat} :
      rest.length < n → Says rest (.consumeNextN n) (.unexpectedEnd n rest.length)
  | noDigit (type : IntegerType) :
      (∀ ch ∈ rest.head?, ch.isDigit = false) → Says rest (.tryReadInteger type) (.missingDigits 10)
  | noHexDigit :
      (∀ ch ∈ rest.head?, isHexDigit ch = false) → Says rest .tryReadHex (.missingDigits 16)
  | outOfRange {type : IntegerType} {sign digits after : Text} :
      rest.DecimalNumeral sign digits after → digits ≠ [] → ¬ type.Takes sign digits →
      Says rest (.tryReadInteger type) (.outOfRange (sign ++ digits) type.name.toList)
  | hexOutOfRange {marker digits after : Text} :
      rest.HexNumeral marker digits after → digits ≠ [] → 2 ^ 63 ≤ hexValue digits →
      Says rest .tryReadHex (.outOfRange digits ['i', '6', '4'])
  | told {op attempt : Operation} {cause : Cause} :
      op.attempt? = some attempt → Says rest attempt cause → Says rest op cause

/-- A failure names a place between two characters of the text, or at an end of it, that is not
before `start` and has `rest` behind it. -/
structure Failure.PointsTo (t : Text) (start : Nat) (rest : Text) (e : Failure) : Prop where
  start_le : start ≤ e.position
  le_end : e.position ≤ t.bytes.length
  boundary : String.Pos.Raw.IsValid (String.ofList t) ⟨e.position⟩
  ahead : ∃ before, t.cut? e.position = some (before, rest)

def Failure.TellsTruth (op : Operation) (t : Text) (start : Nat) (e : Failure) : Prop :=
  ∃ rest, e.PointsTo t start rest ∧ op.Says rest e.cause

theorem Failure.pointsTo {c : Cursor} {before rest : Text} {e : Failure}
    (hc : c.remaining = before ++ rest) (hposition : e.position = c.offset + before.byteLength) :
    e.PointsTo c.source c.offset rest := by
  have hsource : c.source = (c.consumed ++ before) ++ rest := by
    rw [Cursor.source, hc, List.append_assoc]
  have hbefore : e.position = Text.byteLength (c.consumed ++ before) := by
    rw [hposition, Text.byteLength_append, c.byteLength_consumed]
  have hcut : c.source.cut? e.position = some (c.consumed ++ before, rest) := by
    rw [hsource, hbefore]
    exact Text.cut?_append _ _
  refine ⟨by omega, ?_, ?_, _, hcut⟩
  · rw [Text.length_bytes, hsource, Text.byteLength_append _ rest, ← hbefore]
    omega
  · apply Text.cut?_isSome_iff.1
    rw [hcut]
    rfl

theorem Cursor.tellsTruth {op : Operation} {cause : Cause} (c : Cursor)
    (h : op.Says c.remaining cause) :
    Failure.TellsTruth op c.source c.offset ⟨cause, c.offset⟩ :=
  ⟨c.remaining, Failure.pointsTo (List.nil_append _).symm rfl, h⟩

theorem Failure.TellsTruth.told {op attempt : Operation} {t : Text} {start : Nat} {e : Failure}
    (hop : op.attempt? = some attempt) (h : e.TellsTruth attempt t start) :
    e.TellsTruth op t start := by
  obtain ⟨rest, hpoints, hsays⟩ := h
  exact ⟨rest, hpoints, .told hop hsays⟩

namespace Cursor

variable {c : Cursor} {e : Failure}

theorem readInteger?_tellsTruth {type : IntegerType} (h : c.readInteger? type = .error e) :
    e.TellsTruth (.tryReadInteger type) c.source c.offset := by
  obtain ⟨after, hnumeral⟩ := Decimal.numeral_ahead c.remaining
  rw [readInteger?_eq hnumeral] at h
  split at h
  · rename_i hempty
    cases h
    have hc := hnumeral.eq
    rw [hempty, List.append_nil] at hc
    exact ⟨after, Failure.pointsTo hc rfl, .noDigit type hnumeral.stops⟩
  · split at h
    · cases h
    · cases h
      exact c.tellsTruth (.outOfRange hnumeral ‹_› ‹_›)

theorem readHex?_tellsTruth (h : c.readHex? = .error e) :
    e.TellsTruth .tryReadHex c.source c.offset := by
  obtain ⟨after, hnumeral⟩ := Hexadecimal.numeral_ahead c.remaining
  rw [readHex?_eq hnumeral] at h
  split at h
  · rename_i hempty
    cases h
    have hc := hnumeral.eq
    rw [hempty, List.append_nil] at hc
    exact ⟨after, Failure.pointsTo hc rfl, .noHexDigit hnumeral.stops⟩
  · split at h
    · cases h
    · cases h
      exact c.tellsTruth (.hexOutOfRange hnumeral ‹_› (Nat.not_lt.1 ‹_›))

end Cursor

namespace Scan

variable {c : Cursor} {e : Failure}

theorem not_comesOut_attempt {f : Cursor → Option (α × Cursor)} {answer : Option α → Value}
    (hanswer : ∀ found, ¬ (answer found).Shows e) :
    ¬ ComesOut id e ((answer <$> attempt f) c) := by
  intro h
  cases hf : f c with
  | none =>
    rw [map_ok (attempt_none hf)] at h
    cases h with
    | shown _ hshows => exact hanswer _ hshows
  | some found =>
    rw [map_ok (attempt_some hf)] at h
    cases h with
    | shown _ hshows => exact hanswer _ hshows

theorem of_comesOut_demand {f : Cursor → Option (α × Cursor)} {cause : Cursor → Cause}
    {give : α → Value} (hgive : ∀ a, ¬ (give a).Shows e)
    (h : ComesOut id e ((give <$> demand f cause) c)) : f c = none ∧ e = ⟨cause c, c.offset⟩ := by
  simp only [Functor.map, EStateM.map] at h
  cases hf : f c with
  | none =>
    rw [demand_none hf] at h
    cases h
    exact ⟨rfl, rfl⟩
  | some found =>
    rw [demand_some hf] at h
    cases h with
    | shown _ hshows => exact absurd hshows (hgive _)

theorem of_comesOut_attemptExcept {f : Cursor → Except Failure (Int × Cursor)}
    (h : ComesOut id e ((Value.attempt <$> attemptExcept f) c)) : f c = .error e := by
  cases hf : f c with
  | error e' =>
    rw [map_ok (attemptExcept_error hf)] at h
    cases h with
    | shown _ hshows =>
      cases hshows
      rfl
  | ok found =>
    rw [map_ok (attemptExcept_ok hf)] at h
    cases h with
    | shown _ hshows => cases hshows

theorem of_comesOut_demandExcept {f : Cursor → Except Failure (Int × Cursor)}
    (h : ComesOut id e ((Value.integer <$> demandExcept f) c)) : f c = .error e := by
  simp only [Functor.map, EStateM.map] at h
  cases hf : f c with
  | error e' =>
    rw [demandExcept_fail hf] at h
    cases h
    rfl
  | ok found =>
    rw [demandExcept_ok hf] at h
    cases h with
    | shown _ hshows => cases hshows

end Scan

theorem Operation.tellsTruth {op : Operation} {c : Cursor} {e : Failure}
    (h : ComesOut id e (op.run c)) : e.TellsTruth op c.source c.offset := by
  cases op with
  | source | remaining | isDone | offset | charOffset | takeLog | consumeCopiesOf _
  | consumeWhile _ | consumeBlanks | consumeRest | readWord =>
    cases h with
    | shown _ hshows => cases hshows
  | peek =>
    cases h with
    | shown _ hshows => exact absurd hshows (Value.not_shows_ofOption (fun _ h ↦ by cases h) _)
  | tryConsume _ | tryConsumeChar _ =>
    refine absurd h (Scan.not_comesOut_attempt ?_)
    intro found hshows
    cases hshows
  | consumeThrough _ | consumeUpTo _ | tryConsumeNext | tryConsumeNextN _ =>
    refine absurd h (Scan.not_comesOut_attempt (Value.not_shows_ofOption ?_))
    intro found hshows
    cases hshows
  | consume literal =>
    obtain ⟨hnone, rfl⟩ := Scan.of_comesOut_demand (fun _ hshows ↦ by cases hshows) h
    have habsent := Cursor.not_prefix_of_consume? (Option.map_eq_none_iff.1 hnone)
    apply c.tellsTruth
    refine .literal (List.take_prefix _ _) List.length_take ?_
    intro hfound
    exact habsent (hfound ▸ List.take_prefix _ _)
  | consumeNext =>
    obtain ⟨hnone, rfl⟩ := Scan.of_comesOut_demand (fun _ hshows ↦ by cases hshows) h
    have hend : c.remaining = [] := List.head?_eq_none_iff.1 (Option.map_eq_none_iff.1 hnone)
    apply c.tellsTruth
    rw [hend]
    exact .next Nat.one_pos
  | consumeNextN n =>
    obtain ⟨hnone, rfl⟩ := Scan.of_comesOut_demand (fun _ hshows ↦ by cases hshows) h
    apply c.tellsTruth
    exact .nextN (Cursor.length_lt_of_nextN? hnone)
  | tryReadInteger type => exact Cursor.readInteger?_tellsTruth (Scan.of_comesOut_attemptExcept h)
  | readInteger type =>
    exact .told rfl (Cursor.readInteger?_tellsTruth (Scan.of_comesOut_demandExcept h))
  | tryReadHex => exact Cursor.readHex?_tellsTruth (Scan.of_comesOut_attemptExcept h)
  | readHex => exact .told rfl (Cursor.readHex?_tellsTruth (Scan.of_comesOut_demandExcept h))

end TextCursor
