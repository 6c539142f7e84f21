import TextCursor.Proofs.Operation.Diagnosis
import TextCursor.Proofs.Reading.FromText

namespace TextCursor

variable {e : Failure}

namespace Scan

variable {α : Type} {d : Delimiters} {read : Scan α} {start c last : Cursor}

theorem Completed.exists_of_mem {as : List α} {a : α} (h : Completed d read start as c)
    (ha : a ∈ as) :
    ∃ before mid next, Completed d read start before mid ∧
      element d read before.length mid = .ok a next := by
  induction h with
  | none => cases ha
  | more hcompleted helement _ ih =>
    rcases List.mem_append.1 ha with ha | ha
    · exact ih ha
    · cases List.mem_singleton.1 ha
      exact ⟨_, _, _, hcompleted, helement⟩

theorem exists_element_of_mem {element : Shape} {vs : List Value} {v : Value}
    (h : readListWith d element.read c = .ok vs last) (hv : v ∈ vs) :
    ∃ before mid next, Completed d element.read c before mid ∧
      element.read ((mid.skipCopies d.padding).enter before.length) = .ok v next := by
  obtain ⟨init, final, mid, rfl, hcompleted, helement, -⟩ :=
    of_elementsFrom_ok element.read_onward (Nat.le_refl _) .none h
  obtain ⟨before, mid, next, hbefore, hread⟩ : ∃ before mid next,
      Completed d element.read c before mid ∧
        Scan.element d element.read before.length mid = .ok v next := by
    rcases List.mem_append.1 hv with hv | hv
    · exact hcompleted.exists_of_mem hv
    · cases List.mem_singleton.1 hv
      exact ⟨init, mid, last, hcompleted, helement⟩
  obtain ⟨next, hnext, -⟩ := of_element_ok hread
  exact ⟨before, mid, next, hbefore, hnext⟩

end Scan

namespace Step

variable {s s' : Session}

theorem exists_of_mem_runAll {steps : List Step} {vs : List Value} {v : Value}
    (h : runAll steps s = .ok vs s') (hv : v ∈ vs) :
    ∃ before step after us mid next, steps = before ++ step :: after ∧
      runAll before s = .ok us mid ∧ step.run mid = .ok v next := by
  induction steps generalizing s vs with
  | nil =>
    cases h
    cases hv
  | cons step rest ih =>
    obtain ⟨first, next, others, hstep, hrest, rfl⟩ := Step.of_runAll_cons_ok h
    rcases List.mem_cons.1 hv with rfl | hv
    · exact ⟨[], step, rest, [], s, next, rfl, rfl, hstep⟩
    · obtain ⟨before, step', after, us, mid, last, rfl, hbefore, hstep'⟩ := ih hrest hv
      refine ⟨step :: before, step', after, first :: us, mid, last, rfl, ?_, hstep'⟩
      simp only [runAll, hstep, hbefore]

end Step

theorem ComesOut.of_scan {read : Scan Value} {s : Session}
    (h : ComesOut id e (Session.scan read s)) : ComesOut id e (read s.cursor) := by
  unfold Session.scan at h
  cases hread : read s.cursor with
  | ok v c =>
    rw [hread] at h
    cases h with
    | shown _ hshows => exact .shown c hshows
  | error e' c =>
    rw [hread] at h
    cases h
    exact .raised c

/-- While the step is being taken control comes to an operation, and the failure comes out of
that. -/
def Failure.ArisesIn (step : Step) (s : Session) (e : Failure) : Prop :=
  ∃ opened inner mid op, Visits step s opened inner mid ∧ inner.operation? = some op ∧
    ComesOut id e (op.run mid.cursor)

theorem Shape.arisesIn_of_shows {shape : Shape} {s : Session} {v : Value} {c' : Cursor}
    (h : shape.read s.cursor = .ok v c') (hv : v.Shows e) : e.ArisesIn (.read shape) s := by
  induction shape generalizing s v c' with
  | integer type | word | char =>
    obtain ⟨_, -, rfl⟩ := Scan.of_map_ok h
    cases hv
  | list element ih =>
    obtain ⟨vs, hvs, rfl⟩ := Scan.of_map_ok h
    cases hv with
    | list hmem hv =>
      obtain ⟨before, c, next, hcompleted, helement⟩ := Scan.exists_element_of_mem hvs hmem
      obtain ⟨opened, inner, mid, op, hvisit, hop⟩ := ih (s := ⟨_, []⟩) helement hv
      exact ⟨before :: opened, inner, mid, op, .list hcompleted hvisit, hop⟩
  | listWith d element ih =>
    obtain ⟨vs, hvs, rfl⟩ := Scan.of_map_ok h
    cases hv with
    | list hmem hv =>
      obtain ⟨before, c, next, hcompleted, helement⟩ := Scan.exists_element_of_mem hvs hmem
      obtain ⟨opened, inner, mid, op, hvisit, hop⟩ := ih (s := ⟨_, []⟩) helement hv
      exact ⟨before :: opened, inner, mid, op, .listWith hcompleted hvisit, hop⟩
  | steps steps ih =>
    obtain ⟨vs, hvs, rfl⟩ := Scan.of_map_ok h
    obtain ⟨_, hall, -⟩ := Session.of_within_ok hvs
    cases hv with
    | list hmem hv =>
      obtain ⟨before, step, after, us, mid, next, rfl, hbefore, hstep⟩ :=
        Step.exists_of_mem_runAll hall hmem
      cases step with
      | perform op =>
        obtain ⟨hop, -⟩ := Session.of_scan_ok hstep
        refine ⟨[], _, mid, op, .steps hbefore (.here _ mid), rfl, ?_⟩
        rw [hop]
        exact .shown _ hv
      | read shape =>
        obtain ⟨hread, -⟩ := Session.of_scan_ok hstep
        obtain ⟨opened, inner, last, op, hvisit, hop⟩ := ih shape (by simp) hread hv
        exact ⟨opened, inner, last, op, .steps hbefore hvisit, hop⟩
      | save slot | restore slot =>
        cases hstep
        cases hv

theorem Step.arisesIn {step : Step} {s : Session} (h : ComesOut id e (step.run s)) :
    e.ArisesIn step s := by
  cases step with
  | perform op => exact ⟨[], _, s, op, .here _ s, rfl, h.of_scan⟩
  | read shape =>
    have hread := h.of_scan
    generalize hresult : shape.read s.cursor = result at hread
    cases hread with
    | raised c' =>
      obtain ⟨opened, inner, mid, op, hvisit, hop, rfl, herror⟩ :=
        Shape.exists_visit_of_error hresult
      refine ⟨opened, inner, mid, op, hvisit, hop, ?_⟩
      rw [herror]
      exact .raised _
    | shown c' hshows => exact Shape.arisesIn_of_shows hresult hshows
  | save slot | restore slot =>
    cases h with
    | shown _ hshows => cases hshows

variable {settings : Settings} {t : Text}

theorem Reachable.exists_operation {step : Step} {s : Session} (hs : Reachable settings t s)
    (h : ComesOut id e (step.run s)) :
    ∃ opened inner mid op, Visits step s opened inner mid ∧ inner.operation? = some op ∧
      s.cursor.offset ≤ mid.cursor.offset ∧ e.TellsTruth op t mid.cursor.offset := by
  obtain ⟨opened, inner, mid, op, hvisit, hop, hout⟩ := Step.arisesIn h
  have hstart := (Cursor.Onward.kept.cursor_of_visits hvisit).offset_le
  have htruth := Operation.tellsTruth hout
  rw [(hs.inside hvisit).placed.1.source] at htruth
  exact ⟨opened, inner, mid, op, hvisit, hop, hstart, htruth⟩

theorem ComesOut.of_retell {σ τ : Type} {f : σ → τ} {result : EStateM.Result Failure σ Value}
    (h : ComesOut Panic.failure e (retell f result)) : ComesOut id e result := by
  cases result with
  | ok v s =>
    cases h with
    | shown _ hshows => exact .shown s hshows
  | error e' s =>
    cases h
    exact .raised s

theorem Shape.pointsTo_of_fromWholeText {shape : Shape}
    (h : shape.fromWholeText t = .ok (.error e)) :
    ∃ surplus, surplus ≠ [] ∧ e.cause = .trailingInput surplus ∧ e.PointsTo t 0 surplus := by
  obtain ⟨v, next, hread, hne, rfl⟩ := of_fromWholeText_surplus h
  have honward := shape.read_onward (.ofText {} t)
  rw [hread] at honward
  obtain ⟨own, hconsumed, hown⟩ := honward.exists_between
  have hposition : next.offset = 0 + own.byteLength := by
    rw [← next.byteLength_consumed, Nat.zero_add]
    exact congrArg Text.byteLength hconsumed
  exact ⟨next.remaining, hne, rfl, Failure.pointsTo hown hposition⟩

theorem Shape.tellsTruth_of_fromWholeText {shape : Shape} (h : shape.fromWholeText t = .error e) :
    ∃ op start, e.TellsTruth op t start := by
  obtain ⟨last, hread⟩ := of_fromWholeText_error h
  have hfresh : Reachable {} t ⟨.ofText {} t, []⟩ := .fresh
  have hout : ComesOut id e ((Step.read shape).run ⟨.ofText {} t, []⟩) := by
    simp only [Step.run, Session.scan, hread]
    exact .raised _
  obtain ⟨_, _, mid, op, -, -, -, htruth⟩ := hfresh.exists_operation hout
  exact ⟨op, mid.cursor.offset, htruth⟩

/-- Whatever failure comes out of a step has come out of an operation that was begun at or behind
the place where the step was, and what it says is the case at the place that it names. -/
theorem failures_tell_the_truth (settings : Settings) (t : Text) :
    (∀ (s : Session) (step : Step) (e : Failure), Reachable settings t s →
      ComesOut id e (step.run s) →
      ∃ opened inner mid op, Visits step s opened inner mid ∧ inner.operation? = some op ∧
        s.cursor.offset ≤ mid.cursor.offset ∧ e.TellsTruth op t mid.cursor.offset) ∧
    (∀ (b : ByteSession) (step : Step) (e : Failure), ByteReachable settings t b →
      ComesOut Panic.failure e (step.runBytes b) →
      ∃ op start, b.cursor.position ≤ start ∧ e.TellsTruth op t start) ∧
    ∀ (shape : Shape) (e : Failure),
      (shape.fromWholeText t = .error e → ∃ op start, e.TellsTruth op t start) ∧
      (shape.fromWholeText t = .ok (.error e) →
        ∃ surplus, surplus ≠ [] ∧ e.cause = .trailingInput surplus ∧ e.PointsTo t 0 surplus) := by
  refine ⟨fun s step e hs h ↦ hs.exists_operation h, ?_, ?_⟩
  · intro b step e hb h
    obtain ⟨s, hs, rfl⟩ := hb.exists_session
    rw [step.runBytes_toBytes] at h
    obtain ⟨_, _, mid, op, -, -, hstart, htruth⟩ := hs.exists_operation h.of_retell
    exact ⟨op, mid.cursor.offset, hstart, htruth⟩
  · intro shape e
    exact ⟨Shape.tellsTruth_of_fromWholeText, Shape.pointsTo_of_fromWholeText⟩

/-- A user-made shape that asks for a number and goes on where there is none. -/
def Shape.perhapsInteger : Shape :=
  .steps [.perform .tryReadInt]

theorem failures_tell_the_truth_sign :
    (∃ (s : Session) (opened : List (List Value)) (inner : Step) (mid : Session) (op : Operation),
      Reachable {} ['é', '2', ',', '-', 'x'] s ∧ s.cursor.offset = 2 ∧
      ComesOut id ⟨.missingDigits 10, 5⟩ ((Step.read (.list .perhapsInteger)).run s) ∧
      Visits (.read (.list .perhapsInteger)) s opened inner mid ∧ inner.operation? = some op ∧
      2 ≤ mid.cursor.offset ∧
      Failure.TellsTruth op ['é', '2', ',', '-', 'x'] mid.cursor.offset
        ⟨.missingDigits 10, 5⟩) ∧
    (∃ (b : ByteSession) (op : Operation) (start : Nat),
      ByteReachable {} ['é', '2', ',', '-', 'x'] b ∧ b.cursor.position = 2 ∧
      ComesOut Panic.failure ⟨.unexpectedLiteral ['2', 'x'] ['2', ','], 2⟩
        ((Step.perform (.consume ['2', 'x'])).runBytes b) ∧ 2 ≤ start ∧
      Failure.TellsTruth op ['é', '2', ',', '-', 'x'] start
        ⟨.unexpectedLiteral ['2', 'x'] ['2', ','], 2⟩) ∧
    Shape.char.fromWholeText ['é', '2'] = .ok (.error ⟨.trailingInput ['2'], 2⟩) ∧
    ∃ surplus, surplus ≠ [] ∧ Cause.trailingInput ['2'] = .trailingInput surplus ∧
      Failure.PointsTo ['é', '2'] 0 surplus ⟨.trailingInput ['2'], 2⟩ := by
  obtain ⟨hsteps, hbytes, -⟩ := failures_tell_the_truth {} ['é', '2', ',', '-', 'x']
  refine ⟨?_, ?_, rfl, ((failures_tell_the_truth {} ['é', '2']).2.2 .char _).2 rfl⟩
  · have hreach : Reachable {} ['é', '2', ',', '-', 'x']
        ⟨⟨['é'], ['2', ',', '-', 'x'], {}, .ofSettings {}⟩, []⟩ :=
      .after (.perform .consumeNext) .fresh
    have hout : ComesOut id ⟨.missingDigits 10, 5⟩ ((Step.read (.list .perhapsInteger)).run
        ⟨⟨['é'], ['2', ',', '-', 'x'], {}, .ofSettings {}⟩, []⟩) :=
      .shown _ (.list (.tail _ (.head _)) (.list (.head _) .attempt))
    obtain ⟨opened, inner, mid, op, hvisit, hop, hstart, htruth⟩ := hsteps _ _ _ hreach hout
    exact ⟨_, opened, inner, mid, op, hreach, rfl, hout, hvisit, hop, hstart, htruth⟩
  · have hreach : ByteReachable {} ['é', '2', ',', '-', 'x']
        ⟨⟨['é', '2', ',', '-', 'x'], 2, {}, .ofSettings {}⟩, []⟩ :=
      .after (.perform .consumeNext) .fresh
    have hout : ComesOut Panic.failure ⟨.unexpectedLiteral ['2', 'x'] ['2', ','], 2⟩
        ((Step.perform (.consume ['2', 'x'])).runBytes
          ⟨⟨['é', '2', ',', '-', 'x'], 2, {}, .ofSettings {}⟩, []⟩) := .raised _
    obtain ⟨op, start, hstart, htruth⟩ := hbytes _ _ _ hreach hout
    exact ⟨_, op, start, hreach, rfl, hout, hstart, htruth⟩

end TextCursor
