import TextCursor.Shape.FromText
import TextCursor.Proofs.Lockstep.Logging
import TextCursor.Proofs.Lockstep.SamePlace

namespace TextCursor

/-- All that read a value from the start of a text give the same value or fail in the same way, as
long as no step takes the log, and lists of the configured form have the default one. -/
theorem entry_points_agree {shape : Shape} (settings : Settings) (t : Text)
    (htake : ¬ Step.Contains (.read shape) (.perform .takeLog))
    (hlist : ∀ element, Step.Contains (.read shape) (.read (.list element)) →
      settings.delimiters = {}) :
    ∃ (result : Except Failure Value) (last after : Cursor) (es : List Entry),
      (runScript [.read shape, .perform .takeLog] ⟨.ofText settings t, []⟩).1 =
        [⟨result, last⟩, ⟨.ok (.entries es), after⟩] ∧
      (settings.logging = false → es = []) ∧
      parse shape t = result ∧
      shape.fromText t = result ∧
      shape.fromTextWithLog settings t = result.map (·, es) ∧
      shape.fromWholeText t = result.map fun v ↦
        if last.isDone then .ok v else .error ⟨.trailingInput last.remaining, last.offset⟩ := by
  have hstart : Cursor.SamePlace (settings.delimiters = {}) False (.ofText {} t)
      (.ofText settings t) := ⟨rfl, rfl, id, False.elim⟩
  have hread := hstart.read htake hlist
  have hreach : Reachable settings t _ := .after (.read shape) .fresh
  have hsilent (hoff : settings.logging = false) := hreach.entries_eq_nil hoff
  simp only [Step.run, Session.ending_scan] at hsilent
  generalize hplain : shape.read (.ofText {} t) = plain at hread
  generalize hended : shape.read (.ofText settings t) = ended at hread hsilent
  simp only [runScript, Step.report, Step.run, Session.scan, parse, Shape.fromText,
    Shape.fromTextWithLog, Shape.fromWholeText, hplain, hended]
  cases hread with
  | @ok v v' last last' hv hlast =>
    subst hv
    refine ⟨.ok v, last', _, _, rfl, fun hoff ↦ (hsilent hoff).1, rfl, rfl, rfl, ?_⟩
    have hdone : last'.isDone = last.isDone := congrArg List.isEmpty hlast.remaining
    simp only [Except.map, hdone, hlast.offset, hlast.remaining]
  | @error e e' last last' he hlast =>
    subst he
    exact ⟨.error e, last', _, _, rfl, fun hoff ↦ (hsilent hoff).1, rfl, rfl, rfl, rfl⟩

theorem entry_points_agree_surplus :
    ∃ (result : Except Failure Value) (last after : Cursor) (es : List Entry),
      ¬ Step.Contains (.read (.commaList (.integer .int64))) (.perform .takeLog) ∧
      (∀ element,
        ¬ Step.Contains (.read (.commaList (.integer .int64))) (.read (.list element))) ∧
      (runScript [.read (.commaList (.integer .int64)), .perform .takeLog]
        ⟨.ofText { logging := true, delimiters := ⟨';', '.'⟩ } ['1', ',', ' ', '2', ';'], []⟩).1 =
        [⟨result, last⟩, ⟨.ok (.entries es), after⟩] ∧
      result = .ok (.list [.integer 1, .integer 2]) ∧ es.map Entry.position = [0, 0, 1, 3, 3] ∧
      parse (.commaList (.integer .int64)) ['1', ',', ' ', '2', ';'] = result ∧
      (Shape.commaList (.integer .int64)).fromTextWithLog
        { logging := true, delimiters := ⟨';', '.'⟩ } ['1', ',', ' ', '2', ';'] =
        result.map (·, es) ∧
      (Shape.commaList (.integer .int64)).fromWholeText ['1', ',', ' ', '2', ';'] =
        result.map fun _ ↦ .error ⟨.trailingInput [';'], 4⟩ := by
  have htake : ¬ Step.Contains (.read (.commaList (.integer .int64))) (.perform .takeLog) := by
    intro h
    cases h with
    | listWith h => cases h
  have hlist (element : Shape) :
      ¬ Step.Contains (.read (.commaList (.integer .int64))) (.read (.list element)) := by
    intro h
    cases h with
    | listWith h => cases h
  obtain ⟨result, last, after, es, hscript, -, hparse, -, hlog, hwhole⟩ :=
    entry_points_agree { logging := true, delimiters := ⟨';', '.'⟩ } ['1', ',', ' ', '2', ';']
      htake fun element h ↦ absurd h (hlist element)
  have hreports := hscript
  cases hreports
  exact ⟨_, _, _, _, htake, hlist, hscript, rfl, rfl, hparse, hlog, hwhole⟩

end TextCursor
