import Mathlib.Logic.Relation
import TextCursor.Proofs.Walk.Reading

namespace TextCursor

open Relation
open Scan (Completed)

namespace Scan

variable {α : Type} {d : Delimiters} {read : Scan α} {before after : List α × Cursor}

/-- The loop of a list goes round once more: behind the elements so far another one has been read,
and the separator behind that. Nothing here bounds the number of rounds. -/
inductive Round (d : Delimiters) (read : Scan α) : List α × Cursor → List α × Cursor → Prop
  | more {as : List α} {a : α} {c next after : Cursor} :
      element d read as.length c = .ok a next → next.consumeChar? d.separator = some after →
      Round d read (as, c) (as ++ [a], after)

theorem Completed.rounds {start c : Cursor} {as : List α} (h : Completed d read start as c) :
    ReflTransGen (Round d read) ([], start) (as, c) := by
  induction h with
  | none => exact .refl
  | more _ helement hsep ih => exact ih.tail (.more helement hsep)

section Onward

variable (honward : ∀ c : Cursor, c.Onward (ending (read c)))
include honward

theorem Round.exists_separator (h : Round d read before after) :
    ∃ own, after.2.consumed = before.2.consumed ++ (own ++ [d.separator]) := by
  cases h with
  | @more as a c next after helement hsep =>
    obtain ⟨own, hown, -⟩ := (element_onward honward helement).exists_between
    have hseparator : after.consumed = next.consumed ++ [d.separator] :=
      (Cursor.consumeChar?_onward hsep).consumed_eq (Cursor.remaining_of_consumeChar? hsep)
    refine ⟨own, ?_⟩
    rw [hseparator, hown, List.append_assoc]

theorem Round.length_remaining_lt (h : Round d read before after) :
    after.2.remaining.length < before.2.remaining.length := by
  cases h with
  | more helement hsep =>
    have hle := (element_onward honward helement).length_remaining_le
    rw [Cursor.remaining_of_consumeChar? hsep, List.length_cons] at hle
    exact hle

theorem round_wellFounded : WellFounded fun after before ↦ Round d read before after :=
  Subrelation.wf (fun h ↦ h.length_remaining_lt honward)
    (measure fun state : List α × Cursor ↦ state.2.remaining.length).wf

theorem rounds_length_le (h : ReflTransGen (Round d read) before after) :
    after.1.length + before.2.charOffset ≤ before.1.length + after.2.charOffset := by
  induction h with
  | refl => omega
  | @tail mid after _ hround ih =>
    obtain ⟨own, hown⟩ := hround.exists_separator honward
    have hlength := Cursor.charOffset_of_consumed hown
    rw [List.length_append, List.length_singleton] at hlength
    have hmore : after.1.length = mid.1.length + 1 := by
      cases hround
      exact List.length_append
    omega

end Onward

end Scan

/-- How a list reading ends that has come to another element: it fails with it, or the element is
the last one because no separator follows. -/
inductive Shape.EndsIn (d : Delimiters) (element : Shape) :
    List Value × Cursor → EStateM.Result Failure Cursor Value → Prop
  | failed {vs : List Value} {c last : Cursor} {e : Failure} :
      Scan.element d element.read vs.length c = .error e last →
      EndsIn d element (vs, c) (.error e last)
  | last {vs : List Value} {v : Value} {c last : Cursor} :
      Scan.element d element.read vs.length c = .ok v last →
      last.consumeChar? d.separator = none → EndsIn d element (vs, c) (.ok (.list (vs ++ [v])) last)

namespace Shape.Lists

variable {c last : Cursor} {d : Delimiters} {element shape : Shape} {v : Value} {e : Failure}

theorem of_read_ok (h : Lists c d element shape) (hread : shape.read c = .ok v last) :
    ∃ vs, v = .list vs ∧ Scan.readListWith d element.read c = .ok vs last := by
  cases h with
  | list | listWith =>
    obtain ⟨vs, hvs, hv⟩ := Scan.of_map_ok hread
    exact ⟨vs, hv.symm, hvs⟩

theorem of_read_error (h : Lists c d element shape) (hread : shape.read c = .error e last) :
    Scan.readListWith d element.read c = .error e last := by
  cases h with
  | list | listWith => exact Scan.eq_of_map_error hread

theorem exists_rounds (h : Lists c d element shape) :
    ∃ state, ReflTransGen (Scan.Round d element.read) ([], c) state ∧
      EndsIn d element state (shape.read c) := by
  cases hread : shape.read c with
  | error e last =>
    have herror := h.of_read_error hread
    obtain ⟨vs, mid, hcompleted, helement⟩ :=
      Scan.of_elementsFrom_error element.read_onward (Nat.le_refl _) .none herror
    exact ⟨(vs, mid), hcompleted.rounds, .failed helement⟩
  | ok v last =>
    obtain ⟨vs, rfl, hvs⟩ := h.of_read_ok hread
    obtain ⟨init, v, mid, rfl, hcompleted, helement, hsep⟩ :=
      Scan.of_elementsFrom_ok element.read_onward (Nat.le_refl _) .none hvs
    exact ⟨(init, mid), hcompleted.rounds, .last helement hsep⟩

theorem length_le (h : Lists c d element shape) (hread : shape.read c = .ok v last) :
    ∃ vs, v = .list vs ∧ 1 ≤ vs.length ∧ c.charOffset ≤ last.charOffset ∧
      vs.length ≤ last.charOffset - c.charOffset + 1 := by
  obtain ⟨state, hrounds, hends⟩ := h.exists_rounds
  rw [hread] at hends
  cases hends with
  | @last vs v mid _ helement _ =>
    have hle := Scan.rounds_length_le element.read_onward hrounds
    obtain ⟨own, hown, -⟩ := (Scan.element_onward element.read_onward helement).exists_between
    have hlength := Cursor.charOffset_of_consumed hown
    have hcount : (vs ++ [v]).length = vs.length + 1 := List.length_append
    simp only [List.length_nil] at hle
    refine ⟨vs ++ [v], rfl, ?_, ?_, ?_⟩
    · omega
    · omega
    · omega

end Shape.Lists

/-- Every reading of a list ends. Each round but the last is paid for with a separator, so that no
sequence of rounds goes on for ever, and a list has at most one element more than it has characters.
-/
theorem list_readings_end (d : Delimiters) (element : Shape) :
    (∀ c : Cursor, c.offset ≤ (ending (element.read c)).offset) ∧
    (∀ before after, Scan.Round d element.read before after →
      ∃ own, after.2.consumed = before.2.consumed ++ (own ++ [d.separator])) ∧
    (WellFounded fun after before ↦ Scan.Round d element.read before after) ∧
    ∀ (shape : Shape) (c : Cursor), Shape.Lists c d element shape →
      (∃ state, ReflTransGen (Scan.Round d element.read) ([], c) state ∧
        Shape.EndsIn d element state (shape.read c)) ∧
      ∀ v last, shape.read c = .ok v last →
        ∃ vs, v = .list vs ∧ 1 ≤ vs.length ∧ c.charOffset ≤ last.charOffset ∧
          vs.length ≤ last.charOffset - c.charOffset + 1 := by
  refine ⟨fun c ↦ (element.read_onward c).offset_le, ?_, ?_, ?_⟩
  · intro before after hround
    exact hround.exists_separator element.read_onward
  · exact Scan.round_wellFounded element.read_onward
  · intro shape c hlists
    exact ⟨hlists.exists_rounds, fun v last ↦ hlists.length_le⟩

/-- A user-made shape that looks to the end of the text and goes back. -/
def Shape.glance : Shape :=
  .steps [.save "here", .perform .consumeRest, .restore "here"]

theorem list_readings_end_glances :
    ∃ (c last : Cursor) (vs : List Value), c = .ofText {} [',', ','] ∧
      Shape.Lists c c.delimiters .glance (.list .glance) ∧
      (Shape.list .glance).read c = .ok (.list vs) last ∧ vs.length = 3 ∧ last.charOffset = 2 ∧
      (∃ us, Value.list vs = .list us ∧ 1 ≤ us.length ∧ 0 ≤ 2 ∧ us.length ≤ 2 - 0 + 1) ∧
      ∃ before after, Scan.Round c.delimiters Shape.glance.read before after ∧
        ∃ own, after.2.consumed = before.2.consumed ++ (own ++ [',']) := by
  obtain ⟨vs, last, hread, hlength, hoffset⟩ : ∃ vs last,
      (Shape.list .glance).read (.ofText {} [',', ',']) = .ok (.list vs) last ∧ vs.length = 3 ∧
        last.charOffset = 2 := ⟨_, _, rfl, rfl, rfl⟩
  have hlists : Shape.Lists (.ofText {} [',', ',']) {} .glance (.list .glance) := .list _
  obtain ⟨after, hround⟩ : ∃ after,
      Scan.Round {} Shape.glance.read ([], .ofText {} [',', ',']) after := ⟨_, .more rfl rfl⟩
  refine ⟨_, last, vs, rfl, hlists, hread, hlength, hoffset, ?_, ?_⟩
  · have hbound := ((list_readings_end _ _).2.2.2 _ _ hlists).2 _ _ hread
    rw [hoffset] at hbound
    obtain ⟨us, hus, hmin, -, hmax⟩ := hbound
    exact ⟨us, hus, hmin, Nat.zero_le 2, hmax⟩
  · exact ⟨_, after, hround, (list_readings_end _ _).2.1 _ _ hround⟩

end TextCursor
