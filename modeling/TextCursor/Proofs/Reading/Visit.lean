import TextCursor.Proofs.Reading.ListLoop

namespace TextCursor

open Scan (Completed)

def Step.operation? : Step → Option Operation
  | .perform op => some op
  | .read (.integer type) => some (.readInteger type)
  | .read .word => some .readWord
  | .read .char => some .consumeNext
  | _ => none

/-- While a step is being taken from one session, another step comes to be taken from another
session. Of each list that is open then, outermost first, the elements completed so far are told. -/
inductive Visits : Step → Session → List (List Value) → Step → Session → Prop
  | here (step : Step) (s : Session) : Visits step s [] step s
  | steps {before after : List Step} {step inner : Step} {s mid s' : Session} {vs : List Value}
      {opened : List (List Value)} :
      Step.runAll before ⟨s.cursor, []⟩ = .ok vs mid → Visits step mid opened inner s' →
      Visits (.read (.steps (before ++ step :: after))) s opened inner s'
  | list {element : Shape} {inner : Step} {s s' : Session} {c : Cursor} {vs : List Value}
      {opened : List (List Value)} :
      Completed s.cursor.delimiters element.read s.cursor vs c →
      Visits (.read element) ⟨(c.skipCopies s.cursor.delimiters.padding).enter vs.length, []⟩
        opened inner s' →
      Visits (.read (.list element)) s (vs :: opened) inner s'
  | listWith {d : Delimiters} {element : Shape} {inner : Step} {s s' : Session} {c : Cursor}
      {vs : List Value} {opened : List (List Value)} :
      Completed d element.read s.cursor vs c →
      Visits (.read element) ⟨(c.skipCopies d.padding).enter vs.length, []⟩ opened inner s' →
      Visits (.read (.listWith d element)) s (vs :: opened) inner s'

/-- The sessions that a run over a text may come to: a further step may be taken wherever the last
one ended, be it by a failure, and wherever control comes to within a step. -/
inductive Reachable (settings : Settings) (t : Text) : Session → Prop
  | fresh : Reachable settings t ⟨.ofText settings t, []⟩
  | after {s : Session} (step : Step) :
      Reachable settings t s → Reachable settings t (ending (step.run s))
  | inside {step inner : Step} {s s' : Session} {opened : List (List Value)} :
      Reachable settings t s → Visits step s opened inner s' → Reachable settings t s'

theorem Visits.eq_or_afresh {step inner : Step} {s s' : Session} {opened : List (List Value)}
    (h : Visits step s opened inner s') :
    s' = s ∨ Visits step ⟨s.cursor, []⟩ opened inner s' := by
  cases h with
  | here => exact .inl rfl
  | steps hbefore hvisit => exact .inr (.steps hbefore hvisit)
  | list hcompleted hvisit => exact .inr (.list hcompleted hvisit)
  | listWith hcompleted hvisit => exact .inr (.listWith hcompleted hvisit)

theorem Step.run_operation {step : Step} {op : Operation} (h : step.operation? = some op) :
    step.run = Session.scan op.run := by
  cases step with
  | perform op' => cases h; rfl
  | read shape =>
    cases shape with
    | integer type | word | char => cases h; rfl
    | list element | listWith d element | steps steps => cases h
  | save slot | restore slot => cases h

theorem Step.snd_report (step : Step) (s : Session) : (step.report s).2 = ending (step.run s) := by
  unfold Step.report
  cases step.run s <;> rfl

theorem Reachable.runScript {settings : Settings} {t : Text} (steps : List Step) {s : Session}
    (h : Reachable settings t s) : Reachable settings t (TextCursor.runScript steps s).2 := by
  induction steps generalizing s with
  | nil => exact h
  | cons step rest ih =>
    simp only [TextCursor.runScript, step.snd_report]
    exact ih (h.after step)

namespace Session

variable {α : Type}

theorem of_scan_error {read : Scan α} {s s' : Session} {e : Failure}
    (h : scan read s = .error e s') :
    read s.cursor = .error e s'.cursor ∧ s'.slots = s.slots := by
  unfold scan at h
  split at h <;> cases h
  exact ⟨‹_›, rfl⟩

theorem of_scan_ok {read : Scan α} {s s' : Session} {a : α} (h : scan read s = .ok a s') :
    read s.cursor = .ok a s'.cursor ∧ s'.slots = s.slots := by
  unfold scan at h
  split at h <;> cases h
  exact ⟨‹_›, rfl⟩

theorem of_within_error {run : EStateM Failure Session α} {c c' : Cursor} {e : Failure}
    (h : within run c = .error e c') : ∃ s, run ⟨c, []⟩ = .error e s ∧ s.cursor = c' := by
  unfold within at h
  split at h <;> cases h
  exact ⟨_, ‹_›, rfl⟩

theorem of_within_ok {run : EStateM Failure Session α} {c c' : Cursor} {a : α}
    (h : within run c = .ok a c') : ∃ s, run ⟨c, []⟩ = .ok a s ∧ s.cursor = c' := by
  unfold within at h
  split at h <;> cases h
  exact ⟨_, ‹_›, rfl⟩

end Session

theorem Step.of_runAll_error {steps : List Step} {s s' : Session} {e : Failure}
    (h : Step.runAll steps s = .error e s') :
    ∃ before step after vs mid, steps = before ++ step :: after ∧
      Step.runAll before s = .ok vs mid ∧ step.run mid = .error e s' := by
  induction steps generalizing s with
  | nil => cases h
  | cons step rest ih =>
    simp only [Step.runAll] at h
    split at h
    · rename_i hstep
      cases h
      exact ⟨[], step, rest, [], s, rfl, rfl, hstep⟩
    · rename_i v next hstep
      split at h
      · cases h
      · rename_i hrest
        cases h
        obtain ⟨before, step', after, vs, mid, hsteps, hbefore, hlast⟩ := ih hrest
        refine ⟨step :: before, step', after, v :: vs, mid, by rw [hsteps]; rfl, ?_, hlast⟩
        simp only [Step.runAll, hstep, hbefore]

theorem Scan.of_readListWith_error {d : Delimiters} {element : Shape} {c c' : Cursor} {e : Failure}
    (h : readListWith d element.read c = .error e c') :
    ∃ vs mid, Completed d element.read c vs mid ∧
      element.read ((mid.skipCopies d.padding).enter vs.length) = .error e c' := by
  obtain ⟨vs, mid, hcompleted, helement⟩ :=
    of_elementsFrom_error element.read_onward (Nat.le_refl _) .none h
  exact ⟨vs, mid, hcompleted, of_element_error helement⟩

/-- A failure is the failure of one operation, which the reading has come to and which has not
moved. -/
theorem Shape.exists_visit_of_error {shape : Shape} {s : Session} {c' : Cursor} {e : Failure}
    (h : shape.read s.cursor = .error e c') :
    ∃ opened inner mid op, Visits (.read shape) s opened inner mid ∧
      inner.operation? = some op ∧ mid.cursor = c' ∧ op.run c' = .error e c' := by
  induction shape generalizing s c' with
  | integer type =>
    have hmove : c' = s.cursor := @Operation.run_error (.readInteger type) _ _ _ h
    subst hmove
    exact ⟨[], _, s, .readInteger type, .here _ s, rfl, rfl, h⟩
  | word => cases h
  | char =>
    have hmove : c' = s.cursor := @Operation.run_error .consumeNext _ _ _ h
    subst hmove
    exact ⟨[], _, s, .consumeNext, .here _ s, rfl, rfl, h⟩
  | list element ih =>
    obtain ⟨vs, c, hcompleted, helement⟩ := Scan.of_readListWith_error (Scan.eq_of_map_error h)
    obtain ⟨opened, inner, mid, op, hvisit, hop⟩ := ih (s := ⟨_, []⟩) helement
    exact ⟨vs :: opened, inner, mid, op, .list hcompleted hvisit, hop⟩
  | listWith d element ih =>
    obtain ⟨vs, c, hcompleted, helement⟩ := Scan.of_readListWith_error (Scan.eq_of_map_error h)
    obtain ⟨opened, inner, mid, op, hvisit, hop⟩ := ih (s := ⟨_, []⟩) helement
    exact ⟨vs :: opened, inner, mid, op, .listWith hcompleted hvisit, hop⟩
  | steps steps ih =>
    obtain ⟨s', herror, hs'⟩ := Session.of_within_error (Scan.eq_of_map_error h)
    obtain ⟨before, step, after, vs, mid, hsteps, hbefore, hstep⟩ := Step.of_runAll_error herror
    subst hsteps hs'
    cases step with
    | perform op =>
      obtain ⟨hop, -⟩ := Session.of_scan_error hstep
      have hmove := Operation.run_error hop
      rw [← hmove] at hop
      exact ⟨[], _, mid, op, .steps hbefore (.here _ mid), rfl, hmove.symm, hop⟩
    | read shape =>
      obtain ⟨hread, -⟩ := Session.of_scan_error hstep
      obtain ⟨opened, inner, last, op, hvisit, hop⟩ := ih shape (by simp) hread
      exact ⟨opened, inner, last, op, .steps hbefore hvisit, hop⟩
    | save slot | restore slot => cases hstep

namespace KeptOnward

variable {taking : Prop} {R : Cursor → Cursor → Prop} (hR : KeptOnward taking R) {c : Cursor}
include hR

theorem completed {d : Delimiters} {shape : Shape}
    (htaking : Step.Contains (.read shape) (.perform .takeLog) → taking) {start : Cursor}
    {vs : List Value} (h : Completed d shape.read start vs c) : R start c := by
  induction h with
  | none => exact hR.refl start
  | @more as a c next after _ helement hsep ih =>
    have hnext := hR.element (hR.read shape htaking) (d := d) as.length c
    rw [helement] at hnext
    exact hR.trans ih (hR.trans hnext (hR.consumeChar hsep))

theorem visits {step inner : Step} {s s' : Session} {opened : List (List Value)}
    (h : Visits step s opened inner s') (htaking : step.Contains (.perform .takeLog) → taking)
    (hs : Kept.Holds R c s) : Kept.Holds R c s' := by
  induction h with
  | here step s => exact hs
  | @steps before after step inner s mid s' vs opened hbefore _ ih =>
    have hsteps : ∀ step' ∈ before ++ step :: after,
        step'.Contains (.perform .takeLog) → taking :=
      fun step' hstep' h ↦ htaking (.steps hstep' h)
    have hbefores : ∀ step' ∈ before, step'.Contains (.perform .takeLog) → taking :=
      fun step' hstep' ↦ hsteps step' (List.mem_append_left _ hstep')
    have hmid : Kept.Holds R c (ending (Step.runAll before ⟨s.cursor, []⟩)) :=
      hR.steps hbefores (fun shape h ↦ hR.read shape (hbefores _ h)) (.afresh hs.1)
    rw [hbefore] at hmid
    exact ih (hsteps step (by simp)) hmid
  | list hcompleted _ ih =>
    have hin := fun h ↦ htaking (.list h)
    have hgo := hR.trans hs.1 (hR.completed hin hcompleted)
    exact ih hin (.afresh (hR.trans hgo (hR.trans (hR.skipCopies _ _) (hR.enter _ _))))
  | listWith hcompleted _ ih =>
    have hin := fun h ↦ htaking (.listWith h)
    have hgo := hR.trans hs.1 (hR.completed hin hcompleted)
    exact ih hin (.afresh (hR.trans hgo (hR.trans (hR.skipCopies _ _) (hR.enter _ _))))

end KeptOnward

theorem KeptOnward.reachable {R : Cursor → Cursor → Prop} (hR : KeptOnward True R)
    {settings : Settings} {t : Text} {s : Session} (h : Reachable settings t s) :
    Kept.Holds R (.ofText settings t) s := by
  induction h with
  | fresh => exact .afresh (hR.refl _)
  | after step _ ih =>
    exact hR.step (fun _ ↦ trivial) (fun shape _ ↦ hR.read shape fun _ ↦ trivial) ih
  | inside _ hvisit ih => exact hR.visits hvisit (fun _ ↦ trivial) ih

namespace Kept

variable {R : Cursor → Cursor → Prop} (hR : Kept R)
include hR

theorem completed {d : Delimiters} {shape : Shape} {start c : Cursor} {vs : List Value}
    (h : Completed d shape.read start vs c) : R start c :=
  hR.keptOnward.completed (fun _ ↦ trivial) h

theorem cursor_of_visits {step inner : Step} {s s' : Session} {opened : List (List Value)}
    (h : Visits step s opened inner s') : R s.cursor s'.cursor := by
  rcases h.eq_or_afresh with rfl | hafresh
  · exact hR.refl _
  · exact (hR.keptOnward.visits hafresh (fun _ ↦ trivial) (.afresh (hR.refl _))).1

theorem reachable {settings : Settings} {t : Text} {s : Session}
    (h : Reachable settings t s) : Holds R (.ofText settings t) s :=
  hR.keptOnward.reachable h

end Kept

end TextCursor
