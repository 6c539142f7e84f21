import TextCursor.Script
import TextCursor.Proofs.Cursor.Onward

namespace TextCursor

/-- Induction over shapes; a user-made shape contributes the shapes that its steps read. -/
@[elab_as_elim, induction_eliminator]
theorem Shape.induction {motive : Shape → Prop}
    (integer : ∀ type, motive (.integer type)) (word : motive .word) (char : motive .char)
    (list : ∀ element, motive element → motive (.list element))
    (listWith : ∀ d element, motive element → motive (.listWith d element))
    (steps : ∀ steps, (∀ shape, .read shape ∈ steps → motive shape) → motive (.steps steps))
    (shape : Shape) : motive shape :=
  @Shape.rec motive (fun step ↦ ∀ shape, step = .read shape → motive shape)
    (fun steps ↦ ∀ shape, .read shape ∈ steps → motive shape)
    integer word char list listWith steps (by simp) (by simp) (by simp) (by simp) (by simp)
    (fun _ _ ih ihs shape h ↦ (List.mem_cons.1 h).elim (fun h ↦ ih shape h.symm) (ihs shape)) shape

/-- A shape that is built in: no steps of a user are in it. -/
def Shape.IsPlain : Shape → Prop
  | .list element | .listWith _ element => element.IsPlain
  | .steps _ => False
  | _ => True

/-- A step that may be taken in the course of a step. -/
inductive Step.Contains : Step → Step → Prop
  | self (step : Step) : Contains step step
  | list {element : Shape} {inner : Step} :
      Contains (.read element) inner → Contains (.read (.list element)) inner
  | listWith {d : Delimiters} {element : Shape} {inner : Step} :
      Contains (.read element) inner → Contains (.read (.listWith d element)) inner
  | steps {steps : List Step} {step inner : Step} :
      step ∈ steps → Contains step inner → Contains (.read (.steps steps)) inner

variable {α : Type}

/-- A relation between cursors that whatever a reading is made of keeps, beside going back to a
snapshot. -/
structure Kept (R : Cursor → Cursor → Prop) : Prop where
  refl : ∀ c, R c c
  trans : ∀ {a b c}, R a b → R b c → R a c
  run : ∀ (op : Operation) c, R c (ending (op.run c))
  enter : ∀ index c, R c (c.enter index)
  leave : ∀ c, R c c.leave
  record : ∀ c start, R c (c.record start .listElement)

def Kept.Holds (R : Cursor → Cursor → Prop) (c : Cursor) (s : Session) : Prop :=
  R c s.cursor ∧ ∀ slot ∈ s.slots, R c slot.2

theorem Kept.Holds.afresh {R : Cursor → Cursor → Prop} {c c' : Cursor} (h : R c c') :
    Holds R c ⟨c', []⟩ :=
  ⟨h, nofun⟩

/-- A relation from where a reading begins to where it has come to, which whatever a reading is made
of keeps. An element is noted where it began, so that this has to be kept from there on only. On the
way entries may be taken out of the journal only if `taking`. -/
structure KeptOnward (taking : Prop) (R : Cursor → Cursor → Prop) : Prop where
  refl : ∀ c, R c c
  trans : ∀ {a b c}, R a b → R b c → R a c
  run : ∀ op : Operation, (op = .takeLog → taking) → ∀ c, R c (ending (op.run c))
  enter : ∀ index c, R c (c.enter index)
  leave : ∀ c, R c c.leave
  record : ∀ {start c}, R start c → R start (c.record start .listElement)

theorem KeptOnward.of_notes {taking : Prop} {R : Cursor → Cursor → Prop}
    (silent : ∀ {c c' : Cursor}, c.Onward c' → c'.journal.entries = c.journal.entries → R c c')
    (trans : ∀ {a b c}, R a b → R b c → R a c)
    (record : ∀ {start c}, R start c → ∀ event, R start (c.record start event))
    (take : taking → ∀ c, R c c.takeEntries.2) : KeptOnward taking R where
  refl c := silent (.refl c) rfl
  trans := trans
  run op htaking c := by
    by_cases hop : op = .takeLog
    · subst hop
      exact take (htaking rfl) c
    · have hmove := op.run_move hop c
      generalize ending (op.run c) = c' at hmove
      cases hmove with
      | advance n => exact silent (.advance n c) rfl
      | record n event => exact record (silent (.advance n c) rfl) event
  enter index c := silent (.enter index c) (c.entries_enter index)
  leave c := silent (.leave c) c.entries_leave
  record h := record h .listElement

namespace Session

variable {s : Session} {a : α}

theorem ending_scan (read : Scan α) (s : Session) :
    ending (scan read s) = { s with cursor := ending (read s.cursor) } := by
  unfold scan
  cases read s.cursor <;> rfl

theorem ending_within (run : EStateM Failure Session α) (c : Cursor) :
    ending (within run c) = (ending (run ⟨c, []⟩)).cursor := by
  unfold within
  cases run ⟨c, []⟩ <;> rfl

theorem mem_of_lookup {slot : String} {c : Cursor} (h : s.slots.lookup slot = some c) :
    (slot, c) ∈ s.slots := by
  obtain ⟨before, after, hs, -⟩ := List.lookup_eq_some_iff.1 h
  rw [hs]
  simp

end Session

theorem Step.ending_runAll_cons (step : Step) (rest : List Step) (s : Session) :
    ending (runAll (step :: rest) s) =
      match step.run s with
      | .ok _ next => ending (runAll rest next)
      | .error _ next => next := by
  simp only [runAll]
  cases step.run s with
  | error e next => rfl
  | ok v next =>
    dsimp only
    cases runAll rest next <;> rfl

theorem Step.of_runAll_cons_ok {step : Step} {rest : List Step} {s last : Session}
    {vs : List Value} (h : runAll (step :: rest) s = .ok vs last) :
    ∃ v next vs', step.run s = .ok v next ∧ runAll rest next = .ok vs' last ∧ vs = v :: vs' := by
  simp only [runAll] at h
  split at h
  · cases h
  · rename_i v next hstep
    split at h
    · rename_i vs' last' hrest
      cases h
      exact ⟨v, next, vs', hstep, hrest, rfl⟩
    · cases h

theorem Kept.Holds.step {R : Cursor → Cursor → Prop} {c : Cursor} {s : Session} {step : Step}
    (hs : Holds R c s) (hperform : ∀ op, step = .perform op → R c (ending (op.run s.cursor)))
    (hread : ∀ shape, step = .read shape → R c (ending (shape.read s.cursor))) :
    Holds R c (ending (step.run s)) := by
  cases step with
  | perform op =>
    simp only [Step.run, Session.ending_scan]
    exact ⟨hperform op rfl, hs.2⟩
  | read shape =>
    simp only [Step.run, Session.ending_scan]
    exact ⟨hread shape rfl, hs.2⟩
  | save slot =>
    simp only [Step.run, ending_ok, Session.save]
    exact ⟨hs.1, List.forall_mem_cons.2 ⟨hs.1, hs.2⟩⟩
  | restore slot =>
    simp only [Step.run, ending_ok, Session.restore?]
    cases h : s.slots.lookup slot with
    | none => exact hs
    | some saved => exact ⟨hs.2 _ (Session.mem_of_lookup h), hs.2⟩

namespace KeptOnward

variable {taking : Prop} {R : Cursor → Cursor → Prop} (hR : KeptOnward taking R)
include hR

theorem skipCopies (ch : Char) (c : Cursor) : R c (c.skipCopies ch) :=
  hR.run (.consumeCopiesOf ch) nofun c

theorem consumeChar {ch : Char} {c next : Cursor} (h : c.consumeChar? ch = some next) :
    R c next := by
  have h' := hR.run (.tryConsumeChar ch) nofun c
  simpa only [Operation.run, ending_map, Scan.attempt, h, Option.map_some, ending_ok] using h'

section Lists

variable {d : Delimiters} {read : Scan α} (hread : ∀ c, R c (ending (read c)))
include hread

theorem element (index : Nat) (c : Cursor) : R c (ending (Scan.element d read index c)) := by
  have hstart := hR.skipCopies d.padding c
  have hnext := hR.trans (hR.enter index _) (hread ((c.skipCopies d.padding).enter index))
  simp only [Scan.element]
  cases h : read ((c.skipCopies d.padding).enter index) with
  | ok a next =>
    rw [h] at hnext
    exact hR.trans hstart (hR.trans (hR.record hnext) (hR.leave _))
  | error e next =>
    rw [h] at hnext
    exact hR.trans hstart hnext

theorem elementsFrom (ahead : Text) (index : Nat) (c : Cursor) :
    R c (ending (Scan.elementsFrom d read ahead index c)) := by
  have helement := hR.element hread (d := d)
  fun_induction Scan.elementsFrom d read ahead index c with
  | case1 _ index c e next h | case2 _ index c a next h =>
    have hnext := helement index c
    rw [h] at hnext
    exact hnext
  | case3 index c a next h after hsep =>
    have hnext := helement index c
    rw [h] at hnext
    exact hR.trans hnext (hR.consumeChar hsep)
  | case4 index c a next h after hsep _ ahead as last hrest ih
  | case5 index c a next h after hsep _ ahead as last hrest ih =>
    have hnext := helement index c
    rw [h] at hnext
    rw [hrest] at ih
    exact hR.trans (hR.trans hnext (hR.consumeChar hsep)) ih

end Lists

theorem step {step : Step} (htaking : step.Contains (.perform .takeLog) → taking)
    (hread : ∀ shape, step = .read shape → ∀ c, R c (ending (shape.read c)))
    {c : Cursor} {s : Session} (hs : Kept.Holds R c s) :
    Kept.Holds R c (ending (step.run s)) := by
  refine hs.step (fun op h ↦ ?_) (fun shape h ↦ hR.trans hs.1 (hread shape h _))
  subst h
  exact hR.trans hs.1 (hR.run op (fun h ↦ htaking (h ▸ .self _)) _)

theorem steps {steps : List Step}
    (htaking : ∀ step ∈ steps, step.Contains (.perform .takeLog) → taking)
    (hread : ∀ shape, .read shape ∈ steps → ∀ c, R c (ending (shape.read c)))
    {c : Cursor} {s : Session} (hs : Kept.Holds R c s) :
    Kept.Holds R c (ending (Step.runAll steps s)) := by
  induction steps generalizing s with
  | nil => exact hs
  | cons step rest ih =>
    have hstep := hR.step (htaking step List.mem_cons_self)
      (fun shape h ↦ hread shape (h ▸ List.mem_cons_self)) hs
    rw [Step.ending_runAll_cons]
    cases h : step.run s with
    | error e next => rwa [h] at hstep
    | ok v next =>
      rw [h] at hstep
      exact ih (fun step h ↦ htaking step (List.mem_cons_of_mem _ h))
        (fun shape h ↦ hread shape (List.mem_cons_of_mem _ h)) hstep

/-- What is kept by the parts of a reading is kept by readings of every shape, whether they give a
value or fail. -/
theorem read (shape : Shape) (htaking : Step.Contains (.read shape) (.perform .takeLog) → taking) :
    ∀ c, R c (ending (shape.read c)) := by
  induction shape with
  | integer type => exact fun c ↦ hR.run (.readInteger type) nofun c
  | word => exact fun c ↦ hR.run .readWord nofun c
  | char => exact fun c ↦ hR.run .consumeNext nofun c
  | list element ih =>
    intro c
    simp only [Shape.read, ending_map]
    exact hR.elementsFrom (ih fun h ↦ htaking (.list h)) _ _ c
  | listWith d element ih =>
    intro c
    simp only [Shape.read, ending_map]
    exact hR.elementsFrom (ih fun h ↦ htaking (.listWith h)) _ _ c
  | steps steps ih =>
    intro c
    have hsteps : ∀ step ∈ steps, step.Contains (.perform .takeLog) → taking :=
      fun step hstep h ↦ htaking (.steps hstep h)
    simp only [Shape.read, ending_map, Session.ending_within]
    exact (hR.steps hsteps (fun shape h ↦ ih shape h (hsteps _ h)) (.afresh (hR.refl c))).1

end KeptOnward

namespace Kept

variable {R : Cursor → Cursor → Prop} (hR : Kept R)
include hR

theorem keptOnward : KeptOnward True R where
  refl := hR.refl
  trans := hR.trans
  run op _ := hR.run op
  enter := hR.enter
  leave := hR.leave
  record h := hR.trans h (hR.record _ _)

theorem element {d : Delimiters} {read : Scan α} (hread : ∀ c, R c (ending (read c)))
    (index : Nat) (c : Cursor) : R c (ending (Scan.element d read index c)) :=
  hR.keptOnward.element hread index c

theorem elementsFrom {d : Delimiters} {read : Scan α} (hread : ∀ c, R c (ending (read c)))
    (ahead : Text) (index : Nat) (c : Cursor) :
    R c (ending (Scan.elementsFrom d read ahead index c)) :=
  hR.keptOnward.elementsFrom hread ahead index c

theorem steps {steps : List Step}
    (hread : ∀ shape, .read shape ∈ steps → ∀ c, R c (ending (shape.read c)))
    {c : Cursor} {s : Session} (hs : Holds R c s) : Holds R c (ending (Step.runAll steps s)) :=
  hR.keptOnward.steps (fun _ _ _ ↦ trivial) hread hs

theorem read (shape : Shape) : ∀ c, R c (ending (shape.read c)) :=
  hR.keptOnward.read shape fun _ ↦ trivial

end Kept

theorem Cursor.Onward.kept : Kept Cursor.Onward where
  refl := .refl
  trans := .trans
  run := .of_run
  enter := .enter
  leave := .leave
  record c start := .record c start _

theorem Shape.read_onward (shape : Shape) (c : Cursor) : c.Onward (ending (shape.read c)) :=
  Cursor.Onward.kept.read shape c

end TextCursor
