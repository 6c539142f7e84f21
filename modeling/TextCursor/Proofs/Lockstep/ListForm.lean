import TextCursor.Proofs.Lockstep.SamePlace

namespace TextCursor

open Scan (Completed)

mutual

/-- The shape with the form `d` given to all lists in it, at any depth, that are of the configured
form. -/
def Shape.specified (d : Delimiters) : Shape → Shape
  | .integer type => .integer type
  | .word => .word
  | .char => .char
  | .list element => .listWith d (element.specified d)
  | .listWith own element => .listWith own (element.specified d)
  | .steps steps => .steps (Step.specifiedAll d steps)

def Step.specified (d : Delimiters) : Step → Step
  | .perform op => .perform op
  | .read shape => .read (shape.specified d)
  | .save slot => .save slot
  | .restore slot => .restore slot

def Step.specifiedAll (d : Delimiters) : List Step → List Step
  | [] => []
  | step :: rest => step.specified d :: Step.specifiedAll d rest

end

theorem Step.specifiedAll_eq_map (d : Delimiters) (steps : List Step) :
    Step.specifiedAll d steps = steps.map (Step.specified d) := by
  induction steps with
  | nil => rfl
  | cons step rest ih => rw [Step.specifiedAll, ih, List.map_cons]

theorem Shape.not_contains_list_specified (shape element : Shape) (d : Delimiters) :
    ¬ Step.Contains (.read (shape.specified d)) (.read (.list element)) := by
  intro h
  induction shape with
  | integer | word | char => cases h
  | list inner ih | listWith own inner ih =>
    cases h with
    | listWith h => exact ih h
  | steps steps ih =>
    rw [Shape.specified, Step.specifiedAll_eq_map] at h
    cases h with
    | @steps _ step _ hstep h =>
      obtain ⟨step, hmem, rfl⟩ := List.mem_map.1 hstep
      cases step with
      | read shape => exact ih shape hmem h
      | perform | save | restore => cases h

theorem Step.not_contains_list_specified (step : Step) (element : Shape) (d : Delimiters) :
    ¬ (step.specified d).Contains (.read (.list element)) := by
  cases step with
  | read shape => exact shape.not_contains_list_specified element d
  | perform | save | restore => exact nofun

namespace Scan

variable {α : Type} {d own : Delimiters} {read read' : Scan α}
variable (honward : ∀ c : Cursor, c.Onward (ending (read c)))
variable (hagree : ∀ c : Cursor, c.delimiters = own → read' c = read c)

include hagree in
theorem element_of_agree (index : Nat) {c : Cursor} (hc : c.delimiters = own) :
    element d read' index c = element d read index c := by
  simp only [element, hagree ((c.skipCopies d.padding).enter index) hc]

include honward in
theorem delimiters_of_element {index : Nat} {c next after : Cursor} {a : α}
    (h : element d read index c = .ok a next) (hsep : next.consumeChar? d.separator = some after) :
    after.delimiters = c.delimiters :=
  ((element_onward honward h).trans (Cursor.Onward.kept.keptOnward.consumeChar hsep)).delimiters

include honward hagree

theorem elementsFrom_of_agree (ahead : Text) (index : Nat) {c : Cursor} (hc : c.delimiters = own) :
    elementsFrom d read' ahead index c = elementsFrom d read ahead index c := by
  fun_induction elementsFrom d read ahead index c with
  | case1 ahead index c e next h =>
    exact elementsFrom_error ((element_of_agree hagree index hc).trans h)
  | case2 ahead index c a next h hsep =>
    exact elementsFrom_last ((element_of_agree hagree index hc).trans h) hsep
  | case3 index c a next h after hsep =>
    simp only [elementsFrom, element_of_agree hagree index hc, h, hsep]
  | case4 index c a next h after hsep _ ahead as last hrest ih
  | case5 index c a next h after hsep _ ahead e last hrest ih =>
    have hafter := (delimiters_of_element honward h hsep).trans hc
    rw [elementsFrom_cons ((element_of_agree hagree index hc).trans h) hsep, ih hafter, hrest]

theorem completed_of_agree {start c : Cursor} {as : List α} (hstart : start.delimiters = own)
    (h : Completed d read start as c) : Completed d read' start as c ∧ c.delimiters = own := by
  induction h with
  | none => exact ⟨.none, hstart⟩
  | @more as a c next after _ helement hsep ih =>
    obtain ⟨hcompleted, hc⟩ := ih
    exact ⟨hcompleted.more ((element_of_agree hagree as.length hc).trans helement) hsep,
      (delimiters_of_element honward helement hsep).trans hc⟩

end Scan

section Specified

variable {start : Cursor} {s : Session}

theorem Step.holds_onward (step : Step) (hs : Kept.Holds Cursor.Onward start s) :
    Kept.Holds Cursor.Onward start (ending (step.run s)) :=
  Cursor.Onward.kept.keptOnward.step (fun _ ↦ trivial) (fun shape _ ↦ shape.read_onward) hs

theorem Step.run_specified (step : Step) (hs : Kept.Holds Cursor.Onward start s)
    (hread : ∀ shape, step = .read shape → ∀ c : Cursor, c.delimiters = start.delimiters →
      (shape.specified start.delimiters).read c = shape.read c) :
    (step.specified start.delimiters).run s = step.run s := by
  cases step with
  | perform | save | restore => rfl
  | read shape =>
    simp only [Step.specified, Step.run, Session.scan, hread shape rfl s.cursor hs.1.delimiters]

theorem Step.runAll_specified (steps : List Step) (hs : Kept.Holds Cursor.Onward start s)
    (hread : ∀ shape, .read shape ∈ steps → ∀ c : Cursor, c.delimiters = start.delimiters →
      (shape.specified start.delimiters).read c = shape.read c) :
    Step.runAll (steps.map (Step.specified start.delimiters)) s = Step.runAll steps s := by
  induction steps generalizing s with
  | nil => rfl
  | cons step rest ih =>
    have hstep := step.run_specified hs fun shape he ↦ hread shape (he ▸ List.mem_cons_self)
    have hnext := step.holds_onward hs
    simp only [List.map_cons, Step.runAll, hstep]
    cases h : step.run s with
    | error e next => rfl
    | ok v next =>
      rw [h] at hnext
      have hrest := ih (s := next) hnext fun shape hmem ↦ hread shape (List.mem_cons_of_mem _ hmem)
      simp only [hrest]

theorem Shape.read_specified {d : Delimiters} (shape : Shape) {c : Cursor} (hc : c.delimiters = d) :
    (shape.specified d).read c = shape.read c := by
  induction shape generalizing c with
  | integer | word | char => rfl
  | list element ih =>
    simp only [Shape.specified, Shape.read, Functor.map, EStateM.map, Scan.readList,
      Scan.readListWith, hc,
      Scan.elementsFrom_of_agree element.read_onward (fun _ ↦ ih) c.remaining 0 hc]
  | listWith own element ih =>
    simp only [Shape.specified, Shape.read, Functor.map, EStateM.map, Scan.readListWith,
      Scan.elementsFrom_of_agree element.read_onward (fun _ ↦ ih) c.remaining 0 hc]
  | steps steps ih =>
    subst hc
    have hall : Step.runAll (steps.map (Step.specified c.delimiters)) ⟨c, []⟩ =
        Step.runAll steps ⟨c, []⟩ :=
      Step.runAll_specified steps (.afresh (.refl c)) fun shape hmem _ ↦ ih shape hmem
    simp only [Shape.specified, Step.specifiedAll_eq_map, Shape.read, Functor.map, EStateM.map,
      Session.within, hall]

theorem runScript_specified (steps : List Step) (hs : Kept.Holds Cursor.Onward start s) :
    runScript (steps.map (Step.specified start.delimiters)) s = runScript steps s := by
  induction steps generalizing s with
  | nil => rfl
  | cons step rest ih =>
    have hstep := step.run_specified hs fun shape _ _ ↦ shape.read_specified
    have hnext := step.holds_onward hs
    have hreport : (step.specified start.delimiters).report s = step.report s := by
      simp only [Step.report, hstep]
    rw [← step.snd_report] at hnext
    simp only [List.map_cons, runScript, hreport, ih hnext]

theorem Visits.specified {step inner : Step} {mid : Session} {opened : List (List Value)}
    {d : Delimiters} (h : Visits step s opened inner mid) (hs : s.cursor.delimiters = d) :
    Visits (step.specified d) s opened (inner.specified d) mid := by
  induction h with
  | here step s => exact .here _ s
  | @steps before after step inner s last mid vs opened hbefore _ ih =>
    subst hs
    have hstart : Kept.Holds Cursor.Onward s.cursor ⟨s.cursor, []⟩ := .afresh (.refl _)
    have hlast : Kept.Holds Cursor.Onward s.cursor (ending (Step.runAll before ⟨s.cursor, []⟩)) :=
      Cursor.Onward.kept.steps (fun shape _ ↦ shape.read_onward) hstart
    rw [hbefore] at hlast
    have hbefore' := (Step.runAll_specified before hstart
      fun shape _ _ ↦ shape.read_specified).trans hbefore
    rw [Step.specified, Shape.specified, Step.specifiedAll_eq_map, List.map_append, List.map_cons]
    exact .steps hbefore' (ih hlast.1.delimiters)
  | @list element inner s mid c vs opened hcompleted _ ih =>
    subst hs
    obtain ⟨hcompleted', hc⟩ := Scan.completed_of_agree element.read_onward
      (fun _ ↦ element.read_specified) rfl hcompleted
    exact .listWith hcompleted' (ih hc)
  | @listWith own element inner s mid c vs opened hcompleted _ ih =>
    obtain ⟨hcompleted', hc⟩ := Scan.completed_of_agree element.read_onward
      (fun _ ↦ element.read_specified) hs hcompleted
    exact .listWith hcompleted' (ih hc)

end Specified

/-- Only lists of the configured form depend on which form is configured: where none is read, runs
under two forms go the same way. To spell the form out wherever such a list is read changes nothing,
and leaves no such list. -/
theorem list_form_reaches_own_lists_only (settings : Settings) (t : Text) (steps : List Step) :
    ((∀ step ∈ steps, ∀ element, ¬ step.Contains (.read (.list element))) → ∀ d,
      List.Forall₂ (fun r r' ↦ r'.outcome = r.outcome ∧ r.cursor.SamePlace False True r'.cursor)
        (runScript steps ⟨.ofText settings t, []⟩).1
        (runScript steps ⟨.ofText { settings with delimiters := d } t, []⟩).1 ∧
      (runScript steps ⟨.ofText settings t, []⟩).2.Alongside (Cursor.SamePlace False True)
        (runScript steps ⟨.ofText { settings with delimiters := d } t, []⟩).2 ∧
      ∀ step inner opened mid, (∀ element, ¬ step.Contains (.read (.list element))) →
        Visits step (runScript steps ⟨.ofText settings t, []⟩).2 opened inner mid →
        ∃ mid', Visits step (runScript steps ⟨.ofText { settings with delimiters := d } t, []⟩).2
          opened inner mid' ∧ mid.Alongside (Cursor.SamePlace False True) mid') ∧
    runScript (steps.map (Step.specified settings.delimiters)) ⟨.ofText settings t, []⟩ =
      runScript steps ⟨.ofText settings t, []⟩ ∧
    (∀ step inner opened mid,
      Visits step (runScript steps ⟨.ofText settings t, []⟩).2 opened inner mid →
      Visits (step.specified settings.delimiters) (runScript steps ⟨.ofText settings t, []⟩).2
        opened (inner.specified settings.delimiters) mid) ∧
    ∀ step ∈ steps.map (Step.specified settings.delimiters), ∀ element,
      ¬ step.Contains (.read (.list element)) := by
  refine ⟨fun hnone d ↦ ?_, ?_, fun step inner opened mid hvisit ↦ ?_, ?_⟩
  · have hstart : Session.Alongside (Cursor.SamePlace False True) ⟨.ofText settings t, []⟩
        ⟨.ofText { settings with delimiters := d } t, []⟩ :=
      ⟨⟨rfl, rfl, False.elim, fun _ ↦ rfl⟩, .nil⟩
    have hlock := Cursor.SamePlace.lockstep False True
    have hfree {step : Step} (h : ∀ element, ¬ step.Contains (.read (.list element))) :
        ∀ inner, step.Contains inner → (inner = .perform .takeLog → True) ∧
          ∀ element, inner = .read (.list element) → False :=
      fun inner hin ↦ ⟨fun _ ↦ trivial, fun element he ↦ h element (he ▸ hin)⟩
    obtain ⟨hreports, hlast⟩ := hlock.script steps (fun step hmem ↦ hfree (hnone step hmem)) hstart
    refine ⟨hreports.imp fun _ _ ↦ Report.Like.eq, hlast, ?_⟩
    intro step inner opened mid hstep hvisit
    obtain ⟨opened', mid', hvisit', hopened, hmid⟩ := hlock.visits (hfree hstep) hlast hvisit
    have hsame : List.Forall₂ Eq opened opened' :=
      hopened.imp fun _ _ hvs ↦ (Value.Like.eq_of_forall₂ hvs).symm
    rw [List.forall₂_eq_eq_eq] at hsame
    exact ⟨mid', hsame ▸ hvisit', hmid⟩
  · have hfresh : Kept.Holds Cursor.Onward (.ofText settings t) ⟨.ofText settings t, []⟩ :=
      .afresh (.refl _)
    exact runScript_specified steps hfresh
  · have hreach : Reachable settings t _ := Reachable.fresh.runScript steps
    exact hvisit.specified (Cursor.Onward.kept.reachable hreach).1.delimiters
  · intro step hstep element
    obtain ⟨step, -, rfl⟩ := List.mem_map.1 hstep
    exact step.not_contains_list_specified element _

theorem list_form_reaches_own_lists_only_rows :
    ∃ (s : Settings) (commas dots spelled : Step),
      s = { logging := true, delimiters := ⟨'.', ' '⟩ } ∧
      commas = .read (.listWith ⟨';', ' '⟩ (.commaList (.integer .int64))) ∧
      dots = .read (.listWith ⟨';', ' '⟩ (.list (.integer .int64))) ∧
      spelled = .read (.listWith ⟨';', ' '⟩ (.listWith ⟨'.', ' '⟩ (.integer .int64))) ∧
      (∀ step ∈ [commas], ∀ element, ¬ step.Contains (.read (.list element))) ∧
      (runScript [commas] ⟨.ofText s ['1', ',', '2', ';', '3'], []⟩).1.map Report.outcome =
        [.ok (.list [.list [.integer 1, .integer 2], .list [.integer 3]])] ∧
      List.Forall₂ (fun r r' ↦ r'.outcome = r.outcome ∧ r.cursor.SamePlace False True r'.cursor)
        (runScript [commas] ⟨.ofText s ['1', ',', '2', ';', '3'], []⟩).1
        (runScript [commas] ⟨.ofText { s with delimiters := {} } ['1', ',', '2', ';', '3'], []⟩).1 ∧
      (runScript [dots] ⟨.ofText s ['1', '.', '2', ';', '3'], []⟩).1.map Report.outcome =
        [.ok (.list [.list [.integer 1, .integer 2], .list [.integer 3]])] ∧
      runScript [spelled] ⟨.ofText s ['1', '.', '2', ';', '3'], []⟩ =
        runScript [dots] ⟨.ofText s ['1', '.', '2', ';', '3'], []⟩ := by
  have hnone : ∀ step ∈ [Step.read (.listWith ⟨';', ' '⟩ (.commaList (.integer .int64)))],
      ∀ element, ¬ step.Contains (.read (.list element)) := by
    intro step hstep element h
    obtain rfl := List.mem_singleton.1 hstep
    cases h with
    | listWith h => cases h with
      | listWith h => cases h
  refine ⟨_, _, _, _, rfl, rfl, rfl, rfl, hnone, rfl, ?_, rfl, ?_⟩
  · exact ((list_form_reaches_own_lists_only _ _ _).1 hnone {}).1
  · exact (list_form_reaches_own_lists_only { logging := true, delimiters := ⟨'.', ' '⟩ } _
      [.read (.listWith ⟨';', ' '⟩ (.list (.integer .int64)))]).2.1

end TextCursor
