import TextCursor.Proofs.Lockstep.Operation
import TextCursor.Proofs.Reading.Visit

namespace TextCursor

open Scan (Completed)

variable {α α' : Type}
variable {F : Failure → Failure → Prop} {E : List Entry → List Entry → Prop} {P : Step → Prop}
variable {R : Cursor → Cursor → Prop} {A : α → α' → Prop}

/-- The cursors of two sessions and their snapshots stand in relation, and the snapshots lie in
the same slots. -/
structure Session.Alongside (R : Cursor → Cursor → Prop) (s s' : Session) : Prop where
  cursor : R s.cursor s'.cursor
  slots : List.Forall₂ (fun slot slot' ↦ slot.1 = slot'.1 ∧ R slot.2 slot'.2) s.slots s'.slots

inductive Report.Like (F : Failure → Failure → Prop) (E : List Entry → List Entry → Prop)
    (R : Cursor → Cursor → Prop) : Report → Report → Prop
  | ok {v v' : Value} {c c' : Cursor} :
      Value.Like F E v v' → R c c' → Like F E R ⟨.ok v, c⟩ ⟨.ok v', c'⟩
  | error {e e' : Failure} {c c' : Cursor} :
      F e e' → R c c' → Like F E R ⟨.error e, c⟩ ⟨.error e', c'⟩

theorem Report.Like.eq {r r' : Report} (h : Report.Like Eq Eq R r r') :
    r'.outcome = r.outcome ∧ R r.cursor r'.cursor := by
  cases h with
  | ok hv hc => exact ⟨congrArg Except.ok hv.eq, hc⟩
  | error he hc => exact ⟨congrArg Except.error he.symm, hc⟩

namespace Session.Alongside

variable {s s' : Session}

theorem lookup (h : s.Alongside R s') (slot : String) :
    Option.Rel R (s.slots.lookup slot) (s'.slots.lookup slot) := by
  have hslots := h.slots
  generalize s.slots = slots, s'.slots = slots' at hslots
  induction hslots with
  | nil => exact .none
  | @cons saved saved' rest rest' hsaved _ ih =>
    rw [List.lookup_cons, List.lookup_cons, ← hsaved.1]
    split
    · exact .some hsaved.2
    · exact ih

theorem scan {read : Scan α} {read' : Scan α'} (h : s.Alongside R s')
    (hread : Alike F A R (read s.cursor) (read' s'.cursor)) :
    Alike F A (Alongside R) (Session.scan read s) (Session.scan read' s') := by
  unfold Session.scan
  generalize read s.cursor = ended, read' s'.cursor = ended' at hread
  cases hread with
  | ok ha hc => exact .ok ha ⟨hc, h.slots⟩
  | error he hc => exact .error he ⟨hc, h.slots⟩

end Session.Alongside

namespace Lockstep

variable (hR : Lockstep F E P R)
include hR

section Lists

variable {d : Delimiters} {read : Scan α} {read' : Scan α'}
variable (hread : ∀ {c c' : Cursor}, R c c' → Alike F A R (read c) (read' c'))
include hread

theorem element (index : Nat) {c c' : Cursor} (h : R c c') :
    Alike F A R (Scan.element d read index c) (Scan.element d read' index c') := by
  have hstart := hR.skipCopies h d.padding
  have hnext := hread (hR.enter index hstart)
  simp only [Scan.element]
  generalize read _ = ended, read' _ = ended' at hnext
  cases hnext with
  | ok ha hnext => exact .ok ha (hR.leave (hR.record _ hstart hnext))
  | error he hnext => exact .error he hnext

theorem elementsFrom (ahead : Text) (index : Nat) {c c' : Cursor} (h : R c c') :
    Alike F (List.Forall₂ A) R (Scan.elementsFrom d read ahead index c)
      (Scan.elementsFrom d read' ahead index c') := by
  fun_induction Scan.elementsFrom d read ahead index c generalizing c' with
  | case1 ahead index c e next hfails =>
    obtain ⟨e', next', hfails', he, hnext⟩ := (hR.element hread index h).of_error hfails
    rw [Scan.elementsFrom_error hfails']
    exact .error he hnext
  | case2 ahead index c a next helement hnone =>
    obtain ⟨a', next', helement', ha, hnext⟩ := (hR.element hread index h).of_ok helement
    rw [Scan.elementsFrom_last helement' (hR.consumeChar?_eq_none hnext hnone)]
    exact .ok (.cons ha .nil) hnext
  | case3 index c a next helement after hsome =>
    obtain ⟨a', next', helement', ha, hnext⟩ := (hR.element hread index h).of_ok helement
    obtain ⟨after', hsome', hafter⟩ := hR.exists_consumeChar? hnext hsome
    simp only [Scan.elementsFrom, helement', hsome']
    exact .ok (.cons ha .nil) hafter
  | case4 index c a next helement after hsome _ ahead as last hrest ih =>
    obtain ⟨a', next', helement', ha, hnext⟩ := (hR.element hread index h).of_ok helement
    obtain ⟨after', hsome', hafter⟩ := hR.exists_consumeChar? hnext hsome
    obtain ⟨as', last', hrest', has, hlast⟩ := (ih hafter).of_ok hrest
    rw [Scan.elementsFrom_cons helement' hsome', hrest']
    exact .ok (.cons ha has) hlast
  | case5 index c a next helement after hsome _ ahead e last hrest ih =>
    obtain ⟨a', next', helement', -, hnext⟩ := (hR.element hread index h).of_ok helement
    obtain ⟨after', hsome', hafter⟩ := hR.exists_consumeChar? hnext hsome
    obtain ⟨e', last', hrest', he, hlast⟩ := (ih hafter).of_error hrest
    rw [Scan.elementsFrom_cons helement' hsome', hrest']
    exact .error he hlast

theorem readListWith {c c' : Cursor} (h : R c c') :
    Alike F (List.Forall₂ A) R (Scan.readListWith d read c) (Scan.readListWith d read' c') := by
  unfold Scan.readListWith
  rw [hR.remaining h]
  exact hR.elementsFrom hread _ 0 h

theorem completed {start start' c : Cursor} {as : List α} (hstart : R start start')
    (h : Completed d read start as c) :
    ∃ as' c', Completed d read' start' as' c' ∧ List.Forall₂ A as as' ∧ R c c' := by
  induction h with
  | none => exact ⟨[], start', .none, .nil, hstart⟩
  | @more as a c next after _ helement hsep ih =>
    obtain ⟨as', c', hcompleted', has, hc⟩ := ih
    obtain ⟨a', next', helement', ha, hnext⟩ := (hR.element hread as.length hc).of_ok helement
    obtain ⟨after', hsep', hafter⟩ := hR.exists_consumeChar? hnext hsep
    rw [has.length_eq] at helement'
    exact ⟨as' ++ [a'], after', .more hcompleted' helement' hsep',
      List.rel_append has (.cons ha .nil), hafter⟩

end Lists

theorem step {step : Step} (hP : ∀ inner, step.Contains inner → P inner)
    (hread : ∀ shape, step = .read shape → ∀ {c c' : Cursor}, R c c' →
      Alike F (Value.Like F E) R (shape.read c) (shape.read c'))
    {s s' : Session} (h : s.Alongside R s') :
    Alike F (Value.Like F E) (Session.Alongside R) (step.run s) (step.run s') := by
  cases step with
  | perform op => exact h.scan (hR.run op (.inl (hP _ (.self _))) h.cursor)
  | read shape => exact h.scan (hread shape rfl h.cursor)
  | save slot => exact .ok .nothing ⟨h.cursor, .cons ⟨rfl, h.cursor⟩ h.slots⟩
  | restore slot =>
    have hsaved := h.lookup slot
    simp only [Step.run, Session.restore?]
    generalize s.slots.lookup slot = saved, s'.slots.lookup slot = saved' at hsaved
    cases hsaved with
    | none => exact .ok (.flag _) h
    | some hsaved => exact .ok (.flag _) ⟨hsaved, h.slots⟩

theorem runAll {steps : List Step} (hP : ∀ step ∈ steps, ∀ inner, step.Contains inner → P inner)
    (hread : ∀ shape, .read shape ∈ steps → ∀ {c c' : Cursor}, R c c' →
      Alike F (Value.Like F E) R (shape.read c) (shape.read c'))
    {s s' : Session} (h : s.Alongside R s') :
    Alike F (List.Forall₂ (Value.Like F E)) (Session.Alongside R) (Step.runAll steps s)
      (Step.runAll steps s') := by
  induction steps generalizing s s' with
  | nil => exact .ok .nil h
  | cons step rest ih =>
    have hstep := hR.step (hP step List.mem_cons_self)
      (fun shape he ↦ hread shape (he ▸ List.mem_cons_self)) h
    simp only [Step.runAll]
    generalize step.run s = ended, step.run s' = ended' at hstep
    cases hstep with
    | error he hnext => exact .error he hnext
    | @ok v v' next next' hv hnext =>
      have hrest := ih (fun step he ↦ hP step (List.mem_cons_of_mem _ he))
        (fun shape he ↦ hread shape (List.mem_cons_of_mem _ he)) hnext
      dsimp only
      generalize Step.runAll rest next = ended, Step.runAll rest next' = ended' at hrest
      cases hrest with
      | error he hlast => exact .error he hlast
      | ok hvs hlast => exact .ok (.cons hv hvs) hlast

theorem read (shape : Shape) (hP : ∀ inner, Step.Contains (.read shape) inner → P inner)
    {c c' : Cursor} (h : R c c') :
    Alike F (Value.Like F E) R (shape.read c) (shape.read c') := by
  induction shape generalizing c c' with
  | integer type => exact hR.run (.readInteger type) (.inr trivial) h
  | word => exact hR.run .readWord (.inr trivial) h
  | char => exact hR.run .consumeNext (.inr trivial) h
  | list element ih =>
    have helement {c c' : Cursor} (h : R c c') := ih (fun inner hin ↦ hP inner (.list hin)) h
    refine Alike.map ?_ fun _ _ ↦ .list
    unfold Scan.readList
    rw [hR.delimiters (hP _ (.self _)) h]
    exact hR.readListWith helement h
  | listWith d element ih =>
    have helement {c c' : Cursor} (h : R c c') := ih (fun inner hin ↦ hP inner (.listWith hin)) h
    exact (hR.readListWith helement h).map fun _ _ ↦ .list
  | steps steps ih =>
    have hsteps : ∀ step ∈ steps, ∀ inner, step.Contains inner → P inner :=
      fun step hstep inner hin ↦ hP inner (.steps hstep hin)
    have hstart : Session.Alongside R ⟨c, []⟩ ⟨c', []⟩ := ⟨h, .nil⟩
    have hall := hR.runAll hsteps (fun shape hshape ↦ ih shape hshape (hsteps _ hshape)) hstart
    refine Alike.map ?_ fun _ _ ↦ .list
    unfold Session.within
    generalize Step.runAll steps ⟨c, []⟩ = ended, Step.runAll steps ⟨c', []⟩ = ended' at hall
    cases hall with
    | ok hvs hlast => exact .ok hvs hlast.cursor
    | error he hlast => exact .error he hlast.cursor

theorem exists_completed {d : Delimiters} {element : Shape}
    (hP : ∀ inner, Step.Contains (.read element) inner → P inner) {start start' c : Cursor}
    {vs : List Value} (hstart : R start start')
    (hcompleted : Completed d element.read start vs c) :
    ∃ vs' c', Completed d element.read start' vs' c' ∧ List.Forall₂ (Value.Like F E) vs vs' ∧
      Session.Alongside R ⟨(c.skipCopies d.padding).enter vs.length, []⟩
        ⟨(c'.skipCopies d.padding).enter vs'.length, []⟩ := by
  obtain ⟨vs', c', hcompleted', hvs, hc⟩ :=
    hR.completed (fun h ↦ hR.read element hP h) hstart hcompleted
  refine ⟨vs', c', hcompleted', hvs, ?_, .nil⟩
  rw [← hvs.length_eq]
  exact hR.enter _ (hR.skipCopies hc d.padding)

theorem visits {step inner : Step} {s s' mid : Session} {opened : List (List Value)}
    (hP : ∀ inner, step.Contains inner → P inner) (h : s.Alongside R s')
    (hvisit : Visits step s opened inner mid) :
    ∃ opened' mid', Visits step s' opened' inner mid' ∧
      List.Forall₂ (List.Forall₂ (Value.Like F E)) opened opened' ∧ mid.Alongside R mid' := by
  induction hvisit generalizing s' with
  | here step s => exact ⟨[], s', .here _ _, .nil, h⟩
  | @steps before after step inner s last mid vs opened hbefore _ ih =>
    have hsteps : ∀ step' ∈ before ++ step :: after, ∀ inner, step'.Contains inner → P inner :=
      fun step' hstep' inner hin ↦ hP inner (.steps hstep' hin)
    have hstart : Session.Alongside R ⟨s.cursor, []⟩ ⟨s'.cursor, []⟩ := ⟨h.cursor, .nil⟩
    have hall := hR.runAll (fun step' hstep' ↦ hsteps step' (List.mem_append_left _ hstep'))
      (fun shape hshape _ _ ↦ hR.read shape (hsteps _ (List.mem_append_left _ hshape))) hstart
    obtain ⟨vs', last', hbefore', -, hlast⟩ := hall.of_ok hbefore
    obtain ⟨opened', mid', hvisit', hopened, hmid⟩ := ih (hsteps step (by simp)) hlast
    exact ⟨opened', mid', .steps hbefore' hvisit', hopened, hmid⟩
  | @list element inner s mid c vs opened hcompleted _ ih =>
    have hin : ∀ inner, Step.Contains (.read element) inner → P inner :=
      fun inner hin ↦ hP inner (.list hin)
    obtain ⟨vs', c', hcompleted', hvs, hstart⟩ := hR.exists_completed hin h.cursor hcompleted
    obtain ⟨opened', mid', hvisit', hopened, hmid⟩ := ih hin hstart
    rw [← hR.delimiters (hP _ (.self _)) h.cursor] at hcompleted' hvisit'
    exact ⟨vs' :: opened', mid', .list hcompleted' hvisit', .cons hvs hopened, hmid⟩
  | @listWith d element inner s mid c vs opened hcompleted _ ih =>
    have hin : ∀ inner, Step.Contains (.read element) inner → P inner :=
      fun inner hin ↦ hP inner (.listWith hin)
    obtain ⟨vs', c', hcompleted', hvs, hstart⟩ := hR.exists_completed hin h.cursor hcompleted
    obtain ⟨opened', mid', hvisit', hopened, hmid⟩ := ih hin hstart
    exact ⟨vs' :: opened', mid', .listWith hcompleted' hvisit', .cons hvs hopened, hmid⟩

theorem script (steps : List Step)
    (hP : ∀ step ∈ steps, ∀ inner, step.Contains inner → P inner) {s s' : Session}
    (h : s.Alongside R s') :
    List.Forall₂ (Report.Like F E R) (runScript steps s).1 (runScript steps s').1 ∧
      (runScript steps s).2.Alongside R (runScript steps s').2 := by
  induction steps generalizing s s' with
  | nil => exact ⟨.nil, h⟩
  | cons step rest ih =>
    have hP' := hP step List.mem_cons_self
    have hstep := hR.step hP' (fun shape he _ _ ↦ hR.read shape (he ▸ hP')) h
    have hreport : Report.Like F E R (step.report s).1 (step.report s').1 ∧
        (step.report s).2.Alongside R (step.report s').2 := by
      unfold Step.report
      generalize step.run s = ended, step.run s' = ended' at hstep
      cases hstep with
      | ok hv hnext => exact ⟨.ok hv hnext.cursor, hnext⟩
      | error he hnext => exact ⟨.error he hnext.cursor, hnext⟩
    obtain ⟨hreports, hlast⟩ := ih (fun step he ↦ hP step (List.mem_cons_of_mem _ he)) hreport.2
    exact ⟨.cons hreport.1 hreports, hlast⟩

end Lockstep

end TextCursor
