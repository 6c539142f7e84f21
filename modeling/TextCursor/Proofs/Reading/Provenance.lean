import TextCursor.Proofs.Operation.Extraction
import TextCursor.Proofs.Walk.Reading

namespace TextCursor

open Scan (Completed)

structure Entry.NotedAt (c start : Cursor) (event : Event) (e : Entry) : Prop where
  enabled : c.journal.enabled = true
  eq : e = c.journal.entry c.source start.offset event

/-- What a step notes by itself, rather than some step within it: what an operation extracts, and,
where a list is read, each element and the separator behind it. An element is noted while it still
counts as being read. -/
inductive Step.NotesItself (c : Cursor) : Step → List (List Value) → Entry → Prop
  | operation {step : Step} {op : Operation} {event : Event} {e : Entry} :
      step.operation? = some op → op.extracted? (answer? (op.run c)) = some event →
      e.NotedAt c c event → NotesItself c step [] e
  | element {d : Delimiters} {element shape : Shape} {vs : List Value} {v : Value}
      {mid next : Cursor} {e : Entry} :
      Shape.Lists c d element shape → Completed d element.read c vs mid →
      element.read (mid.atElement d vs.length) = .ok v next →
      e.NotedAt next (mid.skipCopies d.padding) .listElement →
      NotesItself c (.read shape) [vs] e
  | separator {d : Delimiters} {element shape : Shape} {vs : List Value} {v : Value}
      {mid next after : Cursor} {e : Entry} :
      Shape.Lists c d element shape → Completed d element.read c vs mid →
      Scan.element d element.read vs.length mid = .ok v next →
      next.consumeChar? d.separator = some after → e.NotedAt next next .literal →
      NotesItself c (.read shape) [] e

/-- In the course of a step that is taken from the cursor the entry is noted. Of each list that has
an element being read then, outermost first, the elements completed so far are told. -/
def Step.Notes (step : Step) (c : Cursor) (opened : List (List Value)) (e : Entry) : Prop :=
  ∃ outer inner s own, Visits step ⟨c, []⟩ outer inner s ∧ inner.NotesItself s.cursor own e ∧
    opened = outer ++ own

/-- The entry is noted somewhere in a run, while elements of these indexes are being read: those
that were on the path when the step was begun, and one for each list that has been opened since. -/
def Entry.NotedUnder (settings : Settings) (t : Text) (p : Path) (e : Entry) : Prop :=
  ∃ s step opened, Reachable settings t s ∧ Step.Notes step s.cursor opened e ∧
    p = s.cursor.path ++ opened.map List.length

section Paths

variable {c : Cursor} {step : Step} {opened : List (List Value)} {e : Entry}

theorem Entry.NotedAt.path {start : Cursor} {event : Event} (h : e.NotedAt c start event) :
    e.path = if c.journal.tracksPath then some c.path else none := by
  rw [h.eq]
  rfl

theorem Cursor.keepsPath_of_enabled (h : c.journal.enabled = true) :
    c.keepsPath = c.journal.tracksPath := by
  rw [Cursor.keepsPath, Journal.keepsPath, h, Bool.true_and]

theorem Step.NotesItself.exists_notedAt {own : List (List Value)} (h : step.NotesItself c own e) :
    ∃ next start event, e.NotedAt next start event ∧ c.Onward next ∧
      next.path = c.path ++ if c.keepsPath then own.map List.length else [] := by
  cases h with
  | operation _ _ he => exact ⟨c, c, _, he, .refl c, by simp⟩
  | @element d element shape vs v mid next _ _ hcompleted hread he =>
    have hnext := element.read_onward (mid.atElement d vs.length)
    rw [hread] at hnext
    refine ⟨next, _, _, he, hcompleted.onward_atElement.trans hnext, ?_⟩
    rw [Shape.read_path hread, hcompleted.path_atElement, List.map_singleton]
  | @separator d element shape vs v mid next after _ _ hcompleted helement _ he =>
    have hnext := hcompleted.onward.trans (Scan.element_onward element.read_onward helement)
    refine ⟨next, next, _, he, hnext, ?_⟩
    rw [Scan.element_path element.read_onward Shape.read_path helement,
      Scan.completed_path element.read_onward Shape.read_path hcompleted]
    simp

theorem Step.Notes.exists_notedAt (h : step.Notes c opened e) :
    ∃ next start event, e.NotedAt next start event ∧ c.Onward next ∧
      next.path = c.path ++ if c.keepsPath then opened.map List.length else [] := by
  obtain ⟨outer, inner, s, own, hvisit, hown, rfl⟩ := h
  obtain ⟨next, start, event, he, hnext, hpath⟩ := hown.exists_notedAt
  have hs : c.Onward s.cursor := Cursor.Onward.kept.cursor_of_visits hvisit
  refine ⟨next, start, event, he, hs.trans hnext, ?_⟩
  rw [hpath, hvisit.path, hs.keepsPath]
  split <;> simp

theorem Step.Notes.path (h : step.Notes c opened e) :
    e.path = if c.journal.tracksPath then some (c.path ++ opened.map List.length) else none := by
  obtain ⟨next, start, event, he, hnext, hpath⟩ := h.exists_notedAt
  have henabled : c.journal.enabled = true := hnext.settings.enabled.symm.trans he.enabled
  rw [he.path, hnext.settings.tracksPath, hpath, Cursor.keepsPath_of_enabled henabled]
  split <;> rfl

theorem Entry.NotedUnder.path_eq {settings : Settings} {t : Text} {p : Path}
    (h : e.NotedUnder settings t p) : e.path = if settings.listPaths then some p else none := by
  obtain ⟨s, step, opened, hs, hnotes, rfl⟩ := h
  have honward : (Cursor.ofText settings t).Onward s.cursor :=
    (Cursor.Onward.kept.reachable hs).1
  rw [hnotes.path, honward.settings.tracksPath]
  rfl

end Paths

def Cursor.NotesOnly (P : Entry → Prop) (c c' : Cursor) : Prop :=
  ∀ e ∈ c'.journal.entries, e ∈ c.journal.entries ∨ P e

def Step.AllNoted (P : Entry → Prop) (step : Step) (c : Cursor) : Prop :=
  ∀ opened e, step.Notes c opened e → P e

variable {P : Entry → Prop}

namespace Cursor.NotesOnly

variable {c c' c'' start : Cursor}

theorem of_entries_eq (h : c'.journal.entries = c.journal.entries) : c.NotesOnly P c' := by
  intro e he
  rw [h] at he
  exact .inl he

theorem refl (c : Cursor) : c.NotesOnly P c :=
  of_entries_eq rfl

theorem trans (h : c.NotesOnly P c') (h' : c'.NotesOnly P c'') : c.NotesOnly P c'' := by
  intro e he
  rcases h' e he with he' | hP
  · exact h e he'
  · exact .inr hP

theorem record {event : Event} (h : ∀ e, e.NotedAt c start event → P e) :
    c.NotesOnly P (c.record start event) := by
  intro e he
  rw [entries_record, List.mem_append] at he
  rcases he with he | he
  · exact .inl he
  · split at he
    · rename_i henabled
      exact .inr (h e ⟨henabled, List.mem_singleton.1 he⟩)
    · cases he

end Cursor.NotesOnly

theorem Visits.with_slots {step inner : Step} {s s' : Session} {opened : List (List Value)}
    (h : Visits step ⟨s.cursor, []⟩ opened inner s') :
    ∃ s'', Visits step s opened inner s'' ∧ s''.cursor = s'.cursor := by
  cases h with
  | here => exact ⟨s, .here _ _, rfl⟩
  | steps hbefore hvisit => exact ⟨s', .steps hbefore hvisit, rfl⟩
  | list hcompleted hvisit => exact ⟨s', .list hcompleted hvisit, rfl⟩
  | listWith hcompleted hvisit => exact ⟨s', .listWith hcompleted hvisit, rfl⟩

namespace Step

variable {c : Cursor} {opened : List (List Value)} {e : Entry}

theorem Notes.itself {step : Step} (h : step.NotesItself c opened e) : step.Notes c opened e :=
  ⟨[], step, ⟨c, []⟩, opened, .here _ _, h, rfl⟩

theorem Notes.insideList {d : Delimiters} {element shape : Shape} {vs : List Value} {mid : Cursor}
    (hlist : Shape.Lists c d element shape) (hcompleted : Completed d element.read c vs mid)
    (h : Step.Notes (.read element) (mid.atElement d vs.length) opened e) :
    Step.Notes (.read shape) c (vs :: opened) e := by
  obtain ⟨outer, inner, s, own, hvisit, hown, rfl⟩ := h
  exact ⟨vs :: outer, inner, s, own, hlist.visits hcompleted hvisit, hown, rfl⟩

theorem Notes.insideSteps {before after : List Step} {step : Step} {vs : List Value}
    {mid : Session} (hbefore : runAll before ⟨c, []⟩ = .ok vs mid)
    (h : step.Notes mid.cursor opened e) :
    Step.Notes (.read (.steps (before ++ step :: after))) c opened e := by
  obtain ⟨outer, inner, s, own, hvisit, hown, rfl⟩ := h
  obtain ⟨s', hvisit', hs'⟩ := hvisit.with_slots
  rw [← hs'] at hown
  exact ⟨outer, inner, s', own, .steps hbefore hvisit', hown, rfl⟩

theorem AllNoted.insideList {d : Delimiters} {element shape : Shape} {vs : List Value}
    {mid : Cursor} (hlist : Shape.Lists c d element shape)
    (hcompleted : Completed d element.read c vs mid) (hall : AllNoted P (.read shape) c) :
    AllNoted P (.read element) (mid.atElement d vs.length) :=
  fun _ e h ↦ hall _ e (h.insideList hlist hcompleted)

theorem AllNoted.insideSteps {before after : List Step} {step : Step} {vs : List Value}
    {mid : Session} (hbefore : runAll before ⟨c, []⟩ = .ok vs mid)
    (hall : AllNoted P (.read (.steps (before ++ step :: after))) c) : step.AllNoted P mid.cursor :=
  fun _ e h ↦ hall _ e (h.insideSteps hbefore)

end Step

theorem Operation.notesOnly (op : Operation) {step : Step} (hop : step.operation? = some op)
    {c : Cursor} (h : step.AllNoted P c) : c.NotesOnly P (ending (op.run c)) := by
  by_cases htake : op = .takeLog
  · subst htake
    exact nofun
  · have hnotes := op.run_notes htake c
    intro e he
    rw [hnotes, List.mem_append] at he
    rcases he with he | he
    · exact .inl he
    · split at he
      · rename_i henabled
        obtain ⟨event, hevent, rfl⟩ := List.mem_map.1 he
        have hextracted := Option.mem_toList.1 hevent
        exact .inr (h _ _ (.itself (.operation hop hextracted ⟨henabled, rfl⟩)))
      · cases he

section Lists

variable {c mid : Cursor} {d : Delimiters} {element shape : Shape} {vs : List Value}
variable (hlist : Shape.Lists c d element shape) (hall : Step.AllNoted P (.read shape) c)
variable (hread : ∀ start, Step.AllNoted P (.read element) start →
  start.NotesOnly P (ending (element.read start)))
include hlist hall hread

theorem element_notesOnly (hcompleted : Completed d element.read c vs mid) :
    mid.NotesOnly P (ending (Scan.element d element.read vs.length mid)) := by
  have hstart : mid.NotesOnly P (mid.atElement d vs.length) :=
    .of_entries_eq (Cursor.entries_enter _ _)
  have hwithin := hread (mid.atElement d vs.length) (hall.insideList hlist hcompleted)
  cases hvalue : element.read (mid.atElement d vs.length) with
  | ok v next =>
    rw [hvalue] at hwithin
    rw [Scan.element_ok hvalue]
    have hbehind : next.NotesOnly P (next.record (mid.skipCopies d.padding) .listElement) :=
      .record fun e he ↦ hall _ e (.itself (.element hlist hcompleted hvalue he))
    have hleft := (hstart.trans hwithin).trans hbehind
    exact hleft.trans (.of_entries_eq (Cursor.entries_leave _))
  | error e next =>
    rw [hvalue] at hwithin
    rw [Scan.element_error hvalue]
    exact hstart.trans hwithin

theorem completed_notesOnly (hcompleted : Completed d element.read c vs mid) :
    c.NotesOnly P mid := by
  induction hcompleted with
  | none => exact .refl c
  | @more vs v mid next after hcompleted helement hsep ih =>
    have hnext := element_notesOnly hlist hall hread hcompleted
    rw [helement] at hnext
    have hafter : next.NotesOnly P after := by
      rw [Cursor.eq_of_consumeChar? hsep]
      refine .record fun e he ↦ hall _ e (.itself (.separator hlist hcompleted helement hsep ?_))
      refine ⟨he.enabled, ?_⟩
      rw [he.eq, Cursor.source_advance]
      rfl
    exact (ih.trans hnext).trans hafter

theorem atElement_notesOnly (hcompleted : Completed d element.read c vs mid) :
    c.NotesOnly P (mid.atElement d vs.length) :=
  (completed_notesOnly hlist hall hread hcompleted).trans
    (.of_entries_eq (Cursor.entries_enter _ _))

theorem readListWith_notesOnly :
    c.NotesOnly P (ending (Scan.readListWith d element.read c)) := by
  cases hvalues : Scan.readListWith d element.read c with
  | ok vs last =>
    obtain ⟨init, v, mid, -, hcompleted, helement, -⟩ :=
      Scan.of_elementsFrom_ok element.read_onward (Nat.le_refl _) .none hvalues
    have hlast := element_notesOnly hlist hall hread hcompleted
    rw [helement] at hlast
    exact (completed_notesOnly hlist hall hread hcompleted).trans hlast
  | error e last =>
    obtain ⟨vs, mid, hcompleted, helement⟩ :=
      Scan.of_elementsFrom_error element.read_onward (Nat.le_refl _) .none hvalues
    have hlast := element_notesOnly hlist hall hread hcompleted
    rw [helement] at hlast
    exact (completed_notesOnly hlist hall hread hcompleted).trans hlast

end Lists

section Steps

open Kept (Holds)

variable {start c : Cursor} {s : Session}

theorem Step.run_notesOnly {step : Step} (hall : step.AllNoted P s.cursor)
    (hread : ∀ shape, step = .read shape →
      s.cursor.NotesOnly P (ending (shape.read s.cursor)))
    (hs : Holds (Cursor.NotesOnly P) start s) :
    Holds (Cursor.NotesOnly P) start (ending (step.run s)) := by
  refine hs.step (fun op h ↦ ?_) (fun shape h ↦ hs.1.trans (hread shape h))
  subst h
  exact hs.1.trans (Operation.notesOnly op rfl hall)

theorem Step.runAll_concat {steps : List Step} {step : Step} {s mid last : Session}
    {vs : List Value} {v : Value} (h : Step.runAll steps s = .ok vs mid)
    (hstep : step.run mid = .ok v last) :
    Step.runAll (steps ++ [step]) s = .ok (vs ++ [v]) last := by
  induction steps generalizing s vs with
  | nil =>
    cases h
    simp only [List.nil_append, Step.runAll, hstep]
  | cons first rest ih =>
    obtain ⟨v', next, vs', hfirst, hrest, rfl⟩ := Step.of_runAll_cons_ok h
    simp only [List.cons_append, Step.runAll, hfirst, ih hrest]

/-- The induction is on the steps still to be taken. Where a reading comes to an inner step, not all
of its steps need have been taken. -/
theorem Step.runAll_notesOnly {steps before after : List Step} {vs : List Value} {mid : Session}
    (hbefore : Step.runAll before ⟨c, []⟩ = .ok vs mid) (hsteps : before ++ after <+: steps)
    (hall : Step.AllNoted P (.read (.steps steps)) c)
    (hread : ∀ shape, .read shape ∈ after → ∀ c, Step.AllNoted P (.read shape) c →
      c.NotesOnly P (ending (shape.read c)))
    (hmid : Holds (Cursor.NotesOnly P) start mid) :
    Holds (Cursor.NotesOnly P) start (ending (Step.runAll after mid)) := by
  induction after generalizing before vs mid with
  | nil => exact hmid
  | cons step rest ih =>
    have hstep : step.AllNoted P mid.cursor := by
      obtain ⟨further, rfl⟩ := hsteps
      rw [List.append_assoc] at hall
      exact hall.insideSteps hbefore
    have hnext := Step.run_notesOnly hstep
      (fun shape he ↦ hread shape (he ▸ List.mem_cons_self) _ (he ▸ hstep)) hmid
    rw [Step.ending_runAll_cons]
    cases hrun : step.run mid with
    | error e next => rwa [hrun] at hnext
    | ok v next =>
      rw [hrun] at hnext
      have hsteps' : before ++ [step] ++ rest <+: steps := by
        rwa [List.append_assoc]
      exact ih (Step.runAll_concat hbefore hrun) hsteps'
        (fun shape h ↦ hread shape (List.mem_cons_of_mem _ h)) hnext

theorem Shape.read_notesOnly {shape : Shape} (hall : Step.AllNoted P (.read shape) c) :
    c.NotesOnly P (ending (shape.read c)) := by
  induction shape generalizing c with
  | integer type => exact Operation.notesOnly (.readInteger type) rfl hall
  | word => exact Operation.notesOnly .readWord rfl hall
  | char => exact Operation.notesOnly .consumeNext rfl hall
  | list element ih =>
    simp only [Shape.read, ending_map]
    exact readListWith_notesOnly (.list element) hall fun _ ↦ ih
  | listWith d element ih =>
    simp only [Shape.read, ending_map]
    exact readListWith_notesOnly (.listWith d element) hall fun _ ↦ ih
  | steps steps ih =>
    simp only [Shape.read, ending_map, Session.ending_within]
    have hnone : Step.runAll [] ⟨c, []⟩ = .ok [] ⟨c, []⟩ := rfl
    exact (Step.runAll_notesOnly hnone List.prefix_rfl hall (fun shape h _ ↦ ih shape h)
      (.afresh (.refl c))).1

theorem Visits.notesOnly {step inner : Step} {s' : Session} {opened : List (List Value)}
    (h : Visits step s opened inner s') (hall : step.AllNoted P s.cursor)
    (hs : Holds (Cursor.NotesOnly P) start s) : Holds (Cursor.NotesOnly P) start s' := by
  induction h with
  | here => exact hs
  | @steps before after step inner s mid s' vs opened hbefore _ ih =>
    have hnone : Step.runAll [] ⟨s.cursor, []⟩ = .ok [] ⟨s.cursor, []⟩ := rfl
    have hmid := Step.runAll_notesOnly hnone (List.prefix_append before _) hall
      (fun shape _ c ↦ Shape.read_notesOnly) (.afresh hs.1)
    rw [hbefore] at hmid
    exact ih (hall.insideSteps hbefore) hmid
  | @list element inner s s' mid vs opened h _ ih =>
    have hlist : Shape.Lists s.cursor s.cursor.delimiters element (.list element) := .list element
    have hmid := atElement_notesOnly hlist hall (fun _ ↦ Shape.read_notesOnly) h
    exact ih (hall.insideList hlist h) (.afresh (hs.1.trans hmid))
  | @listWith d element inner s s' mid vs opened h _ ih =>
    have hlist : Shape.Lists s.cursor d element (.listWith d element) := .listWith d element
    have hmid := atElement_notesOnly hlist hall (fun _ ↦ Shape.read_notesOnly) h
    exact ih (hall.insideList hlist h) (.afresh (hs.1.trans hmid))

end Steps

theorem Reachable.notedUnder {settings : Settings} {t : Text} {s : Session}
    (h : Reachable settings t s) {e : Entry} (he : e ∈ s.cursor.journal.entries) :
    ∃ p, e.NotedUnder settings t p := by
  have hall {s : Session} (h : Reachable settings t s) (step : Step) :
      step.AllNoted (fun e ↦ ∃ p, e.NotedUnder settings t p) s.cursor :=
    fun opened e hnotes ↦ ⟨_, s, step, opened, h, hnotes, rfl⟩
  have hholds : Kept.Holds (Cursor.NotesOnly fun e ↦ ∃ p, e.NotedUnder settings t p)
      (.ofText settings t) s := by
    clear he
    induction h with
    | fresh => exact .afresh (.refl _)
    | @after s step hs ih =>
      refine Step.run_notesOnly (hall hs step) (fun shape hstep ↦ ?_) ih
      subst hstep
      exact Shape.read_notesOnly (hall hs _)
    | @inside step inner s s' opened hs hvisit ih => exact hvisit.notesOnly (hall hs step) ih
  exact (hholds.1 e he).resolve_left (by simp [Cursor.ofText, Journal.ofSettings])

end TextCursor
