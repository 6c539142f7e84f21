import TextCursor.Proofs.Reading.Visit

namespace TextCursor

open Scan (Completed)

def Journal.keepsPath (j : Journal) : Bool :=
  j.enabled && j.tracksPath

theorem Journal.SameSettings.keepsPath {j j' : Journal} (h : j.SameSettings j') :
    j'.keepsPath = j.keepsPath := by
  rw [Journal.keepsPath, h.enabled, h.tracksPath]
  rfl

namespace Cursor

def path (c : Cursor) : Path :=
  c.journal.path

def keepsPath (c : Cursor) : Bool :=
  c.journal.keepsPath

theorem Onward.keepsPath {c c' : Cursor} (h : c.Onward c') : c'.keepsPath = c.keepsPath :=
  h.settings.keepsPath

theorem path_enter (index : Nat) (c : Cursor) :
    (c.enter index).path = c.path ++ if c.keepsPath then [index] else [] := by
  unfold enter Journal.enter path keepsPath Journal.keepsPath
  split <;> simp

theorem path_leave (c : Cursor) :
    c.leave.path = if c.keepsPath then c.path.dropLast else c.path := by
  unfold leave Journal.leave path keepsPath Journal.keepsPath
  split <;> rfl

end Cursor

theorem Operation.path_run (op : Operation) (c : Cursor) : (ending (op.run c)).path = c.path := by
  by_cases h : op = .takeLog
  · subst h
    rfl
  · have hmove := op.run_move h c
    generalize ending (op.run c) = c' at hmove
    cases hmove with
    | advance n => rfl
    | record n event => exact Cursor.path_record _ _ _

theorem Operation.entries_run {op : Operation} (h : op ≠ .takeLog) (c : Cursor) :
    ∃ noted, (ending (op.run c)).journal.entries = c.journal.entries ++ noted ∧
      ∀ e ∈ noted, e.path = if c.journal.tracksPath then some c.path else none := by
  have hmove := op.run_move h c
  generalize ending (op.run c) = c' at hmove
  cases hmove with
  | advance n => exact ⟨[], by simp⟩
  | record n event =>
    unfold Cursor.record
    split
    · exact ⟨[_], rfl, List.forall_mem_singleton.2 rfl⟩
    · exact ⟨[], by simp⟩

namespace Scan

variable {α : Type} {d : Delimiters} {read : Scan α}
variable (honward : ∀ c : Cursor, c.Onward (ending (read c)))
variable (hpath : ∀ {c next : Cursor} {a : α}, read c = .ok a next → next.path = c.path)
include honward hpath

theorem element_path {index : Nat} {c last : Cursor} {a : α}
    (h : element d read index c = .ok a last) : last.path = c.path := by
  obtain ⟨next, hnext, hlast⟩ := of_element_ok h
  have hkeep := (Cursor.skipCopies_onward d.padding c).trans (.enter index _)
  have hread := honward ((c.skipCopies d.padding).enter index)
  rw [hnext] at hread
  have hkeeps : (next.record (c.skipCopies d.padding) .listElement).keepsPath = c.keepsPath :=
    (hkeep.trans (hread.trans (.record _ _ _))).keepsPath
  have hrecord : (next.record (c.skipCopies d.padding) .listElement).path = next.path :=
    Cursor.path_record _ _ _
  have hskip : (c.skipCopies d.padding).path = c.path := rfl
  rw [hlast, Cursor.path_leave, hkeeps, hrecord, hpath hnext, Cursor.path_enter,
    (Cursor.skipCopies_onward d.padding c).keepsPath, hskip]
  split <;> simp

theorem completed_path {start c : Cursor} {as : List α} (h : Completed d read start as c) :
    c.path = start.path := by
  induction h with
  | none => rfl
  | @more as a c next after _ helement hsep ih =>
    have hafter : after.path = next.path := by
      have hrun := Operation.path_run (.tryConsumeChar d.separator) next
      simpa only [Operation.run, ending_map, attempt, hsep, Option.map_some, ending_ok] using hrun
    rw [hafter, element_path honward hpath helement, ih]

theorem elementsFrom_path {ahead : Text} {c last : Cursor} {as : List α}
    (hb : c.remaining.length ≤ ahead.length) (h : elementsFrom d read ahead 0 c = .ok as last) :
    last.path = c.path := by
  obtain ⟨init, a, mid, -, hmid, hlast, -⟩ := of_elementsFrom_ok honward hb .none h
  rw [element_path honward hpath hlast, completed_path honward hpath hmid]

end Scan

abbrev Session.HasPath (p : Path) (s : Session) : Prop :=
  s.cursor.path = p ∧ ∀ slot ∈ s.slots, slot.2.path = p

theorem Step.hasPath {step : Step}
    (hread : ∀ shape, step = .read shape → ∀ {c c' v}, shape.read c = .ok v c' → c'.path = c.path)
    {p : Path} {s s' : Session} {v : Value} (hs : s.HasPath p) (h : step.run s = .ok v s') :
    s'.HasPath p := by
  cases step with
  | perform op =>
    obtain ⟨hop, hslots⟩ := Session.of_scan_ok h
    have hpath := op.path_run s.cursor
    rw [hop] at hpath
    exact ⟨hpath.trans hs.1, hslots ▸ hs.2⟩
  | read shape =>
    obtain ⟨hshape, hslots⟩ := Session.of_scan_ok h
    exact ⟨(hread shape rfl hshape).trans hs.1, hslots ▸ hs.2⟩
  | save slot =>
    cases h
    exact ⟨hs.1, List.forall_mem_cons.2 ⟨hs.1, hs.2⟩⟩
  | restore slot =>
    cases h
    unfold Session.restore?
    cases hslot : s.slots.lookup slot with
    | none => exact hs
    | some saved => exact ⟨hs.2 _ (Session.mem_of_lookup hslot), hs.2⟩

theorem Step.runAll_hasPath {steps : List Step}
    (hread : ∀ shape, .read shape ∈ steps →
      ∀ {c c' v}, shape.read c = .ok v c' → c'.path = c.path)
    {p : Path} {s s' : Session} {vs : List Value} (hs : s.HasPath p)
    (h : Step.runAll steps s = .ok vs s') : s'.HasPath p := by
  induction steps generalizing s vs with
  | nil =>
    cases h
    exact hs
  | cons step rest ih =>
    obtain ⟨v, next, vs', hstep, hrest, -⟩ := Step.of_runAll_cons_ok h
    have hnext : next.HasPath p :=
      Step.hasPath (fun shape he ↦ hread shape (he ▸ List.mem_cons_self)) hs hstep
    exact ih (fun shape he ↦ hread shape (List.mem_cons_of_mem _ he)) hnext hrest

theorem Shape.read_path {shape : Shape} {c c' : Cursor} {v : Value}
    (h : shape.read c = .ok v c') : c'.path = c.path := by
  induction shape generalizing c c' v with
  | integer type =>
    have hpath := Operation.path_run (.readInteger type) c
    rwa [show (Operation.readInteger type).run c = .ok v c' from h] at hpath
  | word =>
    have hpath := Operation.path_run .readWord c
    rwa [show Operation.readWord.run c = .ok v c' from h] at hpath
  | char =>
    have hpath := Operation.path_run .consumeNext c
    rwa [show Operation.consumeNext.run c = .ok v c' from h] at hpath
  | list element ih | listWith d element ih =>
    obtain ⟨vs, hvs, -⟩ := Scan.of_map_ok h
    exact Scan.elementsFrom_path element.read_onward ih (Nat.le_refl _) hvs
  | steps steps ih =>
    obtain ⟨vs, hvs, -⟩ := Scan.of_map_ok h
    obtain ⟨s, hs, rfl⟩ := Session.of_within_ok hvs
    exact (Step.runAll_hasPath ih ⟨rfl, by simp⟩ hs).1

/-- The cursor with which the reading of the next element begins. -/
abbrev Cursor.atElement (d : Delimiters) (index : Nat) (c : Cursor) : Cursor :=
  (c.skipCopies d.padding).enter index

namespace Scan.Completed

variable {d : Delimiters} {element : Shape} {start c : Cursor} {vs : List Value}

theorem onward (h : Completed d element.read start vs c) : start.Onward c :=
  Cursor.Onward.kept.completed h

theorem onward_atElement (h : Completed d element.read start vs c) :
    start.Onward (c.atElement d vs.length) :=
  (h.onward.trans (Cursor.skipCopies_onward d.padding c)).trans (.enter _ _)

theorem path_atElement (h : Completed d element.read start vs c) :
    (c.atElement d vs.length).path =
      start.path ++ if start.keepsPath then [vs.length] else [] := by
  have honward := h.onward.trans (Cursor.skipCopies_onward d.padding c)
  have hskip : (c.skipCopies d.padding).path = c.path := rfl
  rw [Cursor.path_enter, honward.keepsPath, hskip,
    Scan.completed_path element.read_onward Shape.read_path h]

end Scan.Completed

/-- Where control comes to within a step, one index has been pushed for each list that is open. -/
theorem Visits.path {step inner : Step} {s s' : Session} {opened : List (List Value)}
    (h : Visits step s opened inner s') :
    s'.cursor.path =
      s.cursor.path ++ if s.cursor.keepsPath then opened.map List.length else [] := by
  induction h with
  | here step s => simp
  | @steps before after step inner s mid s' vs opened hbefore _ ih =>
    have hstart : Session.HasPath s.cursor.path ⟨s.cursor, []⟩ := ⟨rfl, by simp⟩
    have hpath := Step.runAll_hasPath (fun shape _ ↦ Shape.read_path) hstart hbefore
    have hkept : Kept.Holds Cursor.Onward s.cursor (ending (Step.runAll before ⟨s.cursor, []⟩)) :=
      Cursor.Onward.kept.steps (fun shape _ ↦ shape.read_onward) (.afresh (.refl _))
    have hkeeps : mid.cursor.keepsPath = s.cursor.keepsPath := by
      rw [hbefore] at hkept
      exact hkept.1.keepsPath
    rw [ih, hpath.1, hkeeps]
  | list hcompleted _ ih | listWith hcompleted _ ih =>
    rw [ih, hcompleted.path_atElement, hcompleted.onward_atElement.keepsPath]
    split <;> simp

theorem Cursor.kept_path :
    Kept fun c c' ↦ c'.keepsPath = c.keepsPath ∧ (c.keepsPath = false → c'.path = c.path) where
  refl c := ⟨rfl, fun _ ↦ rfl⟩
  trans h h' := ⟨h'.1.trans h.1, fun hoff ↦ (h'.2 (h.1.trans hoff)).trans (h.2 hoff)⟩
  run op c := ⟨(Cursor.Onward.of_run op c).keepsPath, fun _ ↦ op.path_run c⟩
  enter index c :=
    ⟨(Cursor.Onward.enter index c).keepsPath, fun hoff ↦ by rw [Cursor.path_enter, hoff]; simp⟩
  leave c := ⟨(Cursor.Onward.leave c).keepsPath, fun hoff ↦ by rw [Cursor.path_leave, hoff]; simp⟩
  record c start :=
    ⟨(Cursor.Onward.record c start _).keepsPath, fun _ ↦ Cursor.path_record _ _ _⟩

theorem Reachable.hasPath_nil {settings : Settings} {t : Text} {s : Session}
    (h : Reachable settings t s) (hoff : (settings.logging && settings.listPaths) = false) :
    s.HasPath [] := by
  obtain ⟨hcursor, hslots⟩ := Cursor.kept_path.reachable h
  exact ⟨hcursor.2 hoff, fun slot hslot ↦ (hslots slot hslot).2 hoff⟩

/-- The sessions between the steps of a run in which no reading of lists or of further steps has
failed. -/
inductive Undisturbed (settings : Settings) (t : Text) : Session → Prop
  | fresh : Undisturbed settings t ⟨.ofText settings t, []⟩
  | after {s : Session} (step : Step) :
      Undisturbed settings t s → (step.operation? = none → ∃ v s', step.run s = .ok v s') →
      Undisturbed settings t (ending (step.run s))

namespace Undisturbed

variable {settings : Settings} {t : Text} {s : Session}

theorem reachable (h : Undisturbed settings t s) : Reachable settings t s := by
  induction h with
  | fresh => exact .fresh
  | after step _ _ ih => exact ih.after step

theorem hasPath_nil (h : Undisturbed settings t s) : s.HasPath [] := by
  induction h with
  | fresh => exact ⟨rfl, by simp⟩
  | @after s step _ hcompletes ih =>
    cases hop : step.operation? with
    | none =>
      obtain ⟨v, s', hrun⟩ := hcompletes hop
      rw [hrun]
      exact Step.hasPath (fun shape _ ↦ Shape.read_path) ih hrun
    | some op =>
      rw [Step.run_operation hop, Session.ending_scan]
      exact ⟨(op.path_run s.cursor).trans ih.1, ih.2⟩

theorem entries_run (h : Undisturbed settings t s) {step inner : Step} {mid : Session}
    {op : Operation} (hvisit : Visits step s [] inner mid) (hop : op ≠ .takeLog) :
    ∃ noted, (ending (op.run mid.cursor)).journal.entries = mid.cursor.journal.entries ++ noted ∧
      ∀ e ∈ noted, e.path.map Path.render = if settings.listPaths then some ['$'] else none := by
  obtain ⟨noted, hentries, hnoted⟩ := Operation.entries_run hop mid.cursor
  refine ⟨noted, hentries, fun e he ↦ ?_⟩
  have hpath : mid.cursor.path = [] := by
    rw [hvisit.path, h.hasPath_nil.1]
    simp
  have htracks : mid.cursor.journal.tracksPath = settings.listPaths :=
    (Cursor.Onward.kept.reachable (h.reachable.inside hvisit)).1.settings.tracksPath
  rw [hnoted e he, hpath, htracks]
  split <;> rfl

end Undisturbed

/-- A reading that gives a value leaves the path as it was. One that fails leaves it longer by one
index for each list that is open then, and the index counts the elements completed in that list. -/
theorem index_path_balanced :
    (∀ (shape : Shape) (c c' : Cursor) (v : Value), shape.read c = .ok v c' → c'.path = c.path) ∧
    (∀ (shape : Shape) (c c' : Cursor) (e : Failure), shape.read c = .error e c' →
      ∃ opened inner s op, Visits (.read shape) ⟨c, []⟩ opened inner s ∧
        inner.operation? = some op ∧ s.cursor = c' ∧ op.run c' = .error e c' ∧
        c'.path = c.path ++ if c.keepsPath then opened.map List.length else []) ∧
    (∀ (settings : Settings) (t : Text) (s : Session), Reachable settings t s →
      (settings.logging && settings.listPaths) = false → s.HasPath []) ∧
    (∀ (settings : Settings) (t : Text) (s : Session), Undisturbed settings t s →
      ∀ (step inner : Step) (mid : Session) (op : Operation), Visits step s [] inner mid →
        inner.operation? = some op → op ≠ .takeLog →
        ∃ noted, (ending (op.run mid.cursor)).journal.entries =
            mid.cursor.journal.entries ++ noted ∧
          ∀ e ∈ noted, e.path.map Path.render =
            if settings.listPaths then some ['$'] else none) := by
  refine ⟨fun _ _ _ _ ↦ Shape.read_path, fun shape c c' e h ↦ ?_,
    fun _ _ _ ↦ Reachable.hasPath_nil, ?_⟩
  · obtain ⟨opened, inner, s, op, hvisit, hinner, hs, hop⟩ :=
      Shape.exists_visit_of_error (s := ⟨c, []⟩) h
    subst hs
    exact ⟨opened, inner, s, op, hvisit, hinner, rfl, hop, hvisit.path⟩
  · intro settings t s h step inner mid op hvisit _ hop
    exact h.entries_run hvisit hop

theorem index_path_balanced_grid :
    ∃ c' e opened inner s,
      (Shape.listWith ⟨';', ' '⟩ (.list (.integer .int64))).read
        (.ofText { logging := true, listPaths := true } ['1', ';', ' ', '2', ',', 'x']) =
          .error e c' ∧
      Visits (.read (.listWith ⟨';', ' '⟩ (.list (.integer .int64))))
        ⟨.ofText { logging := true, listPaths := true } ['1', ';', ' ', '2', ',', 'x'], []⟩
        opened inner s ∧
      s.cursor = c' ∧ c'.path = [1, 1] ∧ opened.map List.length = [1, 1] := by
  obtain ⟨c', e, herror, hpath⟩ : ∃ c' e,
      (Shape.listWith ⟨';', ' '⟩ (.list (.integer .int64))).read
        (.ofText { logging := true, listPaths := true } ['1', ';', ' ', '2', ',', 'x']) =
          .error e c' ∧ c'.path = [1, 1] := ⟨_, _, rfl, rfl⟩
  obtain ⟨opened, inner, s, op, hvisit, -, hs, -, hopened⟩ :=
    index_path_balanced.2.1 _ _ _ _ herror
  exact ⟨c', e, opened, inner, s, herror, hvisit, hs, hpath, hopened.symm.trans hpath⟩

end TextCursor
