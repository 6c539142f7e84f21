import TextCursor.Proofs.Walk.Basic

namespace TextCursor

open Scan (Completed)

namespace Shape.Lists

variable {c mid : Cursor} {d : Delimiters} {element shape : Shape} {vs : List Value}

theorem walk (h : Lists c d element shape) (vs : List Value) :
    shape.walk c.delimiters (.list vs) = Walk.list d element (element.walk c.delimiters) vs := by
  cases h <;> rfl

theorem openWalk (h : Lists c d element shape) (vs : List Value) (opened : List (List Value)) :
    shape.openWalk c.delimiters (vs :: opened) =
      Walk.openList d element (element.walk c.delimiters) vs ++
        Walk.inside vs.length (element.openWalk c.delimiters opened) := by
  cases h <;> rfl

theorem visits (h : Lists c d element shape) (hcompleted : Completed d element.read c vs mid)
    {opened : List (List Value)} {inner : Step} {s : Session}
    (hvisit : Visits (.read element) ⟨(mid.skipCopies d.padding).enter vs.length, []⟩ opened
      inner s) :
    Visits (.read shape) ⟨c, []⟩ (vs :: opened) inner s := by
  cases h with
  | list => exact .list hcompleted hvisit
  | listWith => exact .listWith hcompleted hvisit

end Shape.Lists

/-- Wherever a cursor comes to the place at which a value was read, it reads this value again. -/
theorem Shape.read_again {shape : Shape} (h : shape.IsPlain) {c next c' : Cursor} {v : Value}
    (hread : shape.read c = .ok v next) (hsource : c'.source = c.source)
    (hdelim : c'.delimiters = c.delimiters) (hoffset : c'.offset = c.offset) :
    ∃ last, shape.read c' = .ok v last := by
  have honward := shape.read_onward c
  rw [hread] at honward
  obtain ⟨t, -, ht⟩ := honward.exists_between
  have hrem := (Cursor.remaining_eq hsource hoffset).trans ht
  obtain ⟨last, hlast, -⟩ := Shape.read_exchange h hread ht hdelim hrem (.inr rfl)
  exact ⟨last, hlast⟩

section Elements

variable {c mid next : Cursor} {d : Delimiters} {element shape : Shape} {vs : List Value}

theorem Scan.Completed.path_shown (h : Completed d element.read c vs mid)
    (hon : c.journal.enabled = true) (htracks : c.journal.tracksPath = true) :
    (mid.atElement d vs.length).path = c.path ++ [vs.length] := by
  have hkeeps : c.keepsPath = true := by
    rw [Cursor.keepsPath, Journal.keepsPath, hon, htracks]
    rfl
  rw [h.path_atElement, if_pos hkeeps]

theorem Shape.BeginsAt.inside (hlist : Shape.Lists c d element shape)
    (h : Completed d element.read c vs mid) {p : Path} {inner : Shape} {position : Nat}
    (hbegins : element.BeginsAt (mid.atElement d vs.length) p inner position) :
    shape.BeginsAt c (vs.length :: p) inner position := by
  obtain ⟨opened, s, hvisit, hp, hs⟩ := hbegins
  exact ⟨vs :: opened, s, hlist.visits h hvisit, congrArg (vs.length :: ·) hp, hs⟩

theorem Shape.SeparatesAt.inside (hlist : Shape.Lists c d element shape)
    (h : Completed d element.read c vs mid) {p : Path} {ch : Char} {index position : Nat}
    (hseparates : element.SeparatesAt (mid.atElement d vs.length) p ch index position) :
    shape.SeparatesAt c (vs.length :: p) ch index position := by
  obtain ⟨opened, inner, s, d', element', hvisit, hp, hs⟩ := hseparates
  exact ⟨vs :: opened, inner, s, d', element', hlist.visits h hvisit,
    congrArg (vs.length :: ·) hp, hs⟩

theorem Landmark.StandsAt.inside (hlist : Shape.Lists c d element shape)
    (h : Completed d element.read c vs mid) {p : Path} {position : Nat} {mark : Landmark}
    (hstands : mark.StandsAt element (mid.atElement d vs.length) p position) :
    mark.StandsAt shape c (vs.length :: p) position := by
  have honward := h.onward_atElement
  cases mark with
  | integer type | word => exact Shape.BeginsAt.inside hlist h hstands
  | element inner v =>
    obtain ⟨hbegins, hagain⟩ := hstands
    refine ⟨hbegins.inside hlist h, fun start hsource hdelim ↦ ?_⟩
    exact hagain start (hsource.trans honward.source.symm) (hdelim.trans honward.delimiters.symm)
  | separator ch index => exact Shape.SeparatesAt.inside hlist h hstands

theorem Entry.Marks.inside (hlist : Shape.Lists c d element shape)
    (h : Completed d element.read c vs mid) (hon : c.journal.enabled = true) {p : Path}
    {mark : Landmark} {e : Entry}
    (hmarks : e.Marks element (mid.atElement d vs.length) (p, mark)) :
    e.Marks shape c (vs.length :: p, mark) where
  event := hmarks.event
  path := by
    rw [hmarks.path, h.onward_atElement.settings.tracksPath]
    split
    · rename_i htracks
      rw [h.path_shown hon htracks, List.append_assoc]
      rfl
    · rfl
  place := hmarks.place.inside hlist h

theorem marks_element (hplain : element.IsPlain) (hlist : Shape.Lists c d element shape)
    (h : Completed d element.read c vs mid) {v : Value}
    (hread : element.read (mid.atElement d vs.length) = .ok v next)
    (hon : c.journal.enabled = true) :
    (next.journal.entry next.source (mid.skipCopies d.padding).offset .listElement).Marks shape c
      ([vs.length], .element element v) where
  event := rfl
  path := by
    have honward := element.read_onward (mid.atElement d vs.length)
    rw [hread] at honward
    have htracks : next.journal.tracksPath = c.journal.tracksPath :=
      (h.onward_atElement.trans honward).settings.tracksPath
    have hpath : next.journal.path = (mid.atElement d vs.length).path := Shape.read_path hread
    simp only [Journal.entry, htracks, hpath]
    split
    · rename_i htracks
      rw [h.path_shown hon htracks]
    · rfl
  place := by
    have honward := h.onward_atElement
    refine ⟨⟨[vs], ⟨mid.atElement d vs.length, []⟩, hlist.visits h (.here _ _), rfl, rfl⟩, ?_⟩
    intro start hsource hdelim hoffset
    exact Shape.read_again hplain hread (hsource.trans honward.source.symm)
      (hdelim.trans honward.delimiters.symm) hoffset

theorem marks_separator (hlist : Shape.Lists c d element shape)
    (h : Completed d element.read c vs mid) {v : Value} {after : Cursor}
    (helement : Scan.element d element.read vs.length mid = .ok v next)
    (hsep : next.consumeChar? d.separator = some after) :
    ((next.advance 1).journal.entry (next.advance 1).source next.offset .literal).Marks shape c
      ([], .separator d.separator vs.length) where
  event := rfl
  path := by
    have honward := h.onward.trans (Scan.element_onward element.read_onward helement)
    have hpath : next.journal.path = c.path := by
      have hnext := Scan.element_path element.read_onward Shape.read_path helement
      exact hnext.trans (Scan.completed_path element.read_onward Shape.read_path h)
    simp only [Journal.entry, Cursor.journal_advance, honward.settings.tracksPath, hpath,
      List.append_nil]
  place := by
    have hnext : next.remaining.head? = some d.separator := by
      rw [Cursor.remaining_of_consumeChar? hsep]
      rfl
    exact ⟨[], shape, ⟨c, []⟩, d, element, .here _ _, rfl, hlist, rfl, vs, mid, v, next, h, rfl,
      helement, rfl, hnext⟩

theorem notes_inside (hlist : Shape.Lists c d element shape)
    (h : Completed d element.read c vs mid) {walk : Walk}
    (hnotes : (mid.atElement d vs.length).Notes
      (Entry.Marks element (mid.atElement d vs.length)) walk next) :
    mid.Notes (Entry.Marks shape c) (Walk.inside vs.length walk) next := by
  have hstart := h.onward_atElement
  have hmid := h.onward
  refine (hnotes.inside fun hon p m e ↦ Entry.Marks.inside hlist h ?_).of_start ?_ ?_
  · exact hstart.settings.enabled.symm.trans hon
  · exact Cursor.entries_enter _ _
  · exact hstart.settings.enabled.trans hmid.settings.enabled.symm

section Notes

variable (hplain : element.IsPlain) (hlist : Shape.Lists c d element shape)
variable (hnotes : ∀ {start next : Cursor} {v : Value}, element.read start = .ok v next →
  start.Notes (Entry.Marks element start) (element.walk start.delimiters v) next)
include hplain hlist hnotes

theorem element_notes {v : Value} (h : Completed d element.read c vs mid)
    (helement : Scan.element d element.read vs.length mid = .ok v next) :
    mid.Notes (Entry.Marks shape c)
      (Walk.element element (element.walk c.delimiters) vs.length v) next := by
  obtain ⟨last, hread, hnext⟩ := Scan.of_element_ok helement
  have hstart := h.onward_atElement
  have hlast := element.read_onward (mid.atElement d vs.length)
  rw [hread] at hlast
  have hmid : mid.journal.enabled = c.journal.enabled :=
    h.onward.settings.enabled
  have hwithin := hnotes hread
  rw [hstart.delimiters] at hwithin
  have hbehind : last.Notes (Entry.Marks shape c) [([vs.length], .element element v)]
      (last.record (mid.skipCopies d.padding) .listElement) := by
    refine .record fun hon ↦ marks_element hplain hlist h hread ?_
    exact (hstart.trans hlast).settings.enabled.symm.trans hon
  rw [hnext]
  refine ((notes_inside hlist h hwithin).append hbehind ?_).to_end (Cursor.entries_leave _)
  exact (hstart.trans hlast).settings.enabled.trans hmid.symm

theorem completed_notes (h : Completed d element.read c vs mid) :
    c.Notes (Entry.Marks shape c) (Walk.openList d element (element.walk c.delimiters) vs)
      mid := by
  induction h with
  | none => exact .of_entries_eq rfl
  | @more vs v mid next after hcompleted helement hsep ih =>
    have hmid := hcompleted.onward
    have hnext := hmid.trans (Scan.element_onward element.read_onward helement)
    have hseparator : next.Notes (Entry.Marks shape c) (Walk.separator d vs.length) after := by
      rw [Cursor.eq_of_consumeChar? hsep]
      exact .record fun _ ↦ marks_separator hlist hcompleted helement hsep
    have hbehind := (element_notes hplain hlist hnotes hcompleted helement).append hseparator
      (hnext.settings.enabled.trans hmid.settings.enabled.symm)
    rw [Walk.openList_concat]
    exact ih.append hbehind hmid.settings.enabled

theorem readListWith_notes {c' : Cursor} {vs : List Value}
    (h : Scan.readListWith d element.read c = .ok vs c') :
    c.Notes (Entry.Marks shape c) (shape.walk c.delimiters (.list vs)) c' := by
  obtain ⟨init, v, mid, rfl, hcompleted, helement, -⟩ :=
    Scan.of_elementsFrom_ok element.read_onward (Nat.le_refl _) .none h
  rw [hlist.walk, Walk.list_concat]
  exact (completed_notes hplain hlist hnotes hcompleted).append
    (element_notes hplain hlist hnotes hcompleted helement)
    hcompleted.onward.settings.enabled

theorem openElement_notes (h : Completed d element.read c vs mid) {opened : List (List Value)}
    (hwithin : (mid.atElement d vs.length).Notes
      (Entry.Marks element (mid.atElement d vs.length))
      (element.openWalk (mid.atElement d vs.length).delimiters opened) next) :
    c.Notes (Entry.Marks shape c) (shape.openWalk c.delimiters (vs :: opened)) next := by
  rw [h.onward_atElement.delimiters] at hwithin
  rw [hlist.openWalk]
  exact (completed_notes hplain hlist hnotes h).append (notes_inside hlist h hwithin)
    h.onward.settings.enabled

end Notes

end Elements

theorem Shape.BeginsAt.self (shape : Shape) (c : Cursor) : shape.BeginsAt c [] shape c.offset :=
  ⟨[], ⟨c, []⟩, .here _ _, rfl, rfl⟩

theorem record_notes {shape : Shape} {c : Cursor} {mark : Landmark} (n : Nat)
    (hstands : mark.StandsAt shape c [] c.offset) :
    c.Notes (Entry.Marks shape c) [([], mark)] ((c.advance n).record c mark.event) := by
  have hnotes : (c.advance n).Notes (Entry.Marks shape c) [([], mark)]
      ((c.advance n).record c mark.event) := by
    refine .record fun _ ↦ ⟨rfl, ?_, hstands⟩
    rw [List.append_nil]
    rfl
  exact hnotes.of_start rfl rfl

/-- A reading notes the walk through the value that it gives. -/
theorem Shape.read_notes {shape : Shape} (h : shape.IsPlain) {c c' : Cursor} {v : Value}
    (hread : shape.read c = .ok v c') :
    c.Notes (Entry.Marks shape c) (shape.walk c.delimiters v) c' := by
  induction shape generalizing c c' v with
  | integer type =>
    obtain ⟨n, hn, rfl⟩ := Scan.of_map_ok hread
    obtain ⟨count, rfl⟩ := Cursor.eq_of_readInteger?_ok (Scan.of_demandExcept_ok hn)
    exact record_notes count (.self _ c)
  | word =>
    obtain ⟨w, hw, rfl⟩ := Scan.of_map_ok hread
    cases hw
    obtain ⟨n, hn⟩ : ∃ n, c.readWord.2 = (c.advance n).recordText c .word c.readWord.1 := ⟨_, rfl⟩
    simp only [Shape.walk, hn, Cursor.recordText]
    split
    · exact .of_entries_eq rfl
    · exact record_notes n (.self _ c)
  | char =>
    obtain ⟨ch, hch, rfl⟩ := Scan.of_map_ok hread
    obtain ⟨_, -, hnext⟩ := Option.map_eq_some_iff.1 (Scan.of_demand_ok hch)
    cases hnext
    exact .of_entries_eq rfl
  | list element ih =>
    obtain ⟨vs, hvs, rfl⟩ := Scan.of_map_ok hread
    have hplain : element.IsPlain := h
    exact readListWith_notes hplain (.list element) (ih h) hvs
  | listWith d element ih =>
    obtain ⟨vs, hvs, rfl⟩ := Scan.of_map_ok hread
    have hplain : element.IsPlain := h
    exact readListWith_notes hplain (.listWith d element) (ih h) hvs
  | steps steps => exact h.elim

/-- Wherever control comes to within a reading, the elements and separators completed so far have
been noted. -/
theorem Visits.notes {shape : Shape} (h : shape.IsPlain) {c : Cursor} {inner : Step}
    {opened : List (List Value)} {s : Session}
    (hvisit : Visits (.read shape) ⟨c, []⟩ opened inner s) :
    c.Notes (Entry.Marks shape c) (shape.openWalk c.delimiters opened) s.cursor := by
  induction shape generalizing c opened with
  | integer type | word | char =>
    cases hvisit
    exact .of_entries_eq rfl
  | list element ih =>
    have hplain : element.IsPlain := h
    cases hvisit with
    | here => exact .of_entries_eq rfl
    | list hcompleted hwithin =>
      exact openElement_notes hplain (.list element) (Shape.read_notes hplain) hcompleted
        (ih hplain hwithin)
  | listWith d element ih =>
    have hplain : element.IsPlain := h
    cases hvisit with
    | here => exact .of_entries_eq rfl
    | listWith hcompleted hwithin =>
      exact openElement_notes hplain (.listWith d element) (Shape.read_notes hplain) hcompleted
        (ih hplain hwithin)
  | steps steps => exact h.elim

end TextCursor
