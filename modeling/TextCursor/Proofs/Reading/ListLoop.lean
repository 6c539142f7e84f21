import TextCursor.Proofs.Cursor.Consumption
import TextCursor.Proofs.Reading.Induction

namespace TextCursor.Scan

variable {α : Type} {d : Delimiters} {read : Scan α}

/-- Elements have been read one after another from `start`, each followed by the separator, and
another one is due. -/
inductive Completed (d : Delimiters) (read : Scan α) (start : Cursor) : List α → Cursor → Prop
  | none : Completed d read start [] start
  | more {as : List α} {a : α} {c next after : Cursor} :
      Completed d read start as c → element d read as.length c = .ok a next →
      next.consumeChar? d.separator = some after → Completed d read start (as ++ [a]) after

theorem element_ok {index : Nat} {c next : Cursor} {a : α}
    (h : read ((c.skipCopies d.padding).enter index) = .ok a next) :
    element d read index c = .ok a (next.record (c.skipCopies d.padding) .listElement).leave := by
  simp only [element, h]

theorem element_error {index : Nat} {c next : Cursor} {e : Failure}
    (h : read ((c.skipCopies d.padding).enter index) = .error e next) :
    element d read index c = .error e next := by
  simp only [element, h]

theorem of_element_ok {index : Nat} {c last : Cursor} {a : α}
    (h : element d read index c = .ok a last) :
    ∃ next, read ((c.skipCopies d.padding).enter index) = .ok a next ∧
      last = (next.record (c.skipCopies d.padding) .listElement).leave := by
  cases hread : read ((c.skipCopies d.padding).enter index) with
  | ok a' next =>
    rw [element_ok hread] at h
    cases h
    exact ⟨next, rfl, rfl⟩
  | error e next =>
    rw [element_error hread] at h
    cases h

theorem of_element_error {index : Nat} {c last : Cursor} {e : Failure}
    (h : element d read index c = .error e last) :
    read ((c.skipCopies d.padding).enter index) = .error e last := by
  cases hread : read ((c.skipCopies d.padding).enter index) with
  | ok a next =>
    rw [element_ok hread] at h
    cases h
  | error e' next =>
    rw [element_error hread] at h
    cases h
    rfl

theorem elementsFrom_error {ahead : Text} {index : Nat} {c next : Cursor} {e : Failure}
    (h : element d read index c = .error e next) :
    elementsFrom d read ahead index c = .error e next := by
  unfold elementsFrom
  simp only [h]

theorem elementsFrom_last {ahead : Text} {index : Nat} {c next : Cursor} {a : α}
    (h : element d read index c = .ok a next) (hsep : next.consumeChar? d.separator = none) :
    elementsFrom d read ahead index c = .ok [a] next := by
  unfold elementsFrom
  simp only [h, hsep]

theorem elementsFrom_cons {ch : Char} {ahead : Text} {index : Nat} {c next after : Cursor} {a : α}
    (h : element d read index c = .ok a next)
    (hsep : next.consumeChar? d.separator = some after) :
    elementsFrom d read (ch :: ahead) index c =
      match elementsFrom d read ahead (index + 1) after with
      | .ok as last => .ok (a :: as) last
      | .error e last => .error e last := by
  cases hrest : elementsFrom d read ahead (index + 1) after <;>
    simp only [elementsFrom, h, hsep, hrest]

section Onward

variable (hread : ∀ c : Cursor, c.Onward (ending (read c)))
include hread

theorem element_onward {index : Nat} {c next : Cursor} {a : α}
    (h : element d read index c = .ok a next) : c.Onward next := by
  have hnext := Cursor.Onward.kept.element hread (d := d) index c
  rwa [h] at hnext

theorem elementsFrom_onward {ahead : Text} {index : Nat} {c last : Cursor} {as : List α}
    (h : elementsFrom d read ahead index c = .ok as last) : c.Onward last := by
  have hlast := Cursor.Onward.kept.elementsFrom hread (d := d) ahead index c
  rwa [h] at hlast

theorem exists_ahead {ahead : Text} {index : Nat} {c next after : Cursor} {a : α}
    (hb : c.remaining.length ≤ ahead.length) (h : element d read index c = .ok a next)
    (hsep : next.consumeChar? d.separator = some after) :
    ∃ ch rest, ahead = ch :: rest ∧ after.remaining.length ≤ rest.length := by
  have hle := (element_onward hread h).length_remaining_le
  rw [Cursor.remaining_of_consumeChar? hsep, List.length_cons] at hle
  cases ahead with
  | nil =>
    simp only [List.length_nil] at hb
    omega
  | cons ch rest =>
    simp only [List.length_cons] at hb
    exact ⟨ch, rest, rfl, by omega⟩

/-- The bound on the elements is never met, so that any two bounds do as well. -/
theorem elementsFrom_congr {ahead ahead' : Text} {index : Nat} {c : Cursor}
    (hb : c.remaining.length ≤ ahead.length) (hb' : c.remaining.length ≤ ahead'.length) :
    elementsFrom d read ahead index c = elementsFrom d read ahead' index c := by
  fun_induction elementsFrom d read ahead index c generalizing ahead' with
  | case1 ahead index c e next h => exact (elementsFrom_error h).symm
  | case2 ahead index c a next h hsep => exact (elementsFrom_last h hsep).symm
  | case3 index c a next h after hsep =>
    obtain ⟨_, _, hcons, -⟩ := exists_ahead hread hb h hsep
    cases hcons
  | case4 index c a next h after hsep _ ahead as last hrest ih
  | case5 index c a next h after hsep _ ahead as last hrest ih =>
    obtain ⟨_, rest, hcons, hle⟩ := exists_ahead hread hb h hsep
    cases hcons
    obtain ⟨_, rest', hcons', hle'⟩ := exists_ahead hread hb' h hsep
    subst hcons'
    rw [elementsFrom_cons h hsep, ← ih hle hle', hrest]

theorem elementsFrom_more {ahead : Text} {index : Nat} {c next after last : Cursor} {a : α}
    {as : List α} (hb : c.remaining.length ≤ ahead.length)
    (h : element d read index c = .ok a next)
    (hsep : next.consumeChar? d.separator = some after)
    (hrest : elementsFrom d read after.remaining (index + 1) after = .ok as last) :
    elementsFrom d read ahead index c = .ok (a :: as) last := by
  obtain ⟨_, rest, hcons, hle⟩ := exists_ahead hread hb h hsep
  subst hcons
  rw [elementsFrom_cons h hsep, elementsFrom_congr hread hle (Nat.le_refl _), hrest]

theorem of_elementsFrom_ok {ahead : Text} {start c last : Cursor} {done as : List α}
    (hb : c.remaining.length ≤ ahead.length) (hdone : Completed d read start done c)
    (h : elementsFrom d read ahead done.length c = .ok as last) :
    ∃ init a mid, as = init ++ [a] ∧ Completed d read start (done ++ init) mid ∧
      element d read (done ++ init).length mid = .ok a last ∧
      last.consumeChar? d.separator = none := by
  generalize hi : done.length = index at h
  fun_induction elementsFrom d read ahead index c generalizing done as with
  | case1 ahead index c e next he => cases h
  | case2 ahead index c a next he hsep =>
    cases h
    exact ⟨[], a, c, rfl, by simpa using hdone, by simpa [hi] using he, hsep⟩
  | case3 index c a next he after hsep =>
    obtain ⟨_, _, hcons, -⟩ := exists_ahead hread hb he hsep
    cases hcons
  | case4 index c a next he after hsep _ ahead rest last' hrest ih =>
    cases h
    obtain ⟨_, _, hcons, hle⟩ := exists_ahead hread hb he hsep
    cases hcons
    subst hi
    obtain ⟨init, b, mid, has, hmid, hb, hnone⟩ := ih hle (hdone.more he hsep) (by simp) hrest
    exact ⟨a :: init, b, mid, by rw [has]; rfl, by simpa using hmid, by simpa using hb, hnone⟩
  | case5 index c a next he after hsep _ ahead e last' hrest ih => cases h

theorem of_elementsFrom_error {ahead : Text} {start c last : Cursor} {done : List α} {e : Failure}
    (hb : c.remaining.length ≤ ahead.length) (hdone : Completed d read start done c)
    (h : elementsFrom d read ahead done.length c = .error e last) :
    ∃ as mid, Completed d read start as mid ∧ element d read as.length mid = .error e last := by
  generalize hi : done.length = index at h
  fun_induction elementsFrom d read ahead index c generalizing done with
  | case1 ahead index c e' next he =>
    cases h
    exact ⟨done, c, hdone, by simpa [hi] using he⟩
  | case2 ahead index c a next he hsep => cases h
  | case3 index c a next he after hsep => cases h
  | case4 index c a next he after hsep _ ahead rest last' hrest ih => cases h
  | case5 index c a next he after hsep _ ahead e' last' hrest ih =>
    cases h
    obtain ⟨_, _, hcons, hle⟩ := exists_ahead hread hb he hsep
    cases hcons
    subst hi
    exact ih hle (hdone.more he hsep) (by simp) hrest

end Onward

end TextCursor.Scan
