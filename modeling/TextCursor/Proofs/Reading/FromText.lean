import TextCursor.Shape.FromText
import TextCursor.Proofs.Cursor.Onward

namespace TextCursor.Shape

variable {shape : Shape} {t : Text} {v : Value} {next : Cursor}

theorem fromText_of_read (h : shape.read (.ofText {} t) = .ok v next) :
    shape.fromText t = .ok v := by
  simp only [fromText, h]

theorem fromWholeText_of_read (h : shape.read (.ofText {} t) = .ok v next)
    (hnext : next.remaining = []) : shape.fromWholeText t = .ok (.ok v) := by
  simp only [fromWholeText, h, Cursor.isDone, hnext, List.isEmpty_nil, if_true]

theorem of_fromWholeText_surplus {e : Failure} (h : shape.fromWholeText t = .ok (.error e)) :
    ∃ v next, shape.read (.ofText {} t) = .ok v next ∧ next.remaining ≠ [] ∧
      e = ⟨.trailingInput next.remaining, next.offset⟩ := by
  unfold fromWholeText at h
  split at h
  · rename_i v next hread
    cases hdone : next.isDone with
    | true => simp [hdone] at h
    | false =>
      simp only [hdone, Bool.false_eq_true, if_false, Except.ok.injEq, Except.error.injEq] at h
      exact ⟨v, next, hread, by simpa [Cursor.isDone] using hdone, h.symm⟩
  · cases h

theorem of_fromWholeText_trailing {surplus : Text} {p : Nat}
    (h : shape.fromWholeText t = .ok (.error ⟨.trailingInput surplus, p⟩)) :
    ∃ v next, shape.read (.ofText {} t) = .ok v next ∧ next.remaining = surplus ∧
      next.offset = p ∧ surplus ≠ [] := by
  obtain ⟨v, next, hread, hne, he⟩ := of_fromWholeText_surplus h
  cases he
  exact ⟨v, next, hread, rfl, rfl, hne⟩

theorem of_fromWholeText_error {e : Failure} (h : shape.fromWholeText t = .error e) :
    ∃ last, shape.read (.ofText {} t) = .error e last := by
  unfold fromWholeText at h
  split at h
  · cases h
  · cases h
    exact ⟨_, ‹_›⟩

end TextCursor.Shape
