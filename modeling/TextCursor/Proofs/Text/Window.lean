import TextCursor.Text.Bytes
import TextCursor.Proofs.Text.Cut

namespace TextCursor.Text

/-- How a window of some width falls on a text that is cut in two. To the left of the cut it skips
the beginning, to the right it drops the end, and next to the cut it shows as many characters of
either side as it is wide, or all where there are not so many. -/
structure WindowOn (before after : Text) (width : Nat) (skipped left right dropped : Text) :
    Prop where
  before_eq : before = skipped ++ left
  after_eq : after = right ++ dropped
  length_left : left.length = min width before.length
  length_right : right.length = min width after.length

theorem exists_windowOn (before after : Text) (width : Nat) :
    ∃ skipped left right dropped, WindowOn before after width skipped left right dropped := by
  refine ⟨before.take (before.length - width), before.drop (before.length - width),
    after.take width, after.drop width, ?_⟩
  constructor
  · exact (List.take_append_drop _ _).symm
  · exact (List.take_append_drop _ _).symm
  · rw [List.length_drop]
    omega
  · rw [List.length_take]

namespace WindowOn

variable {before after skipped left right dropped : Text} {width : Nat}

section

variable (h : WindowOn before after width skipped left right dropped)
include h

theorem left_suffix : left <:+ before :=
  ⟨skipped, h.before_eq.symm⟩

theorem right_prefix : right <+: after :=
  ⟨dropped, h.after_eq.symm⟩

theorem window_eq : (before ++ after).window before.byteLength width = left ++ right := by
  have hleft : before.drop (before.length - width) = left := by
    have hlength : before.length - width = before.length - left.length := by
      rw [h.length_left]
      omega
    rw [hlength]
    exact (List.suffix_iff_eq_drop.1 h.left_suffix).symm
  have hright : after.take width = right := by
    rw [List.take_eq_take_min, ← h.length_right]
    exact (List.prefix_iff_eq_take.1 h.right_prefix).symm
  rw [window, splitAtByte_append]
  dsimp only
  rw [hleft, hright]

theorem length_shown :
    (left ++ right).length = min width before.length + min width after.length := by
  rw [List.length_append, h.length_left, h.length_right]

theorem slice?_eq :
    (before ++ after).slice? skipped.byteLength (skipped.byteLength + byteLength (left ++ right)) =
      some (left ++ right) := by
  have htext : before ++ after = skipped ++ ((left ++ right) ++ dropped) := by
    rw [h.before_eq, h.after_eq]
    simp only [List.append_assoc]
  rw [htext]
  exact slice?_append _ _ _

theorem shows_all (hwidth : max before.length after.length ≤ width) :
    left ++ right = before ++ after := by
  have hleft : left = before := by
    apply h.left_suffix.eq_of_length
    rw [h.length_left]
    omega
  have hright : right = after := by
    apply h.right_prefix.eq_of_length
    rw [h.length_right]
    omega
  rw [hleft, hright]

theorem widen {skipped' left' right' dropped' : Text} {wider : Nat}
    (h' : WindowOn before after wider skipped' left' right' dropped') (hle : width ≤ wider) :
    ∃ front back, left' ++ right' = front ++ (left ++ right) ++ back := by
  obtain ⟨front, hfront⟩ : left <:+ left' := by
    apply List.suffix_of_suffix_length_le h.left_suffix h'.left_suffix
    rw [h.length_left, h'.length_left]
    omega
  obtain ⟨back, hback⟩ : right <+: right' := by
    apply List.prefix_of_prefix_length_le h.right_prefix h'.right_prefix
    rw [h.length_right, h'.length_right]
    omega
  refine ⟨front, back, ?_⟩
  rw [← hfront, ← hback]
  simp only [List.append_assoc]

end

end WindowOn

end TextCursor.Text
