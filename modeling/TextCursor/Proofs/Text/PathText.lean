import TextCursor.Journal
import TextCursor.Proofs.Text.Numeral

namespace TextCursor

theorem toDigits_inj {m n : Nat} (h : Nat.toDigits 10 m = Nat.toDigits 10 n) : m = n := by
  calc
    m = digitsValue 10 (Nat.toDigits 10 m) :=
      (digitsValue_toDigits (by decide) (by decide) m).symm
    _ = digitsValue 10 (Nat.toDigits 10 n) := by rw [h]
    _ = n := digitsValue_toDigits (by decide) (by decide) n

namespace Path

/-- An index in brackets, written as decimal numbers usually are. -/
def bracketed (index : Nat) : Text :=
  '[' :: (toString index).toList ++ [']']

def brackets (p : Path) : Text :=
  p.flatMap bracketed

theorem bracketed_eq (index : Nat) : bracketed index = '[' :: Nat.toDigits 10 index ++ [']'] := by
  simp [bracketed, toString]

theorem render_eq (p : Path) : p.render = '$' :: p.brackets := by
  simp only [brackets, funext bracketed_eq, render]

/-- The closing bracket tells where the digits of an index end. -/
theorem digits_run (index : Nat) (rest : Text) :
    Text.Run (· != ']') (Nat.toDigits 10 index ++ ']' :: rest) (Nat.toDigits 10 index)
      (']' :: rest) where
  eq := rfl
  all ch hch := by
    have hdigit := isDigit_of_mem_toDigits (by decide) (by decide) index ch hch
    rw [bne_iff_ne]
    intro h
    rw [h] at hdigit
    cases hdigit
  stops ch hch := by
    cases hch
    rfl

theorem bracketed_append_inj {i j : Nat} {rest rest' : Text}
    (h : bracketed i ++ rest = bracketed j ++ rest') : i = j ∧ rest = rest' := by
  simp only [bracketed_eq, List.cons_append, List.append_assoc, List.nil_append,
    List.cons.injEq, true_and] at h
  have hrun := digits_run i rest
  rw [h] at hrun
  obtain ⟨hdigits, hrest⟩ := hrun.unique (digits_run j rest')
  exact ⟨toDigits_inj hdigits, (List.cons.inj hrest).2⟩

theorem brackets_prefix_iff {p q : Path} : p.brackets <+: q.brackets ↔ p <+: q := by
  unfold brackets
  induction p generalizing q with
  | nil => simp only [List.flatMap_nil, List.nil_prefix]
  | cons i p ih =>
    cases q with
    | nil => simp [bracketed]
    | cons j q =>
      rw [List.flatMap_cons, List.flatMap_cons, List.cons_prefix_cons]
      constructor
      · intro ⟨behind, h⟩
        rw [List.append_assoc] at h
        obtain ⟨hindex, hrest⟩ := bracketed_append_inj h
        exact ⟨hindex, ih.1 ⟨behind, hrest⟩⟩
      · intro ⟨hindex, h⟩
        rw [hindex, List.prefix_append_right_inj]
        exact ih.2 h

theorem render_prefix_iff {p q : Path} : p.render <+: q.render ↔ p <+: q := by
  rw [render_eq, render_eq, List.cons_prefix_cons, brackets_prefix_iff]
  exact and_iff_right rfl

theorem render_inj {p q : Path} : p.render = q.render ↔ p = q := by
  constructor
  · intro h
    have hpq : p <+: q := render_prefix_iff.1 (h ▸ List.prefix_rfl)
    have hqp : q <+: p := render_prefix_iff.1 (h ▸ List.prefix_rfl)
    exact hpq.eq_of_length_le hqp.length_le
  · exact congrArg render

end Path

def Entry.pathText? (e : Entry) : Option Text :=
  e.path.map Path.render

theorem Entry.pathText?_eq_iff {e : Entry} {p : Path} :
    e.pathText? = some ('$' :: p.brackets) ↔ e.path = some p := by
  rw [← Path.render_eq, pathText?, Option.map_eq_some_iff]
  simp only [Path.render_inj, exists_eq_right]

end TextCursor
