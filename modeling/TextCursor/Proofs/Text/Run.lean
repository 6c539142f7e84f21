import TextCursor.Text.Bytes

namespace TextCursor

/-- The text begins with a run of characters of some kind, which goes on for as long as it can. -/
structure Text.Run (p : Char → Bool) (t run rest : Text) : Prop where
  eq : t = run ++ rest
  all : ∀ ch ∈ run, p ch = true
  stops : ∀ ch ∈ rest.head?, p ch = false

namespace Text.Run

variable {p : Char → Bool} {t run run' rest rest' : Text}

theorem takeWhile (p : Char → Bool) (t : Text) : Run p t (t.takeWhile p) (t.dropWhile p) where
  eq := List.takeWhile_append_dropWhile.symm
  all := List.all_eq_true.1 List.all_takeWhile
  stops ch hch := by
    have hhead := List.head?_dropWhile_not p t
    rw [hch] at hhead
    simpa using hhead

theorem takeWhile_eq (h : Run p t run rest) : t.takeWhile p = run ∧ t.dropWhile p = rest := by
  rw [h.eq, List.takeWhile_append_of_pos h.all, List.dropWhile_append_of_pos h.all]
  cases rest with
  | nil => simp
  | cons ch rest =>
    have hch := h.stops ch rfl
    simp [hch]

theorem unique (h : Run p t run rest) (h' : Run p t run' rest') : run = run' ∧ rest = rest' :=
  ⟨h.takeWhile_eq.1.symm.trans h'.takeWhile_eq.1, h.takeWhile_eq.2.symm.trans h'.takeWhile_eq.2⟩

theorem longest (h : Run p t run rest) {front : Text} (hfront : front <+: t)
    (hall : ∀ ch ∈ front, p ch = true) : front <+: run := by
  obtain ⟨behind, rfl⟩ := hfront
  rw [← h.takeWhile_eq.1, List.takeWhile_append_of_pos hall]
  exact List.prefix_append _ _

end Text.Run

/-- A number at the start of a text: what `front` finds there, and behind it a run of digits. -/
structure Text.Numeral (front : Text → Text) (p : Char → Bool) (t lead digits rest : Text) :
    Prop where
  lead_eq : lead = front t
  eq : t = lead ++ digits ++ rest
  all : ∀ ch ∈ digits, p ch = true
  stops : ∀ ch ∈ rest.head?, p ch = false

theorem Text.Numeral.unique {front : Text → Text} {p : Char → Bool}
    {t lead lead' digits digits' rest rest' : Text} (h : Numeral front p t lead digits rest)
    (h' : Numeral front p t lead' digits' rest') :
    lead' = lead ∧ digits' = digits ∧ rest' = rest := by
  obtain rfl : lead' = lead := h'.lead_eq.trans h.lead_eq.symm
  have hbehind : digits' ++ rest' = digits ++ rest := by
    apply List.append_cancel_left
    rw [← List.append_assoc, ← List.append_assoc, ← h'.eq, h.eq]
  exact ⟨rfl, (Text.Run.mk rfl h'.all h'.stops).unique ⟨hbehind, h.all, h.stops⟩⟩

end TextCursor
