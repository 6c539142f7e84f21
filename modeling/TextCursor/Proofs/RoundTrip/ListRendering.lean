import TextCursor.Proofs.Reading.ListLoop

namespace TextCursor

variable {α : Type}

/-- A list as it may be written: any number of paddings before each element, chosen anew each time,
and one separator between neighbours. -/
inductive ListRendering (d : Delimiters) (written : α → Text → Prop) : List α → Text → Prop
  | last (k : Nat) {a : α} {t : Text} :
      written a t → ListRendering d written [a] (List.replicate k d.padding ++ t)
  | more (k : Nat) {a : α} {t : Text} {as : List α} {ts : Text} :
      written a t → ListRendering d written as ts →
      ListRendering d written (a :: as) (List.replicate k d.padding ++ t ++ d.separator :: ts)

namespace ListRendering

variable {d : Delimiters} {written : α → Text → Prop} {as : List α} {t : Text}

theorem dropWhile {p : Char}
    (hdrop : ∀ {a t}, written a t → written a (t.dropWhile (· == p)) ∧ t.dropWhile (· == p) ≠ [])
    (h : ListRendering d written as t) :
    ListRendering d written as (t.dropWhile (· == p)) ∧ t.dropWhile (· == p) ≠ [] := by
  by_cases hp : d.padding = p
  · have hrun (k : Nat) (ts : Text) :
        (List.replicate k d.padding ++ ts).dropWhile (· == p) = ts.dropWhile (· == p) :=
      List.dropWhile_append_of_pos (by simp +contextual [hp])
    cases h with
    | @last k a t ha =>
      obtain ⟨ha', hne⟩ := hdrop ha
      rw [hrun]
      exact ⟨by simpa using ListRendering.last (d := d) 0 ha', hne⟩
    | @more k a t as ts ha has =>
      obtain ⟨ha', hne⟩ := hdrop ha
      rw [List.append_assoc, hrun, List.dropWhile_append, if_neg (by simpa using hne)]
      exact ⟨by simpa using ListRendering.more (d := d) 0 ha' has, by simp⟩
  · have hstop (k : Nat) (ts : Text) :
        (List.replicate (k + 1) d.padding ++ ts).dropWhile (· == p) =
          List.replicate (k + 1) d.padding ++ ts := by
      simp [List.replicate_succ, hp]
    cases h with
    | @last k a t ha =>
      cases k with
      | zero =>
        obtain ⟨ha', hne⟩ := hdrop ha
        exact ⟨.last 0 ha', hne⟩
      | succ k =>
        rw [hstop]
        exact ⟨.last (k + 1) ha, by simp⟩
    | @more k a t as ts ha has =>
      cases k with
      | zero =>
        obtain ⟨ha', hne⟩ := hdrop ha
        rw [List.dropWhile_append, if_neg (by simpa using hne)]
        exact ⟨.more 0 ha' has, by simp⟩
      | succ k =>
        rw [List.append_assoc, hstop, ← List.append_assoc]
        exact ⟨.more (k + 1) ha has, by simp⟩

end ListRendering

namespace Scan

variable {d configured : Delimiters} {written : α → Text → Prop} {read : Scan α}

/-- What is written in a way is read back, from cursors of the configured list form and where what
follows allows it. -/
def ReadsBack (configured : Delimiters) (written : α → Text → Prop) (follow : Text → Prop)
    (read : Scan α) : Prop :=
  ∀ {a : α} {t : Text} {c : Cursor} {rest : Text}, written a t → c.delimiters = configured →
    c.remaining = t ++ rest → follow rest → ∃ next, read c = .ok a next ∧ next.remaining = rest

theorem element_readsBack {follow : Text → Prop} (hread : ReadsBack configured written follow read)
    (hskip : ∀ {a t rest}, written a t → follow rest →
      ∃ t', written a t' ∧ (t ++ rest).dropWhile (· == d.padding) = t' ++ rest)
    {a : α} {t rest : Text} {k : Nat} (index : Nat) {c : Cursor} (ha : written a t)
    (hc : c.delimiters = configured) (hrem : c.remaining = List.replicate k d.padding ++ t ++ rest)
    (hrest : follow rest) :
    ∃ next, element d read index c = .ok a next ∧ next.remaining = rest := by
  obtain ⟨t', ha', hdrop⟩ := hskip ha hrest
  have hstart : ((c.skipCopies d.padding).enter index).remaining = t' ++ rest := by
    rw [Cursor.remaining_enter, Cursor.remaining_skipCopies, hrem, List.append_assoc,
      List.dropWhile_append_of_pos (by simp +contextual), hdrop]
  have hdelim : ((c.skipCopies d.padding).enter index).delimiters = configured := hc
  obtain ⟨next, hnext, hremaining⟩ := hread ha' hdelim hstart hrest
  refine ⟨_, element_ok hnext, ?_⟩
  rw [Cursor.remaining_leave, Cursor.remaining_record, hremaining]

theorem elementsFrom_readsBack {follow : Text → Prop}
    (honward : ∀ c : Cursor, c.Onward (ending (read c)))
    (hread : ReadsBack configured written follow read)
    (hskip : ∀ {a t rest}, written a t → follow rest →
      ∃ t', written a t' ∧ (t ++ rest).dropWhile (· == d.padding) = t' ++ rest)
    (hsep : ∀ rest, follow (d.separator :: rest)) {as : List α} {t rest : Text}
    (has : ListRendering d written as t) (hrest : follow rest)
    (hend : rest.head? ≠ some d.separator) (index : Nat) {c : Cursor}
    (hc : c.delimiters = configured) (hrem : c.remaining = t ++ rest) :
    ∃ next, elementsFrom d read c.remaining index c = .ok as next ∧ next.remaining = rest := by
  induction has generalizing index c with
  | last k ha =>
    obtain ⟨next, hnext, hnextrem⟩ := element_readsBack hread hskip index ha hc hrem hrest
    refine ⟨next, elementsFrom_last hnext ?_, hnextrem⟩
    rw [Cursor.consumeChar?_eq_none_iff, hnextrem]
    exact hend
  | more k ha has ih =>
    rw [List.append_assoc, List.cons_append] at hrem
    obtain ⟨next, hnext, hnextrem⟩ :=
      element_readsBack hread hskip index ha hc hrem (hsep _)
    obtain ⟨after, hafter, hafterrem⟩ := Cursor.consumeChar?_of_remaining hnextrem
    have hdelim : after.delimiters = configured := by
      rw [(Cursor.consumeChar?_onward hafter).delimiters,
        (element_onward honward hnext).delimiters, hc]
    obtain ⟨last, hlast, hlastrem⟩ := ih (index + 1) hdelim hafterrem
    exact ⟨last, elementsFrom_more honward (Nat.le_refl _) hnext hafter hlast, hlastrem⟩

end Scan

end TextCursor
