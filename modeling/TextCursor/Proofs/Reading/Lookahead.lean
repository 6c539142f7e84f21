import TextCursor.Proofs.Cursor.Numbers
import TextCursor.Proofs.Reading.FromText
import TextCursor.Proofs.Reading.ListLoop

namespace TextCursor

/-- The first text is empty, or it begins with the character that the second one begins with. -/
def BeginsLike (rest' rest : Text) : Prop :=
  rest' = [] ∨ rest'.head? = rest.head?

namespace BeginsLike

variable {rest' rest : Text}

theorem append (h : BeginsLike rest' rest) (t : Text) : BeginsLike (t ++ rest') (t ++ rest) := by
  cases t with
  | nil => exact h
  | cons ch t => exact .inr rfl

theorem of_head? {P : Char → Prop} (h : BeginsLike rest' rest) (hrest : ∀ ch ∈ rest.head?, P ch) :
    ∀ ch ∈ rest'.head?, P ch := by
  intro ch hch
  rcases h with h | h
  · simp [h] at hch
  · exact hrest ch (h ▸ hch)

end BeginsLike

theorem takeWhile_of_beginsLike {p : Char → Bool} {t rest rest' : Text}
    (h : (t ++ rest).dropWhile p = rest) (hlike : BeginsLike rest' rest) :
    (t ++ rest').takeWhile p = t ∧ (t ++ rest').dropWhile p = rest' := by
  have hrun := Text.Run.takeWhile p (t ++ rest)
  rw [h] at hrun
  have ht : t = (t ++ rest).takeWhile p := List.append_cancel_right hrun.eq
  rw [← ht] at hrun
  exact (Text.Run.mk rfl hrun.all (hlike.of_head? hrun.stops)).takeWhile_eq

namespace Scan

variable {α β : Type} {d : Delimiters} {read : Scan α}

/-- What a reading gives and how far it goes is settled by the text it consumes and the character
after that. -/
def LooksOneAhead (read : Scan α) : Prop :=
  ∀ {a : α} {c next c' : Cursor} {t rest' : Text}, read c = .ok a next →
    c.remaining = t ++ next.remaining → c'.delimiters = c.delimiters → c'.remaining = t ++ rest' →
    BeginsLike rest' next.remaining → ∃ next', read c' = .ok a next' ∧ next'.remaining = rest'

theorem LooksOneAhead.map (f : α → β) (h : LooksOneAhead read) : LooksOneAhead (f <$> read) := by
  intro b c next c' t rest' hread ht hd hrem hlike
  obtain ⟨a, ha, rfl⟩ := of_map_ok hread
  obtain ⟨next', hnext', hrem'⟩ := h ha ht hd hrem hlike
  exact ⟨next', map_ok hnext', hrem'⟩

theorem readInteger_looksOneAhead (type : IntegerType) : LooksOneAhead (readInteger type) := by
  intro v c next c' t rest' hread ht _ hrem hlike
  obtain ⟨sign, digits, hnumeral, hne, htakes, rfl⟩ :=
    Cursor.of_readInteger?_ok (of_demandExcept_ok hread)
  have htext : t = sign ++ digits := List.append_cancel_right (ht.symm.trans hnumeral.eq)
  have hnumeral' := hnumeral.append hne (hlike.of_head? hnumeral.stops)
  rw [← htext, ← hrem] at hnumeral'
  obtain ⟨next', hv', hrem'⟩ := Cursor.readInteger?_of_numeral hnumeral' hne htakes
  exact ⟨next', demandExcept_ok hv', hrem'⟩

theorem readWord_looksOneAhead : LooksOneAhead readWord := by
  intro word c next c' t rest' hread ht _ hrem hlike
  cases hread
  obtain ⟨hword, hnext⟩ := c.readWord_eq
  obtain ⟨hword', hnext'⟩ := c'.readWord_eq
  rw [ht] at hword hnext
  obtain ⟨hrun', hrest'⟩ := takeWhile_of_beginsLike hnext.symm hlike
  obtain ⟨hrun, -⟩ := takeWhile_of_beginsLike hnext.symm (.inr rfl)
  refine ⟨c'.readWord.2, ?_, by rw [hnext', hrem, hrest']⟩
  rw [hword, hrun, ← hrun', ← hrem, ← hword']
  rfl

theorem next_looksOneAhead : LooksOneAhead next := by
  intro ch c after c' t rest' hread ht _ hrem _
  have htext : t = [ch] := by
    rw [Cursor.remaining_of_next? (of_demand_ok hread)] at ht
    exact (List.append_cancel_right (ht : [ch] ++ _ = t ++ _)).symm
  rw [htext] at hrem
  obtain ⟨after', hnext', hrem'⟩ := Cursor.next?_of_remaining hrem
  exact ⟨after', demand_some hnext', hrem'⟩

theorem element_looksOneAhead (honward : ∀ c : Cursor, c.Onward (ending (read c)))
    (hread : LooksOneAhead read) (index : Nat) : LooksOneAhead (element d read index) := by
  intro a c last c' t rest' helement ht hd hrem hlike
  obtain ⟨next, hnext, hlast⟩ := of_element_ok helement
  have hlastrem : last.remaining = next.remaining := by
    rw [hlast, Cursor.remaining_leave, Cursor.remaining_record]
  rw [hlastrem] at ht hlike
  have hgo := honward ((c.skipCopies d.padding).enter index)
  rw [hnext] at hgo
  obtain ⟨own, -, hown⟩ := hgo.exists_between
  rw [Cursor.remaining_enter, Cursor.remaining_skipCopies, ending_ok, ht] at hown
  obtain ⟨run, hrun⟩ : ∃ run, t = run ++ own := by
    have hsplit :=
      List.takeWhile_append_dropWhile (p := (· == d.padding)) (l := t ++ next.remaining)
    rw [hown, ← List.append_assoc] at hsplit
    exact ⟨_, (List.append_cancel_right hsplit).symm⟩
  rw [hrun, List.append_assoc] at hown hrem
  have hskip := (takeWhile_of_beginsLike hown (hlike.append own)).2
  have hstart : ((c'.skipCopies d.padding).enter index).remaining = own ++ rest' := by
    rw [Cursor.remaining_enter, Cursor.remaining_skipCopies, hrem, hskip]
  have hstart₀ : ((c.skipCopies d.padding).enter index).remaining = own ++ next.remaining := by
    rw [Cursor.remaining_enter, Cursor.remaining_skipCopies, ht, hrun, List.append_assoc, hown]
  have hdelim : ((c'.skipCopies d.padding).enter index).delimiters =
      ((c.skipCopies d.padding).enter index).delimiters := hd
  obtain ⟨next', hnext', hrem'⟩ := hread hnext hstart₀ hdelim hstart hlike
  refine ⟨_, element_ok hnext', ?_⟩
  rw [Cursor.remaining_leave, Cursor.remaining_record, hrem']

theorem elementsFrom_looksOneAhead (honward : ∀ c : Cursor, c.Onward (ending (read c)))
    (hread : LooksOneAhead read) {ahead : Text} {index : Nat} {as : List α} {c last c' : Cursor}
    {t rest' : Text} (hb : c.remaining.length ≤ ahead.length)
    (h : elementsFrom d read ahead index c = .ok as last) (ht : c.remaining = t ++ last.remaining)
    (hd : c'.delimiters = c.delimiters) (hrem : c'.remaining = t ++ rest')
    (hlike : BeginsLike rest' last.remaining) :
    ∃ last', elementsFrom d read c'.remaining index c' = .ok as last' ∧
      last'.remaining = rest' := by
  fun_induction elementsFrom d read ahead index c generalizing as c' t with
  | case1 ahead index c e next he => cases h
  | case2 ahead index c a next he hsep =>
    cases h
    obtain ⟨next', he', hrem'⟩ := element_looksOneAhead honward hread index he ht hd hrem hlike
    refine ⟨next', elementsFrom_last he' ?_, hrem'⟩
    rw [Cursor.consumeChar?_eq_none_iff] at hsep ⊢
    rw [hrem']
    intro hhead
    exact hlike.of_head? (P := (· ≠ d.separator)) (fun ch hch he ↦ hsep (he ▸ hch)) _ hhead rfl
  | case3 index c a next he after hsep =>
    obtain ⟨_, _, hcons, -⟩ := exists_ahead honward hb he hsep
    cases hcons
  | case4 index c a next he after hsep _ ahead as last₀ hrest ih =>
    cases h
    obtain ⟨_, _, hcons, hle⟩ := exists_ahead honward hb he hsep
    cases hcons
    obtain ⟨first, -, hfirst⟩ := (element_onward honward he).exists_between
    obtain ⟨others, -, hothers⟩ := (elementsFrom_onward honward hrest).exists_between
    have hseprem := Cursor.remaining_of_consumeChar? hsep
    have htext : t = first ++ d.separator :: others := by
      rw [hfirst, hseprem, hothers, ← List.cons_append, ← List.append_assoc] at ht
      exact (List.append_cancel_right ht).symm
    rw [htext, List.append_assoc, List.cons_append] at hrem
    obtain ⟨next', he', hrem'⟩ := element_looksOneAhead honward hread index he hfirst hd hrem
      (.inr (by rw [hseprem]; rfl))
    obtain ⟨after', hsep', hafter'⟩ := Cursor.consumeChar?_of_remaining hrem'
    have hdelim : after'.delimiters = after.delimiters := by
      rw [(Cursor.consumeChar?_onward hsep').delimiters, (element_onward honward he').delimiters,
        hd, (Cursor.consumeChar?_onward hsep).delimiters, (element_onward honward he).delimiters]
    obtain ⟨last', hlast', hlastrem'⟩ := ih hle hrest hothers hdelim hafter'
    exact ⟨last', elementsFrom_more honward (Nat.le_refl _) he' hsep' hlast', hlastrem'⟩
  | case5 index c a next he after hsep _ ahead e last₀ hrest ih => cases h

end Scan

theorem Shape.read_looksOneAhead {shape : Shape} (h : shape.IsPlain) :
    Scan.LooksOneAhead shape.read := by
  induction shape with
  | integer type => exact Scan.LooksOneAhead.map _ (Scan.readInteger_looksOneAhead type)
  | word => exact Scan.LooksOneAhead.map _ Scan.readWord_looksOneAhead
  | char => exact Scan.LooksOneAhead.map _ Scan.next_looksOneAhead
  | list element ih =>
    refine Scan.LooksOneAhead.map _ ?_
    intro vs c next c' t rest' hread ht hd hrem hlike
    rw [Scan.readList, hd]
    exact Scan.elementsFrom_looksOneAhead element.read_onward (ih h) (Nat.le_refl _) hread ht hd
      hrem hlike
  | listWith d element ih =>
    refine Scan.LooksOneAhead.map _ ?_
    intro vs c next c' t rest' hread ht hd hrem hlike
    exact Scan.elementsFrom_looksOneAhead element.read_onward (ih h) (Nat.le_refl _) hread ht hd
      hrem hlike
  | steps => exact h.elim

theorem Shape.read_exchange {shape : Shape} (h : shape.IsPlain) {c next c' : Cursor} {v : Value}
    {t rest' : Text} (hread : shape.read c = .ok v next) (hc : c.remaining = t ++ next.remaining)
    (hd : c'.delimiters = c.delimiters) (hrem : c'.remaining = t ++ rest')
    (hlike : BeginsLike rest' next.remaining) :
    ∃ next', shape.read c' = .ok v next' ∧ next'.remaining = rest' ∧
      next'.consumed = c'.consumed ++ t := by
  obtain ⟨next', hread', hrem'⟩ := Shape.read_looksOneAhead h hread hc hd hrem hlike
  have honward := shape.read_onward c'
  rw [hread'] at honward
  exact ⟨next', hread', hrem', honward.consumed_eq (by rw [ending_ok, hrem', hrem])⟩

/-- A value is settled by its own text and the character after it, so that what was left over when a
whole text was read can be cut off. -/
theorem one_character_of_lookahead {shape : Shape} (h : shape.IsPlain) :
    (∀ {c next : Cursor} {v : Value} {t rest : Text}, c.remaining = t ++ rest →
      shape.read c = .ok v next → next.remaining = rest →
      ∀ {c' : Cursor} {rest' : Text}, c'.delimiters = c.delimiters → c'.remaining = t ++ rest' →
        (rest' = [] ∨ rest ≠ [] ∧ rest'.head? = rest.head?) →
        ∃ next', shape.read c' = .ok v next' ∧ next'.remaining = rest' ∧
          next'.consumed = c'.consumed ++ t) ∧
    (∀ {t surplus : Text} {p : Nat},
      shape.fromWholeText t = .ok (.error ⟨.trailingInput surplus, p⟩) →
      ∃ own v, t = own ++ surplus ∧ own.byteLength = p ∧ surplus ≠ [] ∧ shape.fromText t = .ok v ∧
        shape.fromWholeText own = .ok (.ok v)) := by
  constructor
  · intro c next v t rest hc hread hnext c' rest' hd hrem hlike
    subst hnext
    exact Shape.read_exchange h hread hc hd hrem (hlike.imp id And.right)
  · intro t surplus p hwhole
    obtain ⟨v, next, hread, hsurplus, hp, hne⟩ := Shape.of_fromWholeText_trailing hwhole
    have honward := shape.read_onward (.ofText {} t)
    rw [hread] at honward
    obtain ⟨own, hconsumed, hown⟩ := honward.exists_between
    rw [ending_ok] at hconsumed hown
    have hdelim : (Cursor.ofText {} own).delimiters = (Cursor.ofText {} t).delimiters := rfl
    have hrem : (Cursor.ofText {} own).remaining = own ++ [] := (List.append_nil own).symm
    obtain ⟨next', hread', hrem', -⟩ := Shape.read_exchange h hread hown hdelim hrem (.inl rfl)
    refine ⟨own, v, hsurplus ▸ hown, ?_, hne, Shape.fromText_of_read hread,
      Shape.fromWholeText_of_read hread' hrem'⟩
    rw [← hp, ← Cursor.byteLength_consumed, hconsumed]
    rfl

theorem one_character_of_lookahead_space :
    (Shape.commaList (.integer .int64)).IsPlain ∧
    (∃ next', (Shape.commaList (.integer .int64)).read (.ofText {} ['1', ',', '2', ' ', ',', '3']) =
        .ok (.list [.integer 1, .integer 2]) next' ∧ next'.remaining = [' ', ',', '3'] ∧
        next'.consumed = ['1', ',', '2']) ∧
    ∃ own v, ['1', ',', '2', ' ', 'x'] = own ++ [' ', 'x'] ∧ Text.byteLength own = 3 ∧
      [' ', 'x'] ≠ [] ∧
      (Shape.commaList (.integer .int64)).fromText ['1', ',', '2', ' ', 'x'] = .ok v ∧
      (Shape.commaList (.integer .int64)).fromWholeText own = .ok (.ok v) := by
  have hplain : (Shape.commaList (.integer .int64)).IsPlain := trivial
  obtain ⟨hlocal, hwhole⟩ := one_character_of_lookahead hplain
  refine ⟨hplain, ?_, hwhole rfl⟩
  exact @hlocal (.ofText {} ['1', ',', '2', ' ', 'x']) _ _ ['1', ',', '2'] [' ', 'x'] rfl rfl rfl
    (.ofText {} ['1', ',', '2', ' ', ',', '3']) [' ', ',', '3'] rfl rfl (.inr ⟨by decide, rfl⟩)

end TextCursor
