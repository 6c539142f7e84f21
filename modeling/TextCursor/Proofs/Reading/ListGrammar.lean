import TextCursor.Proofs.Lockstep.SamePlace
import TextCursor.Proofs.Text.Run

namespace TextCursor

variable {α : Type}

/-- An element of a list as it stands in a text: the padding before it, its own text, and what it is
read as. -/
structure Piece (α : Type) where
  padding : Text
  own : Text
  value : α

namespace Piece

def text (p : Piece α) : Text :=
  p.padding ++ p.own

def listText (d : Delimiters) (pieces : List (Piece α)) : Text :=
  [d.separator].intercalate (pieces.map text)

theorem listText_cons (d : Delimiters) (p : Piece α) {pieces : List (Piece α)}
    (h : pieces ≠ []) : listText d (p :: pieces) = p.text ++ d.separator :: listText d pieces := by
  have hne : pieces.map text ≠ [] := by simpa using h
  rw [listText, List.map_cons, List.intercalate_cons_of_ne_nil hne, List.append_assoc]
  rfl

end Piece

def Cursor.between (before ahead : Text) (configured : Delimiters) (j : Journal) : Cursor :=
  ⟨before.reverse, ahead, configured, j⟩

/-- Elements as they stand in a list of a form, where each is read for itself: by a cursor that is
configured in some way and has whatever journal there is at the place. -/
structure ListGrammar (α : Type) where
  delimiters : Delimiters
  configured : Delimiters
  element : Scan α
  journals : Text → Journal

def ListGrammar.alone (G : ListGrammar α) (before ahead : Text) :
    EStateM.Result Failure Cursor α :=
  G.element (.between before ahead G.configured (G.journals before))

/-- Between `before` and `ahead` the piece can be read for itself, behind the whole run of padding,
and leaves `rest`. -/
structure Piece.StandsAhead (G : ListGrammar α) (before ahead rest : Text) (p : Piece α) :
    Prop where
  padding : Text.Run (· == G.delimiters.padding) ahead p.padding (p.own ++ rest)
  read : ∃ last, G.alone (before ++ p.padding) (p.own ++ rest) = .ok p.value last ∧
    last.remaining = rest

namespace ListGrammar

/-- From the place between `before` and `ahead` on, these pieces stand one after another, with a
separator between neighbours. What comes behind them is no separator, and is the outcome, or it is
an element that fails in this way. -/
inductive Derives (G : ListGrammar α) :
    Text → Text → List (Piece α) → Except Failure Text → Prop
  | failed {before ahead padding rest : Text} {e : Failure} {last : Cursor} :
      Text.Run (· == G.delimiters.padding) ahead padding rest →
      G.alone (before ++ padding) rest = .error e last → Derives G before ahead [] (.error e)
  | last {before ahead rest : Text} {p : Piece α} :
      p.StandsAhead G before ahead rest → rest.head? ≠ some G.delimiters.separator →
      Derives G before ahead [p] (.ok rest)
  | more {before ahead rest : Text} {p : Piece α} {pieces : List (Piece α)}
      {outcome : Except Failure Text} :
      p.StandsAhead G before ahead (G.delimiters.separator :: rest) →
      Derives G (before ++ (p.text ++ [G.delimiters.separator])) rest pieces outcome →
      Derives G before ahead (p :: pieces) outcome

inductive Tells (pieces : List (Piece α)) :
    Except Failure Text → EStateM.Result Failure Cursor (List α) → Prop
  | ok (last : Cursor) : Tells pieces (.ok last.remaining) (.ok (pieces.map Piece.value) last)
  | error (e : Failure) (last : Cursor) : Tells pieces (.error e) (.error e last)

theorem Tells.exists_ok {pieces : List (Piece α)} {rest : Text}
    {ended : EStateM.Result Failure Cursor (List α)} (h : Tells pieces (.ok rest) ended) :
    ∃ last, ended = .ok (pieces.map Piece.value) last ∧ last.remaining = rest := by
  cases h with
  | ok last => exact ⟨last, rfl, rfl⟩

end ListGrammar

namespace Cursor

variable {c : Cursor}

theorem samePlace_between (c : Cursor) (j : Journal) :
    c.SamePlace True False (.between c.consumed c.remaining c.delimiters j) :=
  ⟨List.reverse_reverse c.behind, rfl, fun _ ↦ rfl, False.elim⟩

theorem exists_padding (ch : Char) (c : Cursor) :
    ∃ padding, Text.Run (· == ch) c.remaining padding (c.skipCopies ch).remaining ∧
      (c.skipCopies ch).consumed = c.consumed ++ padding := by
  have hrun := Text.Run.takeWhile (· == ch) c.remaining
  rw [← remaining_skipCopies] at hrun
  exact ⟨_, hrun, (skipCopies_onward ch c).consumed_eq hrun.eq⟩

end Cursor

namespace Piece.StandsAhead

variable {G : ListGrammar α} {before ahead rest rest' : Text} {p p' : Piece α}

theorem eq (h : p.StandsAhead G before ahead rest) : ahead = p.text ++ rest := by
  rw [h.padding.eq, text, List.append_assoc]

theorem unique (h : p.StandsAhead G before ahead rest) (h' : p'.StandsAhead G before ahead rest') :
    p = p' ∧ rest = rest' := by
  obtain ⟨padding, own, value⟩ := p
  obtain ⟨padding', own', value'⟩ := p'
  obtain ⟨hpadding, hbehind⟩ := h.padding.unique h'.padding
  obtain ⟨last, hread, hlast⟩ := h.read
  obtain ⟨last', hread', hlast'⟩ := h'.read
  dsimp only at hpadding hbehind hread hread'
  subst hpadding
  rw [hbehind, hread'] at hread
  cases hread
  subst hlast hlast'
  rw [List.append_cancel_right hbehind]
  exact ⟨rfl, rfl⟩

theorem not_error (h : p.StandsAhead G before ahead rest) {padding behind : Text} {e : Failure}
    {last : Cursor} (hrun : Text.Run (· == G.delimiters.padding) ahead padding behind) :
    G.alone (before ++ padding) behind ≠ .error e last := by
  obtain ⟨hpadding, hbehind⟩ := h.padding.unique hrun
  obtain ⟨last', hread, -⟩ := h.read
  rw [← hpadding, ← hbehind, hread]
  nofun

end Piece.StandsAhead

namespace ListGrammar.Derives

variable {G : ListGrammar α} {before ahead : Text} {pieces pieces' : List (Piece α)}
variable {outcome outcome' : Except Failure Text}

theorem unique (h : G.Derives before ahead pieces outcome)
    (h' : G.Derives before ahead pieces' outcome') : pieces = pieces' ∧ outcome = outcome' := by
  induction h generalizing pieces' outcome' with
  | failed hrun herror =>
    cases h' with
    | failed hrun' herror' =>
      obtain ⟨hpadding, hrest⟩ := hrun.unique hrun'
      rw [hpadding, hrest, herror'] at herror
      cases herror
      exact ⟨rfl, rfl⟩
    | last hpiece | more hpiece => exact absurd herror (hpiece.not_error hrun)
  | last hpiece hend =>
    cases h' with
    | failed hrun herror => exact absurd herror (hpiece.not_error hrun)
    | last hpiece' =>
      obtain ⟨rfl, rfl⟩ := hpiece.unique hpiece'
      exact ⟨rfl, rfl⟩
    | more hpiece' =>
      obtain ⟨-, rfl⟩ := hpiece.unique hpiece'
      exact absurd rfl hend
  | more hpiece hmore ih =>
    cases h' with
    | failed hrun herror => exact absurd herror (hpiece.not_error hrun)
    | last hpiece' hend =>
      obtain ⟨-, rfl⟩ := hpiece.unique hpiece'
      exact absurd rfl hend
    | more hpiece' hmore' =>
      obtain ⟨rfl, hrest⟩ := hpiece.unique hpiece'
      cases hrest
      obtain ⟨rfl, rfl⟩ := ih hmore'
      exact ⟨rfl, rfl⟩

theorem text (h : G.Derives before ahead pieces outcome) {rest : Text} (ho : outcome = .ok rest) :
    ahead = Piece.listText G.delimiters pieces ++ rest ∧
      rest.head? ≠ some G.delimiters.separator := by
  induction h with
  | failed => cases ho
  | last hpiece hend =>
    cases ho
    rw [Piece.listText, List.map_singleton, List.intercalate_singleton]
    exact ⟨hpiece.eq, hend⟩
  | @more _ _ _ p pieces outcome hpiece hmore ih =>
    obtain ⟨hahead, hend⟩ := ih ho
    have hne : pieces ≠ [] := by
      rintro rfl
      subst ho
      cases hmore
    rw [hpiece.eq, hahead, Piece.listText_cons _ p hne, List.append_assoc, List.cons_append]
    exact ⟨rfl, hend⟩

end ListGrammar.Derives

namespace Scan

variable {d : Delimiters} {read : Scan α} {c last : Cursor} {index : Nat} {a : α} {e : Failure}
variable (hplace : ∀ {c c' : Cursor}, c.SamePlace True False c' →
  Alike Eq Eq (Cursor.SamePlace True False) (read c) (read c'))
include hplace

theorem exists_alone (index : Nat) (c : Cursor) :
    ∃ padding, Text.Run (· == d.padding) c.remaining padding (c.skipCopies d.padding).remaining ∧
      (c.skipCopies d.padding).consumed = c.consumed ++ padding ∧
      ∀ journals, Alike Eq Eq (Cursor.SamePlace True False)
        (read ((c.skipCopies d.padding).enter index))
        ((ListGrammar.mk d c.delimiters read journals).alone (c.consumed ++ padding)
          (c.skipCopies d.padding).remaining) := by
  obtain ⟨padding, hrun, hconsumed⟩ := c.exists_padding d.padding
  refine ⟨padding, hrun, hconsumed, fun journals ↦ ?_⟩
  apply hplace
  rw [← hconsumed]
  exact ((c.skipCopies d.padding).enter index).samePlace_between _

theorem exists_piece (honward : ∀ c : Cursor, c.Onward (ending (read c)))
    (h : element d read index c = .ok a last) :
    ∃ p : Piece α, p.value = a ∧ last.consumed = c.consumed ++ p.text ∧
      ∀ journals, p.StandsAhead (.mk d c.delimiters read journals) c.consumed c.remaining
        last.remaining := by
  obtain ⟨next, hnext, rfl⟩ := of_element_ok h
  obtain ⟨padding, hrun, hconsumed, halone⟩ := exists_alone (d := d) hplace index c
  have hgo := honward ((c.skipCopies d.padding).enter index)
  rw [hnext] at hgo
  obtain ⟨own, hbehind, hown⟩ := hgo.exists_between
  simp only [ending_ok, Cursor.remaining_enter, Cursor.consumed_enter] at hbehind hown
  simp only [Cursor.remaining_leave, Cursor.remaining_record, Cursor.consumed_leave,
    Cursor.consumed_record]
  refine ⟨⟨padding, own, a⟩, rfl, ?_, fun journals ↦ ⟨hown ▸ hrun, ?_⟩⟩
  · rw [hbehind, hconsumed, Piece.text, List.append_assoc]
  · obtain ⟨a', last', hlast', rfl, hsame⟩ := (halone journals).of_ok hnext
    rw [hown] at hlast'
    exact ⟨last', hlast', hsame.remaining⟩

theorem derives_of_error (h : element d read index c = .error e last) (journals : Text → Journal) :
    (ListGrammar.mk d c.delimiters read journals).Derives c.consumed c.remaining [] (.error e) := by
  obtain ⟨padding, hrun, -, halone⟩ := exists_alone (d := d) hplace index c
  obtain ⟨_, _, herror, rfl, -⟩ := (halone journals).of_error (of_element_error h)
  exact .failed hrun herror

/-- What the loop of a list goes through is derived from the grammar, whatever journals there are at
the places of its elements. -/
theorem exists_derivation (honward : ∀ c : Cursor, c.Onward (ending (read c))) {ahead : Text}
    (hb : c.remaining.length ≤ ahead.length) :
    ∃ (pieces : List (Piece α)) (outcome : Except Failure Text),
      (∀ journals, (ListGrammar.mk d c.delimiters read journals).Derives c.consumed c.remaining
        pieces outcome) ∧ ListGrammar.Tells pieces outcome (elementsFrom d read ahead index c) := by
  fun_induction elementsFrom d read ahead index c with
  | case1 ahead index c e last helement =>
    exact ⟨[], .error e, derives_of_error hplace helement, .error e last⟩
  | case2 ahead index c a last helement hsep =>
    obtain ⟨p, rfl, -, hpiece⟩ := exists_piece hplace honward helement
    have hend := Cursor.consumeChar?_eq_none_iff.1 hsep
    exact ⟨[p], .ok last.remaining, fun journals ↦ .last (hpiece journals) hend, .ok last⟩
  | case3 index c a next helement after hsep =>
    obtain ⟨_, _, hcons, -⟩ := exists_ahead honward hb helement hsep
    cases hcons
  | case4 index c a next helement after hsep _ ahead as last hrest ih
  | case5 index c a next helement after hsep _ ahead e last hrest ih =>
    obtain ⟨_, _, hcons, hle⟩ := exists_ahead honward hb helement hsep
    cases hcons
    obtain ⟨p, rfl, hconsumed, hpiece⟩ := exists_piece hplace honward helement
    obtain ⟨pieces, outcome, hderives, htells⟩ := ih hle
    have hahead := Cursor.remaining_of_consumeChar? hsep
    have hseparator : after.consumed = next.consumed ++ [d.separator] :=
      (Cursor.consumeChar?_onward hsep).consumed_eq hahead
    have hafter : after.consumed = c.consumed ++ (p.text ++ [d.separator]) := by
      rw [hseparator, hconsumed, List.append_assoc]
    have hdelim : after.delimiters = c.delimiters := by
      rw [(Cursor.consumeChar?_onward hsep).delimiters,
        (element_onward honward helement).delimiters]
    refine ⟨p :: pieces, outcome, fun journals ↦ .more (hahead ▸ hpiece journals) ?_, ?_⟩
    · rw [← hafter, ← hdelim]
      exact hderives journals
    · rw [hrest] at htells
      cases htells
      constructor

theorem derivation_of_list (honward : ∀ c : Cursor, c.Onward (ending (read c))) (d : Delimiters)
    (c : Cursor) :
    ∃ (pieces : List (Piece α)) (outcome : Except Failure Text),
      (∀ journals, (ListGrammar.mk d c.delimiters read journals).Derives c.consumed c.remaining
        pieces outcome) ∧ ListGrammar.Tells pieces outcome (readListWith d read c) :=
  exists_derivation hplace honward (Nat.le_refl _)

theorem tells_of_derives (honward : ∀ c : Cursor, c.Onward (ending (read c)))
    {journals : Text → Journal} {pieces : List (Piece α)} {outcome : Except Failure Text}
    (h : (ListGrammar.mk d c.delimiters read journals).Derives c.consumed c.remaining pieces
      outcome) : ListGrammar.Tells pieces outcome (readListWith d read c) := by
  obtain ⟨pieces', outcome', hderives, htells⟩ := derivation_of_list hplace honward d c
  obtain ⟨rfl, rfl⟩ := h.unique (hderives journals)
  exact htells

end Scan

/-- A list is read by its grammar and by nothing else. The text that a reading consumes falls apart
into pieces in one way only, and each element is what is read for itself at its place, whatever
journal is kept there. -/
theorem list_readings_follow_grammar {element : Shape}
    (htake : ¬ Step.Contains (.read element) (.perform .takeLog)) (d : Delimiters) (c : Cursor) :
    (∀ vs last, Scan.readListWith d element.read c = .ok vs last →
      ∃ pieces : List (Piece Value), pieces.map Piece.value = vs ∧
        c.remaining = Piece.listText d pieces ++ last.remaining ∧
        last.consumed = c.consumed ++ Piece.listText d pieces ∧
        last.remaining.head? ≠ some d.separator ∧
        ∀ journals pieces' outcome,
          (ListGrammar.mk d c.delimiters element.read journals).Derives c.consumed c.remaining
            pieces' outcome ↔ pieces' = pieces ∧ outcome = .ok last.remaining) ∧
    ∀ journals pieces outcome,
      (ListGrammar.mk d c.delimiters element.read journals).Derives c.consumed c.remaining pieces
        outcome → ListGrammar.Tells pieces outcome (Scan.readListWith d element.read c) := by
  have honward := element.read_onward
  have hplace {c c' : Cursor} (h : c.SamePlace True False c') :
      Alike Eq Eq (Cursor.SamePlace True False) (element.read c) (element.read c') :=
    h.read (fun ht ↦ absurd ht htake) fun _ _ ↦ trivial
  obtain ⟨pieces, outcome, hderives, htells⟩ := Scan.derivation_of_list hplace honward d c
  refine ⟨fun vs last hread ↦ ?_, fun journals pieces' outcome' h ↦ ?_⟩
  · rw [hread] at htells
    cases htells
    obtain ⟨htext, hend⟩ := (hderives fun _ ↦ c.journal).text rfl
    have hgo := Scan.elementsFrom_onward honward hread
    refine ⟨pieces, rfl, htext, hgo.consumed_eq htext, hend, ?_⟩
    intro journals pieces' outcome
    constructor
    · intro h
      exact h.unique (hderives journals)
    · rintro ⟨rfl, rfl⟩
      exact hderives journals
  · obtain ⟨rfl, rfl⟩ := h.unique (hderives journals)
    exact htells

def Shape.marked : Shape :=
  .steps [.read .char, .perform (.tryConsumeChar '!'), .perform .offset]

theorem list_readings_follow_grammar_marks :
    ¬ Step.Contains (.read .marked) (.perform .takeLog) ∧
      (∃ pieces last, Scan.readListWith ⟨';', ' '⟩ Shape.marked.read
          (.ofText {} ['a', '!', ';', ' ', 'b', '.']) = .ok (pieces.map Piece.value) last ∧
        ['a', '!', ';', ' ', 'b', '.'] = Piece.listText ⟨';', ' '⟩ pieces ++ ['.'] ∧
        ∀ journals, (ListGrammar.mk ⟨';', ' '⟩ {} Shape.marked.read journals).Derives []
          ['a', '!', ';', ' ', 'b', '.'] pieces (.ok ['.'])) ∧
      ∀ journals, (ListGrammar.mk ⟨';', ' '⟩ {} Shape.marked.read journals).Derives [] ['a', ';']
          [⟨[], ['a'], .list [.char 'a', .flag false, .count 1]⟩]
          (.error ⟨.unexpectedEnd 1 0, 2⟩) ∧
        ∃ last, Scan.readListWith ⟨';', ' '⟩ Shape.marked.read (.ofText {} ['a', ';']) =
          .error ⟨.unexpectedEnd 1 0, 2⟩ last := by
  have htake : ¬ Step.Contains (.read .marked) (.perform .takeLog) := by
    intro h
    cases h with
    | steps hmem hin =>
      simp only [List.mem_cons, List.not_mem_nil, or_false] at hmem
      rcases hmem with rfl | rfl | rfl <;> cases hin
  obtain ⟨vs, last, hread, hlast⟩ : ∃ vs last, Scan.readListWith ⟨';', ' '⟩ Shape.marked.read
      (.ofText {} ['a', '!', ';', ' ', 'b', '.']) = .ok vs last ∧ last.remaining = ['.'] :=
    ⟨_, _, rfl, rfl⟩
  refine ⟨htake, ?_, fun journals ↦ ?_⟩
  · obtain ⟨pieces, rfl, htext, -, -, hderives⟩ :=
      (list_readings_follow_grammar htake ⟨';', ' '⟩ _).1 vs last hread
    rw [hlast] at htext hderives
    exact ⟨pieces, last, hread, htext, fun journals ↦ (hderives journals _ _).2 ⟨rfl, rfl⟩⟩
  · have hfirst : Text.Run (· == ' ') ['a', ';'] [] ['a', ';'] := .takeWhile _ _
    have hnone : Text.Run (· == ' ') [] [] [] := .takeWhile _ _
    have hderives : (ListGrammar.mk ⟨';', ' '⟩ {} Shape.marked.read journals).Derives [] ['a', ';']
        [⟨[], ['a'], .list [.char 'a', .flag false, .count 1]⟩]
        (.error ⟨.unexpectedEnd 1 0, 2⟩) :=
      .more ⟨hfirst, _, rfl, rfl⟩ (.failed hnone rfl)
    have htells := (list_readings_follow_grammar htake ⟨';', ' '⟩ (.ofText {} ['a', ';'])).2 _ _ _
      hderives
    generalize Scan.readListWith _ _ _ = ended at htells
    cases htells
    exact ⟨hderives, _, rfl⟩

end TextCursor
