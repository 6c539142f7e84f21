import TextCursor.Proofs.Reading.ListGrammar
import TextCursor.Proofs.Reading.Lookahead

namespace TextCursor

variable {α : Type}

structure Piece.Repads (d : Delimiters) (p p' : Piece α) : Prop where
  padding : ∀ ch ∈ p'.padding, ch = d.padding
  own : p'.own = p.own
  value : p'.value = p.value

theorem Piece.values_of_repads {d : Delimiters} {pieces pieces' : List (Piece α)}
    (h : List.Forall₂ (Piece.Repads d) pieces pieces') :
    pieces'.map Piece.value = pieces.map Piece.value := by
  induction h with
  | nil => rfl
  | cons hp _ ih => rw [List.map_cons, List.map_cons, hp.value, ih]

variable {G : ListGrammar α} {before ahead rest rest' : Text}

/-- The run of padding ends before the element's own text, or before what follows it where it has
none, and of that only the first character counts. -/
theorem Piece.StandsAhead.repad {p p' : Piece α} (hlocal : Scan.LooksOneAhead G.element)
    (h : p.StandsAhead G before ahead rest) (hp : p.Repads G.delimiters p')
    (hlike : BeginsLike rest' rest) (before' : Text) :
    p'.StandsAhead G before' (p'.text ++ rest') rest' := by
  obtain ⟨last, hread, rfl⟩ := h.read
  have hahead : p'.text ++ rest' = p'.padding ++ (p'.own ++ rest') := List.append_assoc _ _ _
  refine ⟨⟨hahead, ?_, ?_⟩, ?_⟩
  · intro ch hch
    rw [beq_iff_eq]
    exact hp.padding ch hch
  · rw [hp.own]
    exact (hlike.append p.own).of_head? h.padding.stops
  · rw [hp.own, hp.value]
    exact hlocal hread rfl rfl rfl hlike

theorem ListGrammar.Derives.repad {pieces pieces' : List (Piece α)}
    {outcome : Except Failure Text} (hlocal : Scan.LooksOneAhead G.element)
    (h : G.Derives before ahead pieces outcome) (ho : outcome = .ok rest)
    (hpieces : List.Forall₂ (Piece.Repads G.delimiters) pieces pieces') (before' : Text) :
    G.Derives before' (Piece.listText G.delimiters pieces' ++ rest) pieces' (.ok rest) := by
  induction h generalizing pieces' before' with
  | failed => cases ho
  | last hpiece hend =>
    cases ho
    obtain ⟨p', _, hp, hnil, rfl⟩ := List.forall₂_cons_left_iff.1 hpieces
    obtain rfl := List.forall₂_nil_left_iff.1 hnil
    rw [Piece.listText, List.map_singleton, List.intercalate_singleton]
    exact .last (hpiece.repad hlocal hp (.inr rfl) before') hend
  | @more _ _ _ p pieces outcome hpiece hmore ih =>
    obtain ⟨p', rest', hp, hrest, rfl⟩ := List.forall₂_cons_left_iff.1 hpieces
    have hne : rest' ≠ [] := by
      rintro rfl
      obtain rfl := List.forall₂_nil_right_iff.1 hrest
      subst ho
      cases hmore
    rw [Piece.listText_cons _ p' hne, List.append_assoc, List.cons_append]
    apply ListGrammar.Derives.more
    · apply hpiece.repad hlocal hp
      exact .inr rfl
    · exact ih ho hrest _

theorem Shape.IsPlain.not_contains_perform {shape : Shape} (h : shape.IsPlain) (op : Operation) :
    ¬ Step.Contains (.read shape) (.perform op) := by
  intro hin
  induction shape with
  | integer | word | char => cases hin
  | list element ih =>
    cases hin with
    | list hin => exact ih h hin
  | listWith d element ih =>
    cases hin with
    | listWith hin => exact ih h hin
  | steps => exact h.elim

/-- How much padding there is does not matter. What a list reading consumes falls apart in one way
into elements and runs of padding; with any other runs the same list is read and the same text is
left. -/
theorem padding_counts_do_not_matter {element : Shape} (hplain : element.IsPlain) (d : Delimiters)
    {c last : Cursor} {vs : List Value} (hread : Scan.readListWith d element.read c = .ok vs last) :
    ∃ pieces : List (Piece Value), pieces.map Piece.value = vs ∧
      c.remaining = Piece.listText d pieces ++ last.remaining ∧
      (∀ journals pieces' outcome,
        (ListGrammar.mk d c.delimiters element.read journals).Derives c.consumed c.remaining
          pieces' outcome ↔ pieces' = pieces ∧ outcome = .ok last.remaining) ∧
      ∀ pieces', List.Forall₂ (Piece.Repads d) pieces pieces' →
        ∀ c' : Cursor, c'.delimiters = c.delimiters →
          c'.remaining = Piece.listText d pieces' ++ last.remaining →
          ∃ last', Scan.readListWith d element.read c' = .ok vs last' ∧
            last'.remaining = last.remaining ∧
            last'.consumed = c'.consumed ++ Piece.listText d pieces' := by
  have honward := element.read_onward
  have hplace {c c' : Cursor} (h : c.SamePlace True False c') :
      Alike Eq Eq (Cursor.SamePlace True False) (element.read c) (element.read c') :=
    h.read (fun ht ↦ absurd ht (hplain.not_contains_perform .takeLog)) fun _ _ ↦ trivial
  obtain ⟨pieces, outcome, hderives, htells⟩ := Scan.derivation_of_list hplace honward d c
  rw [hread] at htells
  cases htells
  refine ⟨pieces, rfl, ((hderives fun _ ↦ c.journal).text rfl).1, ?_, ?_⟩
  · intro journals pieces' outcome
    constructor
    · intro h
      exact h.unique (hderives journals)
    · rintro ⟨rfl, rfl⟩
      exact hderives journals
  · intro pieces' hpieces c' hdelim hc'
    have hrepadded : (ListGrammar.mk d c'.delimiters element.read fun _ ↦ c.journal).Derives
        c'.consumed c'.remaining pieces' (.ok last.remaining) := by
      rw [hdelim, hc']
      exact (hderives fun _ ↦ c.journal).repad (Shape.read_looksOneAhead hplain) rfl hpieces _
    obtain ⟨last', hread', hlast'⟩ := (Scan.tells_of_derives hplace honward hrepadded).exists_ok
    have hgo := Scan.elementsFrom_onward honward hread'
    rw [Piece.values_of_repads hpieces] at hread'
    refine ⟨last', hread', hlast', hgo.consumed_eq ?_⟩
    rw [hlast', hc']

theorem padding_counts_do_not_matter_blanks :
    (Shape.list .char).IsPlain ∧
      ∃ last last' : Cursor, ∃ vs,
        Scan.readListWith ⟨';', ' '⟩ (Shape.list .char).read
          (.ofText { delimiters := ⟨' ', '_'⟩ }
            [' ', '_', 'a', ' ', '_', '_', 'b', ';', 'c', '.']) = .ok vs last ∧
        vs = [.list [.char 'a', .char 'b'], .list [.char 'c']] ∧
        Scan.readListWith ⟨';', ' '⟩ (Shape.list .char).read
          ((Cursor.ofText { delimiters := ⟨' ', '_'⟩ }
            ['é', '_', 'a', ' ', '_', '_', 'b', ';', ' ', ' ', 'c', '.']).advance 1) =
          .ok vs last' ∧
        last'.remaining = ['.'] ∧ last'.offset = 12 := by
  have hplain : (Shape.list .char).IsPlain := trivial
  obtain ⟨last, hread, hlast⟩ : ∃ last, Scan.readListWith ⟨';', ' '⟩ (Shape.list .char).read
      (.ofText { delimiters := ⟨' ', '_'⟩ } [' ', '_', 'a', ' ', '_', '_', 'b', ';', 'c', '.']) =
        .ok [.list [.char 'a', .char 'b'], .list [.char 'c']] last ∧ last.remaining = ['.'] :=
    ⟨_, rfl, rfl⟩
  obtain ⟨pieces, hvalues, -, hunique, hrepad⟩ :=
    padding_counts_do_not_matter hplain ⟨';', ' '⟩ hread
  obtain ⟨rfl, -⟩ := (hunique (fun _ ↦ .ofSettings {})
    [⟨[' '], ['_', 'a', ' ', '_', '_', 'b'], .list [.char 'a', .char 'b']⟩,
      ⟨[], ['c'], .list [.char 'c']⟩] (.ok ['.'])).1
    (.more ⟨.takeWhile _ _, _, rfl, rfl⟩ (.last ⟨.takeWhile _ _, _, rfl, rfl⟩ (by decide)))
  obtain ⟨last', hread', hlast', hconsumed⟩ := hrepad
    [⟨[], ['_', 'a', ' ', '_', '_', 'b'], .list [.char 'a', .char 'b']⟩,
      ⟨[' ', ' '], ['c'], .list [.char 'c']⟩]
    (.cons ⟨by simp, rfl, rfl⟩ (.cons ⟨by simp, rfl, rfl⟩ .nil))
    ((Cursor.ofText { delimiters := ⟨' ', '_'⟩ }
      ['é', '_', 'a', ' ', '_', '_', 'b', ';', ' ', ' ', 'c', '.']).advance 1) rfl
    (by rw [hlast]; rfl)
  refine ⟨hplain, last, last', _, hread, rfl, hread', hlast'.trans hlast, ?_⟩
  rw [← last'.byteLength_consumed, hconsumed]
  rfl

end TextCursor
