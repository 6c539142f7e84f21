import TextCursor.Proofs.RoundTrip.ListRendering
import TextCursor.Proofs.Text.Run
import TextCursor.Proofs.Walk.Reading

namespace TextCursor

variable {α β : Type} {d configured : Delimiters}

/-- No word takes a separator or a padding for a part of it, and the two can be told apart. -/
structure Delimiters.ApartFromWords (d : Delimiters) : Prop where
  separator : isWordCharacter d.separator = false
  padding : isWordCharacter d.padding = false
  distinct : d.separator ≠ d.padding

/-- What follows a word in a list: nothing that could be a part of it, and no padding either, which
would be taken for padding before the word where the word is empty. -/
def EndsWord (d : Delimiters) (rest : Text) : Prop :=
  ∀ ch ∈ rest.head?, isWordCharacter ch = false ∧ ch ≠ d.padding

theorem Delimiters.ApartFromWords.endsWord (h : d.ApartFromWords) (rest : Text) :
    EndsWord d (d.separator :: rest) := by
  intro ch hch
  cases hch
  exact ⟨h.separator, h.distinct⟩

theorem ListRendering.map {written : α → Text → Prop} {written' : β → Text → Prop} {f : α → β}
    {as : List α} {t : Text} (h : ListRendering d written as t)
    (hf : ∀ a ∈ as, ∀ t, written a t → written' (f a) t) :
    ListRendering d written' (as.map f) t := by
  induction h with
  | last k ha => exact .last k (hf _ List.mem_cons_self _ ha)
  | more k ha _ ih =>
    refine .more k (hf _ List.mem_cons_self _ ha) (ih ?_)
    exact fun a hmem ↦ hf a (List.mem_cons_of_mem _ hmem)

theorem Shape.Lists.reads_back {c : Cursor} {element shape : Shape} (h : Lists c d element shape)
    {written : Value → Text → Prop} {follow : Text → Prop}
    (hread : Scan.ReadsBack c.delimiters written follow element.read)
    (hskip : ∀ {v t rest}, written v t → follow rest → (t ++ rest).head? ≠ some d.padding)
    (hsep : ∀ rest, follow (d.separator :: rest)) {vs : List Value} {t rest : Text}
    (hvs : ListRendering d written vs t) (hrest : follow rest)
    (hend : rest.head? ≠ some d.separator) (hc : c.remaining = t ++ rest) :
    ∃ last, shape.read c = .ok (.list vs) last ∧ last.remaining = rest ∧
      last.consumed = c.consumed ++ t := by
  have honward := element.read_onward
  have hpadding {v : Value} {t rest : Text} (hv : written v t) (hfollow : follow rest) :
      ∃ t', written v t' ∧ (t ++ rest).dropWhile (· == d.padding) = t' ++ rest := by
    have hhead : ∀ ch ∈ (t ++ rest).head?, (ch == d.padding) = false := by
      intro ch hch
      rw [beq_eq_false_iff_ne]
      rintro rfl
      exact hskip hv hfollow hch
    have hrun : Text.Run (· == d.padding) (t ++ rest) [] (t ++ rest) := ⟨rfl, nofun, hhead⟩
    exact ⟨t, hv, hrun.takeWhile_eq.2⟩
  obtain ⟨last, hlast, hremaining⟩ :=
    Scan.elementsFrom_readsBack honward hread hpadding hsep hvs hrest hend 0 rfl hc
  refine ⟨last, ?_, hremaining, ?_⟩
  · cases h with
    | list | listWith => exact Scan.map_ok hlast
  · exact (Scan.elementsFrom_onward honward hlast).consumed_eq (by rw [hremaining, hc])

def Value.IsWord (v : Value) (t : Text) : Prop :=
  v = .text t ∧ ∀ ch ∈ t, isWordCharacter ch = true

theorem Value.IsWord.head?_append {v : Value} {t rest : Text} (h : v.IsWord t)
    (hd : d.ApartFromWords) (hrest : EndsWord d rest) : (t ++ rest).head? ≠ some d.padding := by
  intro hhead
  cases t with
  | nil => exact (hrest _ hhead).2 rfl
  | cons ch t =>
    have hpadding := h.2 ch List.mem_cons_self
    rw [Option.some.inj hhead, hd.padding] at hpadding
    cases hpadding

theorem Shape.word_readsBack :
    Scan.ReadsBack configured Value.IsWord (EndsWord d) Shape.word.read := by
  rintro _ t c rest ⟨rfl, hword⟩ - hc hrest
  have hrun := (Text.Run.mk hc hword fun ch hch ↦ (hrest ch hch).1).takeWhile_eq
  obtain ⟨hvalue, hremaining⟩ := c.readWord_eq
  rw [hrun.1] at hvalue
  rw [hrun.2] at hremaining
  exact ⟨c.readWord.2, Scan.map_ok (congrArg (EStateM.Result.ok · _) hvalue), hremaining⟩

def Value.IsCharacter (d : Delimiters) (v : Value) (t : Text) : Prop :=
  ∃ ch, v = .char ch ∧ t = [ch] ∧ ch ≠ d.padding

theorem Shape.char_readsBack :
    Scan.ReadsBack configured (Value.IsCharacter d) (fun _ ↦ True) Shape.char.read := by
  rintro _ _ c rest ⟨ch, rfl, rfl, -⟩ - hc -
  obtain ⟨next, hnext, hremaining⟩ := Cursor.next?_of_remaining hc
  exact ⟨next, Scan.map_ok (Scan.demand_some hnext), hremaining⟩

/-- Lists of words and lists of characters are read back from however they are padded. Words may be
empty, and characters may be the separator, which may be the padding as well. -/
theorem word_and_character_lists_round_trip {c : Cursor} {t rest : Text}
    (hc : c.remaining = t ++ rest) :
    (∀ (ws : List Text) (shape : Shape), Shape.Lists c d .word shape → d.ApartFromWords →
      (∀ w ∈ ws, ∀ ch ∈ w, isWordCharacter ch = true) →
      ListRendering d (fun w t ↦ t = w) ws t → EndsWord d rest → rest.head? ≠ some d.separator →
      ∃ last, shape.read c = .ok (.list (ws.map .text)) last ∧ last.remaining = rest ∧
        last.consumed = c.consumed ++ t) ∧
    ∀ (chs : List Char) (shape : Shape), Shape.Lists c d .char shape → d.padding ∉ chs →
      ListRendering d (fun ch t ↦ t = [ch]) chs t → rest.head? ≠ some d.separator →
      ∃ last, shape.read c = .ok (.list (chs.map .char)) last ∧ last.remaining = rest ∧
        last.consumed = c.consumed ++ t := by
  refine ⟨fun ws shape hlists hapart hws hrendering hrest hend ↦ ?_,
    fun chs shape hlists hchs hrendering hend ↦ ?_⟩
  · have hvalues : ListRendering d Value.IsWord (ws.map .text) t := by
      refine hrendering.map fun w hw t ht ↦ ?_
      subst ht
      exact ⟨rfl, hws _ hw⟩
    exact hlists.reads_back Shape.word_readsBack (fun hv hrest ↦ hv.head?_append hapart hrest)
      hapart.endsWord hvalues hrest hend hc
  · have hvalues : ListRendering d (Value.IsCharacter d) (chs.map .char) t := by
      refine hrendering.map fun ch hch t ht ↦ ?_
      exact ⟨ch, rfl, ht, fun he ↦ hchs (he ▸ hch)⟩
    refine hlists.reads_back Shape.char_readsBack ?_ (fun _ ↦ trivial) hvalues trivial hend hc
    rintro _ _ rest ⟨ch, rfl, rfl, hne⟩ - hhead
    exact hne (Option.some.inj hhead)

theorem word_and_character_lists_round_trip_commas :
    Delimiters.ApartFromWords {} ∧
      (∃ last, (Shape.commaList .word).read (.ofText {} [' ', ',', 'a', 'b', ',', ' ', ';']) =
        .ok (.list [.text [], .text ['a', 'b'], .text []]) last ∧ last.remaining = [';'] ∧
        last.consumed = [' ', ',', 'a', 'b', ',', ' ']) ∧
      (∃ last, (Shape.commaList .char).read (.ofText {} [',', ',', 'x', ',', ' ', ',', '.']) =
        .ok (.list [.char ',', .char 'x', .char ',']) last ∧ last.remaining = ['.'] ∧
        last.consumed = [',', ',', 'x', ',', ' ', ',']) ∧
      ∃ last, (Shape.listWith ⟨' ', ' '⟩ .char).read (.ofText {} ['x', ' ', ' ', 'y']) =
        .ok (.list [.char 'x', .char 'y']) last ∧ last.remaining = [] ∧
        last.consumed = ['x', ' ', ' ', 'y'] := by
  have hapart : Delimiters.ApartFromWords {} := ⟨by decide +kernel, by decide +kernel, by decide⟩
  refine ⟨hapart, ?_, ?_, ?_⟩
  · have hlast : ListRendering {} (fun (w t : Text) ↦ t = w) [[]] [' '] := .last 1 rfl
    have hrest : ListRendering {} (fun (w t : Text) ↦ t = w) [['a', 'b'], []]
        ['a', 'b', ',', ' '] := .more (t := ['a', 'b']) 0 rfl hlast
    have hends : EndsWord {} [';'] := by
      intro ch hch
      cases hch
      exact ⟨by decide +kernel, by decide⟩
    have ha : isWordCharacter 'a' = true := by decide +kernel
    have hb : isWordCharacter 'b' = true := by decide +kernel
    exact (word_and_character_lists_round_trip rfl).1 [[], ['a', 'b'], []] _ (.listWith {} .word)
      hapart (by simp [ha, hb]) (.more (t := []) 1 rfl hrest) hends (by decide)
  · have hlast : ListRendering {} (fun (ch : Char) t ↦ t = [ch]) [','] [' ', ','] :=
      .last (t := [',']) 1 rfl
    have hrest : ListRendering {} (fun (ch : Char) t ↦ t = [ch]) ['x', ','] ['x', ',', ' ', ','] :=
      .more (t := ['x']) 0 rfl hlast
    exact (word_and_character_lists_round_trip rfl).2 [',', 'x', ','] _ (.listWith {} .char)
      (by decide) (.more (t := [',']) 0 rfl hrest) (by decide)
  · have hlast : ListRendering ⟨' ', ' '⟩ (fun (ch : Char) t ↦ t = [ch]) ['y'] [' ', 'y'] :=
      .last (t := ['y']) 1 rfl
    exact (word_and_character_lists_round_trip (List.append_nil _).symm).2 ['x', 'y'] _
      (.listWith ⟨' ', ' '⟩ .char) (by decide) (.more (t := ['x']) 0 rfl hlast) (by decide)

end TextCursor
