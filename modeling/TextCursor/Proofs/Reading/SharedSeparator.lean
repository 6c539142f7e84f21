import Mathlib.Data.List.TakeWhile
import TextCursor.Proofs.Lockstep.SamePlace
import TextCursor.Proofs.Walk.Reading

namespace TextCursor

/-- The value within `n` lists, each of which has no other element. -/
def Value.wrapped (v : Value) : Nat → Value
  | 0 => v
  | n + 1 => .list [v.wrapped n]

/-- From the cursor on, the shape is read as `n` lists directly around the shape `flat`, all of a
form that satisfies `form`. -/
inductive Shape.Around (c : Cursor) (form : Delimiters → Prop) (flat : Shape) :
    Nat → Shape → Prop
  | flat : Around c form flat 0 flat
  | list {n : Nat} {d : Delimiters} {inner shape : Shape} :
      form d → Around c form flat n inner → Lists c d inner shape →
      Around c form flat (n + 1) shape

theorem Cursor.skipCopies_idem (ch : Char) (c : Cursor) :
    (c.skipCopies ch).skipCopies ch = c.skipCopies ch := by
  have hnone : (c.skipCopies ch).remaining.takeWhile (· == ch) = [] := by
    rw [remaining_skipCopies, List.takeWhile_eq_nil_iff]
    intro hpos
    exact List.dropWhile_get_zero_not _ _ hpos
  rw [Cursor.skipCopies, hnone]
  rfl

namespace Scan

variable {α : Type} {d : Delimiters} {read : Scan α} {c : Cursor}

theorem element_skipCopies (index : Nat) :
    element d read index (c.skipCopies d.padding) = element d read index c := by
  simp only [element, Cursor.skipCopies_idem]

theorem readListWith_skipCopies (honward : ∀ c : Cursor, c.Onward (ending (read c))) :
    readListWith d read (c.skipCopies d.padding) = readListWith d read c := by
  have hle := (Cursor.skipCopies_onward d.padding c).length_remaining_le
  calc readListWith d read (c.skipCopies d.padding)
      = elementsFrom d read c.remaining 0 (c.skipCopies d.padding) :=
        elementsFrom_congr honward (Nat.le_refl _) hle
    _ = readListWith d read c := by
        unfold readListWith elementsFrom
        rw [element_skipCopies]

theorem head?_of_readListWith (honward : ∀ c : Cursor, c.Onward (ending (read c))) {last : Cursor}
    {as : List α} (h : readListWith d read c = .ok as last) :
    last.remaining.head? ≠ some d.separator := by
  obtain ⟨_, _, _, -, -, -, hsep⟩ := of_elementsFrom_ok honward (Nat.le_refl _) .none h
  exact Cursor.consumeChar?_eq_none_iff.1 hsep

theorem readListWith_of_head? (h : ∀ a last, element d read 0 c = .ok a last →
      last.remaining.head? ≠ some d.separator) :
    readListWith d read c = ((fun a ↦ [a]) <$> element d read 0) c := by
  simp only [readListWith, Functor.map, EStateM.map]
  cases helement : element d read 0 c with
  | ok a last =>
    rw [elementsFrom_last helement (Cursor.consumeChar?_eq_none_iff.2 (h a last helement))]
  | error e last => rw [elementsFrom_error helement]

end Scan

namespace Shape.Lists

variable {c c' : Cursor} {d : Delimiters} {element shape : Shape}

theorem of_delimiters (h : Lists c d element shape) (hd : c'.delimiters = c.delimiters) :
    Lists c' d element shape := by
  cases h with
  | list =>
    rw [← hd]
    exact .list _
  | listWith => exact .listWith _ _

theorem of_contains_perform (h : Lists c d element shape) {op : Operation}
    (hcontains : Step.Contains (.read shape) (.perform op)) :
    Step.Contains (.read element) (.perform op) := by
  cases h with
  | list => cases hcontains with
    | list hcontains => exact hcontains
  | listWith => cases hcontains with
    | listWith hcontains => exact hcontains

theorem read_eq (h : Lists c d element shape) :
    shape.read c = (Value.list <$> Scan.readListWith d element.read) c := by
  cases h <;> rfl

theorem read_of_head? (h : Lists c d element shape)
    (hend : ∀ v last, Scan.element d element.read 0 c = .ok v last →
      last.remaining.head? ≠ some d.separator) :
    shape.read c = ((fun v ↦ Value.list [v]) <$> Scan.element d element.read 0) c := by
  rw [h.read_eq]
  simp only [Functor.map, EStateM.map]
  rw [Scan.readListWith_of_head? hend]
  simp only [Functor.map, EStateM.map]
  cases Scan.element d element.read 0 c <;> rfl

theorem read_skipCopies (h : Lists c d element shape) :
    shape.read (c.skipCopies d.padding) = shape.read c := by
  have hskipped : Lists (c.skipCopies d.padding) d element shape := h.of_delimiters rfl
  rw [h.read_eq, hskipped.read_eq]
  simp only [Functor.map, EStateM.map, Scan.readListWith_skipCopies element.read_onward]

end Shape.Lists

namespace Shape.Around

variable {c c' : Cursor} {form : Delimiters → Prop} {d : Delimiters} {element flat shape : Shape}
variable {n : Nat}

theorem read_ends (h : Around c form flat n shape) (hflat : Lists c d element flat)
    (hform : ∀ d', form d' → d'.separator = d.separator) {last : Cursor} {v : Value}
    (hd : c'.delimiters = c.delimiters) (hread : shape.read c' = .ok v last) :
    (∃ vs, v = (Value.list vs).wrapped n) ∧ last.remaining.head? ≠ some d.separator := by
  induction h generalizing c' last v with
  | flat =>
    rw [(hflat.of_delimiters hd).read_eq] at hread
    obtain ⟨vs, hvs, rfl⟩ := Scan.of_map_ok hread
    exact ⟨⟨vs, rfl⟩, Scan.head?_of_readListWith element.read_onward hvs⟩
  | @list n d' inner shape hd' _ hlists ih =>
    have hends {v : Value} {last : Cursor}
        (h : Scan.element d' inner.read 0 c' = .ok v last) :
        (∃ vs, v = (Value.list vs).wrapped n) ∧ last.remaining.head? ≠ some d.separator := by
      obtain ⟨next, hnext, rfl⟩ := Scan.of_element_ok h
      have hentered : ((c'.skipCopies d'.padding).enter 0).delimiters = c.delimiters := hd
      obtain ⟨hvs, hend⟩ := ih hentered hnext
      exact ⟨hvs, by rwa [Cursor.remaining_leave, Cursor.remaining_record]⟩
    rw [(hlists.of_delimiters hd).read_of_head? fun _ _ h ↦ hform d' hd' ▸ (hends h).2] at hread
    obtain ⟨v, hv, rfl⟩ := Scan.of_map_ok hread
    obtain ⟨⟨vs, rfl⟩, hend⟩ := hends hv
    exact ⟨⟨vs, rfl⟩, hend⟩

theorem read_alike (h : Around c (· = d) flat n shape) (hflat : Lists c d element flat)
    (htake : ¬ Step.Contains (.read element) (.perform .takeLog)) {c₁ c₂ : Cursor}
    (hc₁ : c₁.delimiters = c.delimiters) (hc₂ : c₂.delimiters = c.delimiters)
    (hsame : (c₁.skipCopies d.padding).SamePlace True False (c₂.skipCopies d.padding)) :
    Alike Eq (fun v w ↦ v = w.wrapped n) (Cursor.SamePlace True False) (shape.read c₁)
      (flat.read c₂) := by
  induction h generalizing c₁ with
  | flat =>
    have hflat' : ¬ Step.Contains (.read flat) (.perform .takeLog) :=
      fun hcontains ↦ htake (hflat.of_contains_perform hcontains)
    rw [← (hflat.of_delimiters hc₁).read_skipCopies, ← (hflat.of_delimiters hc₂).read_skipCopies]
    exact hsame.read (absurd · hflat') fun _ _ ↦ trivial
  | @list n d' inner shape hd' haround hlists ih =>
    subst hd'
    have hentered : (((c₁.skipCopies d'.padding).enter 0).skipCopies d'.padding).SamePlace True
        False (c₂.skipCopies d'.padding) := by
      change (((c₁.skipCopies d'.padding).skipCopies d'.padding).enter 0).SamePlace True False _
      rw [Cursor.skipCopies_idem]
      exact ⟨hsame.behind, hsame.remaining, hsame.delimiters, False.elim⟩
    have hd : ((c₁.skipCopies d'.padding).enter 0).delimiters = c.delimiters := hc₁
    have hinner := ih hd hentered
    have hend {v : Value} {last : Cursor} (hv : Scan.element d' inner.read 0 c₁ = .ok v last) :
        last.remaining.head? ≠ some d'.separator := by
      obtain ⟨next, hnext, rfl⟩ := Scan.of_element_ok hv
      rw [Cursor.remaining_leave, Cursor.remaining_record]
      exact (haround.read_ends hflat (fun _ ↦ congrArg _) hd hnext).2
    rw [(hlists.of_delimiters hc₁).read_of_head? fun _ _ ↦ hend]
    simp only [Functor.map, EStateM.map, Scan.element]
    generalize inner.read _ = ended, flat.read c₂ = ended' at hinner
    cases hinner with
    | ok hv hlast =>
      subst hv
      refine .ok rfl ⟨?_, ?_, fun _ ↦ ?_, False.elim⟩
      · rw [hlast.behind]; exact (Cursor.behind_record ..).symm
      · rw [hlast.remaining]; exact (Cursor.remaining_record ..).symm
      · rw [hlast.delimiters trivial]; exact (Cursor.delimiters_record ..).symm
    | error he hlast => exact .error he hlast

end Shape.Around

/-- Lists around the list `flat` that have its separator come to one element each, as `flat` leaves
no separator behind. If they skip the same padding too, they read from every place what `flat` alone
reads, to the same end, and fail where it fails. -/
theorem shared_separator_collapses {c : Cursor} {d : Delimiters} {element flat : Shape}
    (hflat : Shape.Lists c d element flat) :
    (∀ n shape, Shape.Around c (·.separator = d.separator) flat n shape →
      (∃ e last, shape.read c = .error e last) ∨
        ∃ vs last, shape.read c = .ok ((Value.list vs).wrapped n) last ∧
          last.remaining.head? ≠ some d.separator) ∧
    (¬ Step.Contains (.read element) (.perform .takeLog) →
      ∀ n shape, Shape.Around c (· = d) flat n shape →
        Alike Eq (fun v w ↦ v = w.wrapped n) (Cursor.SamePlace True False) (shape.read c)
          (flat.read c)) := by
  refine ⟨fun n shape h ↦ ?_, fun htake n shape h ↦ ?_⟩
  · cases hread : shape.read c with
    | error e last => exact .inl ⟨e, last, rfl⟩
    | ok v last =>
      obtain ⟨⟨vs, rfl⟩, hend⟩ := h.read_ends hflat (fun _ ↦ id) rfl hread
      exact .inr ⟨vs, last, rfl, hend⟩
  · exact h.read_alike hflat htake rfl rfl ⟨rfl, rfl, fun _ ↦ rfl, False.elim⟩

theorem shared_separator_collapses_numbers :
    ∃ c last last' : Cursor,
      c = .ofText {} ['1', ',', ' ', '2', ';'] ∧
      Shape.Lists c {} (.integer .int64) (.commaList (.integer .int64)) ∧
      ¬ Step.Contains (.read (.integer .int64)) (.perform .takeLog) ∧
      (Shape.commaList (.integer .int64)).read c = .ok (.list [.integer 1, .integer 2]) last ∧
      last.remaining = [';'] ∧
      (∃ vs looseLast, (Shape.listWith ⟨',', '.'⟩ (.commaList (.integer .int64))).read c =
        .ok (.list [.list vs]) looseLast ∧ looseLast.remaining.head? ≠ some ',') ∧
      (Shape.commaList (.commaList (.commaList (.integer .int64)))).read c =
        .ok (.list [.list [.list [.integer 1, .integer 2]]]) last' ∧
      last'.SamePlace True False last := by
  have hreads : (Shape.commaList (.integer .int64)).read (.ofText {} ['1', ',', ' ', '2', ';']) =
      .ok (.list [.integer 1, .integer 2])
        ((Cursor.ofText {} ['1', ',', ' ', '2', ';']).advance 4) := by rfl
  have hloose : (Shape.listWith ⟨',', '.'⟩ (.commaList (.integer .int64))).read
      (.ofText {} ['1', ',', ' ', '2', ';']) = .ok (.list [.list [.integer 1, .integer 2]])
        ((Cursor.ofText {} ['1', ',', ' ', '2', ';']).advance 4) := by rfl
  generalize hc : Cursor.ofText {} ['1', ',', ' ', '2', ';'] = c at *
  have hflat : Shape.Lists c {} (.integer .int64) (.commaList (.integer .int64)) := .listWith _ _
  have htake : ¬ Step.Contains (.read (.integer .int64)) (.perform .takeLog) := nofun
  obtain ⟨hends, hsame⟩ := shared_separator_collapses hflat
  have hsingle := hends 1 (.listWith ⟨',', '.'⟩ (.commaList (.integer .int64)))
    (.list (d := ⟨',', '.'⟩) rfl .flat (.listWith _ _))
  have htwice := hsame htake 2 (.commaList (.commaList (.commaList (.integer .int64))))
    (.list rfl (.list rfl .flat (.listWith _ _)) (.listWith _ _))
  rw [hreads] at htwice
  generalize hshape : (Shape.commaList (.commaList _)).read c = ended at htwice
  cases htwice with
  | @ok v w last' last hv hlast =>
    refine ⟨c, c.advance 4, last', rfl, hflat, htake, hreads, hc ▸ rfl, ?_, ?_, hlast⟩
    · exact hsingle.resolve_left fun ⟨_, _, herror⟩ ↦ nomatch hloose.symm.trans herror
    · rw [hshape, hv]
      rfl

end TextCursor
