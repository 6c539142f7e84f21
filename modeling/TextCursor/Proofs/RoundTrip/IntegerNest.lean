import TextCursor.Proofs.Cursor.Numbers
import TextCursor.Proofs.Reading.FromText
import TextCursor.Proofs.RoundTrip.ListRendering

namespace TextCursor

namespace Shape

def levels (configured : Delimiters) : Shape → List Delimiters
  | .list element => configured :: element.levels configured
  | .listWith d element => d :: element.levels configured
  | _ => []

/-- The texts that a value of a nest of integer lists may be written as. The integers have to be in
range, no list is empty, and there is no such text for a value of another shape. -/
def IsRendering (configured : Delimiters) : Shape → Value → Text → Prop
  | .integer type, v, t =>
    ∃ n, v = .integer n ∧ type.min ≤ n ∧ n ≤ type.max ∧ t = (toString n).toList
  | .list element, v, t =>
    ∃ vs, v = .list vs ∧ ListRendering configured (element.IsRendering configured) vs t
  | .listWith d element, v, t =>
    ∃ vs, v = .list vs ∧ ListRendering d (element.IsRendering configured) vs t
  | _, _, _ => False

end Shape

/-- Lists within one another that can be told apart by their separators, and integers from what
stands around them. -/
structure Separable (levels : List Delimiters) : Prop where
  distinct : (levels.map Delimiters.separator).Nodup
  separator : ∀ d ∈ levels, d.separator.isDigit = false
  padding : ∀ d ∈ levels, d.padding.isDigit = false ∧ d.padding ≠ '-'

namespace Separable

variable {d : Delimiters} {levels : List Delimiters}

theorem tail (h : Separable (d :: levels)) : Separable levels :=
  ⟨(List.nodup_cons.1 h.distinct).2, fun d' hd ↦ h.separator d' (List.mem_cons_of_mem _ hd),
    fun d' hd ↦ h.padding d' (List.mem_cons_of_mem _ hd)⟩

theorem separator_ne (h : Separable (d :: levels)) {d' : Delimiters} (hd : d' ∈ levels) :
    d.separator ≠ d'.separator := by
  intro he
  apply (List.nodup_cons.1 h.distinct).1
  rw [he]
  exact List.mem_map_of_mem hd

end Separable

/-- What may follow a nest of integer lists: it goes on with none of the lists and not with the last
integer. -/
def EndsNest (levels : List Delimiters) (rest : Text) : Prop :=
  ∀ ch ∈ rest.head?, ch.isDigit = false ∧ ∀ d ∈ levels, ch ≠ d.separator

theorem Separable.endsNest {d : Delimiters} {levels : List Delimiters}
    (h : Separable (d :: levels)) (rest : Text) : EndsNest levels (d.separator :: rest) := by
  intro ch hch
  cases hch
  exact ⟨h.separator d List.mem_cons_self, fun d' hd ↦ h.separator_ne hd⟩

theorem dropWhile_toString {p : Char} (hdigit : p.isDigit = false) (hminus : p ≠ '-') (n : Int) :
    (toString n).toList.dropWhile (· == p) = (toString n).toList := by
  rw [← Decimal.text_ofInt]
  unfold Decimal.text Decimal.signText Decimal.ofInt
  by_cases hn : n < 0
  · simp [hn, Sign.char, hminus.symm]
  · cases hd : Nat.toDigits 10 n.natAbs with
    | nil => exact absurd hd Nat.toDigits_ne_nil
    | cons ch digits =>
      have hch := (Decimal.ofInt_proper n).digit ch (by simp [Decimal.ofInt, hd])
      have hne : ch ≠ p := by
        intro he
        subst he
        rw [isDigit_ten, hdigit] at hch
        cases hch
      simp [hn, hne]

variable {configured : Delimiters}

theorem Shape.IsRendering.dropWhile {p : Char} (hdigit : p.isDigit = false) (hminus : p ≠ '-')
    {shape : Shape} {v : Value} {t : Text} (h : shape.IsRendering configured v t) :
    shape.IsRendering configured v (t.dropWhile (· == p)) ∧ t.dropWhile (· == p) ≠ [] := by
  induction shape generalizing v t with
  | integer type =>
    obtain ⟨n, hv, hmin, hmax, ht⟩ := h
    subst ht
    rw [dropWhile_toString hdigit hminus]
    refine ⟨⟨n, hv, hmin, hmax, rfl⟩, ?_⟩
    rw [← Decimal.text_ofInt]
    exact List.append_ne_nil_of_right_ne_nil _ (Decimal.ofInt_proper n).ne_nil
  | list element ih =>
    obtain ⟨vs, hv, hvs⟩ := h
    obtain ⟨hdrop, hne⟩ := hvs.dropWhile ih
    exact ⟨⟨vs, hv, hdrop⟩, hne⟩
  | listWith d element ih =>
    obtain ⟨vs, hv, hvs⟩ := h
    obtain ⟨hdrop, hne⟩ := hvs.dropWhile ih
    exact ⟨⟨vs, hv, hdrop⟩, hne⟩
  | word | char | steps => exact h.elim

/-- One level of a nest: the separator that comes after an element belongs to this list or to one
around it, and which one it is shows in the character alone. -/
theorem Scan.readListWith_readsBack {d : Delimiters} {element : Shape}
    (hs : Separable (d :: element.levels configured))
    (ih : ReadsBack configured (element.IsRendering configured)
      (EndsNest (element.levels configured)) element.read) :
    ReadsBack configured (ListRendering d (element.IsRendering configured))
      (EndsNest (d :: element.levels configured)) (readListWith d element.read) := by
  intro vs t c rest hvs hc hrem hrest
  obtain ⟨hdigit, hminus⟩ := hs.padding d List.mem_cons_self
  have hrest' : EndsNest (element.levels configured) rest := fun ch hch ↦
    ⟨(hrest ch hch).1, fun d' hd ↦ (hrest ch hch).2 d' (List.mem_cons_of_mem _ hd)⟩
  refine elementsFrom_readsBack element.read_onward ih ?_ hs.endsNest hvs hrest' ?_ 0 hc hrem
  · intro v t rest hv _
    obtain ⟨hdrop, hne⟩ := hv.dropWhile hdigit hminus
    refine ⟨_, hdrop, ?_⟩
    rw [List.dropWhile_append, if_neg (by simpa using hne)]
  · intro hhead
    exact (hrest _ hhead).2 d List.mem_cons_self rfl

theorem Shape.read_readsBack {shape : Shape} (hs : Separable (shape.levels configured)) :
    Scan.ReadsBack configured (shape.IsRendering configured)
      (EndsNest (shape.levels configured)) shape.read := by
  induction shape with
  | integer type =>
    intro v t c rest hv _ hrem hrest
    obtain ⟨n, rfl, hmin, hmax, rfl⟩ := hv
    have hrest' : NoDigitAhead rest := fun ch hch ↦ by rw [isDigit_ten]; exact (hrest ch hch).1
    rw [← Decimal.text_ofInt] at hrem
    have hnumeral := (Decimal.ofInt_proper n).numeral hrest'
    rw [← hrem] at hnumeral
    obtain ⟨next, hnext, hnextrem⟩ := Cursor.readInteger?_of_numeral hnumeral
      (Decimal.ofInt_proper n).ne_nil (IntegerType.takes_ofInt hmin hmax)
    rw [Decimal.signedValue_ofInt] at hnext
    exact ⟨next, Scan.map_ok (Scan.demandExcept_ok hnext), hnextrem⟩
  | list element ih =>
    intro v t c rest hv hc hrem hrest
    obtain ⟨vs, rfl, hvs⟩ := hv
    obtain ⟨next, hnext, hnextrem⟩ := Scan.readListWith_readsBack hs (ih hs.tail) hvs hc hrem hrest
    refine ⟨next, Scan.map_ok ?_, hnextrem⟩
    rw [Scan.readList, hc]
    exact hnext
  | listWith d element ih =>
    intro v t c rest hv hc hrem hrest
    obtain ⟨vs, rfl, hvs⟩ := hv
    obtain ⟨next, hnext, hnextrem⟩ := Scan.readListWith_readsBack hs (ih hs.tail) hvs hc hrem hrest
    exact ⟨next, Scan.map_ok hnext, hnextrem⟩
  | word | char | steps => intro v t c rest hv; exact hv.elim

/-- What a nest of integer lists was written as is read back, whatever stands before it and as long
as what follows cannot be taken for a part of it. As a whole text it leaves nothing over. -/
theorem integer_nest_round_trip {shape : Shape} {v : Value} {t : Text}
    (hs : Separable (shape.levels configured)) (ht : shape.IsRendering configured v t) :
    (∀ (c : Cursor) (rest : Text), c.delimiters = configured → c.remaining = t ++ rest →
      EndsNest (shape.levels configured) rest →
      ∃ next, shape.read c = .ok v next ∧ next.remaining = rest ∧
        next.consumed = c.consumed ++ t) ∧
    (configured = {} → shape.fromWholeText t = .ok (.ok v)) := by
  have hread (c : Cursor) (rest : Text) (hc : c.delimiters = configured)
      (hrem : c.remaining = t ++ rest) (hrest : EndsNest (shape.levels configured) rest) :
      ∃ next, shape.read c = .ok v next ∧ next.remaining = rest ∧
        next.consumed = c.consumed ++ t := by
    obtain ⟨next, hnext, hnextrem⟩ := Shape.read_readsBack hs ht hc hrem hrest
    have honward := shape.read_onward c
    rw [hnext] at honward
    exact ⟨next, hnext, hnextrem, honward.consumed_eq (by rw [ending_ok, hnextrem, hrem])⟩
  refine ⟨hread, fun hconf ↦ ?_⟩
  obtain ⟨next, hnext, hnextrem, -⟩ := hread (.ofText {} t) [] hconf.symm (List.append_nil t).symm
    (by simp [EndsNest])
  exact Shape.fromWholeText_of_read hnext hnextrem

theorem integer_nest_round_trip_signs :
    let shape : Shape := .listWith ⟨';', ' '⟩ (.listWith ⟨'-', ';'⟩ (.integer .int64))
    let v : Value := .list [.list [.integer 1, .integer (-2)], .list [.integer 3]]
    let t : Text := [' ', ';', ';', '1', '-', '-', '2', ';', ' ', '3']
    Separable (shape.levels {}) ∧ shape.IsRendering {} v t ∧ EndsNest (shape.levels {}) ['x'] ∧
      (∃ next, shape.read (.ofText {} (t ++ ['x'])) = .ok v next ∧ next.remaining = ['x'] ∧
        next.consumed = t) ∧
      shape.fromWholeText t = .ok (.ok v) := by
  intro shape v t
  have hs : Separable (shape.levels {}) := ⟨by decide, by decide, by decide⟩
  have hinteger (n : Int) (hmin : IntegerType.int64.min ≤ n) (hmax : n ≤ IntegerType.int64.max) :
      (Shape.integer .int64).IsRendering {} (.integer n) (toString n).toList :=
    ⟨n, rfl, hmin, hmax, rfl⟩
  have hfirst : (Shape.listWith ⟨'-', ';'⟩ (.integer .int64)).IsRendering {}
      (.list [.integer 1, .integer (-2)]) [';', ';', '1', '-', '-', '2'] :=
    ⟨_, rfl, .more 2 (hinteger 1 (by decide) (by decide))
      (.last 0 (hinteger (-2) (by decide) (by decide)))⟩
  have hsecond : (Shape.listWith ⟨'-', ';'⟩ (.integer .int64)).IsRendering {}
      (.list [.integer 3]) ['3'] :=
    ⟨_, rfl, .last 0 (hinteger 3 (by decide) (by decide))⟩
  have ht : shape.IsRendering {} v t := ⟨_, rfl, .more 1 hfirst (.last 1 hsecond)⟩
  have hrest : EndsNest (shape.levels {}) ['x'] := by
    intro ch hch
    cases hch
    decide
  obtain ⟨hread, hwhole⟩ := integer_nest_round_trip hs ht
  exact ⟨hs, ht, hrest, hread (.ofText {} (t ++ ['x'])) ['x'] rfl rfl hrest, hwhole rfl⟩

end TextCursor
