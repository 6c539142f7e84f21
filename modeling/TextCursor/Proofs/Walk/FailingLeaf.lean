import TextCursor.Proofs.Walk.Reading

namespace TextCursor

def Shape.OnlyWords : Shape → Prop
  | .word => True
  | .list element | .listWith _ element => element.OnlyWords
  | _ => False

/-- A reading that has not moved from `c` fails there for want of a number or of a character. -/
inductive Shape.FailsAt (c : Cursor) (e : Failure) : Shape → Prop
  | integer {type : IntegerType} :
      (Operation.tryReadInteger type).run c = .ok (.attempt (.error e)) c →
      FailsAt c e (.integer type)
  | char : c.remaining = [] → Operation.consumeNext.run c = .error e c → FailsAt c e .char

theorem Shape.failsAt_of_error {leaf : Shape} {op : Operation} {c : Cursor} {e : Failure}
    (hop : (Step.read leaf).operation? = some op) (h : op.run c = .error e c) :
    leaf.FailsAt c e := by
  cases leaf with
  | integer type =>
    cases hop
    obtain ⟨hnumber, -⟩ := Scan.of_demandExcept_error (Scan.eq_of_map_error h)
    exact .integer (Scan.map_ok (Scan.attemptExcept_error hnumber))
  | word =>
    cases hop
    cases h
  | char =>
    cases hop
    obtain ⟨hnone, -⟩ := Scan.of_demand_error (Scan.eq_of_map_error h)
    exact .char (List.head?_eq_none_iff.1 (Option.map_eq_none_iff.1 hnone)) h
  | list element | listWith d element | steps steps => cases hop

theorem Visits.exists_read {shape : Shape} (h : shape.IsPlain) {inner : Step} {s mid : Session}
    {opened : List (List Value)} (hvisit : Visits (.read shape) s opened inner mid) :
    ∃ leaf, inner = .read leaf := by
  induction shape generalizing s opened with
  | integer type | word | char =>
    cases hvisit
    exact ⟨_, rfl⟩
  | list element ih =>
    cases hvisit with
    | here => exact ⟨_, rfl⟩
    | list _ hwithin => exact ih h hwithin
  | listWith d element ih =>
    cases hvisit with
    | here => exact ⟨_, rfl⟩
    | listWith _ hwithin => exact ih h hwithin
  | steps steps => exact h.elim

theorem Shape.read_onlyWords {shape : Shape} (h : shape.OnlyWords) (c : Cursor) :
    ∃ v c', shape.read c = .ok v c' := by
  induction shape generalizing c with
  | word => exact ⟨_, _, rfl⟩
  | list element ih | listWith d element ih =>
    cases hread : Shape.read _ c with
    | ok v c' => exact ⟨v, c', rfl⟩
    | error e c' =>
      obtain ⟨vs, mid, -, helement⟩ := Scan.of_readListWith_error (Scan.eq_of_map_error hread)
      obtain ⟨v, last, hok⟩ := ih h _
      rw [helement] at hok
      cases hok
  | integer | char | steps => exact h.elim

/-- A reading of a built-in shape that fails leaves the cursor where the number or the character
that is missing would have begun, behind all that had been completed and noted. Words are never
missing. -/
theorem failure_left_at_leaf :
    (∀ (shape : Shape) (c c' : Cursor) (e : Failure), shape.IsPlain →
      shape.read c = .error e c' →
      ∃ opened leaf mid, Visits (.read shape) ⟨c, []⟩ opened (.read leaf) mid ∧
        mid.cursor = c' ∧ leaf.FailsAt c' e ∧
        ∃ noted, c'.journal.entries = c.journal.entries ++ noted ∧
          List.Forall₂ (Entry.Marks shape c)
            (if c.journal.enabled then shape.openWalk c.delimiters opened else []) noted) ∧
    ∀ (shape : Shape) (c : Cursor), shape.OnlyWords → ∃ v c', shape.read c = .ok v c' := by
  refine ⟨fun shape c c' e hplain herror ↦ ?_, fun shape c h ↦ Shape.read_onlyWords h c⟩
  obtain ⟨opened, inner, mid, op, hvisit, hinner, hmid, hop⟩ :=
    Shape.exists_visit_of_error (s := ⟨c, []⟩) herror
  obtain ⟨leaf, rfl⟩ := hvisit.exists_read hplain
  have hnotes := hvisit.notes hplain
  rw [hmid] at hnotes
  exact ⟨opened, leaf, mid, hvisit, hmid, Shape.failsAt_of_error hinner hop, hnotes⟩

theorem failure_left_at_leaf_rows :
    (∃ c' opened leaf mid,
      (Shape.listWith ⟨';', ' '⟩ (.list (.integer .int64))).read
        (.ofText { logging := true } ['1', ';', ' ', '2', ',', ' ', 'x']) =
          .error ⟨.missingDigits 10, 6⟩ c' ∧
      c'.remaining = ['x'] ∧ c'.journal.entries.map Entry.position = [0, 0, 0, 1, 3, 3, 4] ∧
      Visits (.read (.listWith ⟨';', ' '⟩ (.list (.integer .int64))))
        ⟨.ofText { logging := true } ['1', ';', ' ', '2', ',', ' ', 'x'], []⟩ opened
        (.read leaf) mid ∧
      mid.cursor = c' ∧ leaf.FailsAt c' ⟨.missingDigits 10, 6⟩) ∧
    (Shape.list .word).OnlyWords ∧
    ∃ v c', (Shape.list .word).read (.ofText {} [',', '.']) = .ok v c' := by
  have hwords : (Shape.list .word).OnlyWords := trivial
  refine ⟨?_, hwords, failure_left_at_leaf.2 _ _ hwords⟩
  obtain ⟨c', herror, hremaining, hpositions⟩ : ∃ c',
      (Shape.listWith ⟨';', ' '⟩ (.list (.integer .int64))).read
        (.ofText { logging := true } ['1', ';', ' ', '2', ',', ' ', 'x']) =
          .error ⟨.missingDigits 10, 6⟩ c' ∧
      c'.remaining = ['x'] ∧ c'.journal.entries.map Entry.position = [0, 0, 0, 1, 3, 3, 4] :=
    ⟨_, rfl, rfl, rfl⟩
  have hplain : (Shape.listWith ⟨';', ' '⟩ (.list (.integer .int64))).IsPlain := trivial
  obtain ⟨opened, leaf, mid, hvisit, hmid, hfails, -⟩ :=
    failure_left_at_leaf.1 _ _ _ _ hplain herror
  exact ⟨c', opened, leaf, mid, herror, hremaining, hpositions, hvisit, hmid, hfails⟩

end TextCursor
