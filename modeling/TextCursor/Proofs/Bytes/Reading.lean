import TextCursor.Proofs.Bytes.Numbers
import TextCursor.Proofs.Reading.ListLoop

namespace TextCursor

/-- Every operation can be run over byte positions. It cuts the text between its characters only,
and never takes more from a length than there is. -/
theorem Operation.runBytes_follows (op : Operation) : op.runBytes.Follows op.run := by
  cases op with
  | source | offset | takeLog => exact fun c ↦ rfl
  | remaining => exact fun c ↦ ByteScan.map_ok (ByteScan.remaining_toBytes c)
  | peek => exact fun c ↦ ByteScan.map_ok (ByteScan.peek_toBytes c)
  | isDone =>
    intro c
    have hdone : (c.toBytes.position == c.toBytes.source.byteLength) = c.isDone := by
      rw [Bool.eq_iff_iff, beq_iff_eq, Cursor.isDone, List.isEmpty_iff]
      exact c.offset_eq_byteLength_iff
    exact congrArg (fun b ↦ EStateM.Result.ok (Value.flag b) c.toBytes) hdone
  | charOffset =>
    intro c
    have hcount := ByteScan.map_ok (f := fun t ↦ Value.count t.length) (ByteScan.consumed_toBytes c)
    rwa [c.length_consumed] at hcount
  | tryConsume literal =>
    have hconsume := (ByteScan.tryConsume_follows literal).map Value.flag
    rwa [Functor.map_map] at hconsume
  | tryConsumeChar ch =>
    have hconsume := (ByteScan.tryConsume_follows [ch]).map Value.flag
    rwa [Functor.map_map] at hconsume
  | consume literal => exact (ByteScan.consume_follows literal).map _
  | consumeThrough separator => exact (ByteScan.consumeThrough_follows separator).map _
  | consumeUpTo separator => exact (ByteScan.consumeUpTo_follows separator).map _
  | consumeCopiesOf ch => exact (ByteScan.consumeCopiesOf_follows ch).map _
  | consumeWhile p => exact (ByteScan.consumeWhile_follows p.test).map _
  | consumeBlanks => exact (ByteScan.consumeWhile_follows (.ofBool isBlank)).map _
  | tryConsumeNext => exact ByteScan.tryConsumeNext_follows.map _
  | consumeNext => exact ByteScan.consumeNext_follows.map _
  | tryConsumeNextN n => exact (ByteScan.tryConsumeNextN_follows n).map _
  | consumeNextN n => exact (ByteScan.consumeNextN_follows n).map _
  | consumeRest => exact ByteScan.consumeRest_follows.map _
  | tryReadInteger type => exact (ByteScan.tryReadInteger_follows type).map _
  | readInteger type =>
    exact (ByteScan.orRaise_follows (ByteScan.tryReadInteger_follows type)).map _
  | tryReadHex => exact ByteScan.tryReadHex_follows.map _
  | readHex => exact (ByteScan.orRaise_follows ByteScan.tryReadHex_follows).map _
  | readWord => exact ByteScan.readWord_follows.map _

theorem Operation.runBytes_of_run {op : Operation} {c next : Cursor} {v : Value}
    (h : op.run c = .ok v next) : op.runBytes c.toBytes = .ok v next.toBytes := by
  rw [op.runBytes_follows c, h]
  rfl

theorem Operation.runBytes_eq_ok_iff {op : Operation} {c : Cursor} {v : Value} {b : ByteCursor} :
    op.runBytes c.toBytes = .ok v b ↔ ∃ next, op.run c = .ok v next ∧ b = next.toBytes := by
  constructor
  · intro h
    rw [op.runBytes_follows c] at h
    cases hrun : op.run c with
    | ok w next =>
      rw [hrun] at h
      cases h
      exact ⟨next, rfl, rfl⟩
    | error e next =>
      rw [hrun] at h
      cases h
  · rintro ⟨next, hrun, rfl⟩
    exact runBytes_of_run hrun

namespace ByteScan

variable {α : Type}

def element (d : Delimiters) (read : ByteScan α) (index : Nat) : ByteScan α := do
  consumeCopiesOf d.padding
  let start ← position
  onJournal (·.enter index)
  let a ← read
  record start .listElement
  onJournal Journal.leave
  return a

/-- The rounds bound the number of elements; a list that runs out of them goes out of bounds. -/
def elementsFrom (d : Delimiters) (read : ByteScan α) : Nat → Nat → ByteScan (List α)
  | 0, _ => require fun _ ↦ none
  | rounds + 1, index => do
    let a ← element d read index
    if ← tryConsume [d.separator] then
      let as ← elementsFrom d read rounds (index + 1)
      return a :: as
    else return [a]

def readListWith (d : Delimiters) (read : ByteScan α) : ByteScan (List α) := do
  let source ← view ByteCursor.source
  elementsFrom d read (source.length + 1) 0

def readList (read : ByteScan α) : ByteScan (List α) := do
  let d ← view ByteCursor.delimiters
  readListWith d read

section Lists

variable {d : Delimiters} {bytes : ByteScan α} {read : Scan α}
variable (h : bytes.Follows read) (honward : ∀ c : Cursor, c.Onward (ending (read c)))
include h honward

theorem element_follows (index : Nat) :
    (element d bytes index).Follows (Scan.element d read index) := by
  intro c
  have hskip : consumeCopiesOf d.padding c.toBytes = .ok () (c.skipCopies d.padding).toBytes :=
    consumeCopiesOf_follows d.padding c
  have henter : onJournal (·.enter index) (c.skipCopies d.padding).toBytes =
      .ok () ((c.skipCopies d.padding).enter index).toBytes := rfl
  have hread := h ((c.skipCopies d.padding).enter index)
  rw [element, bind_ok hskip, bind_ok (position_toBytes _), bind_ok henter]
  cases hr : read ((c.skipCopies d.padding).enter index) with
  | error e next =>
    rw [hr] at hread
    rw [Scan.element_error hr, bind_error hread]
    rfl
  | ok a next =>
    have honward := honward ((c.skipCopies d.padding).enter index)
    rw [hr] at hread honward
    have hsource : next.source = (c.skipCopies d.padding).source := honward.source
    rw [Scan.element_ok hr, bind_ok hread, bind_ok (record_toBytes next hsource _)]
    rfl

theorem elementsFrom_follows {rounds index : Nat} {ahead : Text} {c : Cursor}
    (hrounds : c.remaining.length < rounds) (hahead : c.remaining.length ≤ ahead.length) :
    elementsFrom d bytes rounds index c.toBytes =
      retell Cursor.toBytes (Scan.elementsFrom d read ahead index c) := by
  induction rounds generalizing ahead index c with
  | zero => omega
  | succ rounds ih =>
    have helement := element_follows h honward (d := d) index c
    rw [elementsFrom]
    cases hr : Scan.element d read index c with
    | error e next =>
      rw [hr] at helement
      rw [Scan.elementsFrom_error hr, bind_error helement]
      rfl
    | ok a next =>
      have hsep := tryConsume_follows [d.separator] next
      rw [hr] at helement
      rw [bind_ok helement]
      cases hafter : next.consumeChar? d.separator with
      | none =>
        have hnone : next.consume? [d.separator] = none := hafter
        rw [Scan.map_ok (Scan.attempt_unit_none hnone)] at hsep
        rw [Scan.elementsFrom_last hr hafter, bind_ok hsep]
        rfl
      | some after =>
        obtain ⟨_, rest, hcons, hle⟩ := Scan.exists_ahead honward hahead hr hafter
        have hshort : after.remaining.length < rounds := by
          have hnext := (Scan.element_onward honward hr).length_remaining_le
          rw [Cursor.remaining_of_consumeChar? hafter, List.length_cons] at hnext
          omega
        subst hcons
        have hsome : next.consume? [d.separator] = some after := hafter
        rw [Scan.map_ok (Scan.attempt_unit_some hsome)] at hsep
        rw [Scan.elementsFrom_cons hr hafter, bind_ok hsep]
        have hrest : elementsFrom d bytes rounds (index + 1) after.toBytes =
            retell Cursor.toBytes (Scan.elementsFrom d read rest (index + 1) after) :=
          ih hshort hle
        cases hlast : Scan.elementsFrom d read rest (index + 1) after with
        | ok as last =>
          rw [hlast] at hrest
          exact bind_ok hrest
        | error e last =>
          rw [hlast] at hrest
          exact bind_error hrest

theorem readListWith_follows : (readListWith d bytes).Follows (Scan.readListWith d read) := by
  intro c
  have hshort : c.remaining.length < c.source.length + 1 := by
    rw [Cursor.source, List.length_append]
    omega
  rw [readListWith, bind_ok (view_run _ _)]
  exact elementsFrom_follows h honward hshort (Nat.le_refl _)

theorem readList_follows : (readList bytes).Follows (Scan.readList read) := by
  intro c
  rw [readList, bind_ok (view_run _ _)]
  exact readListWith_follows h honward c

end Lists

end ByteScan

end TextCursor
