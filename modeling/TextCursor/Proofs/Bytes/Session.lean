import TextCursor.Proofs.Bytes.Reading
import TextCursor.Proofs.Reading.Visit

namespace TextCursor

structure ByteSession where
  cursor : ByteCursor
  slots : List (String × ByteCursor) := []

namespace ByteSession

variable {α : Type}

def scan (read : ByteScan α) : EStateM Panic ByteSession α :=
  fun s ↦
    match read s.cursor with
    | .ok a c => .ok a { s with cursor := c }
    | .error e c => .error e { s with cursor := c }

def within (run : EStateM Panic ByteSession α) : ByteScan α :=
  fun c ↦
    match run ⟨c, []⟩ with
    | .ok a s => .ok a s.cursor
    | .error e s => .error e s.cursor

end ByteSession

mutual

def Shape.readBytes : Shape → ByteScan Value
  | .integer type => .integer <$> ByteScan.readInteger type
  | .word => .text <$> ByteScan.readWord
  | .char => .char <$> ByteScan.consumeNext
  | .list element => .list <$> ByteScan.readList element.readBytes
  | .listWith delimiters element => .list <$> ByteScan.readListWith delimiters element.readBytes
  | .steps steps => .list <$> ByteSession.within (Step.runAllBytes steps)

def Step.runBytes : Step → EStateM Panic ByteSession Value
  | .perform operation => ByteSession.scan operation.runBytes
  | .read shape => ByteSession.scan shape.readBytes
  | .save slot => fun s ↦ .ok .nothing { s with slots := (slot, s.cursor) :: s.slots }
  | .restore slot => fun s ↦
    match s.slots.lookup slot with
    | some c => .ok (.flag true) { s with cursor := c }
    | none => .ok (.flag false) s

def Step.runAllBytes : List Step → EStateM Panic ByteSession (List Value)
  | [] => fun s ↦ .ok [] s
  | step :: rest => fun s ↦
    match step.runBytes s with
    | .error e s => .error e s
    | .ok v s =>
      match Step.runAllBytes rest s with
      | .ok vs s => .ok (v :: vs) s
      | .error e s => .error e s

end

theorem lookup_map {κ α β : Type} [BEq κ] (f : α → β) (k : κ) (l : List (κ × α)) :
    (l.map fun (key, a) ↦ (key, f a)).lookup k = (l.lookup k).map f := by
  induction l with
  | nil => rfl
  | cons entry l ih =>
    obtain ⟨key, a⟩ := entry
    rw [List.map_cons, List.lookup_cons, List.lookup_cons, ih]
    split <;> rfl

def Session.toBytes (s : Session) : ByteSession :=
  ⟨s.cursor.toBytes, s.slots.map fun (slot, c) ↦ (slot, c.toBytes)⟩

theorem Session.scan_toBytes {α : Type} {bytes : ByteScan α} {read : Scan α}
    (h : bytes.Follows read) (s : Session) :
    ByteSession.scan bytes s.toBytes = retell Session.toBytes (Session.scan read s) := by
  have hcursor : bytes s.toBytes.cursor = retell Cursor.toBytes (read s.cursor) := h s.cursor
  rw [ByteSession.scan, Session.scan, hcursor]
  cases read s.cursor <;> rfl

theorem Step.run_toBytes {step : Step}
    (hread : ∀ shape, step = .read shape → shape.readBytes.Follows shape.read) (s : Session) :
    step.runBytes s.toBytes = retell Session.toBytes (step.run s) := by
  cases step with
  | perform op => exact Session.scan_toBytes op.runBytes_follows s
  | read shape => exact Session.scan_toBytes (hread shape rfl) s
  | save slot => rfl
  | restore slot =>
    have hlookup : s.toBytes.slots.lookup slot = (s.slots.lookup slot).map Cursor.toBytes :=
      lookup_map Cursor.toBytes slot s.slots
    simp only [Step.runBytes, Step.run, Session.restore?, hlookup]
    cases s.slots.lookup slot <;> rfl

theorem Step.runAll_toBytes {steps : List Step}
    (hread : ∀ shape, .read shape ∈ steps → shape.readBytes.Follows shape.read) (s : Session) :
    Step.runAllBytes steps s.toBytes = retell Session.toBytes (Step.runAll steps s) := by
  induction steps generalizing s with
  | nil => rfl
  | cons step rest ih =>
    have hstep := Step.run_toBytes (fun shape he ↦ hread shape (he ▸ List.mem_cons_self)) s
    simp only [Step.runAllBytes, Step.runAll, hstep]
    cases step.run s with
    | error e next => rfl
    | ok v next =>
      have hrest := ih (fun shape he ↦ hread shape (List.mem_cons_of_mem _ he)) next
      simp only [retell, hrest]
      cases Step.runAll rest next <;> rfl

theorem Shape.readBytes_follows (shape : Shape) : shape.readBytes.Follows shape.read := by
  induction shape with
  | integer type =>
    exact (ByteScan.orRaise_follows (ByteScan.tryReadInteger_follows type)).map _
  | word => exact ByteScan.readWord_follows.map _
  | char => exact ByteScan.consumeNext_follows.map _
  | list element ih => exact (ByteScan.readList_follows ih element.read_onward).map _
  | listWith d element ih => exact (ByteScan.readListWith_follows ih element.read_onward).map _
  | steps steps ih =>
    have hwithin : (ByteSession.within (Step.runAllBytes steps)).Follows
        (Session.within (Step.runAll steps)) := by
      intro c
      have hall := Step.runAll_toBytes ih ⟨c, []⟩
      rw [ByteSession.within, Session.within,
        show (⟨c.toBytes, []⟩ : ByteSession) = Session.toBytes ⟨c, []⟩ from rfl, hall]
      cases Step.runAll steps ⟨c, []⟩ <;> rfl
    exact hwithin.map _

end TextCursor
