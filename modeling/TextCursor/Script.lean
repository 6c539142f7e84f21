import TextCursor.Operation

namespace TextCursor

/-- A cursor and the snapshots of it that have been put aside under a name. -/
structure Session where
  cursor : Cursor
  slots : List (String × Cursor) := []

namespace Session

variable {α : Type}

def save (slot : String) (s : Session) : Session :=
  { s with slots := (slot, s.cursor) :: s.slots }

def restore? (slot : String) (s : Session) : Option Session :=
  (s.slots.lookup slot).map fun c ↦ { s with cursor := c }

def scan (read : Scan α) : EStateM Failure Session α :=
  fun s ↦
    match read s.cursor with
    | .ok a c => .ok a { s with cursor := c }
    | .error e c => .error e { s with cursor := c }

/-- Runs a session of its own on a cursor; its slots are gone afterwards. -/
def within (run : EStateM Failure Session α) : Scan α :=
  fun c ↦
    match run ⟨c, []⟩ with
    | .ok a s => .ok a s.cursor
    | .error e s => .error e s.cursor

end Session

mutual

/-- What can be read as one value: an integer, a word, a character, a list of the cursor's form or
of a form of its own, or the answers of steps taken one after another. -/
inductive Shape
  | integer (type : IntegerType)
  | word
  | char
  | list (element : Shape)
  | listWith (delimiters : Delimiters) (element : Shape)
  | steps (steps : List Step)

inductive Step
  | perform (operation : Operation)
  | read (shape : Shape)
  | save (slot : String)
  | restore (slot : String)

end

abbrev Shape.commaList (element : Shape) : Shape :=
  .listWith {} element

mutual

def Shape.read : Shape → Scan Value
  | .integer type => .integer <$> Scan.readInteger type
  | .word => .text <$> Scan.readWord
  | .char => .char <$> Scan.next
  | .list element => .list <$> Scan.readList element.read
  | .listWith delimiters element => .list <$> Scan.readListWith delimiters element.read
  | .steps steps => .list <$> Session.within (Step.runAll steps)

def Step.run : Step → EStateM Failure Session Value
  | .perform operation => Session.scan operation.run
  | .read shape => Session.scan shape.read
  | .save slot => fun s ↦ .ok .nothing (s.save slot)
  | .restore slot => fun s ↦ .ok (.flag (s.restore? slot).isSome) ((s.restore? slot).getD s)

/-- Takes the steps in order, up to the first that fails. -/
def Step.runAll : List Step → EStateM Failure Session (List Value)
  | [] => fun s ↦ .ok [] s
  | step :: rest => fun s ↦
    match step.run s with
    | .error e s => .error e s
    | .ok v s =>
      match Step.runAll rest s with
      | .ok vs s => .ok (v :: vs) s
      | .error e s => .error e s

end

structure Report where
  outcome : Except Failure Value
  cursor : Cursor

def Step.report (step : Step) (s : Session) : Report × Session :=
  match step.run s with
  | .ok v s => (⟨.ok v, s.cursor⟩, s)
  | .error e s => (⟨.error e, s.cursor⟩, s)

/-- Takes all steps in order. After a failure the next step goes on from the cursor as it was
left. -/
def runScript : List Step → Session → List Report × Session
  | [], s => ([], s)
  | step :: rest, s =>
    let (report, s) := step.report s
    let (reports, s) := runScript rest s
    (report :: reports, s)

end TextCursor
