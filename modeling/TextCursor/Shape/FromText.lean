import TextCursor.Script

namespace TextCursor

namespace Shape

def fromTextWithLog (s : Settings) (shape : Shape) (t : Text) :
    Except Failure (Value × List Entry) :=
  match shape.read (.ofText s t) with
  | .ok v c => .ok (v, c.takeEntries.1)
  | .error e _ => .error e

/-- Reads a value from the start of a text, whatever follows it. -/
def fromText (shape : Shape) (t : Text) : Except Failure Value :=
  match shape.read (.ofText {} t) with
  | .ok v _ => .ok v
  | .error e _ => .error e

/-- Reads a value that has to make up the whole text. The outer failure is the reading's own, the
inner one says what it left over. -/
def fromWholeText (shape : Shape) (t : Text) : Except Failure (Except Failure Value) :=
  match shape.read (.ofText {} t) with
  | .ok v c => .ok (if c.isDone then .ok v else .error ⟨.trailingInput c.remaining, c.offset⟩)
  | .error e _ => .error e

end Shape

def parse (shape : Shape) (t : Text) : Except Failure Value :=
  shape.fromText t

structure Transcript where
  reports : List Report
  remaining : Text
  entries : List Entry

def transcript (s : Settings) (t : Text) (steps : List Step) : Transcript :=
  let (reports, session) := runScript steps ⟨.ofText s t, []⟩
  ⟨reports, session.cursor.remaining, session.cursor.takeEntries.1⟩

end TextCursor
