import TextCursor.Cursor.Consumption

namespace TextCursor

/-- A reading that takes its text for well formed: it gives a value or fails, and either way leaves
the cursor where it came to. -/
abbrev Scan := EStateM Failure Cursor

namespace Scan

variable {α : Type}

def view (f : Cursor → α) : Scan α :=
  fun c ↦ .ok (f c) c

def move (f : Cursor → α × Cursor) : Scan α :=
  fun c ↦ .ok (f c).1 (f c).2

/-- Absence is an answer, and leaves the cursor as it was. -/
def attempt (f : Cursor → Option (α × Cursor)) : Scan (Option α) :=
  fun c ↦
    match f c with
    | some (a, next) => .ok (some a) next
    | none => .ok none c

def attemptExcept (f : Cursor → Except Failure (α × Cursor)) : Scan (Except Failure α) :=
  fun c ↦
    match f c with
    | .ok (a, next) => .ok (.ok a) next
    | .error e => .ok (.error e) c

/-- Absence is a failure at the place where the cursor stands. -/
def demand (f : Cursor → Option (α × Cursor)) (cause : Cursor → Cause) : Scan α :=
  fun c ↦
    match f c with
    | some (a, next) => .ok a next
    | none => .error ⟨cause c, c.offset⟩ c

def demandExcept (f : Cursor → Except Failure (α × Cursor)) : Scan α :=
  fun c ↦
    match f c with
    | .ok (a, next) => .ok a next
    | .error e => .error e c

def consume (literal : Text) : Scan Unit :=
  demand (fun c ↦ (c.consume? literal).map ((), ·)) fun c ↦
    .unexpectedLiteral literal (c.remaining.take literal.length)

def next : Scan Char :=
  demand Cursor.next? fun _ ↦ .unexpectedEnd 1 0

def nextN (n : Nat) : Scan Text :=
  demand (Cursor.nextN? n) fun c ↦ .unexpectedEnd n c.remaining.length

def readInteger (t : IntegerType) : Scan Int :=
  demandExcept (Cursor.readInteger? t)

def readHex : Scan Int :=
  demandExcept Cursor.readHex?

def readWord : Scan Text :=
  move Cursor.readWord

/-- Reads one element after its padding. While it is being read its index is on the path, and there
it stays if the reading fails. -/
def element (d : Delimiters) (read : Scan α) (index : Nat) : Scan α :=
  fun c ↦
    let start := c.skipCopies d.padding
    match read (start.enter index) with
    | .ok a next => .ok a (next.record start .listElement).leave
    | .error e next => .error e next

/-- Reads elements from the one of the given index on, until one is not followed by the separator.
Each element but the last costs a separator, so the text that lay ahead bounds their number; only a
reading that gives text back can come to the bound, and the list ends there. -/
def elementsFrom (d : Delimiters) (read : Scan α) :
    Text → Nat → Cursor → EStateM.Result Failure Cursor (List α)
  | ahead, index, c =>
    match element d read index c with
    | .error e next => .error e next
    | .ok a next =>
      match next.consumeChar? d.separator with
      | none => .ok [a] next
      | some next =>
        match ahead with
        | [] => .ok [a] next
        | _ :: ahead =>
          match elementsFrom d read ahead (index + 1) next with
          | .ok as last => .ok (a :: as) last
          | .error e last => .error e last

def readListWith (d : Delimiters) (read : Scan α) : Scan (List α) :=
  fun c ↦ elementsFrom d read c.remaining 0 c

def readList (read : Scan α) : Scan (List α) :=
  fun c ↦ readListWith c.delimiters read c

end Scan

end TextCursor
