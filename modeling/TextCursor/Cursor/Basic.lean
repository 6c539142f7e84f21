import TextCursor.Journal

namespace TextCursor

/-- A place in a text, with the list form and the journal of the reading that is under way. A copy
of a cursor is a snapshot: going back to it brings its journal back too. -/
structure Cursor where
  /-- What lies before the place, its last character first. -/
  behind : Text
  remaining : Text
  delimiters : Delimiters
  journal : Journal

namespace Cursor

def ofText (s : Settings) (t : Text) : Cursor :=
  ⟨[], t, s.delimiters, .ofSettings s⟩

def consumed (c : Cursor) : Text :=
  c.behind.reverse

def source (c : Cursor) : Text :=
  c.consumed ++ c.remaining

def offset (c : Cursor) : Nat :=
  c.behind.byteLength

def charOffset (c : Cursor) : Nat :=
  c.behind.length

def isDone (c : Cursor) : Bool :=
  c.remaining.isEmpty

def peek? (c : Cursor) : Option Char :=
  c.remaining.head?

/-- Moves over `n` characters, or to the end where fewer remain. -/
def advance (n : Nat) (c : Cursor) : Cursor :=
  { c with behind := (c.remaining.take n).reverse ++ c.behind, remaining := c.remaining.drop n }

/-- Notes an extraction that began at `start` and has led to this cursor. -/
def record (c start : Cursor) (event : Event) : Cursor :=
  if c.journal.enabled then
    { c with journal := c.journal.push (c.journal.entry c.source start.offset event) }
  else c

def enter (index : Nat) (c : Cursor) : Cursor :=
  { c with journal := c.journal.enter index }

def leave (c : Cursor) : Cursor :=
  { c with journal := c.journal.leave }

def takeEntries (c : Cursor) : List Entry × Cursor :=
  (c.journal.entries, { c with journal := { c.journal with entries := [] } })

theorem byteLength_consumed (c : Cursor) : c.consumed.byteLength = c.offset := by
  simp [consumed, offset]

@[simp] theorem consumed_advance (n : Nat) (c : Cursor) :
    (c.advance n).consumed = c.consumed ++ c.remaining.take n := by
  simp [advance, consumed]

@[simp] theorem remaining_advance (n : Nat) (c : Cursor) :
    (c.advance n).remaining = c.remaining.drop n := rfl

@[simp] theorem source_advance (n : Nat) (c : Cursor) : (c.advance n).source = c.source := by
  simp [source]

end Cursor

end TextCursor
