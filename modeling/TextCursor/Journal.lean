import TextCursor.Text.Bytes

namespace TextCursor

/-- The form of a list: a separator between elements, and copies of the padding before each. -/
structure Delimiters where
  separator : Char := ','
  padding : Char := ' '
  deriving DecidableEq

structure Settings where
  logging : Bool := false
  window : Nat := 10
  listPaths : Bool := false
  delimiters : Delimiters := {}
  deriving DecidableEq

inductive Event
  | literal
  | throughSeparator
  | upToSeparator
  | rest
  | integer
  | hexadecimal
  | word
  | listElement
  deriving DecidableEq

def Event.message : Event → String
  | literal => "consumed literal"
  | throughSeparator => "consumed through separator"
  | upToSeparator => "consumed up to separator"
  | rest => "consumed rest"
  | integer => "read integer"
  | hexadecimal => "read hex integer"
  | word => "read word"
  | listElement => "read list element"

/-- The indexes of the list elements being read, outermost first. -/
abbrev Path := List Nat

def Path.render (p : Path) : Text :=
  '$' :: p.flatMap fun i ↦ '[' :: Nat.toDigits 10 i ++ [']']

/-- One successful extraction: where it began, the text around that place, and the list elements it
lay in if these are tracked. -/
structure Entry where
  position : Nat
  event : Event
  context : Text
  path : Option Path
  deriving DecidableEq

structure Journal where
  enabled : Bool
  window : Nat
  tracksPath : Bool
  entries : List Entry := []
  path : Path := []
  deriving DecidableEq

namespace Journal

def ofSettings (s : Settings) : Journal :=
  { enabled := s.logging, window := s.window, tracksPath := s.listPaths }

def entry (j : Journal) (source : Text) (position : Nat) (event : Event) : Entry :=
  ⟨position, event, source.window position j.window, if j.tracksPath then some j.path else none⟩

def push (j : Journal) (e : Entry) : Journal :=
  { j with entries := j.entries ++ [e] }

/-- Indexes are kept only where some entry may show them. -/
def enter (j : Journal) (index : Nat) : Journal :=
  if j.enabled && j.tracksPath then { j with path := j.path ++ [index] } else j

def leave (j : Journal) : Journal :=
  if j.enabled && j.tracksPath then { j with path := j.path.dropLast } else j

end Journal

end TextCursor
