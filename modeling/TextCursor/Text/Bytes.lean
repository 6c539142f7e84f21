namespace TextCursor

/-- A text is the list of its characters. Places in it are counted in bytes of its UTF-8 form. -/
abbrev Text := List Char

namespace Text

def bytes (t : Text) : List UInt8 :=
  t.flatMap String.utf8EncodeChar

def byteLength : Text → Nat
  | [] => 0
  | c :: rest => c.utf8Size + byteLength rest

/-- Cuts a text at a byte position. A position inside a character cuts before that character. -/
def splitAtByte : Nat → Text → Text × Text
  | _, [] => ([], [])
  | n, c :: rest =>
    if c.utf8Size ≤ n then
      let (before, after) := splitAtByte (n - c.utf8Size) rest
      (c :: before, after)
    else ([], c :: rest)

/-- The piece of `source` that reaches `width` characters to each side of a byte position, or to
the end of the text where fewer remain. -/
def window (source : Text) (position width : Nat) : Text :=
  let (before, after) := splitAtByte position source
  before.drop (before.length - width) ++ after.take width

def firstByte? (b : UInt8) : Text → Option Nat
  | [] => none
  | c :: rest =>
    match (String.utf8EncodeChar c).idxOf? b with
    | some i => some i
    | none => (firstByte? b rest).map (· + c.utf8Size)

def firstChar? (separator : Char) : Text → Option Nat
  | [] => none
  | c :: rest =>
    if c = separator then some 0 else (firstChar? separator rest).map (· + c.utf8Size)

/-- An ASCII separator is searched among the bytes, which is sound because all bytes of a longer
encoding lie outside ASCII; any other separator is searched among the characters. -/
def indexOf? (separator : Char) (t : Text) : Option Nat :=
  if separator.toNat < 128 then firstByte? (UInt8.ofNat separator.toNat) t
  else firstChar? separator t

@[simp] theorem byteLength_nil : byteLength [] = 0 := rfl

@[simp] theorem byteLength_cons (c : Char) (t : Text) :
    byteLength (c :: t) = c.utf8Size + byteLength t := rfl

@[simp] theorem byteLength_append (a b : Text) :
    byteLength (a ++ b) = byteLength a + byteLength b := by
  induction a with
  | nil => simp
  | cons c a ih => simp [ih, Nat.add_assoc]

@[simp] theorem byteLength_reverse (t : Text) : byteLength t.reverse = byteLength t := by
  induction t with
  | nil => rfl
  | cons c t ih => simp [ih, Nat.add_comm]

theorem length_bytes (t : Text) : (bytes t).length = byteLength t := by
  induction t with
  | nil => rfl
  | cons c t ih => simpa [bytes] using ih

theorem splitAtByte_append (a b : Text) : splitAtByte (byteLength a) (a ++ b) = (a, b) := by
  induction a with
  | nil => cases b <;> simp [splitAtByte, Nat.not_le.2 (Char.utf8Size_pos _)]
  | cons c a ih => simp [splitAtByte, ih]

end Text

end TextCursor
