import TextCursor.Cursor.Basic
import TextCursor.IntegerType
import TextCursor.Text.CharClass

namespace TextCursor

inductive Cause
  | unexpectedLiteral (expected found : Text)
  | unexpectedEnd (wanted available : Nat)
  | missingDigits (radix : Nat)
  | outOfRange (token target : Text)
  | trailingInput (text : Text)
  deriving DecidableEq

/-- A cause and the byte position it was found at. -/
structure Failure where
  cause : Cause
  position : Nat
  deriving DecidableEq

/-- The texts stand in the message as they are, with nothing escaped. -/
def Cause.message : Cause → String
  | unexpectedLiteral expected found =>
    "tried to consume '" ++ String.ofList expected ++ "' but input started with '" ++
      String.ofList found ++ "' instead"
  | unexpectedEnd wanted available =>
    "tried to consume " ++ toString wanted ++ " characters but only " ++ toString available ++
      " remain"
  | missingDigits radix => "expected base-" ++ toString radix ++ " digits"
  | outOfRange token target =>
    "'" ++ String.ofList token ++ "' does not fit in " ++ String.ofList target
  | trailingInput text => "unconsumed input '" ++ String.ofList text ++ "'"

def Failure.message (f : Failure) : String :=
  f.cause.message ++ " at position " ++ toString f.position

namespace Cursor

variable {σ : Type}

/-- An empty text is no extraction. -/
def recordText (c start : Cursor) (event : Event) (fragment : Text) : Cursor :=
  if fragment.isEmpty then c else c.record start event

def consume? (literal : Text) (c : Cursor) : Option Cursor :=
  if literal.isPrefixOf c.remaining then
    some ((c.advance literal.length).recordText c .literal literal)
  else none

def consumeChar? (ch : Char) (c : Cursor) : Option Cursor :=
  c.consume? [ch]

def fragmentBefore? (separator : Char) (c : Cursor) : Option Text :=
  (c.remaining.indexOf? separator).map fun i ↦ (c.remaining.splitAtByte i).1

/-- Consumes the text before the separator and the separator too. -/
def consumeThrough? (separator : Char) (c : Cursor) : Option (Text × Cursor) :=
  (c.fragmentBefore? separator).map fun fragment ↦
    (fragment, (c.advance (fragment.length + 1)).record c .throughSeparator)

/-- Consumes the text before the separator, which comes next then. -/
def consumeUpTo? (separator : Char) (c : Cursor) : Option (Text × Cursor) :=
  (c.fragmentBefore? separator).map fun fragment ↦
    (fragment, (c.advance fragment.length).record c .upToSeparator)

def consumeWhile (test : CharTest σ) (c : Cursor) : Text × Cursor :=
  let n := test.accepted c.remaining
  (c.remaining.take n, c.advance n)

def consumeBlanks (c : Cursor) : Text × Cursor :=
  c.consumeWhile (.ofBool isBlank)

def skipCopies (ch : Char) (c : Cursor) : Cursor :=
  c.advance (c.remaining.takeWhile (· == ch)).length

def next? (c : Cursor) : Option (Char × Cursor) :=
  c.remaining.head?.map fun ch ↦ (ch, c.advance 1)

def nextN? (n : Nat) (c : Cursor) : Option (Text × Cursor) :=
  if n ≤ c.remaining.length then some (c.remaining.take n, c.advance n) else none

def consumeRest (c : Cursor) : Text × Cursor :=
  (c.remaining, (c.advance c.remaining.length).recordText c .rest c.remaining)

def readWord (c : Cursor) : Text × Cursor :=
  let (word, next) := c.consumeWhile (.ofBool isWordCharacter)
  (word, next.recordText c .word word)

/-- Reads a decimal number of the given type, or tells why none can be read here. -/
def readInteger? (t : IntegerType) (c : Cursor) : Except Failure (Int × Cursor) :=
  let written := Decimal.ahead c.remaining
  if written.digits.isEmpty then
    .error ⟨.missingDigits 10, c.offset + written.signText.byteLength⟩
  else
    match t.ofDecimal? written with
    | some v => .ok (v, (c.advance written.text.length).record c .integer)
    | none => .error ⟨.outOfRange written.text t.name.toList, c.offset⟩

/-- Reads a hexadecimal number that fits a signed integer of 64 bits. -/
def readHex? (c : Cursor) : Except Failure (Int × Cursor) :=
  let written := Hexadecimal.ahead c.remaining
  if written.digits.isEmpty then
    .error ⟨.missingDigits 16, c.offset + written.marker.byteLength⟩
  else if (written.value : Int) ≤ IntegerType.int64.max then
    .ok (written.value, (c.advance written.text.length).record c .hexadecimal)
  else .error ⟨.outOfRange written.digits IntegerType.int64.name.toList, c.offset⟩

end Cursor

end TextCursor
