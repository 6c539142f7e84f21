import TextCursor.Operation
import TextCursor.Proofs.Text.Cut

namespace TextCursor

/-- A cursor as a byte position in its text. Nothing in it keeps the position between two
characters, or in the text at all. -/
structure ByteCursor where
  source : Text
  position : Nat
  delimiters : Delimiters
  journal : Journal

/-- A run over byte positions ends with a failure like any other run. Where it cuts a text at a
position that is not there, or takes more from a length than there is, it goes out of bounds. -/
inductive Panic
  | failure (e : Failure)
  | bounds

abbrev ByteScan := EStateM Panic ByteCursor

namespace ByteScan

variable {α σ : Type}

def view (f : ByteCursor → α) : ByteScan α :=
  fun c ↦ .ok (f c) c

def require (f : ByteCursor → Option α) : ByteScan α :=
  fun c ↦
    match f c with
    | some a => .ok a c
    | none => .error .bounds c

def raise (e : Failure) : ByteScan α :=
  fun c ↦ .error (.failure e) c

def fail (cause : Cause) : ByteScan α :=
  fun c ↦ raise ⟨cause, c.position⟩ c

def moveTo (position : Nat) : ByteScan Unit :=
  fun c ↦ .ok () { c with position := position }

def skip (n : Nat) : ByteScan Unit :=
  fun c ↦ moveTo (c.position + n) c

def position : ByteScan Nat :=
  view ByteCursor.position

def consumed : ByteScan Text :=
  require fun c ↦ (c.source.cut? c.position).map Prod.fst

def remaining : ByteScan Text :=
  require fun c ↦ (c.source.cut? c.position).map Prod.snd

def advance (n : Nat) : ByteScan Text := do
  let fragment ← require fun c ↦ c.source.slice? c.position (c.position + n)
  skip n
  return fragment

def onJournal (f : Journal → Journal) : ByteScan Unit :=
  fun c ↦ .ok () { c with journal := f c.journal }

def takeLog : ByteScan (List Entry) := do
  let entries ← view (·.journal.entries)
  onJournal fun j ↦ { j with entries := [] }
  return entries

def record (start : Nat) (event : Event) : ByteScan Unit := do
  let journal ← view ByteCursor.journal
  if journal.enabled then
    let (before, after) ← require (·.source.cut? start)
    let context := before.drop (before.length - journal.window) ++ after.take journal.window
    let path := if journal.tracksPath then some journal.path else none
    onJournal (·.push ⟨start, event, context, path⟩)
  else return ()

def recordText (start : Nat) (event : Event) (fragment : Text) : ByteScan Unit :=
  if fragment.isEmpty then return () else record start event

def peek : ByteScan (Option Char) :=
  List.head? <$> remaining

def tryConsume (literal : Text) : ByteScan Bool := do
  let rest ← remaining
  if literal.bytes.isPrefixOf rest.bytes then
    let start ← position
    let _ ← advance literal.byteLength
    recordText start .literal literal
    return true
  else return false

def consume (literal : Text) : ByteScan Unit := do
  if ← tryConsume literal then return ()
  else
    let rest ← remaining
    fail (.unexpectedLiteral literal (rest.take literal.length))

def find (separator : Char) : ByteScan (Option Nat) := do
  let rest ← remaining
  if separator.toNat < 128 then return rest.bytes.idxOf? (UInt8.ofNat separator.toNat)
  else return rest.firstChar? separator

def consumeThrough (separator : Char) : ByteScan (Option Text) := do
  match ← find separator with
  | none => return none
  | some i =>
    let start ← position
    let fragment ← advance i
    skip separator.utf8Size
    record start .throughSeparator
    return some fragment

def consumeUpTo (separator : Char) : ByteScan (Option Text) := do
  match ← find separator with
  | none => return none
  | some i =>
    let start ← position
    let fragment ← advance i
    record start .upToSeparator
    return some fragment

def consumeCopiesOf (ch : Char) : ByteScan Unit := do
  let rest ← remaining
  let target ← require fun c ↦ sub? c.source.byteLength (Text.byteLength (rest.dropWhile (· == ch)))
  moveTo target

def consumeWhile (test : CharTest σ) : ByteScan Text := do
  let rest ← remaining
  let n ← require fun _ ↦ sub? rest.byteLength (Text.byteLength (rest.drop (test.accepted rest)))
  advance n

def tryConsumeNext : ByteScan (Option Char) := do
  match ← peek with
  | none => return none
  | some ch =>
    skip ch.utf8Size
    return some ch

def consumeNext : ByteScan Char := do
  match ← tryConsumeNext with
  | some ch => return ch
  | none => fail (.unexpectedEnd 1 0)

def tryConsumeNextN (n : Nat) : ByteScan (Option Text) := do
  let rest ← remaining
  if n < rest.length then some <$> advance (Text.byteLength (rest.take n))
  else if rest.length = n then some <$> advance rest.byteLength
  else return none

def consumeNextN (n : Nat) : ByteScan Text := do
  match ← tryConsumeNextN n with
  | some fragment => return fragment
  | none =>
    let rest ← remaining
    fail (.unexpectedEnd n rest.length)

def consumeRest : ByteScan Text := do
  let start ← position
  let n ← require fun c ↦ sub? c.source.byteLength c.position
  let fragment ← advance n
  recordText start .rest fragment
  return fragment

def readWord : ByteScan Text := do
  let start ← position
  let word ← consumeWhile (.ofBool isWordCharacter)
  recordText start .word word
  return word

/-- Digits and signs are counted, and the counts taken for lengths in bytes. -/
def tryReadInteger (t : IntegerType) : ByteScan (Except Failure Int) := do
  let rest ← remaining
  let start ← position
  let signLength := if rest.head?.any fun ch ↦ (Sign.ofChar? ch).isSome then 1 else 0
  let (_, unsigned) ← require fun _ ↦ rest.cut? signLength
  let digitCount := (unsigned.takeWhile (isDigit 10)).length
  if digitCount = 0 then return .error ⟨.missingDigits 10, start + signLength⟩
  else
    let (token, _) ← require fun _ ↦ rest.cut? (signLength + digitCount)
    match t.ofDecimal? (Decimal.ahead token) with
    | none => return .error ⟨.outOfRange token t.name.toList, start⟩
    | some v =>
      let _ ← advance token.byteLength
      record start .integer
      return .ok v

def tryReadHex : ByteScan (Except Failure Int) := do
  let rest ← remaining
  let start ← position
  let markerLength := if (Text.bytes ['0', 'x']).isPrefixOf rest.bytes then 2 else 0
  let (_, unmarked) ← require fun _ ↦ rest.cut? markerLength
  let digitCount := (unmarked.takeWhile (isDigit 16)).length
  let token ← require fun _ ↦ rest.slice? markerLength (markerLength + digitCount)
  if token.isEmpty then return .error ⟨.missingDigits 16, start + markerLength⟩
  else if (digitsValue 16 token : Int) ≤ IntegerType.int64.max then
    let _ ← advance (markerLength + digitCount)
    record start .hexadecimal
    return .ok (digitsValue 16 token)
  else return .error ⟨.outOfRange token IntegerType.int64.name.toList, start⟩

def orRaise (attempt : ByteScan (Except Failure α)) : ByteScan α := do
  match ← attempt with
  | .ok a => return a
  | .error e => raise e

def readInteger (t : IntegerType) : ByteScan Int :=
  orRaise (tryReadInteger t)

def readHex : ByteScan Int :=
  orRaise tryReadHex

end ByteScan

def Operation.runBytes : Operation → ByteScan Value
  | source => .text <$> ByteScan.view ByteCursor.source
  | remaining => .text <$> ByteScan.remaining
  | isDone => .flag <$> ByteScan.view fun c ↦ c.position == c.source.byteLength
  | peek => .ofOption .char <$> ByteScan.peek
  | offset => .count <$> ByteScan.position
  | charOffset => (.count ·.length) <$> ByteScan.consumed
  | takeLog => .entries <$> ByteScan.takeLog
  | tryConsume literal => .flag <$> ByteScan.tryConsume literal
  | consume literal => (fun _ ↦ .nothing) <$> ByteScan.consume literal
  | tryConsumeChar ch => .flag <$> ByteScan.tryConsume [ch]
  | consumeThrough separator => .ofOption .text <$> ByteScan.consumeThrough separator
  | consumeUpTo separator => .ofOption .text <$> ByteScan.consumeUpTo separator
  | consumeCopiesOf ch => (fun _ ↦ .nothing) <$> ByteScan.consumeCopiesOf ch
  | consumeWhile p => .text <$> ByteScan.consumeWhile p.test
  | consumeBlanks => .text <$> ByteScan.consumeWhile (.ofBool isBlank)
  | tryConsumeNext => .ofOption .char <$> ByteScan.tryConsumeNext
  | consumeNext => .char <$> ByteScan.consumeNext
  | tryConsumeNextN n => .ofOption .text <$> ByteScan.tryConsumeNextN n
  | consumeNextN n => .text <$> ByteScan.consumeNextN n
  | consumeRest => .text <$> ByteScan.consumeRest
  | tryReadInteger type => .attempt <$> ByteScan.tryReadInteger type
  | readInteger type => .integer <$> ByteScan.readInteger type
  | tryReadHex => .attempt <$> ByteScan.tryReadHex
  | readHex => .integer <$> ByteScan.readHex
  | readWord => .text <$> ByteScan.readWord

end TextCursor
