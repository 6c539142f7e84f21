import TextCursor.Scan

namespace TextCursor

inductive Value
  | nothing
  | flag (b : Bool)
  | count (n : Nat)
  | integer (n : Int)
  | char (c : Char)
  | text (t : Text)
  | entries (es : List Entry)
  | attempt (result : Except Failure Int)
  | list (items : List Value)

def Value.ofOption {α : Type} (f : α → Value) : Option α → Value
  | none => nothing
  | some a => f a

inductive Predicate
  | among (chars : Text)
  | notAmong (chars : Text)
  | between (range : CharRange)
  | first (n : Nat)
  | increasing

namespace Predicate

abbrev State : Predicate → Type
  | first _ => Nat
  | increasing => Option Char
  | _ => Unit

def test : (p : Predicate) → CharTest p.State
  | among chars => .ofBool fun c ↦ chars.contains c
  | notAmong chars => .ofBool fun c ↦ !chars.contains c
  | between range => .ofBool range.contains
  | first n => .first n
  | increasing => .increasing

end Predicate

inductive Operation
  | source
  | remaining
  | isDone
  | peek
  | offset
  | charOffset
  | takeLog
  | tryConsume (literal : Text)
  | consume (literal : Text)
  | tryConsumeChar (c : Char)
  | consumeThrough (separator : Char)
  | consumeUpTo (separator : Char)
  | consumeCopiesOf (c : Char)
  | consumeWhile (p : Predicate)
  | consumeBlanks
  | tryConsumeNext
  | consumeNext
  | tryConsumeNextN (n : Nat)
  | consumeNextN (n : Nat)
  | consumeRest
  | tryReadInteger (type : IntegerType)
  | readInteger (type : IntegerType)
  | tryReadHex
  | readHex
  | readWord

namespace Operation

open Scan

def run : Operation → Scan Value
  | source => view fun c ↦ .text c.source
  | remaining => view fun c ↦ .text c.remaining
  | isDone => view fun c ↦ .flag c.isDone
  | peek => view fun c ↦ .ofOption .char c.peek?
  | offset => view fun c ↦ .count c.offset
  | charOffset => view fun c ↦ .count c.charOffset
  | takeLog => .entries <$> move Cursor.takeEntries
  | tryConsume literal => (.flag ·.isSome) <$> attempt fun c ↦ (c.consume? literal).map ((), ·)
  | consume literal => (fun _ ↦ .nothing) <$> Scan.consume literal
  | tryConsumeChar ch => (.flag ·.isSome) <$> attempt fun c ↦ (c.consumeChar? ch).map ((), ·)
  | consumeThrough separator => .ofOption .text <$> attempt (Cursor.consumeThrough? separator)
  | consumeUpTo separator => .ofOption .text <$> attempt (Cursor.consumeUpTo? separator)
  | consumeCopiesOf ch => move fun c ↦ (.nothing, c.skipCopies ch)
  | consumeWhile p => .text <$> move (Cursor.consumeWhile p.test)
  | consumeBlanks => .text <$> move Cursor.consumeBlanks
  | tryConsumeNext => .ofOption .char <$> attempt Cursor.next?
  | consumeNext => .char <$> next
  | tryConsumeNextN n => .ofOption .text <$> attempt (Cursor.nextN? n)
  | consumeNextN n => .text <$> nextN n
  | consumeRest => .text <$> move Cursor.consumeRest
  | tryReadInteger type => .attempt <$> attemptExcept (Cursor.readInteger? type)
  | readInteger type => .integer <$> Scan.readInteger type
  | tryReadHex => .attempt <$> attemptExcept Cursor.readHex?
  | readHex => .integer <$> Scan.readHex
  | readWord => .text <$> Scan.readWord

/-- Without a type named, an integer has 64 bits and a sign. -/
abbrev tryReadInt : Operation := tryReadInteger .int64

abbrev readInt : Operation := readInteger .int64

end Operation

end TextCursor
