import TextCursor.Text.Bytes

namespace TextCursor

def digitValue? (c : Char) : Option Nat :=
  if '0' ≤ c ∧ c ≤ '9' then some (c.toNat - '0'.toNat)
  else if 'a' ≤ c ∧ c ≤ 'z' then some (c.toNat - 'a'.toNat + 10)
  else if 'A' ≤ c ∧ c ≤ 'Z' then some (c.toNat - 'A'.toNat + 10)
  else none

def isDigit (radix : Nat) (c : Char) : Bool :=
  (digitValue? c).any (· < radix)

def digitsAhead (radix : Nat) (t : Text) : Text :=
  t.takeWhile (isDigit radix)

/-- The number that a run of digits denotes, most significant digit first. -/
def digitsValue (radix : Nat) (digits : Text) : Nat :=
  digits.foldl (fun v d ↦ v * radix + (digitValue? d).getD 0) 0

inductive Sign
  | plus
  | minus
  deriving DecidableEq

namespace Sign

def char : Sign → Char
  | plus => '+'
  | minus => '-'

def ofChar? (c : Char) : Option Sign :=
  if c = '+' then some plus else if c = '-' then some minus else none

end Sign

/-- A decimal number as it is written: at most one sign, then digits. -/
structure Decimal where
  sign : Option Sign
  digits : Text

namespace Decimal

/-- What of a decimal number stands at the start of a text; a sign counts even without digits. -/
def ahead : Text → Decimal
  | [] => ⟨none, []⟩
  | c :: rest =>
    match Sign.ofChar? c with
    | some s => ⟨some s, digitsAhead 10 rest⟩
    | none => ⟨none, digitsAhead 10 (c :: rest)⟩

def signText (d : Decimal) : Text :=
  (d.sign.map Sign.char).toList

def text (d : Decimal) : Text :=
  d.signText ++ d.digits

def value (d : Decimal) : Int :=
  if d.sign = some .minus then -(digitsValue 10 d.digits : Int) else digitsValue 10 d.digits

end Decimal

/-- A hexadecimal number as it is written: perhaps `0x`, then digits of either case. -/
structure Hexadecimal where
  marker : Text
  digits : Text

namespace Hexadecimal

/-- What of a hexadecimal number stands at the start of a text. The marker is lower case and is
taken whenever it is there, also where no digit follows it. -/
def ahead (t : Text) : Hexadecimal :=
  if ['0', 'x'].isPrefixOf t then ⟨['0', 'x'], digitsAhead 16 (t.drop 2)⟩
  else ⟨[], digitsAhead 16 t⟩

def text (h : Hexadecimal) : Text :=
  h.marker ++ h.digits

def value (h : Hexadecimal) : Nat :=
  digitsValue 16 h.digits

end Hexadecimal

end TextCursor
