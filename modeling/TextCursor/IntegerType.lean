import TextCursor.Text.Numeral

namespace TextCursor

/-- How many bits an integer type has. `size` stands for the machine word, which has 64. -/
inductive Width
  | bits8
  | bits16
  | bits32
  | bits64
  | bits128
  | size
  deriving DecidableEq

namespace Width

def bits : Width → Nat
  | bits8 => 8
  | bits16 => 16
  | bits32 => 32
  | bits64 | size => 64
  | bits128 => 128

def name : Width → String
  | bits8 => "8"
  | bits16 => "16"
  | bits32 => "32"
  | bits64 => "64"
  | bits128 => "128"
  | size => "size"

def all : List Width :=
  [bits8, bits16, bits32, bits64, bits128, size]

end Width

structure IntegerType where
  signed : Bool
  width : Width
  deriving DecidableEq

namespace IntegerType

def all : List IntegerType :=
  [true, false].flatMap fun signed ↦ Width.all.map fun width ↦ ⟨signed, width⟩

def int64 : IntegerType := ⟨true, .bits64⟩

def name (t : IntegerType) : String :=
  (if t.signed then "i" else "u") ++ t.width.name

def min (t : IntegerType) : Int :=
  if t.signed then -Int.pow 2 (t.width.bits - 1) else 0

def max (t : IntegerType) : Int :=
  Int.pow 2 (if t.signed then t.width.bits - 1 else t.width.bits) - 1

/-- The value of a written number where the type has it. An unsigned type takes no minus sign, not
even before zero. -/
def ofDecimal? (t : IntegerType) (d : Decimal) : Option Int :=
  if d.sign = some .minus ∧ t.signed = false then none
  else if t.min ≤ d.value ∧ d.value ≤ t.max then some d.value
  else none

end IntegerType

end TextCursor
