import FormulaCalculator.Number.Rounding

set_option autoImplicit false

namespace FormulaCalculator

/-- The binary digits are those of an inexact number. An exact one has none. -/
structure Number where
  value : Rat
  bits : Option Nat
deriving DecidableEq, Repr, Inhabited

namespace Number

def standardBits : Nat := 53

def bitsPerDigit : Rat := 33219280948873626 / (10 : Rat) ^ (16 : Nat)

def bitsFor (digits : Nat) : Nat :=
  max 1 (Rounding.nearestEven ((digits + 1) * bitsPerDigit)).toNat

def digitsOf (bits : Nat) : Nat :=
  max 1 (Rounding.nearestEven (bits / bitsPerDigit) - 1).toNat

def ofRat (value : Rat) : Number := ⟨value, none⟩

def ofInt (value : Int) : Number := ofRat value

def near (bits : Nat) (value : Rat) : Number :=
  if value = 0 then ofRat 0 else ⟨Rounding.toBits bits value, some bits⟩

-- A number with a point stays inexact even at zero.
def written (digits : Nat) (value : Rat) : Number :=
  ⟨Rounding.toBits (bitsFor digits) value, some (bitsFor digits)⟩

def isExact (a : Number) : Bool := a.bits.isNone

def isZero (a : Number) : Bool := a.value == 0

def isNegative (a : Number) : Bool := a.value < 0

def isExactly (a : Number) (value : Rat) : Bool := a.isExact && a.value == value

def rational? (a : Number) : Option Rat :=
  if a.isExact then some a.value else none

def whole? (a : Number) : Option Int :=
  if a.isExact && a.value.den == 1 then some a.value.num else none

def isWhole (a : Number) : Bool := a.value.den == 1

def seen (bits : Nat) (a : Number) : Rat :=
  if a.isExact then Rounding.toBits bits a.value else a.value

def neg (a : Number) : Number := ⟨-a.value, a.bits⟩

def combine (f : Rat → Rat → Rat) (a b : Number) : Number :=
  match a.bits.merge max b.bits with
  | none => ofRat (f a.value b.value)
  | some bits => near bits (f (a.seen bits) (b.seen bits))

def add (a b : Number) : Number := combine (· + ·) a b

def sub (a b : Number) : Number := add a b.neg

def mul (a b : Number) : Number := combine (· * ·) a b

def inv (a : Number) : Number :=
  match a.bits with
  | none => ofRat a.value⁻¹
  | some bits => near bits a.value⁻¹

-- An exact number is divided by an inexact one through the inverse of the latter.
def div (a b : Number) : Number :=
  if a.isExact then mul a b.inv else combine (· / ·) a b

-- The inverse of an inexact power is taken from five digits more.
def pow (a : Number) (n : Int) : Number :=
  match a.bits with
  | none => ofRat (a.value ^ n)
  | some bits =>
    if 0 ≤ n ∨ n = -1 then near bits (a.value ^ n)
    else near bits (Rounding.toBits (bits + 5) (a.value ^ (-n)))⁻¹

def abs (a : Number) : Number := ⟨a.value.abs, a.bits⟩

-- An exact fraction is first cut to four digits more.
def approximate (a : Number) : Number :=
  if a.isExact then near standardBits (Rounding.cutToBits (standardBits + 4) a.value)
  else near standardBits a.value

end Number

end FormulaCalculator
