set_option autoImplicit false

namespace FormulaCalculator.Rounding

def nearestEven (q : Rat) : Int :=
  let below := q.floor
  let excess := q - below
  if excess < 1 / 2 then below
  else if 1 / 2 < excess then below + 1
  else if below % 2 = 0 then below
  else below + 1

def nearestAway (q : Rat) : Int :=
  if q < 0 then -((1 / 2 - q).floor) else (q + 1 / 2).floor

def whole (q : Rat) : Int :=
  if q < 0 then -((-q).floor) else q.floor

def binaryExponent (q : Rat) : Int :=
  let size := q.abs
  let guess : Int := (size.num.natAbs.log2 : Int) - size.den.log2
  if size < (2 : Rat) ^ guess then guess - 1 else guess

-- Zeros directly after the point count below zero.
def decimalPlaces (q : Rat) : Int :=
  let size := q.abs
  let guess : Int := ((Nat.toDigits 10 size.num.natAbs).length : Int) -
    (Nat.toDigits 10 size.den).length
  if (10 : Rat) ^ guess ≤ size then guess + 1 else guess

def binaryStep (bits : Nat) (q : Rat) : Rat :=
  (2 : Rat) ^ (binaryExponent q + 1 - bits)

def toBits (bits : Nat) (q : Rat) : Rat :=
  if q = 0 then 0 else nearestEven (q / binaryStep bits q) * binaryStep bits q

def cutToBits (bits : Nat) (q : Rat) : Rat :=
  if q = 0 then 0 else whole (q / binaryStep bits q) * binaryStep bits q

end FormulaCalculator.Rounding
