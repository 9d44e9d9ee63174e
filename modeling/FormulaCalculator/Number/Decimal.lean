import FormulaCalculator.Number.Basic

set_option autoImplicit false

namespace FormulaCalculator.Decimal

-- A half goes to the even neighbour.
def dropDigits (count : Nat) (n : Int) : Int :=
  Rounding.nearestEven (n / (10 : Rat) ^ count) * Int.pow 10 count

def settle (whole sign : Int) (excess : Rat) : Int :=
  if 1 / 2 < excess then whole + sign
  else if excess = 1 / 2 then (if whole % 2 = 0 then whole - sign else whole + sign)
  else whole

def shifted (digits : Nat) (shift : Int) (q : Rat) : Rat :=
  let bits := Number.bitsFor (digits + 1)
  Rounding.toBits bits (Rounding.toBits bits q * Rounding.toBits bits ((10 : Rat) ^ shift))

def firstDigit : Nat → Rat → Rat
  | 0, _ => 0
  | fuel + 1, q =>
    if q = 0 then 0
    else
      let bits := Number.bitsFor 2
      let seen := Rounding.toBits bits q
      let digits := Number.digitsOf bits
      let places := 1 - Rounding.decimalPlaces seen
      let shift := digits - Rounding.decimalPlaces seen
      let scaled := shifted digits shift seen
      let whole := Rounding.whole scaled
      let count := settle whole 1 (firstDigit fuel (scaled - whole))
      dropDigits (shift - places).toNat count / (10 : Rat) ^ shift

-- More digits than are ever looked at in turn.
def digitLimit : Nat := 64

def toPlaces (places : Int) (a : Number) : Number :=
  match a.bits with
  | none => a
  | some bits =>
    if a.isZero then a
    else
      let digits := Number.digitsOf bits
      let before := Rounding.decimalPlaces a.value
      let shift := digits - before
      let sign : Int := if a.isNegative then -1 else 1
      let scaled := shifted digits shift a.value
      let whole := Rounding.whole scaled
      let count := settle whole sign (firstDigit digitLimit (sign * (scaled - whole)))
      -- Places beyond the known digits change nothing.
      let rounded := (dropDigits (shift - places).toNat count : Rat) / (10 : Rat) ^ shift
      let kept := (min (before + places) digits).toNat
      if rounded.den = 1 then .written digits rounded
      else .written (if kept = 0 ∧ a.value < rounded then 1 else kept) rounded

def significant (count : Nat) (q : Rat) : List Char × Int :=
  let places := Rounding.decimalPlaces q
  let rounded := Rounding.nearestAway (q.abs * (10 : Rat) ^ (count - places))
  let digits := Nat.toDigits 10 rounded.toNat
  let trimmed := (digits.reverse.dropWhile (· == '0')).reverse
  (trimmed, places + (digits.length - count) - 1)

def pointed (digits : List Char) (before : Nat) : List Char :=
  let padded := digits ++ List.replicate (before - digits.length) '0'
  let after := padded.drop before
  padded.take before ++ '.' :: (if after.isEmpty then ['0'] else after)

def sizeText (bits : Nat) (q : Rat) : String :=
  if q = 0 then "0.0"
  else
    let count := Number.digitsOf bits
    let lowest : Int := min (-(count / 3 : Nat)) (-5)
    let (digits, exponent) := significant count q
    -- A number between the two bounds is written without a power of ten.
    if 0 ≤ exponent ∧ exponent < count then String.ofList (pointed digits (exponent.toNat + 1))
    else if lowest < exponent ∧ exponent < 0 then
      String.ofList (pointed (List.replicate (-exponent).toNat '0' ++ digits) 1)
    else String.ofList (pointed digits 1) ++ " \\cdot 10^\x7b" ++ toString exponent ++ "\x7d"

end FormulaCalculator.Decimal
