import FormulaCalculator.Number.Rounding

set_option autoImplicit false

namespace FormulaCalculator.Series

def grain : Rat := (2 : Rat) ^ (-256 : Int)

def snap (q : Rat) : Rat := (q / grain).floor * grain

def sumFrom (next : Nat → Rat → Rat) : Nat → Nat → Rat → Rat
  | 0, _, _ => 0
  | fuel + 1, index, term =>
    if term.abs < grain then 0 else term + sumFrom next fuel (index + 1) (snap (next index term))

def termLimit : Nat := 400

def artanh (q : Rat) : Rat :=
  let square := snap (q * q)
  sumFrom (fun index term => term * square * (2 * index + 1) / (2 * index + 3)) termLimit 0 q

def smallArctan (q : Rat) : Rat :=
  let square := snap (q * q)
  sumFrom (fun index term => -(term * square * (2 * index + 1) / (2 * index + 3))) termLimit 0 q

def pi : Rat := snap (16 * smallArctan (snap (1 / 5)) - 4 * smallArctan (snap (1 / 239)))

def logTwo : Rat := snap (2 * artanh (snap (1 / 3)))

def sqrt (q : Rat) : Rat :=
  (Nat.sqrt (q / (grain * grain)).floor.toNat : Rat) * grain

def exp (q : Rat) : Rat :=
  let doublings := (q / logTwo).floor
  let rest := snap (q - doublings * logTwo)
  snap (sumFrom (fun index term => term * rest / (index + 1)) termLimit 0 1) * (2 : Rat) ^ doublings

def log (q : Rat) : Rat :=
  let exponent := Rounding.binaryExponent q
  let rest := q / (2 : Rat) ^ exponent
  snap (2 * artanh (snap ((rest - 1) / (rest + 1))) + exponent * logTwo)

def arctan (q : Rat) : Rat :=
  if 1 < q then pi / 2 - halved (1 / q) else if q < -1 then -(pi / 2) - halved (1 / q) else halved q
where
  halved (q : Rat) : Rat :=
    let once := snap (q / (1 + sqrt (1 + q * q)))
    snap (4 * smallArctan (snap (once / (1 + sqrt (1 + once * once)))))

def sinSeries (q : Rat) : Rat :=
  let square := snap (q * q)
  snap (sumFrom (fun index term => -(term * square) / ((2 * index + 2) * (2 * index + 3)))
    termLimit 0 q)

def cosSeries (q : Rat) : Rat :=
  let square := snap (q * q)
  snap (sumFrom (fun index term => -(term * square) / ((2 * index + 1) * (2 * index + 2)))
    termLimit 0 1)

def turned (q : Rat) : Rat :=
  snap (q - Rounding.nearestEven (q / (2 * pi)) * (2 * pi))

def sin (q : Rat) : Rat := sinSeries (turned q)

def cos (q : Rat) : Rat := cosSeries (turned q)

def angle (x y : Rat) : Rat :=
  if 0 < x then arctan (y / x)
  else if x < 0 then (if y < 0 then arctan (y / x) - pi else arctan (y / x) + pi)
  else if y < 0 then -(pi / 2) else pi / 2

end FormulaCalculator.Series
