import FormulaCalculator.Number.Decimal
import FormulaCalculator.Symbolic.Build

set_option autoImplicit false

namespace FormulaCalculator.Symbolic

namespace Term

def settled (q : Rat) : Term :=
  if Point.isNought q then zero else number (Number.ofRat q).approximate

def ofValue (value : Point) : Term := add (settled value.re) (mul (settled value.im) imaginary)

def approximateParts (build : List Term → Term) (approximate : Term → Term) (parts : List Term) :
    Term :=
  let known := parts.filter isFixed
  let rest := (parts.filter (!·.isFixed)).map approximate
  match known, (build known).point? with
  | [], _ => build rest
  | _, some value => build (ofValue value :: rest)
  | _, none => build (known ++ rest)

def approximateWithin : Nat → Term → Term
  | 0, t => t
  | fuel + 1, t =>
    match t.isFixed, t.point? with
    | true, some value =>
      match t with
      | number c => number c.approximate
      | _ => ofValue value
    | _, _ =>
      match t with
      | sum terms => approximateParts sumOf (approximateWithin fuel) terms
      | product factors => approximateParts productOf (approximateWithin fuel) factors
      | power base exponent =>
        pow (approximateWithin fuel base)
          (if exponent.whole?.isSome then exponent else approximateWithin fuel exponent)
      | _ => t

def approximate (t : Term) : Term := approximateWithin (t.height + 1) t

def roundNumber (places : Int) (c : Number) : Number :=
  if c.isExact then c
  else if c.isWhole then .ofRat c.value
  else Decimal.toPlaces places c

mutual

def rounded (places : Int) : Term → Term
  | number c => number (roundNumber places c)
  | sum terms => sumOf (roundedAll places terms)
  | product factors => productOf (roundedAll places factors)
  | power base exponent => pow (rounded places base) (rounded places exponent)
  | call name args => callOf name (roundedAll places args)
  | t => t

def roundedAll (places : Int) : List Term → List Term
  | [] => []
  | t :: ts => rounded places t :: roundedAll places ts

end

def decimals (places : Int) (t : Term) : Term := t.approximate.rounded places

end Term

end FormulaCalculator.Symbolic
