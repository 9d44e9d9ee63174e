import FormulaCalculator.Number.Point
import FormulaCalculator.Symbolic.Term

set_option autoImplicit false

namespace FormulaCalculator.Symbolic

namespace Constant

def value : Constant → Rat
  | euler => Series.exp 1
  | pi => Series.pi
  | goldenRatio => (1 + Series.sqrt 5) / 2
  | eulerGamma => 57721566490153286060651209008240243104215933593992 / (10 : Rat) ^ (50 : Nat)
  | catalan => 91596559417721901505460351493238411077414937428167 / (10 : Rat) ^ (50 : Nat)
  | tribonacci => 183928675521416113255185256465328660042417874609759 / (10 : Rat) ^ (50 : Nat)

end Constant

namespace Term

def elementaryNames : List String := ["exp", "log", "sin", "cos", "tan"]

def isElementary (name : String) : Bool := elementaryNames.contains name

def isFixed (t : Term) : Bool :=
  !t.any fun part => match part with
    | symbol _ => true
    | call name _ => !isElementary name
    | _ => false

mutual

def point? : Term → Option Point
  | number c => some (.ofRat c.value)
  | constant c => some (.ofRat c.value)
  | imaginary => some ⟨0, 1⟩
  | sum terms => sumPoint? terms
  | product factors => productPoint? factors
  | power base exponent => do (← point? base).pow? (← point? exponent)
  | call name [arg] => do Point.function? name (← point? arg)
  | _ => none

def sumPoint? : List Term → Option Point
  | [] => some ⟨0, 0⟩
  | t :: ts => do return (← point? t).add (← sumPoint? ts)

def productPoint? : List Term → Option Point
  | [] => some ⟨1, 0⟩
  | t :: ts => do return (← point? t).mul (← productPoint? ts)

end

def isReal? : Term → Option Bool
  | number _ | constant _ | infinity | negativeInfinity => some true
  | imaginary | complexInfinity => some false
  | t => t.point?.map Point.isReal

def sign? : Term → Option Ordering
  | number c => some (orderRat c.value 0)
  | constant _ | infinity => some .gt
  | negativeInfinity => some .lt
  | imaginary => none
  | t =>
    t.point?.bind fun value =>
      if value.isReal && !value.isZero then some (orderRat value.re 0) else none

def isPositive (t : Term) : Bool := t.sign? == some .gt

def isNegative (t : Term) : Bool := t.sign? == some .lt

def isNotNegative (t : Term) : Bool := t.sign? == some .gt || t.isZero

def isNonzero : Term → Bool
  | number c => !c.isZero
  | t => t.isInfinite || t.point?.any (!·.isZero)

def isFinite : Term → Bool
  | t => t.point?.isSome

def isNegativeNumber : Term → Bool
  | number c => c.isNegative
  | negativeInfinity => true
  | _ => false

end Term

end FormulaCalculator.Symbolic
