import FormulaCalculator.Symbolic.Build
import FormulaCalculator.Relation

set_option autoImplicit false

namespace FormulaCalculator.Symbolic

namespace Term

def equalFinite? (a b : Term) : Option Bool :=
  let difference := sub a b
  match difference with
  | number c => some c.isZero
  | _ => difference.point?.map Point.isZero

def equal? (a b : Term) : Option Bool :=
  if a.same undefined || b.same undefined then some false
  else if a.same b then some true
  else if a.isInfinite && b.isInfinite then some false
  else if a.same complexInfinity || b.same complexInfinity then some false
  else if a.isInfinite || b.isInfinite then
    (if a.isFinite || b.isFinite then some false else none)
  else equalFinite? a b

def isOffLine (t : Term) : Bool := t.isReal? == some false || t.same undefined

def order? (a b : Term) : Option Ordering :=
  match a, b with
  | number c, number d => some (orderRat c.value d.value)
  | infinity, infinity | negativeInfinity, negativeInfinity => some .eq
  | infinity, negativeInfinity => some .gt
  | negativeInfinity, infinity => some .lt
  | infinity, _ | _, negativeInfinity => if a.isFinite || b.isFinite then some .gt else none
  | negativeInfinity, _ | _, infinity => if a.isFinite || b.isFinite then some .lt else none
  | _, _ => do
    let left ← a.point?
    let right ← b.point?
    let difference := left.re - right.re
    return if Point.isNought difference then .eq else orderRat difference 0

end Term

end FormulaCalculator.Symbolic
