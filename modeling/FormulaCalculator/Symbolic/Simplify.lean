import FormulaCalculator.Symbolic.Cost
import FormulaCalculator.Symbolic.Divisor
import FormulaCalculator.Symbolic.LowestTerms

set_option autoImplicit false

namespace FormulaCalculator.Symbolic

namespace Term

def hasLimit (t : Term) : Bool := t.any fun part => part.isInfinite || part.same undefined

def opposite : Term → Term
  | sum terms => sumOf (terms.map negated)
  | t => neg t

mutual

def signed : Term → Term
  | sum terms => sumOf (signedAll terms)
  | product factors => productOf (signedFactors factors)
  | power base exponent =>
    let inner := signed base
    let inner := if inner.isSum && inner.hasSign then product [minusOne, opposite inner] else inner
    pow inner (signed exponent)
  | call name args => callOf name (signedAll args)
  | t => t

def signedAll : List Term → List Term
  | [] => []
  | t :: ts => signed t :: signedAll ts

def signedFactors : List Term → List Term
  | [] => []
  | t :: ts =>
    let factor := signed t
    let factors := if factor.isSum && factor.hasSign then [minusOne, opposite factor] else [factor]
    factors ++ signedFactors ts

end

def multiplicityIn (p : Nat) (c : Rat) : Int :=
  if c.den = 1 then Algebra.multiplicity p c.num.natAbs c.num.natAbs
  else -(Algebra.multiplicity p c.den c.den : Int)

def joinFactors (factors : List Term) : Term :=
  let number := factors.foldl (fun c t => c * (t.rational?).getD 1) (1 : Rat)
  let groups := (factors.filter fun t => t.rational?.isNone).foldl
    (fun (groups : List (Term × List Term)) factor =>
      let (base, exponent) := factor.basePower
      let (base, exponent) := if base.isPower then (factor, one) else (base, exponent)
      if groups.any fun group => group.1.same base then
        groups.map fun group => if group.1.same base then (base, group.2 ++ [exponent]) else group
      else groups ++ [(base, [exponent])]) []
  let (left, joined) := groups.foldl (fun (c, joined) (base, exponents) =>
    let taken := match base.whole? with
      | some b => if 1 < b && !exponents.all isNumber then multiplicityIn b.toNat c else 0
      | none => 0
    match base.whole? with
    | some b => (c / (b : Rat) ^ taken, joined ++ [pow base (sumOf (exponents ++ [ofInt taken]))])
    | none => (c, joined ++ [pow base (sumOf exponents)])) (number, [])
  productOf (ofRat left :: joined)

def join : Term → Term
  | product factors => joinFactors factors
  | power base exponent => if exponent.isZero then one else power base exponent
  | t => t

mutual

def joinOuter : Term → Term
  | sum terms => sumOf (joinAll terms)
  | product factors => (productOf (joinAll factors)).join
  | t => t.join

def joinAll : List Term → List Term
  | [] => []
  | t :: ts => joinOuter t :: joinAll ts

end

def fill (t : Term) : Term :=
  inside (fun each => match each with
    | product [number c, sum terms] => productOf [number c, sum terms]
    | _ => each) t

def turnSign (t : Term) : Term :=
  if t.hasSign then
    let (above, below) := t.fraction
    if below.isZero then t else signed (div (neg above) (neg below))
  else t

def shortest (t : Term) : Term :=
  let (c, inner) := content true (inside normal t).joinOuter
  let whole := productOf [ofRat c, inner]
  let lowest := whole.lowestTerms
  let joined := shorter whole.together [lowest.together]
  let factored := factorTerms false (shorter joined [lowest, whole])
  let short := shorter (inside join factored) [factored.joinOuter, factored]
  let short := shorter short [short.lowestTerms]
  let short := shorter short [factorTerms true short, inside expandExponent (expandProducts short)]
  let result := turnSign (fill short)
  if 17 * t.cost < 10 * result.cost then t else result.rebuilt

def simplifyWithin : Nat → Term → Term
  | 0, t => t
  | fuel + 1, t =>
    let bare := inside (fun part => match part with
      | call "exp" _ => part
      | call name args => callOf name (args.map (simplifyWithin fuel))
      | _ => part) (signed t)
    match bare with
    | sum _ | product _ | power _ _ | call "exp" _ => shortest bare
    | _ => bare

def simplify (t : Term) : Term :=
  if t.isNumber || t.hasLimit then t else simplifyWithin (t.height + 2) t

end Term

end FormulaCalculator.Symbolic
