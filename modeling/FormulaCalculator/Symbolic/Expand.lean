import FormulaCalculator.Symbolic.Fraction

set_option autoImplicit false

namespace FormulaCalculator.Symbolic

namespace Term

def sameAll (as bs : List Term) : Bool :=
  as.length == bs.length && (List.zipWith same as bs).all id

mutual

def inside (change : Term → Term) : Term → Term
  | sum terms =>
    let parts := insideAll change terms
    change (if sameAll parts terms then sum terms else sumOf parts)
  | product factors =>
    let parts := insideAll change factors
    change (if sameAll parts factors then product factors else productOf parts)
  | power base exponent =>
    let inner := inside change base
    let raised := inside change exponent
    change (if inner.same base && raised.same exponent then power base exponent
      else pow inner raised)
  | call name args =>
    let parts := insideAll change args
    change (if sameAll parts args then call name args else callOf name parts)
  | t => t

def insideAll (change : Term → Term) : List Term → List Term
  | [] => []
  | t :: ts => inside change t :: insideAll change ts

end

def productTerms : Nat → List (List Term) → List Term
  | 0, _ => []
  | _, [] => [one]
  | _, [terms] => terms
  | fuel + 1, sums =>
    let middle := sums.length / 2
    let left := productTerms fuel (sums.take middle)
    let right := productTerms fuel (sums.drop middle)
    (sumOf (left.flatMap fun a => right.map fun b => mul a b)).addends

def multipliedOut : Nat → Term → Term
  | 0, t => t
  | fuel + 1, t =>
    let (above, below) := t.fraction
    let quotient := if below.isProduct then
        div (if above.isProduct then multipliedOut fuel above else above) (multipliedOut fuel below)
      else div above below
    match quotient with
    | product factors =>
      match factors.filter isSum with
      | [] => quotient
      | sums =>
        let outside := productOf (factors.filter (!·.isSum))
        let terms := productTerms sums.length (sums.map addends)
        sumOf (terms.map fun each =>
          let part := mul outside each
          if part.isProduct && part.factors.any isSum then multipliedOut fuel part else part)
    | _ => quotient

def productDepth : Nat := 20

def expandProduct : Term → Term
  | product factors => multipliedOut productDepth (product factors)
  | t => t

def binomial (n k : Nat) : Nat :=
  (List.range k).foldl (fun c index => c * (n - index) / (index + 1)) 1

def shares : Nat → Nat → List (Nat × List Nat)
  | n, 0 => if n = 0 then [(1, [])] else []
  | n, 1 => [(1, [n])]
  | n, count + 1 =>
    (List.range (n + 1)).flatMap fun taken =>
      (shares (n - taken) count).map fun (times, rest) => (times * binomial n taken, taken :: rest)

def powerOut (terms : List Term) (n : Nat) : Term :=
  sumOf ((shares n terms.length).map fun (times, exponents) =>
    productOf (ofInt times :: List.zipWith (fun t k => pow t (ofInt (k : Nat))) terms exponents))

def expandPower : Term → Term
  | power (sum terms) (number m) =>
    match m.rational? with
    | none => power (sum terms) (number m)
    | some q =>
      let whole := q.abs.floor.toNat
      let rest := q.abs - whole
      if whole = 0 ∨ q.abs = 1 then power (sum terms) (number m)
      else
        let out := powerOut terms whole
        let root := if rest = 0 then one else powRat (sum terms) rest
        let out := if rest = 0 then out else sumOf (out.addends.map fun t => mul t root)
        if q < 0 then inverse out else out
  | power (number c) (sum terms) =>
    let known := terms.filter isNumber
    let others := terms.filter (!·.isNumber)
    if known.isEmpty then power (number c) (sum terms)
    else productOf (known.map (pow (number c)) ++ [pow (number c) (sumOf others)])
  | t => t

def expandBase : Term → Term
  | power (product factors) exponent => Algebra.worked.apart factors exponent
  | t => t

def expandExponent : Term → Term
  | power base (sum terms) =>
    if base.isNonzero || terms.all isNotNegative || terms.all (fun t => isNotNegative (neg t)) then
      productOf (terms.map (pow base))
    else power base (sum terms)
  | call "exp" [sum terms] => productOf (terms.map fun t => callOf "exp" [t])
  | t => t

def logOf (t : Term) : Term := callOf "log" [t]

def logOfWhole (n : Nat) : Term :=
  let found := Symbolic.factorsOf n
  let degree := found.foldl (fun (g : Nat) (_, k) => g.gcd k) 0
  if degree ≤ 1 then logOf (ofInt n)
  else mul (ofInt degree) (logOf (ofInt (found.foldl (fun c (p, k) => c * p.pow (k / degree)) 1 : Nat)))

def expandLog : Term → Term
  | call "log" [arg] =>
    match arg with
    | number c =>
      match c.rational? with
      | some q =>
        if q ≤ 0 then logOf arg
        else if q.den = 1 then logOfWhole q.num.natAbs
        else sub (logOf (ofInt q.num)) (logOf (ofInt q.den))
      | none => logOf arg
    | product factors =>
      let positive := factors.filter isPositive
      let negative := factors.filter isNegative
      let other := factors.filter fun t => !(t.isPositive || t.isNegative)
      let rest := productOf (negative.map (fun _ => minusOne) ++ other)
      if positive.isEmpty && (negative.isEmpty || other.isEmpty) then logOf arg
      else sumOf ((positive ++ negative.map neg).map logOf ++ [logOf rest])
    | power base exponent =>
      let real := exponent.isReal? == some true
      if real && (base.isPositive || exponent.number?.any (fun m => -1 < m.value ∧ m.value ≤ 1)) then
        mul exponent (logOf base)
      else logOf arg
    | _ => logOf arg
  | t => t

def expandAgain : Nat → Term → Term
  | 0, t => t
  | fuel + 1, t =>
    let next := inside expandLog (inside expandProduct (inside expandPower t))
    if next.same t then t else expandAgain fuel next

def expandLimit : Nat := 20

def expand (t : Term) : Term :=
  let opened := inside expandPower (inside expandLog t)
  let spread := inside expandExponent (inside expandBase opened)
  expandAgain expandLimit (inside expandProduct spread)

def expandProducts (t : Term) : Term := inside expandProduct t

end Term

end FormulaCalculator.Symbolic
