import FormulaCalculator.Symbolic.Product

set_option autoImplicit false

namespace FormulaCalculator.Symbolic

def factorLimit : Nat := 32768

def factorsFrom : Nat → Nat → Nat → List (Nat × Nat)
  | 0, _, n => if n = 1 then [] else [(n, 1)]
  | fuel + 1, p, n =>
    if n ≤ 1 then []
    else if n < p * p then [(n, 1)]
    else if n % p = 0 then
      match factorsFrom fuel p (n / p) with
      | (q, k) :: rest => if q = p then (p, k + 1) :: rest else (p, 1) :: (q, k) :: rest
      | [] => [(p, 1)]
    else factorsFrom fuel (p + 1) n

def factorsOf (n : Nat) : List (Nat × Nat) :=
  let root := n.sqrt
  if root * root = n then (factorsFrom factorLimit 2 root).map fun (p, k) => (p, 2 * k)
  else factorsFrom factorLimit 2 n

namespace Algebra

open Term

structure RootParts where
  outside : Nat
  smaller : List (Nat × Rat)
  inside : Nat
  degree : Nat

def rootParts (n : Nat) (m : Rat) : RootParts :=
  let split := (factorsOf n).map fun (p, k) =>
    let raised := k * m.num.toNat
    (p, raised / m.den, raised % m.den)
  let outside := split.foldl (fun c (p, k, _) => c * p.pow k) 1
  let left := split.filter fun (_, _, k) => k != 0
  let smaller := (left.filter fun (_, _, k) => k.gcd m.den != 1).map fun (p, _, k) =>
    (p, (k : Rat) / m.den)
  let rest := left.filter fun (_, _, k) => k.gcd m.den == 1
  let degree := rest.foldl (fun g (_, _, k) => g.gcd k) 0
  ⟨outside, smaller, rest.foldl (fun c (p, _, k) => c * p.pow (k / degree)) 1, degree⟩

def rootOfWhole (A : Algebra) (n : Nat) (m : Rat) : Term :=
  let parts := rootParts n m
  if parts.inside = n ∧ parts.outside = 1 ∧ parts.smaller = [] then Term.power (ofInt n) (ofRat m)
  else
    let smaller := parts.smaller.map fun (p, k) => A.power (ofInt p) (ofRat k)
    let inside := if parts.inside = 1 then one
      else A.power (ofInt parts.inside) (ofRat (parts.degree / m.den))
    A.product (ofInt parts.outside :: smaller ++ [inside])

def powerOfSign (A : Algebra) (m : Rat) : Term :=
  let turns := m.floor
  let rest := m - turns
  let root := if rest = 1 / 2 then imaginary else Term.power minusOne (ofRat rest)
  if turns = 0 then root
  else if turns % 2 = 0 then root
  else A.neg root

def rootOfRat (A : Algebra) (c m : Rat) : Term :=
  if c = -1 then A.powerOfSign m
  else if m < 0 then
    if c < 0 then A.mul (A.powerOfSign m) (A.power (ofRat (-c)⁻¹) (ofRat (-m)))
    else A.power (ofRat c⁻¹) (ofRat (-m))
  else if c.den = 1 then
    if c < 0 then
      if m = 1 / 2 then A.mul imaginary (A.power (ofRat (-c)) half)
      else
        let root := A.rootOfWhole c.num.natAbs m
        if root.same (Term.power (ofInt c.num.natAbs) (ofRat m)) then Term.power (ofRat c) (ofRat m)
        else A.mul root (A.powerOfSign m)
    else A.rootOfWhole c.num.natAbs m
  else
    let above := m.floor + 1
    let rest := A.power (ofInt c.den) (ofRat (above - m))
    let below := ofRat ((1 : Rat) / (c.den : Rat) ^ above)
    if c.num = 1 then A.product [rest, below]
    else A.product [A.power (ofInt c.num) (ofRat m), rest, below]

def ofPoint (A : Algebra) (bits : Nat) (value : Point) : Term :=
  let re := number (.near bits value.re)
  if value.isReal then re
  else A.add re (A.scale (.near bits value.im) imaginary)

def inexactPower (A : Algebra) (c m : Number) : Term :=
  let bits := (c.bits.merge max m.bits).getD Number.standardBits
  if m.isExact && m.isWhole then number (c.pow m.value.num)
  else if c.isNegative && m.isExact && m.value.num == 1 && m.value.den % 2 == 1 then
    A.mul (Term.power minusOne (number m)) (A.power (number c.neg) (number m))
  else if m.isWhole then number (Number.near bits (c.seen bits) |>.pow m.value.num)
  else
    match Point.pow? ⟨c.seen bits, 0⟩ ⟨m.seen bits, 0⟩ with
    | some value => A.ofPoint bits value
    | none => Term.power (number c) (number m)

def powerOfZero (c : Number) (exponent : Term) : Term :=
  match exponent.sign? with
  | some .gt => number c
  | some .lt => complexInfinity
  | some .eq => one
  | none =>
    match exponent.isReal?, exponent.split with
    | some false, _ => undefined
    | _, (d, rest) =>
      if d.isNegative then Term.power complexInfinity rest
      else Term.power (number c) rest

def powerOfNumber (A : Algebra) (c : Number) (exponent : Term) : Term :=
  match exponent with
  | number m =>
    if c.isZero then powerOfZero c exponent
    else if c.isExact && m.isExact then
      if m.isWhole then number (c.pow m.value.num) else A.rootOfRat c.value m.value
    else A.inexactPower c m
  | infinity | negativeInfinity =>
    let grows := (c.value.abs > 1) == exponent.same infinity
    if c.value = -1 then undefined
    else if grows then (if c.isNegative then complexInfinity else infinity)
    else zero
  | _ => if c.isZero && c.isExact then powerOfZero c exponent else Term.power (number c) exponent

def powerOfLimit (A : Algebra) (base exponent : Term) : Term :=
  match base, exponent with
  | complexInfinity, number m =>
    if m.isZero then undefined else if m.isNegative then zero else complexInfinity
  | infinity, _ =>
    if exponent.isPositive then infinity else if exponent.isNegative then zero
    else Term.power base exponent
  | negativeInfinity, number m =>
    if m.isNegative then zero
    else if m.isWhole then endOf (m.value.num % 2 == 0)
    else A.mul (A.power minusOne exponent) infinity
  | _, _ => Term.power base exponent

def powerOfImaginary (A : Algebra) (m : Rat) : Term :=
  let turns := (m / 2).floor
  let rest := m - 2 * turns
  let flips := turns % 2 != 0
  if m.den = 1 then
    let root := if rest = 0 then one else imaginary
    if flips then A.neg root else root
  else
    let root := Term.power imaginary (ofRat rest)
    if flips then Term.product [minusOne, root] else root

def splitSigns (A : Algebra) (negative other : List Term) : List Term × List Term :=
  match negative with
  | [] => ([], other)
  | [t] =>
    match t with
    | number c => if other.isEmpty || c.isExactly (-1) then ([], other ++ [t])
      else ([number c.neg], other ++ [minusOne])
    | _ => ([], other ++ [t])
  | t :: rest =>
    let (sign, rest) := if other.isEmpty && t.isNumber then (t, rest) else (one, t :: rest)
    let sign := if rest.length % 2 = 1 then A.neg sign else sign
    (rest.map A.neg, if sign.isOne then other else other ++ [sign])

def apart (A : Algebra) (factors : List Term) (exponent : Term) : Term :=
  let turns := (factors.filter (same imaginary)).length % 4
  let real := factors.filter (!·.same imaginary)
  let positive := real.filter isNotNegative
  let negative := real.filter Term.isNegative
  let other := real.filter fun t => !(t.isNotNegative || t.isNegative)
  let other := if turns % 2 = 1 then other ++ [imaginary] else other
  let negative := if 2 ≤ turns then negative ++ [minusOne] else negative
  let (freed, left) := A.splitSigns negative other
  let outside := (positive ++ freed).map fun t => A.power t exponent
  if left.isEmpty then A.product outside
  else A.product (outside ++ [match A.product left with
    | Term.product rest => Term.power (Term.product rest) exponent
    | base => A.power base exponent])

def imaginaryPart? : Term → Option Rat
  | Term.product [number c, imaginary] => c.rational?
  | _ => none

def exactRoot? (n : Nat) : Option Nat :=
  let root := n.sqrt
  if root * root = n then some root else none

def halfTurn? (A : Algebra) (y m : Rat) : Option Term := do
  let size := y.abs / 2
  let above ← exactRoot? size.num.natAbs
  let below ← exactRoot? size.den
  let side := Term.sum [one, if y < 0 then A.neg imaginary else imaginary]
  return A.mul (A.power (ofRat ((above : Rat) / below)) (ofInt m.num)) (A.power side (ofInt m.num))

def powerOfProduct (A : Algebra) (factors : List Term) (exponent : Term) : Term :=
  match exponent with
  | number m =>
    if m.isExact && m.isWhole then A.product (factors.map fun t => A.power t exponent)
    else
      let turned := if m.isExact && m.value.den == 2 then
          imaginaryPart? (Term.product factors) >>= fun y => A.halfTurn? y m.value
        else none
      turned.getD (A.apart factors exponent)
  | _ => Term.power (Term.product factors) exponent

def multiplies (base inner outer : Term) : Bool :=
  outer.whole?.isSome || match inner with
    | number m => m.value.abs < 1 || m.isExactly 1 || base.isNotNegative ||
        (base.isFixed && m.value.abs < 2 && base.point?.any fun value => 0 ≤ value.re)
    | _ => inner.isReal? == some true && base.isNotNegative

def powerOfPower (A : Algebra) (t base inner outer : Term) : Term :=
  if multiplies base inner outer then A.power base (A.mul inner outer)
  else
    match inner, outer with
    | number m, number n =>
      -- The root of an even power of a real number is the power of its size.
      if m.isExact && m.value.num % 2 == 0 && m.isWhole && base.isReal? == some true && n.isExact &&
          base.isNegative then A.power (A.neg base) (A.mul inner outer)
      else Term.power t outer
    | _, _ => Term.power t outer

def complexParts? : List Term → Option (Number × Number)
  | [number x, imaginary] => some (x, .ofInt 1)
  | [number x, Term.product [number y, imaginary]] => some (x, y)
  | _ => none

def complexRoot? (A : Algebra) (x y : Number) (m : Rat) : Option Term := do
  let size ← (A.power (number ((x.mul x).add (y.mul y))) half).rational?
  let c ← x.rational?
  let d ← y.rational?
  let root := A.power (A.power (ofRat ((size - c) / 2)) half) (ofInt m.num)
  let side := A.add (ofRat ((size + c) / d.abs)) (if d < 0 then A.neg imaginary else imaginary)
  return A.mul root (A.power side (ofInt m.num))

def powerOfInexactSum (A : Algebra) (terms : List Term) (m : Number) : Term :=
  let raw := Term.power (Term.sum terms) (number m)
  let parts := terms.map fun t => match t with
    | number c => (c, one)
    | _ => t.split
  let largest := parts.foldl (fun (c : Number) entry =>
    if c.value ≤ entry.1.value.abs then entry.1.abs else c) (.ofInt (-1))
  if parts.all (fun entry => entry.1.isExact) || m.value.abs = 1 || largest.value = 1 then raw
  else
    let scaled := parts.map fun (c, t) =>
      let d := if c.value.abs = largest.value then Number.ofInt (if c.isNegative then -1 else 1)
        else c.div largest
      A.scale d t
    A.mul (A.power (number largest) (number m)) (A.power (A.sum scaled) (number m))

def powerOfSum (A : Algebra) (terms : List Term) (exponent : Term) : Term :=
  let raw := Term.power (Term.sum terms) exponent
  match exponent with
  | number m =>
    if m.isExact && (Term.sum terms).isFixed then
      match complexParts? terms with
      | some (x, y) =>
        if m.value.den = 2 then (A.complexRoot? x y m.value).getD raw
        else if m.value = -1 then
          let norm := ((x.mul x).add (y.mul y)).inv
          let conjugate := A.add (number x) (A.scale y.neg imaginary)
          if norm.isExactly 1 then conjugate else Term.product [number norm, conjugate]
        else raw
      | none => raw
    else A.powerOfInexactSum terms m
  | _ => raw

def workedPower (A : Algebra) (base exponent : Term) : Term :=
  match base with
  | number c => A.powerOfNumber c exponent
  | infinity | negativeInfinity | complexInfinity => A.powerOfLimit base exponent
  | constant .euler => A.call "exp" [exponent]
  | imaginary =>
    match exponent.rational? with
    | some m => A.powerOfImaginary m
    | none => Term.power base exponent
  | Term.product factors => A.powerOfProduct factors exponent
  | Term.power inner m => A.powerOfPower base inner m exponent
  | Term.call "exp" [m] => A.powerOfPower base euler m exponent
  | Term.sum terms => A.powerOfSum terms exponent
  | _ => Term.power base exponent

def powerOf (A : Algebra) (base exponent : Term) : Term :=
  if exponent.same complexInfinity then undefined
  else if exponent.isExactly 0 then one
  else if exponent.isOne then base
  else if base.same undefined || exponent.same undefined then undefined
  else if base.isZero && exponent.isExactly (-1) then complexInfinity
  else if base.isOne then (if exponent.isInfinite then undefined else one)
  else
    match exponent.whole? with
    | some n =>
      -- A number with a sign, or a product with one, is raised without it.
      if (base.isNumberLike || (base.isProduct && base.isFixed)) && base.hasSign then
        let size := A.workedPower base.negated exponent
        if n % 2 = 0 then size else A.neg size
      else A.workedPower base exponent
    | none => A.workedPower base exponent

end Algebra

end FormulaCalculator.Symbolic
