import FormulaCalculator.Symbolic.Fraction

set_option autoImplicit false

namespace FormulaCalculator.Symbolic

structure Parts where
  coefficient : Rat
  powers : List (Term × Int)

namespace Parts

def exponent (base : Term) (parts : Parts) : Int :=
  ((parts.powers.find? fun entry => entry.1.same base).map Prod.snd).getD 0

def insert (base : Term) (k : Int) : List (Term × Int) → List (Term × Int)
  | [] => [(base, k)]
  | (other, n) :: rest =>
    if other.same base then (other, n + k) :: rest else (other, n) :: insert base k rest

def take (parts : Parts) (factor : Term) : Parts :=
  let (base, k) := factor.wholePower
  match base with
  | .sum terms =>
    let (c, inner) := Term.primitiveSum terms
    ⟨parts.coefficient * c ^ k, insert inner k parts.powers⟩
  | _ => ⟨parts.coefficient, insert base k parts.powers⟩

def ofTerm (t : Term) : Parts :=
  let (c, rest) := t.splitRational
  let factors := match t with
    | .number d => if d.isExact then [] else [Term.number d.abs]
    | _ => if rest.isOne then [] else rest.factors
  let sign : Rat := match t with
    | .number d => if !d.isExact && d.isNegative then -1 else c
    | _ => c
  let parts := factors.foldl take ⟨sign, []⟩
  ⟨parts.coefficient, parts.powers.filter fun entry => entry.2 != 0⟩

def powersTerm (powers : List (Term × Int)) : Term :=
  Term.productOf (powers.map fun (base, k) => Term.pow base (.ofInt k))

def sharedExponent (m n : Int) : Int :=
  if 0 < m ∧ 0 < n then min m n else if m < 0 ∧ n < 0 then max m n else 0

def shared (a b : Parts) : Parts :=
  let c : Rat := ((a.coefficient.num.natAbs.gcd b.coefficient.num.natAbs : Nat) : Rat) /
    (a.coefficient.den.lcm b.coefficient.den : Nat)
  ⟨c, (a.powers.map fun (base, k) => (base, sharedExponent k (b.exponent base))).filter
    fun entry => entry.2 != 0⟩

def quotient (a b : Parts) : Parts :=
  ⟨a.coefficient / b.coefficient,
    (b.powers.foldl (fun powers (base, k) => insert base (-k) powers) a.powers).filter
      fun entry => entry.2 != 0⟩

def denominator (all : List Parts) : List (Term × Int) :=
  all.foldl (fun found parts => parts.powers.foldl (fun found (base, k) =>
    if 0 ≤ k then found
    else if found.any fun entry => entry.1.same base then
      found.map fun entry => if entry.1.same base then (entry.1, max entry.2 (-k)) else entry
    else found ++ [(base, -k)]) found) []

end Parts

namespace Term

-- A sum is put over its denominator if `joined` asks for it.
def commonParts (isPrimitive joined : Bool) (terms : List Term) : Term × Term × Term :=
  match (terms.filter (!·.isZero)).map Parts.ofTerm with
  | [] => (zero, zero, one)
  | [parts] =>
    let above := parts.powers.filter fun entry => 0 < entry.2
    let below := (parts.powers.filter fun entry => entry.2 < 0).map fun (base, k) => (base, -k)
    (ofRat parts.coefficient, Parts.powersTerm above, Parts.powersTerm below)
  | first :: rest =>
    let common := rest.foldl Parts.shared first
    let left := (first :: rest).map (Parts.quotient · common)
    let below := if joined then Parts.denominator left else []
    let above := left.map fun parts =>
      scale (.ofRat parts.coefficient)
        (Parts.powersTerm (below.foldl (fun powers (base, k) => Parts.insert base k powers) parts.powers))
    let front := scale (.ofRat common.coefficient) (Parts.powersTerm common.powers)
    let numerator := sumOf above
    if !isPrimitive && numerator.isSum then
      let (c, inner) := numerator.primitive
      (scale (.ofRat c) front, inner, Parts.powersTerm below)
    else (front, numerator, Parts.powersTerm below)

-- Without `clear` the number is multiplied in where that makes a term whole.
def keepClear (clear : Bool) (c : Number) (t : Term) : Term :=
  match t with
  | sum terms =>
    if clear || !c.isExact || c.isWhole then keep c t
    else
      let parts := terms.map fun each => (each.split.1.mul c, each.split.2)
      if parts.any fun part => part.1.whole?.isSome then
        rawSum (parts.map fun (d, rest) => keep d rest)
      else keep c t
  | _ => keep c t

def dividedOut (isPrimitive clear joined : Bool) (terms : List Term) : Term :=
  let (front, numerator, denominator) := commonParts isPrimitive joined terms
  let (c, factors) := front.split
  keepClear clear c (div (mul factors numerator) denominator)

mutual

def together : Term → Term
  | sum terms => dividedOut false true true (togetherAll terms)
  | product factors => productOf (togetherAll factors)
  | power base exponent => pow (together base) (together exponent)
  | call name args => callOf name (togetherAll args)
  | t => t

def togetherAll : List Term → List Term
  | [] => []
  | t :: ts => together t :: togetherAll ts

end

def factorSum (terms : List Term) : Bool × Term :=
  let negative := terms.all fun t => t.split.1.isNegative
  let bare := if negative then terms.map neg else terms
  (negative, dividedOut true false false bare)

-- Without `signed` a sign in front of a sum goes to its terms.
def factorWithin (signed : Bool) : Nat → Term → Term
  | 0, t => t
  | fuel + 1, t =>
    let factor := factorWithin signed fuel
    match t with
    | power base exponent => pow (factor base) (factor exponent)
    | call name args => callOf name (args.map factor)
    | sum _ | product _ =>
      let (c, inner) := content false t
      match inner with
      | sum terms =>
        let (negative, divided) := factorSum (terms.map factor)
        keepSigned (.ofRat (if negative then -c else c)) divided
      | product factors => keepSigned (.ofRat c) (productOf (factors.map factor))
      | _ => keepSigned (.ofRat c) (factor inner)
    | _ => t
where
  keepSigned (c : Number) (t : Term) : Term :=
    if signed && c.isExactly (-1) && t.isSum then product [minusOne, t] else keepClear false c t

def factorTerms (signed : Bool) (t : Term) : Term := factorWithin signed (2 * t.height + 2) t

end Term

end FormulaCalculator.Symbolic
