import FormulaCalculator.Number.Basic

set_option autoImplicit false

namespace FormulaCalculator.Symbolic

inductive Constant where
  | euler | pi | goldenRatio | eulerGamma | catalan | tribonacci
deriving DecidableEq, Repr, Inhabited

/-- The limitless values are the two ends of the line, the point beyond all complex numbers, and no value. -/
inductive Term where
  | number (c : Number)
  | infinity
  | negativeInfinity
  | complexInfinity
  | undefined
  | constant (c : Constant)
  | imaginary
  | symbol (name : String)
  | sum (terms : List Term)
  | product (factors : List Term)
  | power (base exponent : Term)
  | call (name : String) (args : List Term)
deriving Repr, Inhabited

def orderRat (a b : Rat) : Ordering := compareOfLessAndEq a b

def orderNumber (a b : Number) : Ordering :=
  if a.isExact && b.isExact then (compare a.value.num b.value.num).then (compare a.value.den b.value.den)
  else (orderRat a.value b.value).then (compare (a.bits.getD 0) (b.bits.getD 0))

namespace Constant

def name : Constant → String
  | euler => "Exp1"
  | pi => "Pi"
  | goldenRatio => "GoldenRatio"
  | eulerGamma => "EulerGamma"
  | catalan => "Catalan"
  | tribonacci => "TribonacciConstant"

end Constant

namespace Term

def ofInt (n : Int) : Term := number (.ofInt n)

def ofRat (q : Rat) : Term := number (.ofRat q)

def zero : Term := ofInt 0

def one : Term := ofInt 1

def minusOne : Term := ofInt (-1)

def half : Term := ofRat (1 / 2)

def euler : Term := constant .euler

def pi : Term := constant .pi

def kind : Term → Nat × String
  | number c =>
    if c.isExactly 0 then (0, "")
    else if c.isExactly 1 then (1, "")
    else if c.isExactly (1 / 2) then (2, "")
    else if c.isExactly (-1) then (5, "")
    else if !c.isExact then (9, "")
    else if c.isWhole then (7, "")
    else (8, "")
  | infinity => (3, "")
  | undefined => (4, "")
  | negativeInfinity => (6, "")
  | constant .euler => (10, "")
  | constant .pi => (11, "")
  | imaginary => (12, "")
  | symbol _ => (13, "")
  | power _ _ => (14, "")
  | product _ => (15, "")
  | sum _ => (16, "")
  | constant c => (17, c.name)
  | complexInfinity => (17, "ComplexInfinity")
  | call name _ => (17, name)

def orderKind (a b : Term) : Ordering :=
  (compare a.kind.1 b.kind.1).then (compareOfLessAndEq a.kind.2 b.kind.2)

mutual

def order : Term → Term → Ordering
  | number a, number b => (orderKind (number a) (number b)).then (orderNumber a b)
  | symbol a, symbol b => compareOfLessAndEq a b
  | sum as, sum bs => (compare as.length bs.length).then (orderAll as bs)
  | product as, product bs => (compare as.length bs.length).then (orderAll as bs)
  | power a m, power b n => (order a b).then (order m n)
  | call f as, call g bs =>
    ((compareOfLessAndEq f g).then (compare as.length bs.length)).then (orderAll as bs)
  | a, b => orderKind a b

def orderAll : List Term → List Term → Ordering
  | a :: as, b :: bs => (order a b).then (orderAll as bs)
  | _, _ => .eq

end

def same (a b : Term) : Bool := order a b == .eq

def inOrder (terms : List Term) : List Term :=
  terms.mergeSort fun a b => order a b != .gt

def number? : Term → Option Number
  | number c => some c
  | _ => none

def rational? (t : Term) : Option Rat := t.number? >>= Number.rational?

def whole? (t : Term) : Option Int := t.number? >>= Number.whole?

def isExactly (t : Term) (value : Rat) : Bool := t.number?.any (·.isExactly value)

def isZero (t : Term) : Bool := t.number?.any Number.isZero

def isOne (t : Term) : Bool := t.isExactly 1

def isNumber (t : Term) : Bool := t.number?.isSome

def isSum : Term → Bool
  | sum _ => true
  | _ => false

def isProduct : Term → Bool
  | product _ => true
  | _ => false

def isPower : Term → Bool
  | power _ _ => true
  | _ => false

def isSymbol : Term → Bool
  | symbol _ => true
  | _ => false

def isNumberLike : Term → Bool
  | number _ | infinity | negativeInfinity | undefined => true
  | _ => false

def isInfinite : Term → Bool
  | infinity | negativeInfinity | complexInfinity => true
  | _ => false

def addends : Term → List Term
  | sum terms => terms
  | t => [t]

def factors : Term → List Term
  | product factors => factors
  | t => [t]

def rawSum : List Term → Term
  | [] => zero
  | [t] => t
  | terms => sum terms

def rawProduct : List Term → Term
  | [] => one
  | [t] => t
  | factors => product factors

def split : Term → Number × Term
  | number c => if c.isZero then (.ofInt 1, number c) else (c, one)
  | product (number c :: rest) => (c, rawProduct rest)
  | t => (.ofInt 1, t)

-- Of an inexact number only the sign is taken.
def splitRational (t : Term) : Rat × Term :=
  match t, t.split with
  | product (number c :: factors), (_, rest) =>
    if c.isExact then (c.value, rest)
    else if c.isNegative then (-1, product (number c.neg :: factors))
    else (1, t)
  | _, (c, rest) => if c.isExact then (c.value, rest) else (1, t)

def basePower : Term → Term × Term
  | power (number c) exponent =>
    if c.isExact && c.value.num == 1 && c.value.den != 1 then
      match exponent with
      | number m => (ofInt c.value.den, number m.neg)
      | product (number m :: rest) =>
        (ofInt c.value.den,
          if m.isExactly (-1) then rawProduct rest else product (number m.neg :: rest))
      | _ => (ofInt c.value.den, product [minusOne, exponent])
    else (number c, exponent)
  | power base exponent => (base, exponent)
  | call "exp" [exponent] => (euler, exponent)
  | t => (t, one)

def negated : Term → Term
  | number c => number c.neg
  | infinity => negativeInfinity
  | negativeInfinity => infinity
  | complexInfinity => complexInfinity
  | undefined => undefined
  | product (number c :: rest) =>
    if c.isExactly (-1) then rawProduct rest else product (number c.neg :: rest)
  | product factors =>
    if factors.head?.any isInfinite then product factors else product (minusOne :: factors)
  | t => product [minusOne, t]

mutual

def height : Term → Nat
  | sum terms => heightAll terms + 1
  | product factors => heightAll factors + 1
  | power base exponent => max (height base) (height exponent) + 1
  | call _ args => heightAll args + 1
  | _ => 1

def heightAll : List Term → Nat
  | [] => 0
  | t :: ts => max (height t) (heightAll ts)

end

mutual

def any (test : Term → Bool) : Term → Bool
  | sum terms => test (sum terms) || anyOf test terms
  | product factors => test (product factors) || anyOf test factors
  | power base exponent => test (power base exponent) || any test base || any test exponent
  | call name args => test (call name args) || anyOf test args
  | t => test t

def anyOf (test : Term → Bool) : List Term → Bool
  | [] => false
  | t :: ts => any test t || anyOf test ts

end

end Term

end FormulaCalculator.Symbolic
