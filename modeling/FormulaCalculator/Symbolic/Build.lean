import FormulaCalculator.Symbolic.Call

set_option autoImplicit false

namespace FormulaCalculator.Symbolic

namespace Algebra

def next (below : Algebra) : Algebra where
  sum := below.sumOf
  product := below.productOf
  power := below.powerOf
  call := below.callOf

def layer : Nat → Algebra
  | 0 => plain
  | n + 1 => next (layer n)

def layers : Nat := 40

def worked : Algebra := layer layers

end Algebra

namespace Term

def sumOf (terms : List Term) : Term := Algebra.worked.sum terms

def productOf (factors : List Term) : Term := Algebra.worked.product factors

def pow (base exponent : Term) : Term := Algebra.worked.power base exponent

def callOf (name : String) (args : List Term) : Term := Algebra.worked.call name args

def add (a b : Term) : Term := sumOf [a, b]

def mul (a b : Term) : Term := productOf [a, b]

def scale (c : Number) (t : Term) : Term := mul (number c) t

def inverse (t : Term) : Term := pow t minusOne

-- An inexact zero stays one, and so does a number in front of a product that is not multiplied out.
def neg : Term → Term
  | number c => number c.neg
  | product factors => (product factors).negated
  | t => mul minusOne t

def sub (a b : Term) : Term := add a (neg b)

def div (a b : Term) : Term :=
  if a.isOne then (match b with
    | number c => Algebra.worked.div a (number c)
    | _ => inverse b)
  else Algebra.worked.div a b

def powRat (base : Term) (m : Rat) : Term := pow base (ofRat m)

def keep (c : Number) (t : Term) : Term := Algebra.worked.keep c t

mutual

def rebuilt : Term → Term
  | sum terms => sumOf (rebuiltAll terms)
  | product factors => productOf (rebuiltAll factors)
  | power base exponent => pow (rebuilt base) (rebuilt exponent)
  | call name args => callOf name (rebuiltAll args)
  | t => t

def rebuiltAll : List Term → List Term
  | [] => []
  | t :: ts => rebuilt t :: rebuiltAll ts

end

end Term

end FormulaCalculator.Symbolic
