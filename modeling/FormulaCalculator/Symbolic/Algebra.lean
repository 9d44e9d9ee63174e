import FormulaCalculator.Symbolic.Rank

set_option autoImplicit false

namespace FormulaCalculator.Symbolic

structure Algebra where
  sum : List Term → Term
  product : List Term → Term
  power : Term → Term → Term
  call : String → List Term → Term

namespace Algebra

open Term

def plain : Algebra where
  sum := rawSum
  product := rawProduct
  power := raised
  call := Term.call

def neg (A : Algebra) (t : Term) : Term := A.product [minusOne, t]

def add (A : Algebra) (a b : Term) : Term := A.sum [a, b]

def sub (A : Algebra) (a b : Term) : Term := A.sum [a, A.neg b]

def mul (A : Algebra) (a b : Term) : Term := A.product [a, b]

def inverse (A : Algebra) (t : Term) : Term := A.power t minusOne

def div (A : Algebra) (a b : Term) : Term :=
  match a, b with
  | number c, number d => if d.isZero then A.product [a, A.inverse b] else number (c.div d)
  | _, _ => A.product [a, A.inverse b]

def scale (A : Algebra) (c : Number) (t : Term) : Term := A.product [number c, t]

def keep (A : Algebra) (c : Number) (t : Term) : Term :=
  if t.isOne then number c
  else if c.isExactly 1 then t
  else if c.isExactly (-1) then A.neg t
  else
    match t with
    | Term.sum _ => rawProduct [number c, t]
    | Term.product (number d :: rest) =>
      if (c.mul d).isExactly 1 then rawProduct rest else Term.product (number (c.mul d) :: rest)
    | Term.product factors => Term.product (number c :: factors)
    | _ => A.scale c t

end Algebra

end FormulaCalculator.Symbolic
