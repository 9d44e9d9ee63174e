import FormulaCalculator.Symbolic.Algebra

set_option autoImplicit false

namespace FormulaCalculator.Symbolic

namespace Algebra

open Term

def addNumbers : Term → Term → Term
  | number a, number b => number (a.add b)
  | undefined, _ | _, undefined => undefined
  | number _, t | t, number _ => t
  | infinity, infinity => infinity
  | negativeInfinity, negativeInfinity => negativeInfinity
  | _, _ => undefined

structure Gathered where
  number : Term
  terms : List (Term × Number)

def Gathered.insert (c : Number) (t : Term) : List (Term × Number) → List (Term × Number)
  | [] => [(t, c)]
  | (other, d) :: rest =>
    if other.same t then (other, d.add c) :: rest else (other, d) :: insert c t rest

def Gathered.take (gathered : Gathered) (t : Term) : Gathered :=
  if t.isNumberLike || t.same complexInfinity then
    { gathered with number := addNumbers gathered.number t }
  else
    let (c, rest) := t.split
    { gathered with terms := Gathered.insert c rest gathered.terms }

def spread (terms : List Term) : List Term :=
  terms.filter (!·.isSum) ++ (terms.filter isSum).flatMap addends

def multiple (A : Algebra) (entry : Term × Number) : Option Term :=
  match entry with
  | (t, c) =>
    if c.isZero then none
    else if c.isExactly 1 then some t
    else
      match t with
      | Term.product factors => some (Term.product (number c :: factors))
      | Term.sum _ => some (Term.product [number c, t])
      | _ => some (A.scale c t)

def staysBeside (limit : Term) (t : Term) : Bool :=
  match limit with
  | infinity | negativeInfinity => t.isReal? != some true
  | complexInfinity => !t.isFinite
  | _ => true

def collected (A : Algebra) (terms : List Term) : Term :=
  let gathered := (spread terms).foldl Gathered.take ⟨zero, []⟩
  if gathered.number.same undefined then undefined
  else
    let multiples := (gathered.terms.filterMap A.multiple).filter (staysBeside gathered.number)
    let ordered := inOrder multiples
    rawSum (if gathered.number.isExactly 0 then ordered else gathered.number :: ordered)

def sumOf (A : Algebra) (terms : List Term) : Term :=
  match terms.filter fun t => !t.isExactly 0 with
  | [] => zero
  | [t] => t
  | terms => A.collected terms

end Algebra

end FormulaCalculator.Symbolic
