import FormulaCalculator.Number.Series

set_option autoImplicit false

namespace FormulaCalculator

structure Point where
  re : Rat
  im : Rat
deriving DecidableEq, Repr, Inhabited

namespace Point

open Series

def ofRat (q : Rat) : Point := ⟨q, 0⟩

def add (a b : Point) : Point := ⟨a.re + b.re, a.im + b.im⟩

def mul (a b : Point) : Point :=
  ⟨snap (a.re * b.re - a.im * b.im), snap (a.re * b.im + a.im * b.re)⟩

def scale (c : Rat) (a : Point) : Point := ⟨snap (c * a.re), snap (c * a.im)⟩

def isNought (q : Rat) : Bool := q.abs < (2 : Rat) ^ (-200 : Int)

def isReal (a : Point) : Bool := isNought a.im

def isZero (a : Point) : Bool := isNought a.re && isNought a.im

def inv (a : Point) : Point :=
  let norm := a.re * a.re + a.im * a.im
  ⟨snap (a.re / norm), snap (-a.im / norm)⟩

def powNat (a : Point) : Nat → Point
  | 0 => ⟨1, 0⟩
  | n + 1 => mul (powNat a n) a

def exp (a : Point) : Point :=
  let size := Series.exp a.re
  if a.im = 0 then ⟨snap size, 0⟩ else ⟨snap (size * cos a.im), snap (size * sin a.im)⟩

def log (a : Point) : Point :=
  let norm := Series.log (a.re * a.re + a.im * a.im) / 2
  ⟨snap norm, if a.im = 0 ∧ 0 < a.re then 0 else angle a.re a.im⟩

def root (a : Point) (m : Rat) : Point :=
  if a.im = 0 ∧ 0 ≤ a.re ∧ m = 1 / 2 then ⟨Series.sqrt a.re, 0⟩ else exp (scale m (log a))

def powRat? (a : Point) (m : Rat) : Option Point :=
  if m.den = 1 then
    if 0 ≤ m then some (powNat a m.num.toNat)
    else if a.isZero then none
    else some (inv (powNat a (-m.num).toNat))
  else if a.isZero then (if 0 < m then some ⟨0, 0⟩ else none)
  else some (root a m)

def pow? (a b : Point) : Option Point :=
  if b.im = 0 ∧ b.re.den = 1 then powRat? a b.re
  else if a.isZero then (if b.isReal && 0 < b.re then some ⟨0, 0⟩ else none)
  else some (exp (mul b (log a)))

def sin (a : Point) : Point :=
  let grown := Series.exp a.im
  let shrunk := Series.exp (-a.im)
  ⟨snap (Series.sin a.re * (grown + shrunk) / 2), snap (Series.cos a.re * (grown - shrunk) / 2)⟩

def cos (a : Point) : Point :=
  let grown := Series.exp a.im
  let shrunk := Series.exp (-a.im)
  ⟨snap (Series.cos a.re * (grown + shrunk) / 2), snap (-(Series.sin a.re * (grown - shrunk)) / 2)⟩

def function? (name : String) (a : Point) : Option Point :=
  match name with
  | "exp" => some (exp a)
  | "sin" => some (sin a)
  | "cos" => some (cos a)
  | "tan" => if (cos a).isZero then none else some (mul (sin a) (inv (cos a)))
  | "log" => if a.isZero then none else some (log a)
  | _ => none

end Point

end FormulaCalculator
