import FormulaCalculator.Symbolic.Term

set_option autoImplicit false

namespace FormulaCalculator.Symbolic

abbrev Monomial := List Nat

-- The monomials are in falling order, and no coefficient is zero.
abbrev Polynomial := List (Monomial × Rat)

namespace Monomial

def order : Monomial → Monomial → Ordering
  | m :: ms, n :: ns => (compare m n).then (order ms ns)
  | _, _ => .eq

def mul (a b : Monomial) : Monomial := List.zipWith (· + ·) a b

def div? (a b : Monomial) : Option Monomial :=
  if (List.zipWith (fun m n : Nat => decide (n ≤ m)) a b).all id then
    some (List.zipWith (· - ·) a b)
  else none

end Monomial

namespace Polynomial

def constant (count : Nat) (c : Rat) : Polynomial :=
  if c = 0 then [] else [(List.replicate count 0, c)]

def insert (m : Monomial) (c : Rat) : Polynomial → Polynomial
  | [] => if c = 0 then [] else [(m, c)]
  | (n, d) :: rest =>
    match Monomial.order m n with
    | .gt => if c = 0 then (n, d) :: rest else (m, c) :: (n, d) :: rest
    | .eq => if d + c = 0 then rest else (n, d + c) :: rest
    | .lt => (n, d) :: insert m c rest

def add (p q : Polynomial) : Polynomial := q.foldl (fun sum (m, c) => insert m c sum) p

def mulTerm (m : Monomial) (c : Rat) (p : Polynomial) : Polynomial :=
  p.map fun (n, d) => (Monomial.mul m n, c * d)

def mul (p q : Polynomial) : Polynomial :=
  p.foldl (fun sum (m, c) => add sum (mulTerm m c q)) []

def scale (c : Rat) (p : Polynomial) : Polynomial := p.map fun (m, d) => (m, c * d)

def sub (p q : Polynomial) : Polynomial := add p (scale (-1) q)

def leading (p : Polynomial) : Rat := (p.head?.map Prod.snd).getD 0

def content (p : Polynomial) : Rat :=
  let above := p.foldl (fun (g : Nat) (_, c) => g.gcd c.num.natAbs) 0
  let below := p.foldl (fun (l : Nat) (_, c) => l.lcm c.den) 1
  if above = 0 then 1 else above / below

def primitive (p : Polynomial) : Polynomial := scale p.content⁻¹ p

def divideWithin : Nat → Polynomial → Polynomial → Option Polynomial
  | 0, _, _ => none
  | _, [], _ => some []
  | _, _, [] => none
  | fuel + 1, (m, c) :: p, (n, d) :: q => do
    let quotient ← Monomial.div? m n
    let rest := sub ((m, c) :: p) (mulTerm quotient (c / d) ((n, d) :: q))
    return (quotient, c / d) :: (← divideWithin fuel rest ((n, d) :: q))

def divisionLimit : Nat := 100000

def divide? (p q : Polynomial) : Option Polynomial := divideWithin divisionLimit p q

def degree (p : Polynomial) : Nat := ((p.head?.bind fun entry => entry.1.head?)).getD 0

def coefficient (power : Nat) (p : Polynomial) : Polynomial :=
  (p.filter fun entry => entry.1.head? == some power).map fun (m, c) => (m.tail, c)

def coefficients (p : Polynomial) : List Polynomial :=
  (p.filterMap fun entry => entry.1.head?).eraseReps.map fun power => coefficient power p

def lift (power : Nat) (p : Polynomial) : Polynomial := p.map fun (m, c) => (power :: m, c)

def remainder : Nat → Polynomial → Polynomial → Polynomial
  | 0, p, _ => p
  | fuel + 1, p, q =>
    if p.isEmpty || p.degree < q.degree then p
    else
      let above := lift 0 (coefficient q.degree q)
      let shift := lift (p.degree - q.degree) (coefficient p.degree p)
      remainder fuel (sub (mul above p) (mul shift q)) q

def lastRemainder (bare : Polynomial → Polynomial) : Nat → Polynomial → Polynomial → Polynomial
  | 0, p, _ => p
  | fuel + 1, p, q =>
    if q.isEmpty then p
    else lastRemainder bare fuel q (bare (remainder (p.degree + 1) p q))

def gcd : Nat → Polynomial → Polynomial → Polynomial
  | 0, p, q => if p.isEmpty && q.isEmpty then [] else constant 0 1
  | count + 1, p, q =>
    if p.isEmpty then q.primitive
    else if q.isEmpty then p.primitive
    else
      let shared (r : Polynomial) : Polynomial := r.coefficients.foldl (gcd count) []
      let bare (r : Polynomial) : Polynomial := ((r.divide? (lift 0 (shared r))).getD r).primitive
      let (a, b) := if p.degree < q.degree then (q, p) else (p, q)
      let last := bare (lastRemainder bare (a.degree + b.degree + 2) (bare a) (bare b))
      let joint := lift 0 (gcd count (shared p) (shared q))
      (mul joint last).primitive

end Polynomial

end FormulaCalculator.Symbolic
