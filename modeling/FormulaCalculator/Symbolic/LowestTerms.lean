import FormulaCalculator.Symbolic.Expand
import FormulaCalculator.Symbolic.Polynomial

set_option autoImplicit false

namespace FormulaCalculator.Symbolic

namespace Term

structure Entry where
  coefficient : Number
  powers : List (Term × Nat)

def Entry.take (entry : Entry) (factor : Term) : Entry :=
  match factor with
  | number c => { entry with coefficient := entry.coefficient.mul c }
  | _ =>
    let (base, k) := factor.wholePower
    let (base, k) := if k < 0 then (inverse base, -k) else (base, k)
    let known := ((entry.powers.find? fun power => power.1.same base).map Prod.snd).getD 0
    { entry with
      powers := entry.powers.filter (fun power => !power.1.same base) ++ [(base, known + k.toNat)] }

def entries (t : Term) : List Entry :=
  (t.expand.addends.filter (!·.isZero)).map fun each => each.factors.foldl Entry.take ⟨.ofInt 1, []⟩

-- First x, y and z, then p to w, then a to o, then all others.
def unknownPlace (t : Term) : Nat × String × Nat :=
  match t with
  | symbol name =>
    let chars := name.toList
    let digits := (chars.reverse.takeWhile Char.isDigit).reverse
    let letters := chars.take (chars.length - digits.length)
    let index := digits.foldl (fun n c => 10 * n + (c.toNat - '0'.toNat)) 0
    let place := match letters with
      | [c] => if 'x' ≤ c ∧ c ≤ 'z' then 0 else if 'p' ≤ c ∧ c ≤ 'w' then 1
        else if 'a' ≤ c ∧ c ≤ 'o' then 2 else 3
      | _ => 3
    (place, String.ofList letters, index)
  | constant .euler => (3, "E", 0)
  | constant .pi => (3, "pi", 0)
  | imaginary => (3, "I", 0)
  | call name _ => (3, name ++ "(", 0)
  | power _ (number m) => (3, if m.isExactly (1 / 2) then "sqrt(" else "", 0)
  | _ => (3, "", 0)

def orderUnknowns (a b : Term) : Ordering :=
  let (m, f, i) := a.unknownPlace
  let (n, g, j) := b.unknownPlace
  (((compare m n).then (compareOfLessAndEq f g)).then (compare i j)).then (order a b)

def unknownsOf (entries : List Entry) : List Term :=
  let found := (entries.flatMap fun entry => entry.powers.map Prod.fst).foldl (fun found base =>
    if found.any (same base) then found else found ++ [base]) []
  found.mergeSort fun a b => orderUnknowns a b != .gt

def polynomialOf (unknowns : List Term) (entries : List Entry) : Polynomial :=
  entries.foldl (fun p entry =>
    Polynomial.insert (unknowns.map fun base =>
      ((entry.powers.find? fun power => power.1.same base).map Prod.snd).getD 0)
      entry.coefficient.value p) []

def ofPolynomial (unknowns : List Term) (bits : Option Nat) (p : Polynomial) : Term :=
  sumOf (p.map fun (m, c) =>
    let size := match bits with
      | some bits => Number.near bits c
      | none => Number.ofRat c
    productOf (number size :: List.zipWith (fun base k => pow base (ofInt (k : Nat))) unknowns m))

def cancelled (count : Nat) (exact : Bool) (p q : Polynomial) : Polynomial × Polynomial :=
  let joint := Polynomial.gcd count p q
  let above := (Polynomial.divide? p joint).getD p
  let below := (Polynomial.divide? q joint).getD q
  let (above, below) := if exact then
      let c : Rat := above.content / below.content
      (above.primitive.scale c.num, below.primitive.scale c.den)
    else (above.scale joint.leading, below.scale joint.leading)
  if below.leading < 0 then (above.scale (-1), below.scale (-1)) else (above, below)

def bitsOf (entries : List Entry) : Option Nat :=
  entries.foldl (fun bits entry => bits.merge max entry.coefficient.bits) none

def lowestTerms (t : Term) : Term :=
  if t.isNumber then t
  else
    let (above, below) := t.ratio
    let numerator := above.entries
    let denominator := below.entries
    let unknowns := unknownsOf (numerator ++ denominator)
    if unknowns.isEmpty then t.expand
    else
      let bits := bitsOf (numerator ++ denominator)
      let (p, q) := cancelled unknowns.length bits.isNone (polynomialOf unknowns numerator)
        (polynomialOf unknowns denominator)
      div (ofPolynomial unknowns bits p) (ofPolynomial unknowns bits q)

end Term

end FormulaCalculator.Symbolic
