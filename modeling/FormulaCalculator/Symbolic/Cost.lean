import FormulaCalculator.Symbolic.Fraction

set_option autoImplicit false

namespace FormulaCalculator.Symbolic

namespace Term

-- A sign in front of the first term counts if all terms have one.
def costOfSum (cost : Term → Nat) (terms : List Term) : Nat :=
  let bare := terms.map fun t => if t.hasSign then neg t else t
  (if terms.all hasSign then 1 else 0) + (terms.length - 1) + (bare.map cost).foldl (· + ·) 0

def costOfProduct (cost : Term → Nat) (factors : List Term) : Nat :=
  let (above, below) := (product factors).fraction
  match above.whole? with
  | some n => (if n < 0 then 2 else 1) + cost below
  | none =>
    if !below.isOne then 1 + (if below.whole?.isSome then 0 else cost below) + cost above
    else (factors.length - 1) + (factors.map cost).foldl (· + ·) 0

def costWithin : Nat → Term → Nat
  | 0, _ => 0
  | fuel + 1, t =>
    let cost := costWithin fuel
    match t with
    | number c =>
      match c.rational? with
      | some q => (if q < 0 then 1 else 0) + (if q.den = 1 then 0 else 1)
      | none => 0
    | constant .euler => 1
    | product factors =>
      if t.hasSign then 1 + cost (neg t) else costOfProduct cost factors
    | sum terms => costOfSum cost terms
    | power base exponent =>
      if exponent.isExactly (-1) then 1 + cost base else 1 + cost base + cost exponent
    | call _ args => 1 + (args.map cost).sum
    | _ => 0

def cost (t : Term) : Nat := costWithin (3 * t.height + 3) t

def shorter (first : Term) (others : List Term) : Term :=
  others.foldl (fun best t => if t.cost < best.cost then t else best) first

end Term

end FormulaCalculator.Symbolic
