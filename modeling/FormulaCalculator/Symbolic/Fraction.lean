import FormulaCalculator.Symbolic.Build

set_option autoImplicit false

namespace FormulaCalculator.Symbolic

namespace Term

def primitiveSum (terms : List Term) : Rat × Term :=
  let parts := terms.map splitRational
  let above := parts.foldl (fun (g : Nat) (c, _) => g.gcd c.num.natAbs) 0
  let below := parts.foldl (fun (l : Nat) (c, _) => l.lcm c.den) 1
  if above = 1 ∧ below = 1 then (1, sum terms)
  else
    let c : Rat := above / below
    let multiples := parts.map fun (d, t) => keep (.ofRat (d / c)) t
    match multiples with
    | number d :: rest => (c, rawSum (number d :: inOrder rest))
    | _ => (c, rawSum (inOrder multiples))

def primitive : Term → Rat × Term
  | sum terms => primitiveSum terms
  | t =>
    match t.splitRational with
    | (c, rest) => if c < 0 then (-c, neg rest) else (c, rest)

def settleContent (clear : Bool) (content : Rat) (t : Term) : Rat × Term :=
  if clear || content.den = 1 || !t.isSum then (content, t)
  else
    let inside := scale (.ofRat (1 / content.den)) t
    let whole := inside.addends.any fun each => (each.split.1.whole?).isSome
    if whole then (content.num, inside) else (content, t)

mutual

def content (clear : Bool) : Term → Rat × Term
  | number c =>
    match c.rational? with
    | some q => if q = 0 then (1, number c) else (q.abs, if q < 0 then minusOne else one)
    | none => (1, number c)
  | sum terms =>
    let parts := contents clear terms
    let whole := sumOf (parts.map fun (c, t) => keep (.ofRat c) t)
    let (c, t) := whole.primitive
    settleContent clear c t
  | product factors =>
    let parts := contents clear factors
    (parts.foldl (fun c part => c * part.1) 1,
      productOf ((parts.map Prod.snd).filter fun t => !t.isOne))
  | power base exponent =>
    let (c, inner) := content clear base
    let whole := keep (.ofRat c) inner
    match whole, exponent with
    | number b, sum (number h :: rest) =>
      if b.isExact && h.isExact then
        let outside := h.value.floor
        (b.value ^ outside, pow whole (sumOf (number (h.sub (.ofInt outside)) :: rest)))
      else (1, pow whole exponent)
    | _, _ => (1, pow whole exponent)
  | t => (1, t)

def contents (clear : Bool) : List Term → List (Rat × Term)
  | [] => []
  | t :: ts => content clear t :: contents clear ts

end

def gatherDenominators (parts : List (Term × Term)) : List (Term × List Term) :=
  parts.foldl (fun groups (above, below) =>
    if groups.any fun group => group.1.same below then
      groups.map fun group => if group.1.same below then (below, group.2 ++ [above]) else group
    else groups ++ [(below, [above])]) []

def crossed (groups : List (Term × Term)) : Term × Term :=
  let above := (List.range groups.length).map fun index =>
    productOf (groups.mapIdx fun place group => if place = index then group.2 else group.1)
  (sumOf above, productOf (groups.map Prod.fst))

def isFalling (exponent : Term) : Bool :=
  match exponent with
  | product _ => if exponent.isPositive then false else exponent.isNegative || exponent.hasSign
  | _ => exponent.isNegative

def ratioWithin : Nat → Term → Term × Term
  | 0, t => (t, one)
  | fuel + 1, t =>
    match t with
    | number c =>
      match c.rational? with
      | some q => (ofInt q.num, ofInt q.den)
      | none => (t, one)
    | sum terms =>
      let (c, inner) := primitiveSum terms
      match inner with
      | sum parts =>
        let groups := gatherDenominators (parts.map (ratioWithin fuel))
        let above := keep (.ofInt c.num)
        let below := keep (.ofInt c.den)
        match groups with
        | [(denominator, numerators)] => (sumOf (numerators.map above), below denominator)
        | _ =>
          let (numerator, denominator) :=
            crossed (groups.map fun (below, numerators) => (below, sumOf numerators))
          (above numerator, below denominator)
      | _ => ratioWithin fuel (keep (.ofRat c) inner)
    | product factors =>
      let parts := factors.map (ratioWithin fuel)
      (productOf (parts.map Prod.fst), productOf (parts.map Prod.snd))
    | call "exp" [exponent] => if isFalling exponent then (one, callOf "exp" [neg exponent]) else (t, one)
    | power _ _ =>
      let (base, exponent) := t.basePower
      let (above, below) := ratioWithin fuel base
      let whole := exponent.whole?.isSome
      let (above, below) :=
        if below.isNegative then (if whole || below.isReal? == some true then (neg above, neg below)
          else (base, one))
        else if whole || below.isPositive then (above, below)
        else (base, one)
      let (above, below, exponent) := if isFalling exponent then (below, above, neg exponent)
        else (above, below, exponent)
      (pow above exponent, pow below exponent)
    | _ => (t, one)

def ratio (t : Term) : Term × Term := ratioWithin (2 * t.height + 2) t

-- Only `exact` ones keep powers above the line whose exponents may or may not be falling.
def fractionFactors (exact : Bool) (t : Term) : List Term × List Term :=
  t.factors.foldl (fun (above, below) factor =>
    match factor with
    | number c =>
      match c.rational? with
      | some q =>
        if q.den = 1 then (above ++ [factor], below)
        else (if q.num = 1 then above else above ++ [ofInt q.num], below ++ [ofInt q.den])
      | none => (above ++ [factor], below)
    | power _ _ | call "exp" [_] =>
      let (base, exponent) := factor.basePower
      if exponent.isNegative then
        (above, below ++ [if exponent.isExactly (-1) then base else pow base (neg exponent)])
      else if !exact && exponent.isProduct && !exponent.isPositive then
        let (numerator, denominator) := factor.ratio
        (if numerator.isOne then above else above ++ [numerator], below ++ [denominator])
      else (above ++ [factor], below)
    | _ => (above ++ [factor], below)) ([], [])

def fraction (t : Term) : Term × Term :=
  let (above, below) := fractionFactors false t
  (productOf above, productOf below)

def normal (t : Term) : Term :=
  match t.ratio with
  | (above, below) =>
    if below.isOne then above
    else
      match below with
      | number c => if c.isZero then div above below else rawQuotient above c
      | _ => div above below
where
  rawQuotient (above : Term) (c : Number) : Term :=
    match above with
    | number d => number (d.div c)
    | product (number d :: rest) =>
      if (d.div c).isExactly 1 then rawProduct rest else product (number (d.div c) :: rest)
    | product factors => if c.isExactly 1 then above else product (number c.inv :: factors)
    | _ => if c.isExactly 1 then above else product [number c.inv, above]

end Term

end FormulaCalculator.Symbolic
