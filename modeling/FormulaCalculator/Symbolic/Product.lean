import FormulaCalculator.Symbolic.Sum

set_option autoImplicit false

namespace FormulaCalculator.Symbolic

namespace Algebra

open Term

def endOf (positive : Bool) : Term := if positive then infinity else negativeInfinity

def mulNumbers : Term → Term → Term
  | number a, number b => number (a.mul b)
  | undefined, _ | _, undefined => undefined
  | complexInfinity, t | t, complexInfinity => if t.isZero then undefined else complexInfinity
  | a, b =>
    if a.isZero || b.isZero then undefined else endOf (a.isNegativeNumber == b.isNegativeNumber)

structure Factored where
  number : Term
  turn : Rat
  roots : List (Nat × Rat)
  bases : List (Number × Term)
  powers : List (Term × Term)

namespace Factored

def takePower (factored : Factored) (base exponent : Term) : Factored :=
  match base, exponent with
  | .number c, .number m =>
    if m.isExact && c.isExact && c.isWhole then
      if m.isWhole then { factored with number := mulNumbers factored.number (.number (c.pow m.value.num)) }
      else
        let turned := if c.isNegative then { factored with turn := factored.turn + m.value } else factored
        if c.value.abs = 1 then turned
        else { turned with roots := turned.roots ++ [(c.value.num.natAbs, m.value)] }
    else { factored with powers := factored.powers ++ [(base, exponent)] }
  | .number c, _ =>
    if c.isNegative || c.isZero then { factored with powers := factored.powers ++ [(base, exponent)] }
    else { factored with bases := factored.bases ++ [(c, exponent)] }
  | _, _ => { factored with powers := factored.powers ++ [(base, exponent)] }

def take (factored : Factored) (t : Term) : Factored :=
  match t with
  | .number _ | infinity | negativeInfinity | complexInfinity | undefined =>
    { factored with number := mulNumbers factored.number t }
  | imaginary => { factored with turn := factored.turn + 1 / 2 }
  | _ =>
    let (base, exponent) := t.basePower
    factored.takePower base exponent

end Factored

mutual

def spreadFactors : Term → List Term
  | Term.product factors => spreadAll factors
  | t => [t]

def spreadAll : List Term → List Term
  | [] => []
  | t :: ts => spreadFactors t ++ spreadAll ts

end

def insertExponent (c : Number) (t : Term) : List (Term × Number) → List (Term × Number)
  | [] => [(t, c)]
  | (other, d) :: rest =>
    if other.same t then (other, d.add c) :: rest else (other, d) :: insertExponent c t rest

def insertPower (base : Term) (c : Number) (t : Term) :
    List (Term × List (Term × Number)) → List (Term × List (Term × Number))
  | [] => [(base, [(t, c)])]
  | (other, exponents) :: rest =>
    if other.same base then (other, insertExponent c t exponents) :: rest
    else (other, exponents) :: insertPower base c t rest

def gatherPowers (A : Algebra) (powers : List (Term × Term)) : List (Term × Term) :=
  let grouped := powers.foldl (fun groups (base, exponent) =>
    let (c, rest) := exponent.split
    let (c, rest) := if exponent.isZero then (.ofInt 0, one) else (c, rest)
    insertPower base c rest groups) []
  grouped.flatMap fun (base, exponents) => exponents.map fun (t, c) => (base, A.scale c t)

def settlePower (A : Algebra) (entry : Term × Term) : Option (Term × (Term × Term)) :=
  match entry with
  | (base, exponent) =>
    if exponent.isZero then
      if (base.isSum && base.addends.any isInfinite) || (base.isProduct && base.factors.any isInfinite)
      then some (undefined, entry) else none
    else if exponent.isOne then some (base, entry)
    else
      let result := A.power base exponent
      if result.isPower && !base.isPower then some (result, result.basePower) else some (result, entry)

def hasRepeated : List Term → Bool
  | [] => false
  | t :: ts => ts.any (same t) || hasRepeated ts

def settlePowers (A : Algebra) (powers : List (Term × Term)) : List Term :=
  let settled := powers.filterMap A.settlePower
  if hasRepeated (settled.map fun entry => entry.2.1) then
    ((A.gatherPowers (settled.map Prod.snd)).filterMap A.settlePower).map Prod.fst
  else settled.map Prod.fst

def joinBases (A : Algebra) (bases : List (Number × Term)) : List Term :=
  let gathered := A.gatherPowers (bases.map fun (c, exponent) => (number c, exponent))
  let exponents := gathered.foldl (fun found (_, exponent) =>
    if found.any (same exponent) then found else found ++ [exponent]) []
  exponents.map fun exponent =>
    let joined := (gathered.filter fun entry => entry.2.same exponent).map Prod.fst
    A.power (A.product joined) exponent

def addRoot (base : Nat) (m : Rat) : List (Nat × Rat) → List (Nat × Rat)
  | [] => [(base, m)]
  | (other, n) :: rest => if other = base then (other, n + m) :: rest else (other, n) :: addRoot base m rest

def joinRoot (base : Nat) (m : Rat) : List (Nat × Rat) → List (Nat × Rat)
  | [] => [(base, m)]
  | (other, n) :: rest => if n = m then (other * base, n) :: rest else (other, n) :: joinRoot base m rest

def cutRoot (base : Nat) (m : Rat) : Rat × (Nat × Rat) :=
  ((base : Rat) ^ m.floor, (base, m - m.floor))

def meetRoots (base : Nat) (m : Rat) :
    List (Nat × Rat) → Nat × Rat × List (Nat × Rat) × List (Nat × Rat)
  | [] => (base, 1, [], [])
  | (other, n) :: rest =>
    let shared := base.gcd other
    if shared = 1 then
      let (left, c, others, grown) := meetRoots base m rest
      (left, c, (other, n) :: others, grown)
    else
      let (c, root) := cutRoot shared (m + n)
      let (left, d, others, grown) := meetRoots (base / shared) m rest
      (left, c * d, (other / shared, n) :: others, if root.2 = 0 then grown else root :: grown)

def settleRoots (A : Algebra) : Nat → List (Nat × Rat) → Number × List (Nat × Rat)
  | 0, roots => (.ofInt 1, roots)
  | _, [] => (.ofInt 1, [])
  | fuel + 1, (base, m) :: rest =>
    let (left, c, others, grown) := meetRoots base m rest
    let (d, settled) := settleRoots A fuel (others ++ grown)
    if left = 1 then (d.mul (.ofRat c), settled)
    else
      (A.power (ofInt left) (ofRat m)).factors.foldl (fun (d, settled) factor =>
        match factor with
        | number e => (d.mul e, settled)
        | Term.power (number b) (number n) => (d, joinRoot b.value.num.natAbs n.value settled)
        | _ => (d, settled)) (d.mul (.ofRat c), settled)

def rootLimit : Nat := 200

def rootsOf (A : Algebra) (roots : List (Nat × Rat)) : Number × List (Nat × Rat) :=
  let summed := roots.foldl (fun found (base, m) => addRoot base m found) []
  let joined := summed.foldl (fun found (base, m) => joinRoot base m found) []
  let cut := joined.map fun (base, m) => cutRoot base m
  let outside := cut.foldl (fun c entry => c * entry.1) 1
  let (c, settled) := A.settleRoots rootLimit ((cut.map Prod.snd).filter fun root => root.2 != 0)
  (c.mul (.ofRat outside), settled)

def turned (turn : Rat) (roots : List (Nat × Rat)) : Bool × List Term :=
  let negative := turn.floor % 2 != 0
  let rest := turn - turn.floor
  let plain := roots.map fun (base, m) => (m, ofInt base)
  let raise := fun (m, base) => Term.power base (ofRat m)
  if rest = 0 then (negative, plain.map raise)
  else if rest = 1 / 2 then (negative, imaginary :: plain.map raise)
  else
    match plain.find? fun root => root.1 = rest with
    | some (_, base) =>
      (negative, (plain.map fun root => if root.1 = rest then (rest, base.negated) else root).map raise)
    | none => (negative, Term.power minusOne (ofRat rest) :: plain.map raise)

def withNumber (A : Algebra) (c : Term) (factors : List Term) : Term :=
  match c, factors with
  | number _, [Term.sum terms] =>
    if c.isOne then Term.sum terms else A.sum (terms.map fun t => A.mul c t)
  | _, _ => rawProduct (if c.isOne then factors else c :: factors)

def besideLimit (c : Term) (factors : List Term) : Term × List Term :=
  match c with
  | infinity | negativeInfinity =>
    let flips := (factors.filter Term.isNegative).length % 2 = 1
    (if flips then c.negated else c, factors.filter fun t => !(t.isPositive || t.isNegative))
  | complexInfinity => (c, factors.filter fun t => !(t.isNonzero && t.isReal?.isSome))
  | _ => (c, factors)

def multiplied (A : Algebra) (terms : List Term) : Term :=
  let queue := terms.filter (!·.isProduct) ++ (terms.filter isProduct).flatMap spreadFactors
  let factored := queue.foldl Factored.take ⟨one, 0, [], [], []⟩
  if factored.number.same undefined then undefined
  else
    let powers := A.settlePowers (A.gatherPowers factored.powers)
    let (outside, roots) := A.rootsOf factored.roots
    let (negative, roots) := turned factored.turn roots
    let parts := powers ++ A.joinBases factored.bases ++ roots
    let c := mulNumbers factored.number (number (if negative then outside.neg else outside))
    if parts.any (same undefined) then undefined
    else
      let (c, parts) := besideLimit c parts
      if c.isZero then (if parts.any isInfinite then undefined else c)
      else
        let c := (parts.filter isNumberLike).foldl mulNumbers c
        A.withNumber c (inOrder (parts.filter (!·.isNumberLike)))

def distributed? (A : Algebra) (c : Rat) (t : Term) : Option Term :=
  match t with
  | Term.sum terms =>
    match terms with
    | number d :: rest =>
      some (rawSum (number ((Number.ofRat c).mul d) :: inOrder (rest.map (A.keep (.ofRat c)))))
    | _ => some (rawSum (inOrder (terms.map (A.keep (.ofRat c)))))
  | Term.product [number d, Term.sum terms] =>
    let e := (Number.ofRat c).mul d
    some (if e.isExactly 1 then Term.sum terms else Term.product [number e, Term.sum terms])
  | _ => none

def productOf (A : Algebra) (terms : List Term) : Term :=
  match terms.filter fun t => !t.isOne with
  | [] => one
  | [t] => t
  | [a, b] =>
    let (a, b) := if b.rational?.isSome then (b, a) else (a, b)
    match a.rational? with
    | some c => if c = 0 then A.multiplied [a, b] else (A.distributed? c b).getD (A.multiplied [a, b])
    | none => A.multiplied [a, b]
  | terms => A.multiplied terms

end Algebra

end FormulaCalculator.Symbolic
