import FormulaCalculator.Symbolic.Known

set_option autoImplicit false

namespace FormulaCalculator.Symbolic

inductive Rank where
  | number (side : Int) (value : Rat)
  | term (kind : Nat × Nat) (name text : String) (parts : List Rank) (exponent : Rank)
      (coefficient : Rat)
deriving Repr, Inhabited

namespace Rank

mutual

def order : Rank → Rank → Ordering
  | number m p, number n q => (compare m n).then (orderRat p q)
  | number _ _, term _ _ _ _ _ _ => .lt
  | term _ _ _ _ _ _, number _ _ => .gt
  | term k f s as m c, term l g t bs n d =>
    (compare k.1 l.1).then <| (compare k.2 l.2).then <| (compareOfLessAndEq f g).then <|
      (compare as.length bs.length).then <| (compareOfLessAndEq s t).then <| (orderAll as bs).then <|
      (order m n).then (orderRat c d)

def orderAll : List Rank → List Rank → Ordering
  | a :: as, b :: bs => (order a b).then (orderAll as bs)
  | _, _ => .eq

end

def one : Rank := number 0 1

def atom (name text : String) (coefficient : Rat) : Rank :=
  term (2, 0) name text [] one coefficient

-- Functions that may have any number of arguments come first.
def functionPlace (name : String) : Nat :=
  ([("exp", 10), ("log", 11), ("sin", 20), ("cos", 21), ("tan", 22)].lookup name).getD 0

end Rank

structure Shown where
  term : Term
  powers : List (Term × Int)
  size : Point
deriving Repr, Inhabited

namespace Shown

def orderSize (a b : Point) : Ordering :=
  ((compare (a.im != 0).toNat (b.im != 0).toNat).then (orderRat a.im b.im)).then (orderRat a.re b.re)

def exponent (generator : Term) (shown : Shown) : Int :=
  ((shown.powers.find? fun entry => entry.1.same generator).map Prod.snd).getD 0

def orderPowers (generators : List Term) (a b : Shown) : Ordering :=
  match generators with
  | [] => .eq
  | g :: gs => (compare (b.exponent g) (a.exponent g)).then (orderPowers gs a b)

def order (generators : List Term) (a b : Shown) : Ordering :=
  (orderPowers generators a b).then (orderSize a.size b.size)

end Shown

namespace Term

def rootOf (base : Term) (degree : Nat) : Term :=
  if degree = 1 then base else power base (ofRat (1 / degree))

def raised (base exponent : Term) : Term :=
  match base with
  | constant .euler => call "exp" [exponent]
  | _ => power base exponent

def wholePower (t : Term) : Term × Int :=
  match t.basePower with
  | (base, number m) =>
    if m.isExact then (rootOf base m.value.den, m.value.num) else (t, 1)
  | (base, exponent) =>
    match exponent.splitRational with
    | (m, rest) =>
      if m = 1 then (t, 1)
      else
        let root := match rest with
          | product factors => if m.den = 1 then rest else product (ofRat (1 / m.den) :: factors)
          | _ => if m.den = 1 then rest else product [ofRat (1 / m.den), rest]
        (raised base root, m.num)

def isNumberSign : Term → Bool
  | constant _ => true
  | t => t.isNumberLike

def addPower (powers : List (Term × Int)) (entry : Term × Int) : List (Term × Int) :=
  powers.filter (fun other => !other.1.same entry.1) ++ [entry]

def shown (t : Term) : Shown :=
  let (c, rest) := t.split
  let parts := if rest.isOne then [] else rest.factors
  let known := parts.filterMap fun part => if part.isFixed then part.point? else none
  let powers := (parts.filter fun part => !part.isFixed).map wholePower
  ⟨t, powers.foldl addPower [], (known.foldl Point.mul ⟨1, 0⟩).scale c.value⟩

def isDifference (a b : Term) : Bool :=
  a.isNumberSign && a.isPositive && match b with
    | product [number c, rest] => c.isNegative && !rest.isNumberLike
    | _ => false

def shownOrder (order : Term → Term → Ordering) (terms : List Term) : List Term :=
  match terms with
  | [a, b] =>
    if isDifference a b then [a, b]
    else if isDifference b a then [b, a]
    else sorted
  | _ => sorted
where
  sorted : List Term :=
    let entries := terms.map shown
    let bases := entries.flatMap fun entry => entry.powers.map Prod.fst
    let distinct := bases.foldl (fun found base =>
      if found.any (same base) then found else found ++ [base]) []
    let generators := distinct.mergeSort fun a b => order a b != .gt
    (entries.mergeSort fun a b => a.order generators b != .gt).map Shown.term

def rankWithin : Nat → Term → Rank
  | 0, _ => .one
  | fuel + 1, t =>
    let rank := rankWithin fuel
    let order := fun a b => (rank a).order (rank b)
    let (c, rest) := t.split
    let ranked (place : Nat × Nat) (name : String) (parts : List Rank) (exponent : Rank) : Rank :=
      .term place name "" parts exponent c.value
    let head (base : Term) (exponent : Rank) : Rank :=
      match base with
      | symbol name => .term (2, 0) "Symbol" name [] exponent c.value
      | constant k => .term (2, 0) k.name "" [] exponent c.value
      | imaginary => .term (2, 0) "ImaginaryUnit" "" [] exponent c.value
      | complexInfinity => .term (2, 0) "ComplexInfinity" "" [] exponent c.value
      | sum terms => ranked (3, 1) "Add" ((shownOrder order terms).map rank) exponent
      | product factors =>
        ranked (3, 0) "Mul" ((factors.map rank).mergeSort fun a b => a.order b != .gt) exponent
      | power b e => ranked (3, 2) "Pow" [rank b, rank e] exponent
      | call name args => ranked (4, Rank.functionPlace name) name (args.map rank) exponent
      | number d => .term (1, 0) "Number" (toString d.value) [] exponent c.value
      | _ => .term (1, 0) "Number" "" [] exponent c.value
    match t, rest with
    | number d, _ => .number 0 d.value
    | infinity, _ => .number 1 0
    | undefined, _ => .number 1 1
    | negativeInfinity, _ => .number (-1) 0
    | _, power base exponent => head base (rank exponent)
    | _, base => head base .one

def rank (t : Term) : Rank := rankWithin (2 * t.height + 4) t

def rankOrder (a b : Term) : Ordering := a.rank.order b.rank

def shownFactors (factors : List Term) : List Term :=
  let ranked := factors.map fun factor => (factor.rank, factor)
  (ranked.mergeSort fun a b => a.1.order b.1 != .gt).map Prod.snd

def shownTerms (terms : List Term) : List Term := shownOrder rankOrder terms

mutual

-- Of two opposite sums the one has a sign that has more terms with one, or that ranks before the other.
def hasSign : Term → Bool
  | number c => c.isNegative
  | negativeInfinity => true
  | product (number c :: rest) => c.isNegative && !rest.head?.any (same complexInfinity)
  | product (negativeInfinity :: _) => true
  | sum terms =>
    let signs := countSigns terms
    if 2 * signs = terms.length then
      rankOrder (sum terms) (sum (terms.map negated)) == .lt
    else decide (terms.length < 2 * signs)
  | _ => false

def countSigns : List Term → Nat
  | [] => 0
  | t :: ts => (hasSign t).toNat + countSigns ts

end

end Term

end FormulaCalculator.Symbolic
