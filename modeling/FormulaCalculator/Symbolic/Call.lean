import FormulaCalculator.Symbolic.Power

set_option autoImplicit false

namespace FormulaCalculator.Symbolic

namespace Algebra

open Term

def beside? (wanted : Term) (t : Term) : Option Term :=
  match t with
  | Term.product factors =>
    if factors.any (same wanted) then some (rawProduct (factors.filter (!·.same wanted))) else none
  | _ => if t.same wanted then some one else none

def pis? (t : Term) : Option Rat :=
  if t.isExactly 0 then some 0 else beside? pi t >>= Term.rational?

def halfTurns? (t : Term) : Option Rat :=
  beside? pi t >>= beside? imaginary >>= Term.rational?

def sineOfEighth? (A : Algebra) (turn : Rat) : Option Term :=
  let halfRoot := fun n : Int => A.mul half (A.power (ofInt n) half)
  if turn = 0 then some zero
  else if turn = 1 / 6 then some half
  else if turn = 1 / 4 then some (halfRoot 2)
  else if turn = 1 / 3 then some (halfRoot 3)
  else if turn = 1 / 2 then some one
  else none

def sineOf? (A : Algebra) (turns : Rat) : Option Term :=
  let rest := turns - 2 * (turns / 2).floor
  let side := if rest < 1 then rest else rest - 1
  let quarter := if side ≤ 1 / 2 then side else 1 - side
  (A.sineOfEighth? quarter).map fun size => if rest < 1 then size else A.neg size

def reducedSine (A : Algebra) (turns : Rat) : Term :=
  let rest := turns - 2 * (turns / 2).floor
  let side := if rest < 1 then rest else rest - 1
  let quarter := if side ≤ 1 / 2 then side else 1 - side
  let call := Term.call "sin" [A.mul (ofRat quarter) pi]
  if rest < 1 then call else A.neg call

def reducedCosine (A : Algebra) (turns : Rat) : Term :=
  let rest := turns - 2 * (turns / 2).floor
  let side := if rest ≤ 1 then rest else 2 - rest
  let call := fun turn : Rat => Term.call "cos" [A.mul (ofRat turn) pi]
  if side ≤ 1 / 2 then call side else A.neg (call (1 - side))

def peeled? (A : Algebra) (t : Term) : Option (Term × Rat) :=
  match t with
  | Term.sum terms =>
    let found := terms.filterMap pis?
    let turns := found.foldl (· + ·) 0
    let kept := turns - ((turns * 2).floor : Rat) / 2
    let taken := turns - kept
    if taken = 0 then none
    else some (A.sum ((terms.filter fun each => (pis? each).isNone) ++ [A.mul (ofRat kept) pi]), taken)
  | _ => none

def inexactCall (A : Algebra) (name : String) (arg : Term) : Term :=
  let call := Term.call name [arg]
  match arg with
  | number c =>
    match c.bits, call.point? with
    | some bits, some value => A.ofPoint bits value
    | _, _ => call
  | _ => call

def sine (A : Algebra) (arg : Term) : Term :=
  if arg.same undefined then undefined
  else if arg.hasSign then A.neg (A.call "sin" [A.neg arg])
  else
    match pis? arg, A.peeled? arg with
    | some turns, _ => (A.sineOf? turns).getD (A.reducedSine turns)
    | none, some (rest, turns) =>
      let angle := A.mul (ofRat turns) pi
      A.add (A.mul (A.call "sin" [angle]) (A.call "cos" [rest]))
        (A.mul (A.call "cos" [angle]) (A.call "sin" [rest]))
    | none, none => A.inexactCall "sin" arg

def cosine (A : Algebra) (arg : Term) : Term :=
  if arg.same undefined then undefined
  else if arg.hasSign then A.call "cos" [A.neg arg]
  else
    match pis? arg, A.peeled? arg with
    | some turns, _ => (A.sineOf? (turns + 1 / 2)).getD (A.reducedCosine turns)
    | none, some (rest, turns) =>
      let angle := A.mul (ofRat turns) pi
      A.sub (A.mul (A.call "cos" [angle]) (A.call "cos" [rest]))
        (A.mul (A.call "sin" [angle]) (A.call "sin" [rest]))
    | none, none => A.inexactCall "cos" arg

def tangentOf? (A : Algebra) (turns : Rat) : Option Term := do
  let above ← A.sineOf? turns
  let below ← A.sineOf? (turns + 1 / 2)
  return if below.isZero then complexInfinity else A.div above below

def tangent (A : Algebra) (arg : Term) : Term :=
  if arg.same undefined then undefined
  else if arg.hasSign then A.neg (A.call "tan" [A.neg arg])
  else
    match pis? arg, A.peeled? arg with
    | some turns, _ =>
      (A.tangentOf? turns).getD (Term.call "tan" [A.mul (ofRat (turns - turns.floor)) pi])
    | none, some (rest, turns) =>
      if turns.den = 1 then A.call "tan" [rest] else A.neg (Term.call "cot" [rest])
    | none, none => A.inexactCall "tan" arg

def exponentialOfProduct (A : Algebra) (arg : Term) : Term :=
  let raw := Term.call "exp" [arg]
  match halfTurns? arg with
  | some turns =>
    let rest := turns - 2 * ((turns + 1) / 2).floor
    let rest := if rest = -1 then 1 else rest
    if rest = 0 then one
    else if rest = 1 then minusOne
    else if rest = 1 / 2 then imaginary
    else if rest = -1 / 2 then A.neg imaginary
    else if rest = turns then raw
    else Term.call "exp" [A.product [ofRat rest, pi, imaginary]]
  | none =>
    let (c, rest) := arg.split
    let isLog : Term → Bool := fun t => match t with
      | Term.call "log" [_] => true
      | _ => false
    match rest.factors.filter isLog, rest.factors.filter (!isLog ·) with
    | [Term.call "log" [base]], others =>
      if others.all fun t => t.isFixed && t.isReal? == some true then
        A.power base (A.product (number c :: others))
      else raw
    | _, _ => raw

def exponentialOfSum (A : Algebra) (terms : List Term) : Term :=
  let parts := terms.map fun t => if t.isOne then (t, none) else
    match A.call "exp" [t] with
    | Term.call "exp" [arg] => (arg, none)
    | value => (t, some value)
  let outside := parts.filterMap Prod.snd
  let inside := (parts.filter fun part => part.2.isNone).map Prod.fst
  if outside.isEmpty then Term.call "exp" [Term.sum terms]
  else
    match A.sum inside with
    | number c => A.product (outside ++ [A.call "exp" [number c]])
    | arg => A.product (outside ++ [Term.call "exp" [arg]])

def exponential (A : Algebra) (arg : Term) : Term :=
  match arg with
  | number c =>
    if c.isZero then one else if c.isExactly 1 then euler else A.inexactCall "exp" arg
  | undefined | complexInfinity => undefined
  | infinity => infinity
  | negativeInfinity => zero
  | Term.call "log" [inner] => inner
  | Term.product _ => A.exponentialOfProduct arg
  | Term.sum terms => A.exponentialOfSum terms
  | _ => if (halfTurns? arg).isSome then A.exponentialOfProduct arg else Term.call "exp" [arg]

def logOfNumber (A : Algebra) (c : Number) : Term :=
  match c.rational? with
  | none =>
    if c.isNegative then
      A.add (A.call "log" [number c.neg]) (A.mul pi imaginary)
    else A.inexactCall "log" (number c)
  | some q =>
    if q = 1 then zero
    else if q.num = 1 then A.neg (A.call "log" [ofInt q.den])
    else if q < 0 then A.add (A.call "log" [ofRat (-q)]) (A.mul pi imaginary)
    else Term.call "log" [number c]

def logarithm (A : Algebra) (arg : Term) : Term :=
  match arg with
  | number c => if c.isZero then complexInfinity else A.logOfNumber c
  | undefined => undefined
  | infinity | negativeInfinity => infinity
  | complexInfinity => complexInfinity
  | constant .euler => one
  | Term.call "exp" [inner] => if inner.isReal? == some true then inner else Term.call "log" [arg]
  | _ =>
    if arg.isFixed && arg.isNegative then
      A.add (A.call "log" [A.neg arg]) (A.mul pi imaginary)
    else
      match beside? imaginary arg >>= Term.rational? with
      | some y =>
        let turn := A.product [ofRat (if y < 0 then -1 / 2 else 1 / 2), pi, imaginary]
        A.add turn (A.call "log" [ofRat y.abs])
      | none => Term.call "log" [arg]

def multiplicity (p : Nat) : Nat → Nat → Nat
  | 0, _ => 0
  | fuel + 1, n => if n ≠ 0 ∧ p ≠ 1 ∧ n % p = 0 then multiplicity p fuel (n / p) + 1 else 0

def logarithmTo (A : Algebra) (arg base : Term) : Term :=
  if base.isOne then (if arg.isOne then undefined else complexInfinity)
  else
    let quotient := A.div (A.call "log" [arg]) (A.call "log" [base])
    match arg.whole?, base.whole? with
    | some n, some p =>
      if 1 < p ∧ 0 < n then
        let count := multiplicity p.toNat n.toNat n.toNat
        if count = 0 then quotient
        else A.add (ofInt count)
          (A.div (A.call "log" [ofInt (n / p.pow count)]) (A.call "log" [base]))
      else quotient
    | _, _ => if base.same euler then A.call "log" [arg] else quotient

def callOf (A : Algebra) (name : String) (args : List Term) : Term :=
  match name, args with
  | "exp", [arg] => A.exponential arg
  | "log", [arg] => A.logarithm arg
  | "log", [arg, base] => A.logarithmTo arg base
  | "sin", [arg] => A.sine arg
  | "cos", [arg] => A.cosine arg
  | "tan", [arg] => A.tangent arg
  | _, _ => Term.call name args

end Algebra

end FormulaCalculator.Symbolic
