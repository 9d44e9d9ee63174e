import FormulaCalculator.Number.Decimal
import FormulaCalculator.Symbolic.Fraction
import FormulaCalculator.Typeset.Name

set_option autoImplicit false

namespace FormulaCalculator.Typeset

open Symbolic

def parenthesized (text : String) : String := "\\left(" ++ text ++ "\\right)"

def raised (base exponent : String) : String := base ++ "^" ++ braced exponent

def quotient (above below : String) : String := command "frac" above ++ braced below

def guarded (text : String) : String :=
  if text.toList.contains '^' then parenthesized text else text

def number (c : Number) : String :=
  match c.bits with
  | some bits => (if c.isNegative then "-" else "") ++ Decimal.sizeText bits c.value.abs
  | none =>
    let size := toString c.value.num.natAbs
    if c.value.den = 1 then (if c.isNegative then "-" else "") ++ size
    else (if c.isNegative then "- " else "") ++ quotient size (toString c.value.den)

def constant : Constant → String
  | .euler => "e"
  | .pi => "\\pi"
  | .goldenRatio => "\\phi"
  | .eulerGamma => "\\gamma"
  | .catalan => "G"
  | .tribonacci => command "text" "TribonacciConstant"

def endsInDigit (text : String) : Bool :=
  ((text.toList.reverse.dropWhile fun c => c == '\x7d' || c == ' ').head?).any Char.isDigit

def beginsInDigit (text : String) : Bool :=
  let opening := "\\frac\x7b".toList
  let chars := text.toList
  chars.head?.any Char.isDigit || (opening.isPrefixOf chars &&
    match (chars.drop opening.length).dropWhile Char.isDigit with
    | '\x7d' :: '\x7b' :: rest => rest.head?.any Char.isDigit
    | _ => false)

def sideBySide : List String → String
  | [] => ""
  | [text] => text
  | text :: next :: rest =>
    let between := if endsInDigit text && beginsInDigit next then " \\cdot " else " "
    text ++ between ++ sideBySide (next :: rest)

def binding (t : Term) : Nat :=
  match t with
  | .number c => if c.isNegative then 1 else if c.isExact && !c.isWhole then 2 else 5
  | .sum _ | .negativeInfinity => 1
  | .product _ => if t.hasSign then 1 else 2
  | .power _ _ => 3
  | .call _ _ => 4
  | _ => 5

def needsParens (isFirst : Bool) (t : Term) : Bool :=
  match t with
  | .product _ => !isFirst && t.hasSign
  | _ => binding t < 2

def factorTexts (text : Term → String) : Bool → List Term → List String
  | _, [] => []
  | isFirst, t :: ts =>
    (if needsParens isFirst t then parenthesized (text t) else text t) :: factorTexts text false ts

def factorsText (text : Term → String) (factors : List Term) : String :=
  sideBySide (factorTexts text true factors)

def productText (text : Term → String) (t : Term) : String :=
  match t with
  | .product factors => factorsText text (Term.shownFactors factors)
  | _ => text t

def fractionText (text : Term → String) (t : Term) : String :=
  match Term.fractionFactors true t with
  | (_, []) => productText text t
  | (above, below) =>
    quotient (productText text (Term.rawProduct above)) (productText text (Term.rawProduct below))

def signedProduct (text : Term → String) (t : Term) : String :=
  if t.hasSign then
    match t.negated with
    | .sum terms => "- (" ++ text (.sum terms) ++ ")"
    | size => "- " ++ fractionText text size
  else fractionText text t

def sumText (text : Term → String) (terms : List Term) : String :=
  match Term.shownTerms terms with
  | [] => "0"
  | first :: rest => opened first ++ String.join (rest.map following)
where
  opened (t : Term) : String := if t.isSum then parenthesized (text t) else text t
  following (t : Term) : String :=
    if t.hasSign then " - " ++ opened t.negated else " + " ++ opened t

def argumentList (args : List String) : String :=
  braced ("\\left(" ++ ",".intercalate args ++ " \\right)")

def callText (name : String) (args : List String) (exponent : Option String) : String :=
  match name, args with
  | "exp", [arg] =>
    let whole := raised "e" arg
    (exponent.map (raised (parenthesized whole))).getD whole
  | "log", [_] =>
    let whole := Name.function name ++ argumentList args
    (exponent.map (raised whole)).getD whole
  | _, _ =>
    let head := Name.function name
    (exponent.map (raised (guarded head))).getD head ++ argumentList args

def standardPower (text : Term → String) (base exponent : Term) : String :=
  let inner := if binding base ≤ 3 then parenthesized (text base) else text base
  raised (if base.isSymbol then guarded inner else inner) (text exponent)

def rootText (text : Term → String) (base : Term) (degree : Nat) : String :=
  "\\sqrt" ++ (if degree = 2 then "" else "[" ++ toString degree ++ "]") ++ braced (text base)

def powerText (text : Term → String) (base exponent : Term) : String :=
  let other := match base with
    | .call name args => callText name (args.map text) (some (text exponent))
    | _ => standardPower text base exponent
  match exponent.rational? with
  | none => other
  | some m =>
    if m.num.natAbs = 1 ∧ m.den ≠ 1 then
      let root := rootText text base m.den
      if m < 0 then quotient "1" root else root
    else if m < 0 then fractionText text (.power base exponent)
    else other

def termWithin : Nat → Term → String
  | 0, _ => ""
  | fuel + 1, t =>
    let text := termWithin fuel
    match t with
    | .number c => number c
    | .infinity => "\\infty"
    | .negativeInfinity => "-\\infty"
    | .complexInfinity => command "tilde" "\\infty"
    | .undefined => command "text" "NaN"
    | .constant c => constant c
    | .imaginary => "i"
    | .symbol name => Name.typeset name
    | .sum terms => sumText text terms
    | .product _ => signedProduct text t
    | .power base exponent => powerText text base exponent
    | .call name args => callText name (args.map text) none

def term (t : Term) : String := termWithin (4 * t.height + 8) t

end FormulaCalculator.Typeset
