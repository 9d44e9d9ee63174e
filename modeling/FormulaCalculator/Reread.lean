import FormulaCalculator.Expr.Bare
import FormulaCalculator.Expr.Flat
import FormulaCalculator.Grammar.Parse

set_option autoImplicit false

namespace FormulaCalculator

structure Comparison where
  same : Bool
  sameBare : Bool
  flat : String
deriving Repr

structure Reread where
  flat : String
  again : Except (List Diagnostic) Comparison

structure RoundTrip where
  bare : Expr
  ofTree : Reread
  ofBare : Reread

namespace Expr

def reread [Stack] (expr : Expr) : Except FlatFault Reread := do
  let text ← expr.flat
  match Grammar.parseText text with
  | .error noted => return ⟨text, .error noted⟩
  | .ok back =>
    let same := decide (back.toForm = expr.toForm)
    let sameBare := decide (back.bare.toForm = expr.bare.toForm)
    return ⟨text, .ok ⟨same, sameBare, ← back.flat⟩⟩

def roundTrip [Stack] (expr : Expr) : Except FlatFault RoundTrip := do
  return ⟨expr.bare, ← expr.reread, ← expr.bare.reread⟩

end Expr

end FormulaCalculator
