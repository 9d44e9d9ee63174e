import FormulaCalculator.Expr.Flat
import FormulaCalculator.Expr.FreeNames
import FormulaCalculator.Grammar.Parse
import FormulaCalculator.Shorthand

set_option autoImplicit false

namespace FormulaCalculator

structure Formula where
  expr : Expr
  flat : String
  hasVariables : Bool
deriving Repr

inductive TextFault where
  | rejected (noted : List Diagnostic)
  | unwritten (fault : FlatFault)
deriving Repr

def Formula.ofText [Stack] (text : String) : Except TextFault Formula :=
  match Grammar.parseText (normalize text) with
  | .error noted => .error (.rejected noted)
  | .ok expr =>
    match expr.flat with
    | .error fault => .error (.unwritten fault)
    | .ok flat => .ok ⟨expr, flat, expr.hasVariables⟩

end FormulaCalculator
