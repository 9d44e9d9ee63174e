import FormulaCalculator.Expr.Bare
import FormulaCalculator.Expr.Depth
import FormulaCalculator.Expr.Flat
import FormulaCalculator.Expr.FreeNames

set_option autoImplicit false

namespace FormulaCalculator

structure Profile where
  cls : Option NodeClass
  size : Nat
  isConstant : Option Bool
  isPower : Option Bool
  isFraction : Option Bool
  name : Option String
  rows : Option Nat
  columns : Option Nat
  variableNames : List String
  hasVariables : Bool
  bare : Expr
  shown : String
deriving Repr

namespace Expr

def size (expr : Expr) : Nat :=
  match expr.toForm with
  | .tuple items => items.length
  | _ => 0

def isConstant? : Expr → Option Bool
  | ident name => some (ident name).isConstant
  | _ => none

def isPower? : Expr → Option Bool
  | arith op _ _ => some (op == "^")
  | _ => none

def isFraction? : Expr → Option Bool
  | call name _ => some (name == fraction)
  | _ => none

def commandName? : Expr → Option String
  | call name _ => some (plainName name)
  | _ => none

def rowCount? : Expr → Option Nat
  | matrix rows => some rows.length
  | _ => none

def columnCount? : Expr → Option Nat
  | matrix [] => some 0
  | matrix (row :: _) => some row.length
  | _ => none

def profile [Stack] (expr : Expr) : Except FlatFault Profile :=
  if expr.isTall then .error .tooTall
  else .ok ⟨expr.class?, expr.size, expr.isConstant?, expr.isPower?, expr.isFraction?,
    expr.commandName?, expr.rowCount?, expr.columnCount?, expr.variableNames, expr.hasVariables,
    expr.bare, expr.toForm.shown⟩

def rebuildsSame (expr : Expr) : Bool :=
  match ofForm expr.toForm with
  | .ok again => again.toForm == expr.toForm && again.class? == expr.class?
  | .error _ => false

end Expr

end FormulaCalculator
