import FormulaCalculator.Expr.Basic

set_option autoImplicit false

namespace FormulaCalculator.Expr

mutual

def freeNames : Expr → List String
  | missing | number _ | word _ => []
  | ident name => if constants.contains name then [] else [name]
  | sign _ operand => freeNames operand
  | arith _ lhs rhs | compare _ lhs rhs | assign lhs rhs => freeNames lhs ++ freeNames rhs
  | call _ args => freeNamesAll args
  | array items => freeNamesAll items
  | matrix rows => freeNamesRows rows
  | paren inner => freeNames inner
  | tuple items => freeNamesAll items

def freeNamesAll : List Expr → List String
  | [] => []
  | item :: items => freeNames item ++ freeNamesAll items

def freeNamesRows : List (List Expr) → List String
  | [] => []
  | row :: rows => freeNamesAll row ++ freeNamesRows rows

end

theorem freeNamesAll_eq_flatMap (items : List Expr) :
    freeNamesAll items = items.flatMap freeNames := by
  induction items with
  | nil => rfl
  | cons item items ih => simp [freeNamesAll, ih]

theorem freeNamesRows_eq_flatMap (rows : List (List Expr)) :
    freeNamesRows rows = rows.flatMap (·.flatMap freeNames) := by
  induction rows with
  | nil => rfl
  | cons row rows ih => simp [freeNamesRows, freeNamesAll_eq_flatMap, ih]

def variableNames (expr : Expr) : List String :=
  (freeNames expr).eraseDups.mergeSort fun a b => decide (a ≤ b)

def hasVariables (expr : Expr) : Bool :=
  !(freeNames expr).isEmpty

end FormulaCalculator.Expr
