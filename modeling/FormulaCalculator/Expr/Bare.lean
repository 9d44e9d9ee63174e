import FormulaCalculator.Expr.Basic

set_option autoImplicit false

namespace FormulaCalculator.Expr

mutual

def bare : Expr → Expr
  | missing => missing
  | number text => number text
  | ident name => ident name
  | sign op operand => sign op (bare operand)
  | arith op lhs rhs => arith op (bare lhs) (bare rhs)
  | compare rel lhs rhs => compare rel (bare lhs) (bare rhs)
  | assign lhs rhs => assign (bare lhs) (bare rhs)
  | call name args => call name (bareAll args)
  | array items => array (bareAll items)
  | matrix rows => matrix (bareRows rows)
  | paren inner => bare inner
  | word text => word text
  | tuple items => tuple (bareAll items)

def bareAll : List Expr → List Expr
  | [] => []
  | item :: items => bare item :: bareAll items

def bareRows : List (List Expr) → List (List Expr)
  | [] => []
  | row :: rows => bareAll row :: bareRows rows

end

theorem bareAll_eq_map (items : List Expr) : bareAll items = items.map bare := by
  induction items with
  | nil => rfl
  | cons item items ih => simp [bareAll, ih]

theorem bareRows_eq_map (rows : List (List Expr)) : bareRows rows = rows.map (·.map bare) := by
  induction rows with
  | nil => rfl
  | cons row rows ih => simp [bareRows, bareAll_eq_map, ih]

end FormulaCalculator.Expr
