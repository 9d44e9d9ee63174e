import FormulaCalculator.Symbolic.Approximate
import FormulaCalculator.Symbolic.Simplify
import FormulaCalculator.Symbolic.Value

set_option autoImplicit false

namespace FormulaCalculator.Symbolic

mutual

def Value.decimals (places : Int) : Value → Value
  | .scalar a => .scalar (a.decimals places)
  | .list brackets items => .list brackets (decimalsAll places items)
  | .matrix rows => .matrix (decimalsRows places rows)
  | value => value

def decimalsAll (places : Int) : List Value → List Value
  | [] => []
  | item :: items => item.decimals places :: decimalsAll places items

def decimalsRows (places : Int) : List (List Value) → List (List Value)
  | [] => []
  | row :: rows => (decimalsAll places row).map cellOf :: decimalsRows places rows
where
  cellOf : Value → Value
    | .scalar a => Value.cell a
    | value => value

end

mutual

def Value.simple : Value → Value
  | .scalar a => .scalar a.expand.simplify
  | .relation rel lhs rhs => .relation rel lhs.simple rhs.simple
  | .list brackets items => .list brackets (simpleAll items)
  | .matrix rows => .matrix (simpleRows rows)
  | value => value

def simpleAll : List Value → List Value
  | [] => []
  | item :: items => item.simple :: simpleAll items

def simpleRows : List (List Value) → List (List Value)
  | [] => []
  | row :: rows => simpleAll row :: simpleRows rows

end

end FormulaCalculator.Symbolic
