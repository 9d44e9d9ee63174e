import FormulaCalculator.Symbolic.Value
import FormulaCalculator.Typeset.Term

set_option autoImplicit false

namespace FormulaCalculator.Typeset

open Symbolic

def relationSign : Relation → String
  | .eq => "="
  | .ne => "\\neq"
  | .lt => "<"
  | .le => "\\leq"
  | .gt => ">"
  | .ge => "\\geq"

def enclosedList (brackets : Brackets) (items : List String) : String :=
  let inner := ", \\  ".intercalate items
  match brackets with
  | .square => "\\left[ " ++ inner ++ "\\right]"
  | .round => "\\left( " ++ inner ++ "\\right)"

def enclosedMatrix (rows : List (List String)) : String :=
  command "begin" "pmatrix" ++ "\\\\".intercalate (rows.map fun row => " & ".intercalate row) ++
    command "end" "pmatrix"

mutual

def value : Value → String
  | .scalar a => term a
  | .truth holds | .flag holds => command "text" (if holds then "True" else "False")
  | .relation rel lhs rhs => value lhs ++ " " ++ relationSign rel ++ " " ++ value rhs
  | .list brackets items => enclosedList brackets (values items)
  | .matrix rows => enclosedMatrix (valueRows rows)
  | .word name _ => name

def values : List Value → List String
  | [] => []
  | item :: items => value item :: values items

def valueRows : List (List Value) → List (List String)
  | [] => []
  | row :: rows => values row :: valueRows rows

end

end FormulaCalculator.Typeset
