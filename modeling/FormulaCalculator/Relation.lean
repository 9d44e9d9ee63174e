set_option autoImplicit false

namespace FormulaCalculator

inductive Relation where
  | eq | ne | lt | le | gt | ge
deriving DecidableEq, Repr

namespace Relation

def ofText? : String → Option Relation
  | "=" => some eq
  | "!=" => some ne
  | "<" => some lt
  | "<=" => some le
  | ">" => some gt
  | ">=" => some ge
  | _ => none

def holds : Relation → Ordering → Bool
  | eq, order => order == .eq
  | ne, order => order != .eq
  | lt, order => order == .lt
  | le, order => order != .gt
  | gt, order => order == .gt
  | ge, order => order != .lt

end Relation

end FormulaCalculator
