set_option autoImplicit false

namespace FormulaCalculator

structure Settings where
  fraction : Bool := false
  displayStyle : Bool := true
  places : Int := 6
deriving DecidableEq, Repr, Inhabited

end FormulaCalculator
