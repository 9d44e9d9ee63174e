import FormulaCalculator.Expr.Flat
import FormulaCalculator.Proofs.Expr.Nodes
import Mathlib.Algebra.Order.Field.Rat

set_option autoImplicit false

namespace FormulaCalculator

/-- What the numbers, the names and the powers of a formula stand for. -/
structure Valuation where
  number : String → ℚ
  name : String → ℚ
  power : ℚ → ℚ → ℚ
  samePi : name "π" = name "pi"

namespace Valuation

def signed? (op : String) (x : ℚ) : Option ℚ :=
  match op with
  | "+" => some x
  | "-" => some (-x)
  | _ => none

def quotient? (x y : ℚ) : Option ℚ := if y = 0 then none else some (x / y)

theorem quotient?_of_signed (op : String) (x y : ℚ) :
    (signed? op x).bind (quotient? · y) = (quotient? x y).bind (signed? op) := by
  by_cases zero : y = 0
  · cases value : signed? op x <;> simp [quotient?, zero]
  · simp only [quotient?, zero, if_false, signed?, Option.bind_some]
    split <;> simp [neg_div]

theorem quotient?_of_scaled (w x y : ℚ) : quotient? (w * x) y = (quotient? x y).map (w * ·) := by
  by_cases zero : y = 0 <;> simp [quotient?, zero, mul_div_assoc]

def joined? (valuation : Valuation) (op : String) (x y : ℚ) : Option ℚ :=
  match op with
  | "+" => some (x + y)
  | "-" => some (x - y)
  | "*" => some (x * y)
  | "/" => quotient? x y
  | "^" => some (valuation.power x y)
  | _ => none

def called? (name : String) (args : List ℚ) : Option ℚ :=
  match args with
  | [x, y] => if name = Expr.fraction then quotient? x y else none
  | _ => none

end Valuation

namespace Expr

mutual

def value? (valuation : Valuation) : Expr → Option ℚ
  | number text => some (valuation.number text)
  | ident name => some (valuation.name name)
  | sign op operand => (value? valuation operand).bind (Valuation.signed? op)
  | arith op lhs rhs =>
    (value? valuation lhs).bind fun x => (value? valuation rhs).bind (valuation.joined? op x)
  | call name args => (values? valuation args).bind (Valuation.called? name)
  | paren inner => value? valuation inner
  | missing | compare _ _ _ | assign _ _ | array _ | matrix _ | word _ | tuple _ => none

def values? (valuation : Valuation) : List Expr → Option (List ℚ)
  | [] => some []
  | item :: items =>
    (value? valuation item).bind fun x => (values? valuation items).map (x :: ·)

end

theorem value?_fraction (valuation : Valuation) (numerator denominator : Expr) :
    (call fraction [numerator, denominator]).value? valuation =
      (arith "/" numerator denominator).value? valuation := by
  rw [value?, value?, values?, values?, values?]
  cases numerator.value? valuation with
  | none => rfl
  | some x =>
    cases denominator.value? valuation with
    | none => rfl
    | some y => rfl

theorem value?_arith_of_some {valuation : Valuation} {op : String} {lhs rhs : Expr} {x y : ℚ}
    (left : lhs.value? valuation = some x) (right : rhs.value? valuation = some y) :
    (arith op lhs rhs).value? valuation = valuation.joined? op x y := by
  rw [value?, left, right]
  rfl

def isQuotient : Expr → Bool
  | call name [_, _] => name == fraction
  | _ => false

def isArithmeticNode : Expr → Bool
  | number _ | ident _ | sign _ _ | arith _ _ _ | paren _ => true
  | node => node.isQuotient

def IsArithmetic (expr : Expr) : Prop := expr.Everywhere (·.isArithmeticNode = true)

instance (expr : Expr) : Decidable expr.IsArithmetic := inferInstanceAs (Decidable (Everywhere _ expr))

def signless : Expr → Expr
  | sign _ operand => signless operand
  | expr => expr

/-- A division or a power whose right side is a quotient command with a sign in front of it. -/
def splitsQuotient : Expr → Bool
  | arith op _ rhs => (op == "/" || op == "^") && (rhs.isSign && rhs.signless.isQuotient)
  | _ => false

def IsGrouped (expr : Expr) : Prop := expr.Everywhere (·.splitsQuotient = false)

instance (expr : Expr) : Decidable expr.IsGrouped := inferInstanceAs (Decidable (Everywhere _ expr))

end Expr

end FormulaCalculator
