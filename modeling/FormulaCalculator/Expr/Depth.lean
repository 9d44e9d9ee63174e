import FormulaCalculator.Expr.Basic

set_option autoImplicit false

namespace FormulaCalculator

/-- What a program may recurse into. Reading enters a layer for each rule inside another, and a walk over a
tree takes some frames for a node, by its class, on top of those for what is inside it. -/
class Stack where
  nesting : Nat
  room : Nat
  frames : NodeClass → Nat → Nat
  nesting_pos : 0 < nesting
  lt_frames : ∀ (cls : NodeClass) (inside : Nat), inside < frames cls inside
  frames_mono : ∀ (cls : NodeClass) {less more : Nat}, less ≤ more → frames cls less ≤ frames cls more
  frames_ident : frames .ident 0 ≤ frames .number 0
  -- A quotient takes no more as a command than with its bar and parentheses spelled out.
  frames_call : ∀ inside : Nat, frames .call inside ≤ frames .arith (frames .paren inside)

-- A thousand frames: four for a joint, from its operator down to the side that is written.
instance Stack.usual : Stack where
  nesting := 1000
  room := 1000
  frames
    | .number, inside | .ident, inside | .paren, inside => inside + 2
    | .sign, inside | .call, inside | .array, inside => inside + 3
    | .arith, inside | .compare, inside | .assign, inside | .matrix, inside => inside + 4
  nesting_pos := by decide
  lt_frames cls inside := by cases cls <;> simp
  frames_mono cls less more le := by cases cls <;> simpa using le
  frames_ident := by decide
  frames_call inside := by simp

namespace Expr

variable [Stack]

mutual

def frames : Expr → Nat
  | missing | word _ => 0
  | number _ => Stack.frames .number 0
  | ident _ => Stack.frames .ident 0
  | sign _ operand => Stack.frames .sign (frames operand)
  | arith _ lhs rhs => Stack.frames .arith (max (frames lhs) (frames rhs))
  | compare _ lhs rhs => Stack.frames .compare (max (frames lhs) (frames rhs))
  | assign lhs rhs => Stack.frames .assign (max (frames lhs) (frames rhs))
  | call _ args => Stack.frames .call (framesAll args)
  | array items => Stack.frames .array (framesAll items)
  | matrix rows => Stack.frames .matrix (framesRows rows)
  | paren inner => Stack.frames .paren (frames inner)
  | tuple items => framesAll items + 1

def framesAll : List Expr → Nat
  | [] => 0
  | item :: items => max (frames item) (framesAll items)

def framesRows : List (List Expr) → Nat
  | [] => 0
  | row :: rows => max (framesAll row) (framesRows rows)

end

def isTall (expr : Expr) : Bool := Stack.room < expr.frames

theorem isTall_eq_false {expr : Expr} : expr.isTall = false ↔ expr.frames ≤ Stack.room := by
  simp [isTall]

end Expr

end FormulaCalculator
