import FormulaCalculator.Expr.Flat

set_option autoImplicit false

namespace FormulaCalculator

inductive Field where
  | number | ident | signOp | operand | arithOp | lhs | rhs | relation | callName | inner
deriving DecidableEq, Repr

namespace Expr

def asText : Expr → String
  | word text => text
  | value => value.toForm.shown

def revise (node : Expr) (revision : Field × Expr) : Expr :=
  match revision, node with
  | (.number, value), number _ => number value.asText
  | (.ident, value), ident _ => ident value.asText
  | (.signOp, value), sign _ operand => sign value.asText operand
  | (.operand, value), sign op _ => sign op value
  | (.arithOp, value), arith _ lhs rhs => arith value.asText lhs rhs
  | (.lhs, value), arith op _ rhs => arith op value rhs
  | (.rhs, value), arith op lhs _ => arith op lhs value
  | (.relation, value), compare _ lhs rhs => compare value.asText lhs rhs
  | (.lhs, value), compare rel _ rhs => compare rel value rhs
  | (.rhs, value), compare rel lhs _ => compare rel lhs value
  | (.lhs, value), assign _ rhs => assign value rhs
  | (.rhs, value), assign lhs _ => assign lhs value
  | (.inner, value), paren _ => paren value
  | _, _ => node

end Expr

structure Revised where
  node : Expr
  revisions : List (Field × Expr)
deriving Repr

namespace Revised

def whole (revised : Revised) : Expr :=
  revised.revisions.foldl Expr.revise revised.node

def leafValue? (revised : Revised) : Option Expr :=
  let substitute := match revised.node with
    | .number _ => revised.revisions.lookup Field.number
    | .ident _ => revised.revisions.lookup Field.ident
    | _ => none
  match substitute with
  | some (.word _) | none => none
  | some value => some value

def renamedText? (revised : Revised) : Option String :=
  match revised.node, revised.revisions.lookup .callName with
  | .call name args, some newName =>
    if name = Expr.fraction ∧ args.length = 2 then none
    else
      let pieces := Expr.enclose true (Expr.commaJoined (Expr.piecesAll args))
      some (String.join (newName.asText :: pieces))
  | _, _ => none

def written [Stack] (revised : Revised) : Except FlatFault Form :=
  match revised.leafValue? with
  | some value => .ok value.toForm
  | none => do
    let flat ← revised.whole.flat
    return .text (revised.renamedText?.getD flat)

end Revised

end FormulaCalculator
