import FormulaCalculator.Expr.Flat
import FormulaCalculator.Relation

set_option autoImplicit false

namespace FormulaCalculator

inductive Outline where
  | formula (expr : Expr)
  | relation (rel : String) (lhs rhs : Outline)
  | equation (lhs rhs : Outline)
deriving Repr

inductive Plan where
  | formula (flat : String)
  | relation (rel : Relation) (lhs rhs : Plan)
  | equation (lhs rhs : Plan)
deriving DecidableEq, Repr

inductive PlanFault where
  | unwritten (fault : FlatFault)
  | unknownRelation (rel : String)
  | nothing
deriving DecidableEq, Repr

namespace Expr

def unwrapped : Expr → Expr
  | paren inner => unwrapped inner
  | expr => expr

-- Parentheses are left aside around a relation, and kept around a formula.
def outlineWithin (whole : Expr) : Expr → Outline
  | paren inner => outlineWithin whole inner
  | assign lhs rhs => .equation (outlineWithin lhs lhs) (outlineWithin rhs rhs)
  | compare rel lhs rhs => .relation rel (outlineWithin lhs lhs) (outlineWithin rhs rhs)
  | _ => .formula whole

def outline (expr : Expr) : Outline := outlineWithin expr expr

def formulaPlan [Stack] (expr : Expr) : Except PlanFault Plan :=
  match expr.unwrapped, expr.flat with
  | missing, _ | word _, _ => .error .nothing
  | _, .ok flat => .ok (.formula flat)
  | _, .error fault => .error (.unwritten fault)

end Expr

def Outline.plan [Stack] : Outline → Except PlanFault Plan
  | formula expr => expr.formulaPlan
  | equation lhs rhs => do
    let left ← lhs.plan
    let right ← rhs.plan
    return .equation left right
  | relation rel lhs rhs => do
    let left ← lhs.plan
    let right ← rhs.plan
    match Relation.ofText? rel with
    | some known => return .relation known left right
    | none => throw (.unknownRelation rel)

def Expr.plan [Stack] (expr : Expr) : Except PlanFault Plan :=
  if expr.isTall then .error (.unwritten .tooTall) else expr.outline.plan

end FormulaCalculator
