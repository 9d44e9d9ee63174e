import FormulaCalculator.Proofs.Expr.FlatTokens
import FormulaCalculator.Proofs.Expr.RoundTrip

set_option autoImplicit false

namespace FormulaCalculator

def Joint.node : Joint → Expr → Expr → Expr
  | arith op => .arith op
  | compare rel => .compare rel
  | assign => .assign

namespace Expr

def isPower : Expr → Bool
  | arith op _ _ => op == "^"
  | _ => false

variable {joint : Joint} {lhs rhs : Expr}

theorem pieces_node : (joint.node lhs rhs).pieces = joinedPieces joint lhs rhs lhs.pieces rhs.pieces := by
  cases joint <;> rfl

theorem source_node : (joint.node lhs rhs).source = lhs.source ++ joint.text :: rhs.source := by
  cases joint <;> rfl

theorem bare_node : (joint.node lhs rhs).bare = joint.node lhs.bare rhs.bare := by
  cases joint <;> rfl

theorem renamed_node : (joint.node lhs rhs).renamed = joint.node lhs.renamed rhs.renamed := by
  cases joint <;> rfl

theorem node_of_bare {expr first second : Expr} (unwrapped : ∀ inner, expr ≠ paren inner)
    (shape : expr.bare = joint.node first second) :
    ∃ lhs rhs, expr = joint.node lhs rhs ∧ lhs.bare = first ∧ rhs.bare = second := by
  cases expr with
  | paren inner => exact absurd rfl (unwrapped inner)
  | _ => cases joint <;> cases shape <;> exact ⟨_, _, rfl, rfl, rfl⟩

theorem Regular.node (regular : (joint.node lhs rhs).Regular Kind.Spells) :
    lhs.Regular Kind.Spells ∧ rhs.Regular Kind.Spells ∧
      ∃ kind : Kind, kind.spelling? = some joint.text ∧ kind.isOperator = true := by
  cases joint with
  | arith op =>
    cases regular with
    | arith joins left right =>
      obtain ⟨kind, fixed, isOperator, -⟩ := kind_of_arith joins
      exact ⟨left, right, kind, fixed, isOperator⟩
  | compare rel =>
    cases regular with
    | compare relates left right =>
      obtain ⟨kind, fixed, operates⟩ := @Grammar.Level.kind_of_mark .relation _ relates
      exact ⟨left, right, kind, fixed, Grammar.Level.isOperator operates⟩
  | assign =>
    cases regular with
    | assign left right => exact ⟨left, right, .equals, rfl, rfl⟩

theorem plain_node (plain : (joint.node lhs rhs).IsPlain) : lhs.IsPlain ∧ rhs.IsPlain := by
  cases joint with
  | arith op => exact plain.arith
  | compare rel => exact plain.compare
  | assign => exact plain.assign

end Expr

end FormulaCalculator
