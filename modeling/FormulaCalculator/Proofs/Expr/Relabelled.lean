import FormulaCalculator.Proofs.Expr.Rereading
import FormulaCalculator.Proofs.Grammar.WellFormed

set_option autoImplicit false

namespace FormulaCalculator

namespace Expr

/-- Some name in place of each number and each name. -/
inductive Relabels : Expr → Expr → Prop where
  | number {text name : String} (isIdent : Kind.identifier.Spells name) :
      Relabels (number text) (ident name)
  | ident {old name : String} (isIdent : Kind.identifier.Spells name) : Relabels (ident old) (ident name)
  | sign {op : String} {operand other : Expr} (inside : Relabels operand other) :
      Relabels (sign op operand) (sign op other)
  | arith {op : String} {lhs rhs left right : Expr} (before : Relabels lhs left)
      (after : Relabels rhs right) : Relabels (arith op lhs rhs) (arith op left right)
  | fraction {numerator denominator above below : Expr} (upper : Relabels numerator above)
      (lower : Relabels denominator below) :
      Relabels (call fraction [numerator, denominator]) (call fraction [above, below])
  | paren {inner other : Expr} (inside : Relabels inner other) : Relabels (paren inner) (paren other)

theorem Legible.parts {numerator denominator : Expr}
    (legible : Legible (call Expr.fraction [numerator, denominator])) :
    Legible numerator ∧ Legible denominator := by
  generalize same : call Expr.fraction [numerator, denominator] = expr at legible
  cases legible with
  | fraction above _ below =>
    cases same
    exact ⟨above, below⟩
  | nameless => simp at same
  | _ => cases same

namespace Relabels

variable {expr other : Expr}

theorem kept (relabels : Relabels expr other) : other.isEquation = false := by
  cases relabels <;> rfl

theorem isSign (relabels : Relabels expr other) : other.isSign = expr.isSign := by
  cases relabels <;> rfl

theorem isJoined (relabels : Relabels expr other) : other.isJoined = expr.isJoined := by
  cases relabels <;> rfl

theorem height (relabels : Relabels expr other) : other.height = expr.height := by
  induction relabels with
  | number | ident => rfl
  | sign _ ih | paren _ ih => rw [Expr.height, Expr.height, ih]
  | arith _ _ left right => rw [Expr.height, Expr.height, left, right]
  | fraction _ _ above below => simp [Expr.height, Expr.heights, above, below]

theorem frames_le [Stack] (relabels : Relabels expr other) : other.frames ≤ expr.frames := by
  induction relabels with
  | number => exact Stack.frames_ident
  | ident => exact Nat.le_refl _
  | sign _ ih => exact Stack.frames_mono .sign ih
  | paren _ ih => exact Stack.frames_mono .paren ih
  | arith _ _ left right => exact Stack.frames_mono .arith (by omega)
  | fraction _ _ above below => exact Stack.frames_mono .call (by simp only [framesAll]; omega)

theorem binding? (relabels : Relabels expr other) (legible : Legible expr) :
    other.binding? = expr.binding? := by
  cases relabels with
  | number isIdent => exact binding?_ident isIdent
  | ident isIdent =>
    cases legible with
    | ident wasIdent => rw [binding?_ident isIdent, binding?_ident wasIdent]
  | _ => rfl

theorem needsParens (relabels : Relabels expr other) (legible : Legible expr) (joint : Joint)
    (side : Side) : Expr.needsParens joint side other = Expr.needsParens joint side expr := by
  rw [Expr.needsParens, Expr.needsParens, relabels.binding? legible, relabels.isSign]

theorem legible (relabels : Relabels expr other) (legible : Legible expr) : Legible other := by
  induction relabels with
  | number isIdent | ident isIdent => exact .ident isIdent
  | sign inside ih =>
    cases legible with
    | sign isSign operand => exact .sign isSign (ih operand) inside.kept
  | arith before after left right =>
    cases legible with
    | arith joins lhs _ rhs => exact .arith joins (left lhs) before.kept (right rhs) after.kept
  | fraction upper lower above below =>
    obtain ⟨numerator, denominator⟩ := legible.parts
    exact .fraction (above numerator) upper.kept (below denominator) lower.kept
  | paren inside ih =>
    cases legible with
    | paren inner => exact .paren (ih inner) inside.kept

theorem looseDivisor?_of_divisor? (relabels : Relabels expr other) (legible : Legible expr)
    (ends : other.rereading.divisor?.isSome = expr.rereading.divisor?.isSome) (op : String) :
    (Expr.looseDivisor? op other).isSome = (Expr.looseDivisor? op expr).isSome := by
  rw [Bool.eq_iff_iff, looseDivisor?_isSome, looseDivisor?_isSome, relabels.needsParens legible, ends]

theorem divisor? (relabels : Relabels expr other) (legible : Legible expr) :
    other.rereading.divisor?.isSome = expr.rereading.divisor?.isSome := by
  induction relabels with
  | number | ident | paren | fraction => rfl
  | @sign op operand other inside ih =>
    cases legible with
    | sign _ inner =>
      rw [rereading, rereading, inside.isJoined]
      cases operand.isJoined with
      | true => rfl
      | false => exact ih inner
  | @arith op lhs rhs left right _ after _ ih =>
    cases legible with
    | arith _ _ _ inner =>
      rw [divisor?_arith, divisor?_arith]
      split
      next => exact after.looseDivisor?_of_divisor? inner (ih inner) op
      next => rfl

theorem looseDivisor? (relabels : Relabels expr other) (legible : Legible expr) (op : String) :
    (Expr.looseDivisor? op other).isSome = (Expr.looseDivisor? op expr).isSome :=
  relabels.looseDivisor?_of_divisor? legible (relabels.divisor? legible) op

end Relabels

end Expr

namespace Grammar

open FormulaCalculator.Expr (Relabels)

theorem WellFormed.relabelled {place : Place} {expr other : Expr} (wellFormed : WellFormed place expr)
    (relabels : Relabels expr other) : WellFormed place other := by
  induction wellFormed generalizing other with
  | assign | compare | array | matrix => cases relabels
  | slot _ _ ih => exact .slot (ih relabels) relabels.kept
  | comparison _ ih => exact .comparison (ih relabels)
  | additive _ ih => exact .additive (ih relabels)
  | term _ ih => exact .term (ih relabels)
  | exponent _ ih => exact .exponent (ih relabels)
  | sum joins _ _ left right =>
    cases relabels with
    | arith before after => exact .sum joins (left before) (right after)
  | product joins _ _ left right =>
    cases relabels with
    | arith before after => exact .product joins (left before) (right after)
  | power _ unsigned _ left right =>
    cases relabels with
    | arith before after => exact .power (left before) (before.isSign.trans unsigned) (right after)
  | number =>
    cases relabels with
    | number isIdent => exact .ident isIdent
  | ident =>
    cases relabels with
    | ident isIdent => exact .ident isIdent
  | sign isSign _ ih =>
    cases relabels with
    | sign inside => exact .sign isSign (ih inside)
  | paren _ ih =>
    cases relabels with
    | paren inside => exact .paren (ih inside)
  | fraction _ _ above below =>
    cases relabels with
    | fraction upper lower => exact .fraction (above upper) (below lower)
  | call _ named =>
    cases relabels with
    | fraction => exact absurd rfl named

end Grammar

end FormulaCalculator
