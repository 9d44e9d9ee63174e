import FormulaCalculator.Proofs.Expr.RoundTrip
import FormulaCalculator.Proofs.Expr.Value

set_option autoImplicit false

namespace FormulaCalculator

namespace Rereading

open FormulaCalculator.Expr (value?)

variable (valuation : Valuation)

theorem value?_whole (head divisor : Expr) :
    (whole ⟨head, some divisor⟩).value? valuation =
      (head.value? valuation).bind fun x =>
        (divisor.value? valuation).bind (Valuation.quotient? x) := rfl

theorem value?_sided (needed : Bool) (read : Rereading) :
    (read.sided needed).whole.value? valuation = read.whole.value? valuation := by
  cases needed <;> rfl

theorem value?_sign (op : String) (read : Rereading) :
    (whole ⟨.sign op read.head, read.divisor?⟩).value? valuation =
      (Expr.sign op read.whole).value? valuation := by
  rcases read with ⟨head, _ | divisor⟩
  · rfl
  · rw [value?_whole, value?, value?, value?_whole]
    cases head.value? valuation with
    | none => rfl
    | some x =>
      cases divisor.value? valuation with
      | none => cases (Option.some x).bind (Valuation.signed? op) <;> rfl
      | some y => exact Valuation.quotient?_of_signed op x y

theorem value?_product (left : Expr) (right : Rereading) :
    (whole ⟨.arith "*" left right.head, right.divisor?⟩).value? valuation =
      (Expr.arith "*" left right.whole).value? valuation := by
  rcases right with ⟨head, _ | divisor⟩
  · rfl
  · rw [value?_whole, value?, value?, value?_whole]
    cases left.value? valuation with
    | none => rfl
    | some w =>
      cases head.value? valuation with
      | none => rfl
      | some x =>
        cases divisor.value? valuation with
        | none => rfl
        | some y =>
          have scaled := Valuation.quotient?_of_scaled w x y
          rwa [Option.map_eq_bind] at scaled

theorem value?_joined (op : String) (left right : Rereading) (base : op = "^" → left.divisor? = none)
    (closed : op = "/" ∨ op = "^" → right.divisor? = none) :
    (joined op left right).whole.value? valuation =
      (Expr.arith op left.whole right.whole).value? valuation := by
  unfold joined
  by_cases power : op = "^"
  · rcases left with ⟨left, _⟩
    rcases right with ⟨right, _⟩
    cases base power
    cases closed (.inr power)
    rw [if_pos power]
    rfl
  · rw [if_neg power]
    by_cases division : op = "/"
    · rcases right with ⟨right, _⟩
      cases closed (.inl division)
      rw [division]
      rfl
    · split
      next isFactor =>
        have product : op = "*" := by simpa [Expr.factors, division] using isFactor
        rw [product]
        exact value?_product valuation left.whole right
      next => rfl

end Rereading

namespace Expr

theorem looseDivisor?_eq_none_of_bound {op : String} {outer inner : Nat} {rhs : Expr}
    (joint : bindingOf? op = some outer) (bound : rhs.binding? = some inner) (loose : inner ≤ outer) :
    looseDivisor? op rhs = none := by
  have needed : needsParens (.arith op) .right rhs = true := by
    simp [needsParens, bound, Joint.binding?, joint]
    omega
  rw [looseDivisor?, needed]
  rfl

theorem isQuotient_iff {expr : Expr} :
    expr.isQuotient = true ↔ ∃ above below, expr = call fraction [above, below] := by
  constructor
  · intro quotient
    unfold isQuotient at quotient
    split at quotient
    next above below => exact ⟨above, below, by rw [eq_of_beq quotient]⟩
    next => cases quotient
  · rintro ⟨above, below, rfl⟩
    rfl

theorem isLegibleNode_of_arithmetic {node : Expr} (arithmetic : node.isArithmeticNode = true) :
    node.isLegibleNode = true := by
  cases node with
  | call name args =>
    obtain ⟨above, below, same⟩ := isQuotient_iff.1 arithmetic
    rw [same]
    rfl
  | _ => first | rfl | cases arithmetic

-- The flat text of the tree may end in a loose divisor.
def EndsLoose (expr : Expr) : Prop :=
  expr.signless.isQuotient = true ∨ expr.splitsQuotient = true ∧ expr.binding? = some 5

theorem signed_of_not_quotient {expr : Expr} (quotient : expr.signless.isQuotient = true)
    (bare : expr.isQuotient = false) : expr.isSign = true := by
  cases expr <;> first | rfl | simp_all [signless]

theorem looseDivisor?_of_ends {op : String} {rhs : Expr} (isOp : op = "/" ∨ op = "^")
    (ends : rhs.rereading.divisor? = none ∨ rhs.EndsLoose) :
    looseDivisor? op rhs = none ∨ (rhs.isSign && rhs.signless.isQuotient) = true ∨
      op = "/" ∧ rhs.splitsQuotient = true := by
  obtain ⟨outer, joint, strong⟩ : ∃ outer, bindingOf? op = some outer ∧ 4 ≤ outer := by
    rcases isOp with rfl | rfl <;> exact ⟨_, rfl, by decide⟩
  rcases ends with none | quotient | ⟨splits, power⟩
  · left
    unfold looseDivisor?
    cases needsParens (.arith op) .right rhs with
    | true => rfl
    | false => exact none
  · -- A quotient command without a sign is enclosed on this side.
    cases bare : rhs.isQuotient with
    | true =>
      obtain ⟨above, below, rfl⟩ := isQuotient_iff.1 bare
      exact .inl (looseDivisor?_eq_none_of_bound joint rfl strong)
    | false => exact .inr (.inl (by simp [signed_of_not_quotient quotient bare, quotient]))
  · -- A power is enclosed under a power, so that only a division is left.
    rcases isOp with rfl | rfl
    · exact .inr (.inr ⟨rfl, splits⟩)
    · exact .inl (looseDivisor?_eq_none_of_bound rfl power (Nat.le_refl 5))

theorem Legible.ends {expr : Expr} (legible : Legible expr) :
    expr.rereading.divisor? = none ∨ expr.EndsLoose := by
  induction legible with
  | @sign op operand _ _ _ ih =>
    cases joined : operand.isJoined with
    | true =>
      left
      rw [rereading, joined]
      rfl
    | false =>
      rcases ih with none | quotient | ⟨splits, -⟩
      · left
        rw [rereading, joined]
        exact none
      · exact .inr (.inl quotient)
      · cases operand <;> first | cases splits | cases joined
  | @arith op lhs rhs _ _ _ _ _ _ ih =>
    rw [divisor?_arith]
    by_cases power : op = "^"
    · subst power
      rcases looseDivisor?_of_ends (.inr rfl) ih with none | quotient | ⟨division, -⟩
      · exact .inl none
      · exact .inr (.inr ⟨by simpa [splitsQuotient] using quotient, rfl⟩)
      · exact absurd division (by decide)
    · exact .inl (if_neg power)
  | fraction => exact .inr (.inl rfl)
  | _ => exact .inl rfl

theorem Legible.divisor?_of_quotient {expr : Expr} (legible : Legible expr)
    (quotient : expr.signless.isQuotient = true) : expr.rereading.divisor?.isSome = true := by
  induction legible with
  | @sign op operand _ _ _ ih =>
    have bare : operand.isJoined = false := by
      cases operand <;> first | rfl | cases quotient
    rw [rereading, bare]
    exact ih quotient
  | fraction => rfl
  | _ => cases quotient

theorem Legible.looseDivisor?_of_splits {op : String} {lhs rhs : Expr} (legible : Legible rhs)
    (splits : (Expr.arith op lhs rhs).splitsQuotient = true) :
    (op = "/" ∨ op = "^") ∧ (looseDivisor? op rhs).isSome = true := by
  simp only [splitsQuotient, Bool.and_eq_true, Bool.or_eq_true, beq_iff_eq] at splits
  obtain ⟨isOp, signed, quotient⟩ := splits
  have bare : needsParens (.arith op) .right rhs = false := by
    cases rhs <;> first | rfl | cases signed
  exact ⟨isOp, looseDivisor?_isSome.2 ⟨bare, legible.divisor?_of_quotient quotient⟩⟩

theorem Legible.looseDivisor?_eq_none {op : String} {lhs rhs : Expr} (legible : Legible rhs)
    (isOp : op = "/" ∨ op = "^") (here : (Expr.arith op lhs rhs).splitsQuotient = false)
    (inside : rhs.splitsQuotient = false) : looseDivisor? op rhs = none := by
  rcases looseDivisor?_of_ends isOp legible.ends with none | quotient | ⟨-, splits⟩
  · exact none
  · have splits : (Expr.arith op lhs rhs).splitsQuotient = true := by
      simpa [splitsQuotient, isOp] using quotient
    rw [splits] at here
    cases here
  · rw [inside] at splits
    cases splits

theorem Legible.value?_back_arith (valuation : Valuation) {op : String} {lhs rhs : Expr}
    (left : Legible lhs) (closed : op = "/" ∨ op = "^" → looseDivisor? op rhs = none) :
    (Expr.arith op lhs rhs).back.value? valuation =
      (Expr.arith op lhs.back rhs.back).value? valuation := by
  have base (power : op = "^") :
      ((rereading lhs).sided (needsParens (.arith op) .left lhs)).divisor? = none := by
    -- What stands in front of a power is enclosed or holds together by itself.
    subst power
    cases needed : needsParens (.arith "^") .left lhs with
    | true => rfl
    | false => exact (left.written.atom (left.isAtom_of_base needed)).1
  rw [back, rereading, Rereading.value?_joined valuation op _ _ base closed, value?, value?,
    Rereading.value?_sided, Rereading.value?_sided]
  rfl

theorem value?_back_ident (valuation : Valuation) (name : String) :
    (ident name).back.value? valuation = (ident name).value? valuation := by
  change some (valuation.name (writtenName name)) = some (valuation.name name)
  unfold writtenName
  split
  next isPi => rw [isPi, valuation.samePi]
  next => rfl

theorem Legible.value?_back (valuation : Valuation) {expr : Expr} (legible : Legible expr)
    (arithmetic : expr.IsArithmetic) (grouped : expr.IsGrouped) :
    expr.back.value? valuation = expr.value? valuation := by
  induction legible with
  | number => rfl
  | ident => exact value?_back_ident valuation _
  | @sign op operand _ _ _ ih =>
    rw [back, rereading, Rereading.value?_sign, value?, value?, Rereading.value?_sided]
    rw [← ih arithmetic.sign grouped.sign]
    rfl
  | @arith op lhs rhs _ left _ right _ ihLeft ihRight =>
    have closed (isOp : op = "/" ∨ op = "^") : looseDivisor? op rhs = none :=
      right.looseDivisor?_eq_none isOp grouped.here grouped.arith.2.here
    rw [left.value?_back_arith valuation closed, value?, value?,
      ihLeft arithmetic.arith.1 grouped.arith.1, ihRight arithmetic.arith.2 grouped.arith.2]
  | @fraction numerator denominator _ _ _ _ ihAbove ihBelow =>
    have above := ihAbove (arithmetic.call _ (by simp)) (grouped.call _ (by simp))
    have below := ihBelow (arithmetic.call _ (by simp)) (grouped.call _ (by simp))
    rw [value?_fraction, value?, ← above, ← below]
    rfl
  | paren _ _ ih => exact ih arithmetic.paren grouped.paren
  | compare | assign | nameless | array => cases arithmetic.here

end Expr

end FormulaCalculator
