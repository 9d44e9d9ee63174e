import FormulaCalculator.Proofs.Expr.Labelling
import FormulaCalculator.Symbolic.Meaning
import Mathlib.Tactic.FieldSimp

set_option autoImplicit false

namespace FormulaCalculator

namespace Valuation

theorem signed?_scaled {op : String} (isSign : op ∈ Expr.signs) (a : ℚ) {x : ℚ} (nonzero : x ≠ 0) :
    ∃ y, y ≠ 0 ∧ signed? op x = some y ∧ signed? op (a * x) = some (a * y) := by
  simp only [Expr.signs, List.mem_cons, List.not_mem_nil, or_false] at isSign
  rcases isSign with rfl | rfl
  · exact ⟨x, nonzero, rfl, rfl⟩
  · exact ⟨-x, neg_ne_zero.2 nonzero, rfl, congrArg some (by ring)⟩

theorem lost_divisor {op : String} (isOp : op = "/" ∨ op = "^") {x a : ℚ} (nonzero : x ≠ 0)
    (large : 2 ≤ a) : ∃ y z, Apart y (z / 2) ∧ cubing.joined? op 1 x = some y ∧
      cubing.joined? op 1 (a * x) = some z := by
  have positive : a ≠ 0 := by linarith
  have scaled : a * x ≠ 0 := mul_ne_zero positive nonzero
  rcases isOp with rfl | rfl
  · have apart : Apart (1 / x) (1 / (a * x) / 2) := by
      refine ⟨one_div_ne_zero nonzero, div_ne_zero (one_div_ne_zero scaled) two_ne_zero, fun same => ?_⟩
      field_simp at same
      linarith
    exact ⟨1 / x, 1 / (a * x), apart, if_neg nonzero, if_neg scaled⟩
  · have apart : Apart (x ^ 3) ((a * x) ^ 3 / 2) := by
      refine ⟨pow_ne_zero 3 nonzero, div_ne_zero (pow_ne_zero 3 scaled) two_ne_zero, fun same => ?_⟩
      have cube : (2 : ℚ) ^ 3 ≤ a ^ 3 := pow_le_pow_left₀ two_pos.le large 3
      have product : x ^ 3 * (a ^ 3 - 2) = 0 := by
        rw [mul_pow] at same
        linarith
      rcases mul_eq_zero.1 product with zero | two
      · exact pow_ne_zero 3 nonzero zero
      · linarith
    exact ⟨x ^ 3, (a * x) ^ 3, apart, by simp [joined?, cubing], by simp [joined?, cubing]⟩

end Valuation

open FormulaCalculator.Valuation (Apart cubing)

namespace Rereading

-- The head of the reading is `a` times some value, and its divisor is two.
def Scaled (read : Rereading) (x a : ℚ) : Prop :=
  read.head.value? cubing = some (a * x) ∧
    ∃ divisor, read.divisor? = some divisor ∧ divisor.value? cubing = some 2

theorem Scaled.joined {op : String} {left right : Rereading} {x a z : ℚ} (isOp : op = "/" ∨ op = "^")
    (before : left.Neutral 1) (after : right.Scaled x a) (value : cubing.joined? op 1 (a * x) = some z) :
    (joined op left right).whole.value? cubing = some (z / 2) := by
  obtain ⟨head, divisor, loose, two⟩ := after
  have halved {expr : Expr} (one : expr.value? cubing = some 1) :
      (whole ⟨.arith op expr right.head, right.divisor?⟩).value? cubing = some (z / 2) := by
    rw [loose, value?_whole, Expr.value?_arith_of_some one head, value, two]
    simp [Valuation.quotient?]
  rcases isOp with rfl | rfl
  · exact halved before.whole
  · exact halved before.1

end Rereading

namespace Expr

theorem Legible.exists_scaled {expr : Expr} (legible : Legible expr) (arithmetic : expr.IsArithmetic)
    (loose : expr.rereading.divisor?.isSome = true) : ∃ other x a, Relabels expr other ∧ x ≠ 0 ∧
      2 ≤ a ∧ other.value? cubing = some x ∧ other.rereading.Scaled x a := by
  induction legible with
  | @sign op operand isSign _ _ ih =>
    cases joined : operand.isJoined with
    | true =>
      rw [rereading, joined] at loose
      cases loose
    | false =>
      rw [rereading, joined] at loose
      obtain ⟨other, x, a, inside, nonzero, large, value, head, divides⟩ := ih arithmetic.sign loose
      obtain ⟨y, apart, signed, scaled⟩ := Valuation.signed?_scaled isSign a nonzero
      refine ⟨_, y, a, .sign inside, apart, large, ?_, ?_⟩
      · rw [value?, value]
        exact signed
      · rw [rereading, inside.isJoined, joined]
        refine ⟨?_, divides⟩
        change (other.rereading.head.value? cubing).bind _ = _
        rw [head]
        exact scaled
  | @arith op lhs rhs _ left _ right _ _ ih =>
    rw [divisor?_arith] at loose
    by_cases power : op = "^"
    · subst power
      obtain ⟨bare, ends⟩ := looseDivisor?_isSome.1 loose
      obtain ⟨other, x, a, inside, nonzero, large, value, head, divides⟩ := ih arithmetic.arith.2 ends
      obtain ⟨base, before, one, neutral⟩ := left.exists_neutral arithmetic.arith.1 one_ne_zero
      -- The power cubes its right side, and with it the factor between head and value.
      have cube : (2 : ℚ) ≤ a ^ 3 := le_trans (by norm_num) (pow_le_pow_left₀ two_pos.le large 3)
      refine ⟨_, x ^ 3, a ^ 3, .arith before inside, pow_ne_zero 3 nonzero, cube, ?_, ?_⟩
      · rw [value?_arith_of_some one value]
        simp [Valuation.joined?, cubing]
      · rw [rereading, inside.needsParens right, bare]
        refine ⟨(value?_arith_of_some (neutral.sided _).1 head).trans ?_, divides⟩
        simp [Valuation.joined?, cubing, mul_pow]
    · rw [if_neg power] at loose
      cases loose
  | fraction above _ below =>
    obtain ⟨numerator, upper, aboveValue, aboveNeutral⟩ :=
      above.exists_neutral (arithmetic.call _ (by simp)) two_ne_zero
    obtain ⟨denominator, lower, belowValue, belowNeutral⟩ :=
      below.exists_neutral (arithmetic.call _ (by simp)) two_ne_zero
    refine ⟨_, 1, 2, .fraction upper lower, one_ne_zero, le_rfl, ?_, ?_, _, rfl, belowNeutral.whole⟩
    · rw [value?_fraction, value?_arith_of_some aboveValue belowValue]
      simp [Valuation.joined?, Valuation.quotient?]
    · rw [mul_one]
      exact aboveNeutral.whole
  | _ => cases loose

def CanMisread (expr : Expr) : Prop :=
  ∃ other x y, Relabels expr other ∧ Apart x y ∧ other.value? cubing = some x ∧
    other.back.value? cubing = some y

def CanMisreadSides (op : String) (lhs rhs : Expr) : Prop :=
  ∃ left right x y, Relabels lhs left ∧ Relabels rhs right ∧ Apart x y ∧
    (arith op left right).value? cubing = some x ∧
    (arith op left.back right.back).value? cubing = some y

theorem CanMisread.before {op : String} {lhs rhs : Expr} (misread : lhs.CanMisread)
    (joins : op ∈ signs ++ factors ++ ["^"]) (right : Legible rhs) (arithmetic : rhs.IsArithmetic) :
    CanMisreadSides op lhs rhs := by
  obtain ⟨other, x, y, relabels, apart, value, changed⟩ := misread
  obtain ⟨z, x', y', nonzero, apart', valueX, valueY⟩ := apart.before joins
  obtain ⟨beside, after, same, neutral⟩ := right.exists_neutral arithmetic nonzero
  refine ⟨other, beside, x', y', relabels, after, apart', ?_, ?_⟩
  · exact (value?_arith_of_some value same).trans valueX
  · exact (value?_arith_of_some changed neutral.whole).trans valueY

theorem CanMisread.after {op : String} {lhs rhs : Expr} (misread : rhs.CanMisread)
    (joins : op ∈ signs ++ factors ++ ["^"]) (left : Legible lhs) (arithmetic : lhs.IsArithmetic) :
    CanMisreadSides op lhs rhs := by
  obtain ⟨other, x, y, relabels, apart, value, changed⟩ := misread
  obtain ⟨z, x', y', nonzero, apart', valueX, valueY⟩ := apart.after joins
  obtain ⟨beside, before, same, neutral⟩ := left.exists_neutral arithmetic nonzero
  refine ⟨beside, other, x', y', before, relabels, apart', ?_, ?_⟩
  · exact (value?_arith_of_some same value).trans valueX
  · exact (value?_arith_of_some neutral.whole changed).trans valueY

theorem Legible.canMisread_of_loose {op : String} {lhs rhs : Expr} (left : Legible lhs)
    (right : Legible rhs) (arithmetic : (Expr.arith op lhs rhs).IsArithmetic)
    (isOp : op = "/" ∨ op = "^") (loose : (looseDivisor? op rhs).isSome = true) :
    (Expr.arith op lhs rhs).CanMisread := by
  obtain ⟨bare, ends⟩ := looseDivisor?_isSome.1 loose
  obtain ⟨other, x, a, after, nonzero, large, value, scaled⟩ :=
    right.exists_scaled arithmetic.arith.2 ends
  obtain ⟨base, before, one, neutral⟩ := left.exists_neutral arithmetic.arith.1 one_ne_zero
  obtain ⟨y, z, apart, kept, regrouped⟩ := Valuation.lost_divisor isOp nonzero large
  refine ⟨_, y, z / 2, .arith before after, apart, (value?_arith_of_some one value).trans kept, ?_⟩
  rw [back, rereading, after.needsParens right, bare]
  exact scaled.joined isOp (neutral.sided _) regrouped

theorem Legible.canMisread_of_sides {op : String} {lhs rhs : Expr} (left : Legible lhs)
    (right : Legible rhs) (closed : op = "/" ∨ op = "^" → (looseDivisor? op rhs).isSome = false)
    (sides : CanMisreadSides op lhs rhs) : (Expr.arith op lhs rhs).CanMisread := by
  obtain ⟨other, beside, x, y, before, after, apart, value, changed⟩ := sides
  have closedAfter (isOp : op = "/" ∨ op = "^") : looseDivisor? op beside = none := by
    rw [← Option.not_isSome_iff_eq_none, after.looseDivisor? right op, closed isOp]
    decide
  refine ⟨_, x, y, .arith before after, apart, value, ?_⟩
  rwa [(before.legible left).value?_back_arith cubing closedAfter]

theorem Legible.canMisread {expr : Expr} (legible : Legible expr) (arithmetic : expr.IsArithmetic)
    (ungrouped : ¬ expr.IsGrouped) : expr.CanMisread := by
  -- Induction on the tree. A joint that loses a divisor can be misread at once. Any other takes the
  -- values of the side that can be misread outwards, and the other side is neutral.
  induction legible with
  | number | ident => exact absurd (by simp [IsGrouped, Everywhere, nodes, splitsQuotient]) ungrouped
  | sign isSign _ _ ih =>
    have inside := fun grouped => ungrouped (Everywhere.sign_iff.2 ⟨rfl, grouped⟩)
    obtain ⟨other, x, y, relabels, apart, value, misread⟩ := ih arithmetic.sign inside
    obtain ⟨x', y', apart', signed, changed⟩ := apart.signed? isSign
    refine ⟨_, x', y', .sign relabels, apart', ?_, ?_⟩
    · rw [value?, value]
      exact signed
    · rw [back, rereading, Rereading.value?_sign, value?, Rereading.value?_sided]
      change (other.back.value? cubing).bind _ = _
      rw [misread]
      exact changed
  | @arith op lhs rhs joins left _ right _ ihLeft ihRight =>
    obtain ⟨arithmeticLeft, arithmeticRight⟩ := arithmetic.arith
    -- The right side may lose a divisor without being a quotient itself: it may be a power of one.
    by_cases lost : (op = "/" ∨ op = "^") ∧ (looseDivisor? op rhs).isSome = true
    · exact left.canMisread_of_loose right arithmetic lost.1 lost.2
    · have closed (isOp : op = "/" ∨ op = "^") : (looseDivisor? op rhs).isSome = false :=
        Bool.eq_false_iff.2 fun loose => lost ⟨isOp, loose⟩
      have here : (Expr.arith op lhs rhs).splitsQuotient = false :=
        Bool.eq_false_iff.2 fun splits => lost (right.looseDivisor?_of_splits splits)
      have inside : ¬ lhs.IsGrouped ∨ ¬ rhs.IsGrouped := by
        rw [← not_and_or]
        exact fun grouped => ungrouped (Everywhere.arith_iff.2 ⟨here, grouped⟩)
      refine left.canMisread_of_sides right closed ?_
      rcases inside with ungroupedLeft | ungroupedRight
      · exact (ihLeft arithmeticLeft ungroupedLeft).before joins right arithmeticRight
      · exact (ihRight arithmeticRight ungroupedRight).after joins left arithmeticLeft
  | @fraction numerator denominator above _ below _ ihAbove ihBelow =>
    have arithmeticAbove := arithmetic.call numerator (by simp)
    have arithmeticBelow := arithmetic.call denominator (by simp)
    have inside : ¬ numerator.IsGrouped ∨ ¬ denominator.IsGrouped := by
      rw [← not_and_or]
      exact fun grouped => ungrouped (Everywhere.call_iff.2 ⟨rfl, by simpa [IsGrouped] using grouped⟩)
    have sides : CanMisreadSides "/" numerator denominator := by
      rcases inside with ungroupedAbove | ungroupedBelow
      · exact (ihAbove arithmeticAbove ungroupedAbove).before (by decide) below arithmeticBelow
      · exact (ihBelow arithmeticBelow ungroupedBelow).after (by decide) above arithmeticAbove
    obtain ⟨other, beside, x, y, upper, lower, apart, value, changed⟩ := sides
    exact ⟨_, x, y, .fraction upper lower, apart, (value?_fraction _ _ _).trans value, changed⟩
  | paren _ _ ih =>
    have inside := fun grouped => ungrouped (Everywhere.paren_iff.2 ⟨rfl, grouped⟩)
    obtain ⟨other, x, y, relabels, apart, value, misread⟩ := ih arithmetic.paren inside
    exact ⟨_, x, y, .paren relabels, apart, value, misread⟩
  | compare | assign | nameless | array => cases arithmetic.here

end Expr

namespace Grammar

open FormulaCalculator.Expr (Relabels)

theorem flat_value [Stack] {text : String} {expr : Expr} (parsed : parseText text = .ok expr)
    (arithmetic : expr.IsArithmetic) (low : expr.isTall = false)
    (unbroken : ¬ BreaksOff Stack.nesting (Token.scan expr.flatText)) :
    ∃ line back, expr.flat = .ok line ∧ parseText line = .ok back ∧
      (expr.IsGrouped → ∀ valuation, back.value? valuation = expr.value? valuation) ∧
      (¬ expr.IsGrouped → ∃ other source line reread, Relabels expr other ∧
        Derives (Token.scan source) [] (.expression other) ∧
        (expr.height ≤ Stack.nesting → parseText source = .ok other) ∧ other.flat = .ok line ∧
        Derives (Token.scan line) [] (.expression reread) ∧
        ∃ valuation x y, other.value? valuation = some x ∧ reread.value? valuation = some y ∧
          x ≠ y) := by
  have wellFormed := wellFormed_of_parseText parsed
  have legible := wellFormed.legible (arithmetic.mono fun node => Expr.isLegibleNode_of_arithmetic)
  refine ⟨expr.flatText, expr.back, legible.regular.flat_ok low,
    legible.parseText_flatText (wellFormed.kept nofun) unbroken, ?_, ?_⟩
  · exact fun grouped valuation => legible.value?_back valuation arithmetic grouped
  · intro ungrouped
    obtain ⟨other, x, y, relabels, apart, value, misread⟩ := legible.canMisread arithmetic ungrouped
    have lowOther : other.isTall = false :=
      Expr.isTall_eq_false.2 (relabels.frames_le.trans (Expr.isTall_eq_false.1 low))
    have legibleOther := relabels.legible legible
    have formed := wellFormed.relabelled relabels
    refine ⟨other, other.sourceText, other.flatText, other.back, relabels, ?_, ?_, ?_, ?_, ?_⟩
    · exact formed.derives_sourceText
    · intro shallow
      exact parseText_sourceText formed (relabels.height ▸ shallow)
    · exact legibleOther.regular.flat_ok lowOther
    · exact legibleOther.derives_flatText relabels.kept
    · exact ⟨cubing, x, y, value, misread, apart.ne⟩

theorem scaled_quotient_value :
    ∃ expr line back, parseText "2*-\\frac\x7ba\x7d\x7bb\x7d" = .ok expr ∧ expr.flat = .ok line ∧
      parseText line = .ok back ∧ ∀ valuation, back.value? valuation = expr.value? valuation := by
  have parsed : parseText "2*-\\frac\x7ba\x7d\x7bb\x7d" =
      .ok (.arith "*" (.number "2") (.sign "-" (.call "\\frac" [.ident "a", .ident "b"]))) := rfl
  obtain ⟨line, back, flat, read, kept, -⟩ := flat_value parsed (by decide) rfl (by decide +kernel)
  exact ⟨_, line, back, parsed, flat, read, kept (by decide)⟩

def asWritten : Valuation where
  number text := Symbolic.Literal.digitsValue text.toList
  name _ := 0
  power x _ := x
  samePi := rfl

theorem divided_quotient_misread :
    ∃ expr back, parseText "1/-\\frac\x7b1\x7d\x7b2\x7d" = .ok expr ∧ expr.flat = .ok "1/-(1)/(2)" ∧
      parseText "1/-(1)/(2)" = .ok back ∧ expr.value? asWritten = some (-2) ∧
      back.value? asWritten = some (-1 / 2) := by
  refine ⟨.arith "/" (.number "1") (.sign "-" (.call "\\frac" [.number "1", .number "2"])),
    .arith "/" (.arith "/" (.number "1") (.sign "-" (.paren (.number "1")))) (.paren (.number "2")),
    rfl, rfl, rfl, ?_, ?_⟩
  · decide +kernel
  · decide +kernel

end Grammar

end FormulaCalculator
