import FormulaCalculator.Proofs.Expr.Regrouping
import FormulaCalculator.Proofs.Expr.Relabelled
import Mathlib.Data.Rat.Denumerable
import Mathlib.Tactic.Linarith
import Mathlib.Tactic.Ring

set_option autoImplicit false

namespace FormulaCalculator

namespace Valuation

-- There is a name for every rational, and a power depends on both of its sides.
def cubing : Valuation where
  number _ := 0
  name text := Denumerable.ofNat ℚ ((Expr.writtenName text).length - 1)
  power x y := x * y ^ 3
  samePi := rfl

theorem exists_name (x : ℚ) : ∃ name, Kind.identifier.Spells name ∧ cubing.name name = x := by
  obtain ⟨count, counted⟩ : ∃ count, Denumerable.ofNat ℚ count = x := ⟨_, Denumerable.ofNat_encode x⟩
  have chars : (String.ofList (List.replicate (count + 1) 'x')).toList =
      'x' :: List.replicate count 'x' := String.toList_ofList
  have notPi : String.ofList (List.replicate (count + 1) 'x') ≠ "π" := by
    intro same
    rw [same] at chars
    cases chars
  refine ⟨String.ofList (List.replicate (count + 1) 'x'), ?_, ?_⟩
  · refine Kind.spells_iff.2 ⟨_, _, chars, by decide, ?_⟩
    rw [Lexeme.tail_word (by decide) (by decide), List.takeWhile_replicate]
    rfl
  · change Denumerable.ofNat ℚ ((Expr.writtenName _).length - 1) = x
    rwa [Expr.writtenName, if_neg notPi, String.length_ofList, List.length_replicate, Nat.add_sub_cancel]

theorem exists_signed {op : String} (isSign : op ∈ Expr.signs) {x : ℚ} (nonzero : x ≠ 0) :
    ∃ y, y ≠ 0 ∧ signed? op y = some x := by
  simp only [Expr.signs, List.mem_cons, List.not_mem_nil, or_false] at isSign
  rcases isSign with rfl | rfl
  · exact ⟨x, nonzero, rfl⟩
  · exact ⟨-x, neg_ne_zero.2 nonzero, congrArg some (neg_neg x)⟩

theorem exists_sides {op : String} (joins : op ∈ Expr.signs ++ Expr.factors ++ ["^"]) {x : ℚ}
    (nonzero : x ≠ 0) : ∃ y z, y ≠ 0 ∧ z ≠ 0 ∧ cubing.joined? op y z = some x := by
  simp only [Expr.signs, Expr.factors, List.cons_append, List.nil_append, List.mem_cons,
    List.not_mem_nil, or_false] at joins
  -- The sides of a sum are a double and a single, so that neither is zero.
  have double : 2 * x ≠ 0 := by simpa using nonzero
  rcases joins with rfl | rfl | rfl | rfl | rfl
  · exact ⟨2 * x, -x, double, neg_ne_zero.2 nonzero, congrArg some (by ring)⟩
  · exact ⟨2 * x, x, double, nonzero, congrArg some (by ring)⟩
  · exact ⟨x, 1, nonzero, one_ne_zero, congrArg some (mul_one x)⟩
  · exact ⟨x, 1, nonzero, one_ne_zero, by simp [joined?, quotient?]⟩
  · exact ⟨x, 1, nonzero, one_ne_zero, by simp [joined?, cubing]⟩

structure Apart (x y : ℚ) : Prop where
  first : x ≠ 0
  second : y ≠ 0
  ne : x ≠ y

namespace Apart

variable {op : String} {x y : ℚ}

theorem signed? (apart : Apart x y) (isSign : op ∈ Expr.signs) :
    ∃ x' y', Apart x' y' ∧ Valuation.signed? op x = some x' ∧ Valuation.signed? op y = some y' := by
  simp only [Expr.signs, List.mem_cons, List.not_mem_nil, or_false] at isSign
  rcases isSign with rfl | rfl
  · exact ⟨x, y, apart, rfl, rfl⟩
  · have negated : Apart (-x) (-y) :=
      ⟨neg_ne_zero.2 apart.first, neg_ne_zero.2 apart.second, neg_injective.ne apart.ne⟩
    exact ⟨-x, -y, negated, rfl, rfl⟩

theorem cubed (apart : Apart x y) : Apart (x ^ 3) (y ^ 3) where
  first := pow_ne_zero 3 apart.first
  second := pow_ne_zero 3 apart.second
  ne := (Odd.pow_injective (by decide : Odd 3)).ne apart.ne

theorem inverse (apart : Apart x y) : Apart (1 / x) (1 / y) where
  first := one_div_ne_zero apart.first
  second := one_div_ne_zero apart.second
  ne := fun same => apart.ne (by simpa using same)

theorem shifted (apart : Apart x y) :
    ∃ z, z ≠ 0 ∧ Apart (x + z) (y + z) ∧ Apart (x - z) (y - z) ∧ Apart (z - x) (z - y) := by
  -- Sums and differences can be kept from zero, as there are more values than are to be avoided.
  obtain ⟨z, outside⟩ := Infinite.exists_notMem_finset ({0, -x, -y, x, y} : Finset ℚ)
  simp only [Finset.mem_insert, Finset.mem_singleton, not_or] at outside
  obtain ⟨nonzero, notNegX, notNegY, notX, notY⟩ := outside
  have sums : Apart (x + z) (y + z) := by
    refine ⟨fun zero => notNegX ?_, fun zero => notNegY ?_, fun same => apart.ne ?_⟩ <;> linarith
  have differences : Apart (x - z) (y - z) := by
    refine ⟨fun zero => notX ?_, fun zero => notY ?_, fun same => apart.ne ?_⟩ <;> linarith
  have others : Apart (z - x) (z - y) := by
    refine ⟨fun zero => notX ?_, fun zero => notY ?_, fun same => apart.ne ?_⟩ <;> linarith
  exact ⟨z, nonzero, sums, differences, others⟩

theorem before (apart : Apart x y) (joins : op ∈ Expr.signs ++ Expr.factors ++ ["^"]) :
    ∃ z x' y', z ≠ 0 ∧ Apart x' y' ∧
      cubing.joined? op x z = some x' ∧ cubing.joined? op y z = some y' := by
  obtain ⟨z, nonzero, sums, differences, -⟩ := apart.shifted
  simp only [Expr.signs, Expr.factors, List.cons_append, List.nil_append, List.mem_cons,
    List.not_mem_nil, or_false] at joins
  -- Beside one, a product or a power is its other side.
  rcases joins with rfl | rfl | rfl | rfl | rfl
  · exact ⟨z, x + z, y + z, nonzero, sums, rfl, rfl⟩
  · exact ⟨z, x - z, y - z, nonzero, differences, rfl, rfl⟩
  · exact ⟨1, x, y, one_ne_zero, apart, by simp [joined?], by simp [joined?]⟩
  · exact ⟨1, x, y, one_ne_zero, apart, by simp [joined?, quotient?], by simp [joined?, quotient?]⟩
  · exact ⟨1, x, y, one_ne_zero, apart, by simp [joined?, cubing], by simp [joined?, cubing]⟩

theorem after (apart : Apart x y) (joins : op ∈ Expr.signs ++ Expr.factors ++ ["^"]) :
    ∃ z x' y', z ≠ 0 ∧ Apart x' y' ∧
      cubing.joined? op z x = some x' ∧ cubing.joined? op z y = some y' := by
  obtain ⟨z, nonzero, sums, -, differences⟩ := apart.shifted
  simp only [Expr.signs, Expr.factors, List.cons_append, List.nil_append, List.mem_cons,
    List.not_mem_nil, or_false] at joins
  rcases joins with rfl | rfl | rfl | rfl | rfl
  · exact ⟨z, x + z, y + z, nonzero, sums, congrArg some (add_comm z x), congrArg some (add_comm z y)⟩
  · exact ⟨z, z - x, z - y, nonzero, differences, rfl, rfl⟩
  · exact ⟨1, x, y, one_ne_zero, apart, by simp [joined?], by simp [joined?]⟩
  · exact ⟨1, 1 / x, 1 / y, one_ne_zero, apart.inverse, if_neg apart.first, if_neg apart.second⟩
  · have cubed (z : ℚ) : cubing.joined? "^" 1 z = some (z ^ 3) := by simp [joined?, cubing]
    exact ⟨1, x ^ 3, y ^ 3, one_ne_zero, apart.cubed, cubed x, cubed y⟩

end Apart

end Valuation

open FormulaCalculator.Valuation (cubing)

namespace Rereading

-- The reading has this value whether or not its divisor is lost.
def Neutral (read : Rereading) (x : ℚ) : Prop :=
  read.head.value? cubing = some x ∧ ∀ divisor ∈ read.divisor?, divisor.value? cubing = some 1

namespace Neutral

theorem closed {expr : Expr} {x : ℚ} (value : expr.value? cubing = some x) : (closed expr).Neutral x :=
  ⟨value, nofun⟩

theorem whole {read : Rereading} {x : ℚ} (neutral : read.Neutral x) :
    read.whole.value? cubing = some x := by
  obtain ⟨value, one⟩ := neutral
  rcases read with ⟨head, _ | divisor⟩
  · exact value
  · rw [value?_whole, value, one divisor rfl]
    simp [Valuation.quotient?]

theorem sided {read : Rereading} {x : ℚ} (neutral : read.Neutral x) (needed : Bool) :
    (read.sided needed).Neutral x := by
  cases needed with
  | true => exact closed neutral.whole
  | false => exact neutral

theorem joined {op : String} {left right : Rereading} {x y z : ℚ} (before : left.Neutral x)
    (after : right.Neutral y) (value : cubing.joined? op x y = some z) :
    (joined op left right).Neutral z := by
  unfold Rereading.joined
  split
  next => exact ⟨(Expr.value?_arith_of_some before.1 after.1).trans value, after.2⟩
  next =>
    split
    next =>
      have product : Neutral ⟨.arith op left.whole right.head, right.divisor?⟩ z :=
        ⟨(Expr.value?_arith_of_some before.whole after.1).trans value, after.2⟩
      exact closed product.whole
    next => exact closed ((Expr.value?_arith_of_some before.whole after.whole).trans value)

end Neutral

end Rereading

namespace Expr

theorem exists_leaf (x : ℚ) : ∃ name, Kind.identifier.Spells name ∧
    (ident name).value? cubing = some x ∧ (ident name).rereading.Neutral x := by
  obtain ⟨name, isIdent, named⟩ := Valuation.exists_name x
  have value : (ident name).value? cubing = some x := congrArg some named
  exact ⟨name, isIdent, value, .closed ((value?_back_ident cubing name).trans value)⟩

theorem Legible.exists_neutral {expr : Expr} (legible : Legible expr) (arithmetic : expr.IsArithmetic)
    {x : ℚ} (nonzero : x ≠ 0) : ∃ other, Relabels expr other ∧ other.value? cubing = some x ∧
      other.rereading.Neutral x := by
  induction legible generalizing x with
  | number =>
    obtain ⟨name, isIdent, labelled⟩ := exists_leaf x
    exact ⟨_, .number isIdent, labelled⟩
  | ident =>
    obtain ⟨name, isIdent, labelled⟩ := exists_leaf x
    exact ⟨_, .ident isIdent, labelled⟩
  | @sign op operand isSign _ _ ih =>
    obtain ⟨y, apart, signed⟩ := Valuation.exists_signed isSign nonzero
    obtain ⟨other, inside, value, neutral⟩ := ih arithmetic.sign apart
    obtain ⟨head, divisor⟩ := neutral.sided other.isJoined
    refine ⟨_, .sign inside, ?_, ?_, divisor⟩
    · rw [value?, value]
      exact signed
    · rw [rereading, value?, head]
      exact signed
  | @arith op lhs rhs joins _ _ _ _ ihLeft ihRight =>
    obtain ⟨y, z, before, after, joined⟩ := Valuation.exists_sides joins nonzero
    obtain ⟨left, relabelsLeft, leftValue, leftNeutral⟩ := ihLeft arithmetic.arith.1 before
    obtain ⟨right, relabelsRight, rightValue, rightNeutral⟩ := ihRight arithmetic.arith.2 after
    have value := (value?_arith_of_some leftValue rightValue).trans joined
    refine ⟨_, .arith relabelsLeft relabelsRight, value, ?_⟩
    rw [rereading]
    exact (leftNeutral.sided _).joined (rightNeutral.sided _) joined
  | @fraction numerator denominator _ _ _ _ ihAbove ihBelow =>
    obtain ⟨above, upper, aboveValue, aboveNeutral⟩ := ihAbove (arithmetic.call _ (by simp)) nonzero
    obtain ⟨below, lower, belowValue, belowNeutral⟩ := ihBelow (arithmetic.call _ (by simp)) one_ne_zero
    refine ⟨_, .fraction upper lower, ?_, aboveNeutral.whole, ?_⟩
    · rw [value?_fraction, value?_arith_of_some aboveValue belowValue]
      simp [Valuation.joined?, Valuation.quotient?]
    · intro divisor loose
      cases loose
      exact belowNeutral.whole
  | paren _ _ ih =>
    obtain ⟨other, inside, value, neutral⟩ := ih arithmetic.paren nonzero
    exact ⟨_, .paren inside, value, .closed neutral.whole⟩
  | compare | assign | nameless | array => cases arithmetic.here

end Expr

end FormulaCalculator
