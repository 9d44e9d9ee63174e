import FormulaCalculator.Proofs.Expr.Joints

set_option autoImplicit false

namespace FormulaCalculator.Grammar

open FormulaCalculator.Expr

def Place.bound : Place → Nat
  | slot => 1
  | comparison => 2
  | additive => 3
  | term => 4
  | exponent => 5
  | primary => 6

namespace WellFormed

variable {place : Place} {expr : Expr}

theorem bound_le (wellFormed : WellFormed place expr) (notCall : expr.class? ≠ some .call) :
    ∀ inner ∈ expr.binding?, place.bound ≤ inner := by
  induction wellFormed with
  | assign =>
    intro inner isInner
    cases isInner
    decide
  | compare =>
    intro inner isInner
    cases isInner
    decide
  | sum joins =>
    intro inner isInner
    simp only [signs, List.mem_cons, List.not_mem_nil, or_false] at joins
    rcases joins with rfl | rfl <;> cases isInner <;> decide
  | product joins =>
    intro inner isInner
    simp only [factors, List.mem_cons, List.not_mem_nil, or_false] at joins
    rcases joins with rfl | rfl <;> cases isInner <;> decide
  | power =>
    intro inner isInner
    cases isInner
    decide
  | slot _ _ ih | comparison _ ih | additive _ ih | term _ ih | exponent _ ih =>
    intro inner isInner
    have tighter := ih notCall inner isInner
    simp only [Place.bound] at tighter ⊢
    omega
  | number | sign | paren | array | matrix =>
    intro inner isInner
    cases isInner
  | ident isIdent =>
    intro inner isInner
    rw [binding?_ident isIdent] at isInner
    cases isInner
  | fraction | call => exact absurd rfl notCall

theorem power_of_joined (wellFormed : WellFormed .exponent expr) (joined : expr.isJoined = true) :
    expr.isPower = true := by
  cases wellFormed with
  | power => rfl
  | exponent inside => cases inside <;> cases joined

theorem primary (wellFormed : WellFormed place expr) (single : expr.isJoined = false) :
    WellFormed .primary expr := by
  induction wellFormed with
  | slot _ _ ih | comparison _ ih | additive _ ih | term _ ih | exponent _ ih => exact ih single
  | assign | compare | sum | product | power => cases single
  | number isNumber => exact .number isNumber
  | ident isIdent => exact .ident isIdent
  | sign isSign inside => exact .sign isSign inside
  | paren inside => exact .paren inside
  | array inside => exact .array inside
  | matrix filled inside => exact .matrix filled inside
  | fraction above below => exact .fraction above below
  | call isCommand named inside => exact .call isCommand named inside

theorem sides {joint : Joint} {lhs rhs : Expr} (wellFormed : WellFormed place (joint.node lhs rhs)) :
    (∃ left right outer, WellFormed left lhs ∧ WellFormed right rhs ∧ joint.isPower = false ∧
      joint.binding? = some outer ∧ outer ≤ left.bound ∧ outer < right.bound) ∨
    (joint = .arith "^" ∧ WellFormed .primary lhs ∧ lhs.isSign = false ∧ WellFormed .exponent rhs) := by
  generalize same : joint.node lhs rhs = expr at wellFormed
  induction wellFormed with
  | slot _ _ ih | comparison _ ih | additive _ ih | term _ ih | exponent _ ih => exact ih same
  | assign isIdent right =>
    cases joint <;> cases same
    exact .inl ⟨_, _, 2, .ident isIdent, right, rfl, rfl, by decide, by decide⟩
  | compare _ left right =>
    cases joint <;> cases same
    exact .inl ⟨_, _, 2, left, right, rfl, rfl, by decide, by decide⟩
  | sum joins left right =>
    cases joint <;> cases same
    simp only [signs, List.mem_cons, List.not_mem_nil, or_false] at joins
    rcases joins with rfl | rfl <;>
      exact .inl ⟨_, _, 3, left, right, rfl, rfl, by decide, by decide⟩
  | product joins left right =>
    cases joint <;> cases same
    simp only [factors, List.mem_cons, List.not_mem_nil, or_false] at joins
    rcases joins with rfl | rfl <;>
      exact .inl ⟨_, _, 4, left, right, rfl, rfl, by decide, by decide⟩
  | power left unsigned right =>
    cases joint <;> cases same
    exact .inr ⟨rfl, left, unsigned, right⟩
  | _ => cases joint <;> cases same

theorem left_side {joint : Joint} {lhs rhs : Expr} (wellFormed : WellFormed place (joint.node lhs rhs)) :
    ∃ left, WellFormed left lhs ∧
      (lhs.class? ≠ some .call → needsParens joint .left lhs = false) := by
  rcases wellFormed.sides with ⟨left, right, outer, formed, -, notPower, binds, loose, -⟩ |
    ⟨rfl, formed, unsigned, -⟩
  next =>
    refine ⟨left, formed, fun notCall => ?_⟩
    unfold needsParens
    cases isInner : lhs.binding? with
    | none => simp [notPower]
    | some inner =>
      have bound := formed.bound_le notCall inner isInner
      simp [binds, notPower]
      omega
  next =>
    refine ⟨.primary, formed, fun notCall => ?_⟩
    unfold needsParens
    cases isInner : lhs.binding? with
    | none => simp [unsigned]
    | some inner =>
      have bound : 6 ≤ inner := formed.bound_le notCall inner isInner
      have outer : (Joint.arith "^").binding? = some 5 := rfl
      simp [outer]
      omega

theorem right_side {joint : Joint} {lhs rhs : Expr} (wellFormed : WellFormed place (joint.node lhs rhs)) :
    ∃ right, WellFormed right rhs ∧ (rhs.class? ≠ some .call → needsParens joint .right rhs = true →
      joint.isPower = true ∧ rhs.isPower = true) := by
  rcases wellFormed.sides with ⟨left, right, outer, -, formed, notPower, binds, -, tight⟩ |
    ⟨rfl, -, -, formed⟩
  next =>
    refine ⟨right, formed, fun notCall needed => ?_⟩
    unfold needsParens at needed
    cases isInner : rhs.binding? with
    | none => simp [isInner] at needed
    | some inner =>
      have bound := formed.bound_le notCall inner isInner
      simp [isInner, binds] at needed
      omega
  next =>
    refine ⟨.exponent, formed, fun notCall needed => ⟨rfl, ?_⟩⟩
    cases formed with
    | power => rfl
    | exponent inside =>
      cases inside with
      | ident isIdent => simp [needsParens, binding?_ident isIdent] at needed
      | fraction | call => exact absurd rfl notCall
      | _ => cases needed

end WellFormed

end FormulaCalculator.Grammar
