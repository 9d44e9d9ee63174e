import FormulaCalculator.Proofs.Grammar.Completeness

set_option autoImplicit false

namespace FormulaCalculator.Grammar

instance (depth : Nat) (tokens : List Token) : Decidable (BreaksOff depth tokens) :=
  inferInstanceAs (Decidable (_ ∈ _))

theorem parseWithin_ok_iff {depth : Nat} {tokens : List Token} {expr : Expr}
    (within : expr.height ≤ depth ∨ ¬ BreaksOff depth tokens) :
    parseWithin depth tokens = .ok expr ↔ Derives tokens [] (.expression expr) := by
  constructor
  case mp => exact derives_of_parseWithin
  case mpr =>
    intro derived
    rcases parseWithin_of_derives derived depth with parsed | ⟨tall, broken⟩
    next => exact parsed
    next =>
      rcases within with low | unbroken
      next => omega
      next => exact absurd broken unbroken

theorem Derives.unique {tokens : List Token} {expr other : Expr}
    (derived : Derives tokens [] (.expression expr)) (also : Derives tokens [] (.expression other)) :
    expr = other := by
  have deep := (parseWithin_ok_iff (.inl (Nat.le_max_left expr.height other.height))).2 derived
  have same := (parseWithin_ok_iff (.inl (Nat.le_max_right expr.height other.height))).2 also
  rw [deep] at same
  exact Except.ok.inj same

theorem parse_ok_iff_derives [Stack] {tokens : List Token} {expr : Expr}
    (within : expr.height ≤ Stack.nesting ∨ ¬ BreaksOff Stack.nesting tokens) :
    parse tokens = .ok expr ↔ Derives tokens [] (.expression expr) := by
  exact parseWithin_ok_iff within

theorem signed_power_derives :
    Derives (Token.scan "y=-x^2") []
      (.expression (.assign (.ident "y") (.sign "-" (.arith "^" (.ident "x") (.number "2"))))) :=
  (parse_ok_iff_derives (.inr (by decide +kernel))).1 rfl

end FormulaCalculator.Grammar
