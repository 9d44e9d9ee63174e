import FormulaCalculator.Plan
import FormulaCalculator.Token.Basic

set_option autoImplicit false

namespace FormulaCalculator

def Expr.signs : List String := ["+", "-"]

def Expr.factors : List String := ["*", "/"]

def Expr.relations : List String := ["=", "<", ">", "<=", ">=", "!="]

namespace Expr

/-- No gap, and no operator but those of the grammar. Which texts are numbers and names is left open. -/
inductive Regular (spells : Kind → String → Prop) : Expr → Prop where
  | number {text : String} (isNumber : spells .number text) : Regular spells (number text)
  | ident {name : String} (isIdent : spells .identifier name) : Regular spells (ident name)
  | sign {op : String} {operand : Expr} (isSign : op ∈ signs) (inside : Regular spells operand) :
      Regular spells (sign op operand)
  | arith {op : String} {lhs rhs : Expr} (joins : op ∈ signs ++ factors ++ ["^"])
      (left : Regular spells lhs) (right : Regular spells rhs) : Regular spells (arith op lhs rhs)
  | compare {rel : String} {lhs rhs : Expr} (relates : rel ∈ relations)
      (left : Regular spells lhs) (right : Regular spells rhs) : Regular spells (compare rel lhs rhs)
  | assign {lhs rhs : Expr} (left : Regular spells lhs) (right : Regular spells rhs) :
      Regular spells (assign lhs rhs)
  | call {name : String} {args : List Expr} (isCommand : spells .command name)
      (inside : ∀ arg ∈ args, Regular spells arg) : Regular spells (call name args)
  | array {items : List Expr} (inside : ∀ item ∈ items, Regular spells item) :
      Regular spells (array items)
  | matrix {rows : List (List Expr)} (inside : ∀ row ∈ rows, ∀ cell ∈ row, Regular spells cell) :
      Regular spells (matrix rows)
  | paren {inner : Expr} (inside : Regular spells inner) : Regular spells (paren inner)

namespace Regular

variable {spells : Kind → String → Prop}

theorem binding_known {op : String} (joins : op ∈ signs ++ factors ++ ["^"]) : bindingOf? op ≠ none := by
  simp only [signs, factors, List.cons_append, List.nil_append, List.mem_cons, List.not_mem_nil,
    or_false] at joins
  rcases joins with rfl | rfl | rfl | rfl | rfl <;> decide

theorem side_clear {joint : Joint} {child : Expr} (regular : Regular spells child)
    (known : joint.strangeOp? = none) : sideFault? joint child = none := by
  have usual : child.strangeOp? = none := by
    cases regular with
    | arith joins => simp [strangeOp?, binding_known joins]
    | _ => rfl
  cases regular <;> simp [sideFault?, usual, known]

theorem joined_clear {joint : Joint} {lhs rhs : Expr} (left : Regular spells lhs)
    (right : Regular spells rhs) (known : joint.strangeOp? = none) :
    joinedFault? joint lhs rhs none none = none := by
  simp [joinedFault?, left.side_clear known, right.side_clear known]

theorem clear_all {items : List Expr} (clear : ∀ item ∈ items, flatFault? item = none) :
    flatFaultIn? items = none := by
  induction items with
  | nil => rfl
  | cons item items ih => simp_all [flatFaultIn?]

theorem clear_rows {rows : List (List Expr)}
    (clear : ∀ row ∈ rows, ∀ cell ∈ row, flatFault? cell = none) : flatFaultInRows? rows = none := by
  induction rows with
  | nil => rfl
  | cons row rows ih =>
    have first := clear_all (clear row (by simp))
    have others := ih fun row inside => clear row (List.mem_cons_of_mem _ inside)
    simp [flatFaultInRows?, first, others]

theorem flatFault?_eq_none {expr : Expr} (regular : Regular spells expr) : flatFault? expr = none := by
  induction regular with
  | number | ident => rfl
  | sign _ _ ih | paren _ ih => exact ih
  | @arith op _ _ joins left right leftClear rightClear =>
    have known : (Joint.arith op).strangeOp? = none := by simp [Joint.strangeOp?, binding_known joins]
    rw [flatFault?, leftClear, rightClear, left.joined_clear right known]
  | compare _ left right leftClear rightClear | assign left right leftClear rightClear =>
    rw [flatFault?, leftClear, rightClear, left.joined_clear right rfl]
  | call _ _ ih | array _ ih => exact clear_all ih
  | matrix _ ih => exact clear_rows ih

theorem flat_ok [Stack] {expr : Expr} (regular : Regular spells expr) (low : expr.isTall = false) :
    expr.flat = .ok expr.flatText := by
  simp [flat, low, regular.flatFault?_eq_none]

theorem unwrapped_isNode {expr : Expr} (regular : Regular spells expr) :
    expr.unwrapped ≠ .missing ∧ ∀ text, expr.unwrapped ≠ .word text := by
  induction regular with
  | paren _ ih => exact ih
  | _ => simp [unwrapped]

theorem formulaPlan_ok [Stack] {expr : Expr} (regular : Regular spells expr) (low : expr.isTall = false) :
    expr.formulaPlan = .ok (.formula expr.flatText) := by
  obtain ⟨filled, noWord⟩ := regular.unwrapped_isNode
  unfold formulaPlan
  rw [regular.flat_ok low]
  split <;> simp_all

theorem relation_known {rel : String} (relates : rel ∈ relations) :
    ∃ known, Relation.ofText? rel = some known := by
  simp only [relations, List.mem_cons, List.not_mem_nil, or_false] at relates
  rcases relates with rfl | rfl | rfl | rfl | rfl | rfl <;> exact ⟨_, rfl⟩

theorem low_sides [Stack] {cls : NodeClass} {lhs rhs : Expr}
    (low : Stack.frames cls (max lhs.frames rhs.frames) ≤ Stack.room) :
    lhs.isTall = false ∧ rhs.isTall = false := by
  have inside := Stack.lt_frames cls (max lhs.frames rhs.frames)
  rw [isTall_eq_false, isTall_eq_false]
  omega

theorem outline_plan_ok [Stack] {whole expr : Expr} (around : Regular spells whole)
    (lowAround : whole.isTall = false) (regular : Regular spells expr) (low : expr.isTall = false) :
    ∃ plan, (outlineWithin whole expr).plan = .ok plan := by
  induction regular generalizing whole with
  | @paren inner inside ih =>
    have lowInner : inner.isTall = false := by
      rw [isTall_eq_false] at low ⊢
      exact Nat.le_trans (Nat.le_of_lt (Stack.lt_frames .paren inner.frames)) low
    exact ih around lowAround lowInner
  | @assign lhs rhs left right leftPlan rightPlan =>
    obtain ⟨lowLeft, lowRight⟩ := low_sides (isTall_eq_false.1 low)
    obtain ⟨lhsPlan, leftOk⟩ := leftPlan left lowLeft lowLeft
    obtain ⟨rhsPlan, rightOk⟩ := rightPlan right lowRight lowRight
    exact ⟨.equation lhsPlan rhsPlan, by simp [outlineWithin, Outline.plan, leftOk, rightOk]; rfl⟩
  | @compare rel lhs rhs relates left right leftPlan rightPlan =>
    obtain ⟨lowLeft, lowRight⟩ := low_sides (isTall_eq_false.1 low)
    obtain ⟨lhsPlan, leftOk⟩ := leftPlan left lowLeft lowLeft
    obtain ⟨rhsPlan, rightOk⟩ := rightPlan right lowRight lowRight
    obtain ⟨known, isKnown⟩ := relation_known relates
    exact ⟨.relation known lhsPlan rhsPlan, by
      simp [outlineWithin, Outline.plan, leftOk, rightOk, isKnown]; rfl⟩
  | _ => exact ⟨_, around.formulaPlan_ok lowAround⟩

theorem plan_ok [Stack] {expr : Expr} (regular : Regular spells expr) (low : expr.isTall = false) :
    ∃ plan, expr.plan = .ok plan := by
  rw [Expr.plan, low]
  exact regular.outline_plan_ok low regular low

end Regular

end Expr

end FormulaCalculator
