import FormulaCalculator.Formula
import FormulaCalculator.Proofs.Expr.Enclosure
import FormulaCalculator.Proofs.Expr.RoundTrip

set_option autoImplicit false

namespace FormulaCalculator

def Relation.text : Relation → String
  | eq => "="
  | ne => "!="
  | lt => "<"
  | le => "<="
  | gt => ">"
  | ge => ">="

theorem Relation.text_ofText? {rel : String} {known : Relation} (found : ofText? rel = some known) :
    known.text = rel := by
  unfold ofText? at found
  split at found <;> cases found <;> rfl

namespace Plan

variable [Stack]

def read : Plan → Except (List Diagnostic) Expr
  | formula flat => Grammar.parseText flat
  | relation rel lhs rhs => do
    let left ← lhs.read
    let right ← rhs.read
    return .compare rel.text left right
  | equation lhs rhs => do
    let left ← lhs.read
    let right ← rhs.read
    return .assign left right

def texts : Plan → List String
  | formula flat => [flat]
  | relation _ lhs rhs | equation lhs rhs => lhs.texts ++ rhs.texts

/-- The plan is read as the tree up to parentheses and names, unless reading one of its texts breaks off. -/
def ReadsAs (plan : Plan) (expr : Expr) : Prop :=
  (∀ flat ∈ plan.texts, ¬ Grammar.BreaksOff Stack.nesting (Token.scan flat)) →
    ∃ back, plan.read = .ok back ∧ back.bare = expr.bare.renamed

theorem ReadsAs.relation {rel : String} {known : Relation} {left right : Plan} {lhs rhs : Expr}
    (isKnown : Relation.ofText? rel = some known) (before : left.ReadsAs lhs)
    (after : right.ReadsAs rhs) : (Plan.relation known left right).ReadsAs (.compare rel lhs rhs) := by
  intro unbroken
  obtain ⟨unbrokenLeft, unbrokenRight⟩ := List.forall_mem_append.1 unbroken
  obtain ⟨backLeft, readLeft, sameLeft⟩ := before unbrokenLeft
  obtain ⟨backRight, readRight, sameRight⟩ := after unbrokenRight
  refine ⟨.compare known.text backLeft backRight, ?_, ?_⟩
  · rw [read, readLeft, readRight]
    rfl
  · rw [Relation.text_ofText? isKnown, Expr.bare, Expr.bare, Expr.renamed, sameLeft, sameRight]

theorem ReadsAs.equation {left right : Plan} {lhs rhs : Expr} (before : left.ReadsAs lhs)
    (after : right.ReadsAs rhs) : (Plan.equation left right).ReadsAs (.assign lhs rhs) := by
  intro unbroken
  obtain ⟨unbrokenLeft, unbrokenRight⟩ := List.forall_mem_append.1 unbroken
  obtain ⟨backLeft, readLeft, sameLeft⟩ := before unbrokenLeft
  obtain ⟨backRight, readRight, sameRight⟩ := after unbrokenRight
  refine ⟨.assign backLeft backRight, ?_, ?_⟩
  · rw [read, readLeft, readRight]
    rfl
  · rw [Expr.bare, Expr.bare, Expr.renamed, sameLeft, sameRight]

end Plan

namespace Outline

def formulas : Outline → List Expr
  | formula expr => [expr]
  | relation _ lhs rhs | equation lhs rhs => lhs.formulas ++ rhs.formulas

theorem ok_of_bind_ok {α β : Type} {first : Except PlanFault α} {next : α → Except PlanFault β}
    {result : β} (ran : first >>= next = .ok result) :
    ∃ value, first = .ok value ∧ next value = .ok result := by
  cases first with
  | error fault => cases ran
  | ok value => exact ⟨value, rfl, ran⟩

variable [Stack]

theorem plan_formula {expr : Expr} {plan : Plan} (planned : (formula expr).plan = .ok plan) :
    plan = .formula expr.flatText := by
  unfold Outline.plan Expr.formulaPlan at planned
  split at planned <;> try cases planned
  next flat written _ _ =>
    unfold Expr.flat at written
    split at written <;> try cases written
    split at written <;> cases written
    rfl

theorem plan_equation {lhs rhs : Outline} {plan : Plan} (planned : (equation lhs rhs).plan = .ok plan) :
    ∃ left right, lhs.plan = .ok left ∧ rhs.plan = .ok right ∧ plan = .equation left right := by
  obtain ⟨left, before, planned⟩ := ok_of_bind_ok planned
  obtain ⟨right, after, planned⟩ := ok_of_bind_ok planned
  cases planned
  exact ⟨left, right, before, after, rfl⟩

theorem plan_relation {rel : String} {lhs rhs : Outline} {plan : Plan}
    (planned : (relation rel lhs rhs).plan = .ok plan) :
    ∃ left right known, lhs.plan = .ok left ∧ rhs.plan = .ok right ∧
      Relation.ofText? rel = some known ∧ plan = .relation known left right := by
  obtain ⟨left, before, planned⟩ := ok_of_bind_ok planned
  obtain ⟨right, after, planned⟩ := ok_of_bind_ok planned
  cases found : Relation.ofText? rel with
  | none =>
    rw [found] at planned
    cases planned
  | some known =>
    rw [found] at planned
    cases planned
    exact ⟨left, right, known, before, after, rfl, rfl⟩

theorem texts_plan {outline : Outline} {plan : Plan} (planned : outline.plan = .ok plan) :
    plan.texts = outline.formulas.map Expr.flatText := by
  induction outline generalizing plan with
  | formula expr =>
    rw [plan_formula planned]
    rfl
  | equation lhs rhs ihLeft ihRight =>
    obtain ⟨left, right, before, after, rfl⟩ := plan_equation planned
    rw [Plan.texts, formulas, List.map_append, ihLeft before, ihRight after]
  | relation rel lhs rhs ihLeft ihRight =>
    obtain ⟨left, right, known, before, after, -, rfl⟩ := plan_relation planned
    rw [Plan.texts, formulas, List.map_append, ihLeft before, ihRight after]

end Outline

namespace Expr

theorem bare_unwrapped (expr : Expr) : expr.unwrapped.bare = expr.bare := by
  fun_induction unwrapped expr with
  | case1 inner ih => rw [ih, bare]
  | case2 => rfl

theorem isRelational_of_unwrapped {expr : Expr} (formula : expr.unwrapped.isRelational = false) :
    expr.isRelational = false := by
  cases expr <;> first | rfl | cases formula

theorem kept_of_isRelational {expr : Expr} (formula : expr.isRelational = false) :
    expr.isEquation = false := by
  cases expr <;> first | rfl | cases formula

theorem isRelational_of_leaf {expr : Expr} (noParen : ∀ inner, expr = paren inner → False)
    (noAssign : ∀ lhs rhs, expr = assign lhs rhs → False)
    (noCompare : ∀ rel lhs rhs, expr = compare rel lhs rhs → False) :
    expr.unwrapped.isRelational = false := by
  cases expr with
  | paren inner => exact (noParen inner rfl).elim
  | assign lhs rhs => exact (noAssign lhs rhs rfl).elim
  | compare rel lhs rhs => exact (noCompare rel lhs rhs rfl).elim
  | _ => rfl

theorem isRelational_of_handed {whole expr : Expr} (same : whole.unwrapped = expr.unwrapped) :
    ∀ handed ∈ (outlineWithin whole expr).formulas, handed.unwrapped.isRelational = false := by
  fun_induction outlineWithin whole expr with
  | case1 whole inner ih => exact ih same
  | case2 whole lhs rhs ihLeft ihRight => exact List.forall_mem_append.2 ⟨ihLeft rfl, ihRight rfl⟩
  | case3 whole rel lhs rhs ihLeft ihRight =>
    exact List.forall_mem_append.2 ⟨ihLeft rfl, ihRight rfl⟩
  | case4 expr whole noParen noAssign noCompare =>
    rw [Outline.formulas, List.forall_mem_singleton, same]
    exact isRelational_of_leaf noParen noAssign noCompare

theorem Regular.handed {spells : Kind → String → Prop} {whole expr : Expr}
    (around : whole.Regular spells) (regular : expr.Regular spells) :
    ∀ handed ∈ (outlineWithin whole expr).formulas, handed.Regular spells := by
  fun_induction outlineWithin whole expr with
  | case1 whole inner ih =>
    cases regular with
    | paren inside => exact ih around inside
  | case2 whole lhs rhs ihLeft ihRight =>
    cases regular with
    | assign left right => exact List.forall_mem_append.2 ⟨ihLeft left left, ihRight right right⟩
  | case3 whole rel lhs rhs ihLeft ihRight =>
    cases regular with
    | compare _ left right => exact List.forall_mem_append.2 ⟨ihLeft left left, ihRight right right⟩
  | case4 => exact List.forall_mem_singleton.2 around

theorem Legible.formula_reads [Stack] {expr : Expr} (legible : Legible expr) (plain : expr.IsPlain)
    (kept : expr.isEquation = false) : (Plan.formula expr.flatText).ReadsAs expr := by
  intro unbroken
  have whole := legible.parseText_flatText kept (unbroken _ (by simp [Plan.texts]))
  exact ⟨expr.back, whole, (legible.rereads plain).whole⟩

theorem Legible.plan_reads [Stack] {whole expr : Expr} (around : Legible whole) (plainAround : whole.IsPlain)
    (same : whole.unwrapped = expr.unwrapped) (legible : Legible expr) (plain : expr.IsPlain)
    {plan : Plan} (planned : (outlineWithin whole expr).plan = .ok plan) : plan.ReadsAs expr := by
  -- Along the outline. Parentheses are left aside on the way to a relation, whose sides start anew as
  -- wholes. Where none is found, the text is that of the whole, and differs in parentheses only.
  fun_induction outlineWithin whole expr generalizing plan with
  | case1 whole inner ih =>
    cases legible with
    | paren inside => exact ih around plainAround same inside plain.paren planned
  | case2 whole lhs rhs ihLeft ihRight =>
    obtain ⟨left, right, before, after, rfl⟩ := Outline.plan_equation planned
    obtain ⟨plainLeft, plainRight⟩ := plain.assign
    cases legible with
    | assign isIdent insideRight =>
      refine .equation ?_ ?_
      · exact ihLeft (.ident isIdent) plainLeft rfl (.ident isIdent) plainLeft before
      · exact ihRight insideRight plainRight rfl insideRight plainRight after
  | case3 whole rel lhs rhs ihLeft ihRight =>
    obtain ⟨left, right, known, before, after, isKnown, rfl⟩ := Outline.plan_relation planned
    obtain ⟨plainLeft, plainRight⟩ := plain.compare
    cases legible with
    | compare _ insideLeft insideRight =>
      refine .relation isKnown ?_ ?_
      · exact ihLeft insideLeft plainLeft rfl insideLeft plainLeft before
      · exact ihRight insideRight plainRight rfl insideRight plainRight after
  | case4 expr whole noParen noAssign noCompare =>
    have formula : whole.unwrapped.isRelational = false :=
      same ▸ isRelational_of_leaf noParen noAssign noCompare
    have kept := kept_of_isRelational (isRelational_of_unwrapped formula)
    have bareSame : whole.bare = expr.bare := by rw [← bare_unwrapped whole, same, bare_unwrapped]
    rw [Outline.plan_formula planned, Plan.ReadsAs, ← bareSame]
    exact around.formula_reads plainAround kept

end Expr

namespace Grammar

theorem parseText_of_ofText [Stack] {text : String} {formula : Formula}
    (translated : Formula.ofText text = .ok formula) :
    parseText (normalize text) = .ok formula.expr ∧ formula.expr.isTall = false := by
  unfold Formula.ofText at translated
  split at translated <;> try cases translated
  next expr parsed =>
    split at translated <;> cases translated
    next flat written =>
      refine ⟨parsed, ?_⟩
      unfold Expr.flat at written
      split at written
      next => cases written
      next low => simpa using low

theorem plan_mirrors_tree [Stack] {text : String} {formula : Formula}
    (translated : Formula.ofText text = .ok formula) :
    ∃ plan, formula.expr.plan = .ok plan ∧
      (formula.expr.IsPlain → (∀ flat ∈ plan.texts, ¬ BreaksOff Stack.nesting (Token.scan flat)) →
        ∃ back, plan.read = .ok back ∧ back.bare = formula.expr.bare.renamed) ∧
      plan.texts = formula.expr.outline.formulas.map Expr.flatText ∧
      (∀ handed ∈ formula.expr.outline.formulas, handed.unwrapped.isRelational = false) ∧
      ∀ flat ∈ plan.texts, ∃ exposed, Token.Balanced (Token.scan flat) exposed ∧
        ∀ token ∈ exposed, token.kind.isRelation = false := by
  obtain ⟨parsed, low⟩ := parseText_of_ofText translated
  have wellFormed := wellFormed_of_parseText parsed
  have regular := wellFormed.regular
  obtain ⟨plan, planned⟩ := regular.plan_ok low
  have outlined : formula.expr.outline.plan = .ok plan := by
    rw [Expr.plan, low] at planned
    exact planned
  have texts := Outline.texts_plan outlined
  have noRelation := @Expr.isRelational_of_handed formula.expr formula.expr rfl
  refine ⟨plan, planned, fun plain => ?_, texts, noRelation, ?_⟩
  · have legible := wellFormed.legible (plain.mono fun node => Expr.isLegibleNode_of_plain)
    exact legible.plan_reads plain rfl legible plain outlined
  · rw [texts]
    refine List.forall_mem_map.2 fun handed isHanded => ?_
    obtain ⟨exposed, balanced, none⟩ := (regular.handed regular handed isHanded).balanced_scan_flatText
    exact ⟨exposed, balanced, none (Expr.isRelational_of_unwrapped (noRelation handed isHanded))⟩

theorem wrapped_comparison_mirrored :
    ∃ formula back,
      Formula.ofText "((1<x))=2\\pi" = .ok formula ∧
      formula.expr.plan =
        .ok (.relation .eq (.relation .lt (.formula "1") (.formula "x")) (.formula "2*pi")) ∧
      (Plan.relation .eq (.relation .lt (.formula "1") (.formula "x")) (.formula "2*pi")).read =
        .ok back ∧
      back.bare = .compare "=" (.compare "<" (.number "1") (.ident "x"))
        (.arith "*" (.number "2") (.ident "pi")) := by
  obtain ⟨formula, translated, isExpr⟩ : ∃ formula,
      Formula.ofText "((1<x))=2\\pi" = .ok formula ∧ formula.expr =
        .compare "=" (.paren (.paren (.compare "<" (.number "1") (.ident "x"))))
          (.arith "*" (.number "2") (.ident "π")) := ⟨_, rfl, rfl⟩
  obtain ⟨plan, planned, mirrors, -⟩ := plan_mirrors_tree translated
  rw [isExpr] at planned mirrors
  have isPlan : plan =
      .relation .eq (.relation .lt (.formula "1") (.formula "x")) (.formula "2*pi") := by
    cases planned
    rfl
  subst isPlan
  obtain ⟨back, read, same⟩ := mirrors (by decide) (by decide +kernel)
  exact ⟨formula, back, translated, isExpr ▸ planned, read, same⟩

end Grammar

end FormulaCalculator
