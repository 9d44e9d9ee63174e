import FormulaCalculator.Expr.Basic

set_option autoImplicit false

namespace FormulaCalculator.Expr

mutual

def nodes : Expr → List Expr
  | missing => [missing]
  | number text => [number text]
  | ident name => [ident name]
  | word text => [word text]
  | sign op operand => sign op operand :: nodes operand
  | arith op lhs rhs => arith op lhs rhs :: (nodes lhs ++ nodes rhs)
  | compare rel lhs rhs => compare rel lhs rhs :: (nodes lhs ++ nodes rhs)
  | assign lhs rhs => assign lhs rhs :: (nodes lhs ++ nodes rhs)
  | call name args => call name args :: nodesAll args
  | array items => array items :: nodesAll items
  | matrix rows => matrix rows :: nodesRows rows
  | paren inner => paren inner :: nodes inner
  | tuple items => tuple items :: nodesAll items

def nodesAll : List Expr → List Expr
  | [] => []
  | item :: items => nodes item ++ nodesAll items

def nodesRows : List (List Expr) → List Expr
  | [] => []
  | row :: rows => nodesAll row ++ nodesRows rows

end

attribute [local simp] nodes nodesAll nodesRows

theorem nodesAll_eq_flatMap (items : List Expr) : nodesAll items = items.flatMap nodes := by
  induction items with
  | nil => rfl
  | cons item items ih => simp [ih]

def Everywhere (holds : Expr → Prop) (expr : Expr) : Prop := ∀ node ∈ expr.nodes, holds node

instance (holds : Expr → Prop) [DecidablePred holds] (expr : Expr) : Decidable (Everywhere holds expr) :=
  inferInstanceAs (Decidable (∀ node ∈ expr.nodes, holds node))

namespace Everywhere

variable {holds : Expr → Prop}

theorem mono {weaker : Expr → Prop} {expr : Expr} (everywhere : Everywhere holds expr)
    (implies : ∀ node, holds node → weaker node) : Everywhere weaker expr :=
  fun node inside => implies node (everywhere node inside)

theorem here {expr : Expr} (everywhere : Everywhere holds expr) : holds expr := by
  refine everywhere expr ?_
  cases expr <;> simp

theorem sign_iff {op : String} {operand : Expr} :
    Everywhere holds (sign op operand) ↔ holds (sign op operand) ∧ Everywhere holds operand := by
  simp [Everywhere]

theorem sign {op : String} {operand : Expr} (everywhere : Everywhere holds (sign op operand)) :
    Everywhere holds operand :=
  (sign_iff.1 everywhere).2

theorem arith_iff {op : String} {lhs rhs : Expr} :
    Everywhere holds (arith op lhs rhs) ↔
      holds (arith op lhs rhs) ∧ Everywhere holds lhs ∧ Everywhere holds rhs := by
  simp [Everywhere, or_imp, forall_and]

theorem arith {op : String} {lhs rhs : Expr} (everywhere : Everywhere holds (arith op lhs rhs)) :
    Everywhere holds lhs ∧ Everywhere holds rhs :=
  (arith_iff.1 everywhere).2

theorem compare_iff {rel : String} {lhs rhs : Expr} :
    Everywhere holds (compare rel lhs rhs) ↔
      holds (compare rel lhs rhs) ∧ Everywhere holds lhs ∧ Everywhere holds rhs := by
  simp [Everywhere, or_imp, forall_and]

theorem compare {rel : String} {lhs rhs : Expr} (everywhere : Everywhere holds (compare rel lhs rhs)) :
    Everywhere holds lhs ∧ Everywhere holds rhs :=
  ⟨fun node inside => everywhere node (by simp [inside]),
    fun node inside => everywhere node (by simp [inside])⟩

theorem assign_iff {lhs rhs : Expr} :
    Everywhere holds (assign lhs rhs) ↔
      holds (assign lhs rhs) ∧ Everywhere holds lhs ∧ Everywhere holds rhs := by
  simp [Everywhere, or_imp, forall_and]

theorem assign {lhs rhs : Expr} (everywhere : Everywhere holds (assign lhs rhs)) :
    Everywhere holds lhs ∧ Everywhere holds rhs :=
  ⟨fun node inside => everywhere node (by simp [inside]),
    fun node inside => everywhere node (by simp [inside])⟩

theorem call_iff {name : String} {args : List Expr} :
    Everywhere holds (call name args) ↔
      holds (call name args) ∧ ∀ arg ∈ args, Everywhere holds arg := by
  simp only [Everywhere, nodes, nodesAll_eq_flatMap, List.forall_mem_cons, List.mem_flatMap]
  exact and_congr_right fun _ => ⟨fun each arg isArg node inside => each node ⟨arg, isArg, inside⟩,
    fun each node ⟨arg, isArg, inside⟩ => each arg isArg node inside⟩

theorem call {name : String} {args : List Expr} (everywhere : Everywhere holds (call name args)) :
    ∀ arg ∈ args, Everywhere holds arg :=
  (call_iff.1 everywhere).2

theorem array_iff {items : List Expr} :
    Everywhere holds (array items) ↔ holds (array items) ∧ ∀ item ∈ items, Everywhere holds item := by
  simp only [Everywhere, nodes, nodesAll_eq_flatMap, List.forall_mem_cons, List.mem_flatMap]
  exact and_congr_right fun _ => ⟨fun each item isItem node inside => each node ⟨item, isItem, inside⟩,
    fun each node ⟨item, isItem, inside⟩ => each item isItem node inside⟩

theorem array {items : List Expr} (everywhere : Everywhere holds (array items)) :
    ∀ item ∈ items, Everywhere holds item :=
  (array_iff.1 everywhere).2

theorem matrix_iff {rows : List (List Expr)} :
    Everywhere holds (matrix rows) ↔
      holds (matrix rows) ∧ ∀ row ∈ rows, ∀ cell ∈ row, Everywhere holds cell := by
  have inside (node : Expr) : node ∈ nodesRows rows ↔ ∃ row ∈ rows, ∃ cell ∈ row, node ∈ nodes cell := by
    induction rows with
    | nil => simp
    | cons row rows ih => simp [nodesAll_eq_flatMap, ih]
  simp only [Everywhere, nodes, List.forall_mem_cons, inside]
  exact and_congr_right fun _ =>
    ⟨fun each row isRow cell isCell node inside => each node ⟨row, isRow, cell, isCell, inside⟩,
      fun each node ⟨row, isRow, cell, isCell, inside⟩ => each row isRow cell isCell node inside⟩

theorem tuple {items : List Expr} (everywhere : Everywhere holds (tuple items)) :
    ∀ item ∈ items, Everywhere holds item := by
  intro item isItem node inside
  apply everywhere
  rw [nodes, nodesAll_eq_flatMap]
  exact List.mem_cons_of_mem _ (List.mem_flatMap.2 ⟨item, isItem, inside⟩)

theorem paren_iff {inner : Expr} :
    Everywhere holds (paren inner) ↔ holds (paren inner) ∧ Everywhere holds inner := by
  simp [Everywhere]

theorem paren {inner : Expr} (everywhere : Everywhere holds (paren inner)) : Everywhere holds inner :=
  (paren_iff.1 everywhere).2

end Everywhere

end FormulaCalculator.Expr
