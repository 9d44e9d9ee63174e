import FormulaCalculator.Proofs.Expr.Joints
import Mathlib.Order.MinMax

set_option autoImplicit false

namespace FormulaCalculator.Expr

def constantTree (name : String) : Expr :=
  if name = "π" then ident "pi"
  else if name = "τ" then arith "*" (number "2") (ident "pi")
  else if name = "φ" then
    arith "/" (paren (arith "+" (number "1") (call "\\sqrt" [number "5"]))) (number "2")
  else ident name

def callTree (name : String) (args : List Expr) : Expr :=
  match args with
  | [numerator, denominator] =>
    if name = fraction then arith "/" (paren numerator) (paren denominator) else call name args
  | _ => call name args

mutual

/-- Constants and quotient commands give way to what they stand for. -/
def expanded : Expr → Expr
  | missing => missing
  | number text => number text
  | ident name => constantTree name
  | sign op operand => sign op (expanded operand)
  | arith op lhs rhs => arith op (expanded lhs) (expanded rhs)
  | compare rel lhs rhs => compare rel (expanded lhs) (expanded rhs)
  | assign lhs rhs => assign (expanded lhs) (expanded rhs)
  | call name args => callTree name (expandedAll args)
  | array items => array (expandedAll items)
  | matrix rows => matrix (expandedRows rows)
  | paren inner => paren (expanded inner)
  | word text => word text
  | tuple items => tuple (expandedAll items)

def expandedAll : List Expr → List Expr
  | [] => []
  | item :: items => expanded item :: expandedAll items

def expandedRows : List (List Expr) → List (List Expr)
  | [] => []
  | row :: rows => expandedAll row :: expandedRows rows

end

theorem expandedAll_eq_map (items : List Expr) : expandedAll items = items.map expanded := by
  induction items with
  | nil => rfl
  | cons item items ih => simp [expandedAll, ih]

theorem expandedRows_eq_map (rows : List (List Expr)) :
    expandedRows rows = rows.map (·.map expanded) := by
  induction rows with
  | nil => rfl
  | cons row rows ih => simp [expandedRows, expandedAll_eq_map, ih]

def isCompound : Expr → Bool
  | ident name => name == "τ" || name == "φ"
  | call name [_, _] => name == fraction
  | _ => false

/-- No sign stands directly before a constant or a command that is written as a product or a quotient. -/
def sparesCompound : Expr → Bool
  | sign _ operand => !operand.isCompound
  | _ => true

theorem constantTree_cases {holds : String → Expr → Prop} (pi : holds "π" (ident "pi"))
    (tau : holds "τ" (arith "*" (number "2") (ident "pi")))
    (phi : holds "φ"
      (arith "/" (paren (arith "+" (number "1") (call "\\sqrt" [number "5"]))) (number "2")))
    (plain : ∀ name, name ≠ "π" → name ≠ "τ" → name ≠ "φ" → holds name (ident name)) (name : String) :
    holds name (constantTree name) := by
  unfold constantTree
  by_cases isPi : name = "π"
  next => simpa [isPi] using pi
  by_cases isTau : name = "τ"
  next => simpa [isTau] using tau
  by_cases isPhi : name = "φ"
  next => simpa [isPhi] using phi
  simpa [isPi, isTau, isPhi] using plain name isPi isTau isPhi

theorem pieces_constantTree (name : String) : (constantTree name).pieces = glyphPieces name := by
  apply @constantTree_cases (fun name tree => tree.pieces = glyphPieces name) rfl rfl rfl
  intro name notPi notTau notPhi
  simp [pieces, glyphPieces, notPi, notTau, notPhi]

theorem binding?_constantTree (name : String) :
    (constantTree name).binding? = (ident name).binding? :=
  @constantTree_cases (fun name tree => tree.binding? = (ident name).binding?) rfl rfl rfl
    (fun _ _ _ _ => rfl) name

theorem isSign_constantTree (name : String) : (constantTree name).isSign = false :=
  @constantTree_cases (fun _ tree => tree.isSign = false) rfl rfl rfl (fun _ _ _ _ => rfl) name

theorem isJoined_constantTree (name : String) :
    (constantTree name).isJoined = (ident name).isCompound := by
  apply @constantTree_cases (fun name tree => tree.isJoined = (ident name).isCompound) rfl rfl rfl
  intro name _ notTau notPhi
  simp [isJoined, isCompound, notTau, notPhi]

theorem callTree_cases {holds : String → List Expr → Expr → Prop}
    (quotient : ∀ numerator denominator, holds fraction [numerator, denominator]
      (arith "/" (paren numerator) (paren denominator)))
    (plain : ∀ name args, (call name args).isCompound = false → holds name args (call name args))
    (name : String) (args : List Expr) : holds name args (callTree name args) := by
  unfold callTree
  split
  next numerator denominator =>
    by_cases isFraction : name = fraction
    next => simpa [isFraction] using quotient numerator denominator
    next => simpa [isFraction] using plain name [numerator, denominator] (by simp [isCompound, isFraction])
  next noQuotient =>
    apply plain
    unfold isCompound
    split <;> simp_all

theorem pieces_callTree (name : String) (args : List Expr) :
    (callTree name args).pieces = (call name args).pieces :=
  @callTree_cases (fun name args tree => tree.pieces = (call name args).pieces) (fun _ _ => rfl)
    (fun _ _ _ => rfl) name args

theorem binding?_callTree (name : String) (args : List Expr) :
    (callTree name args).binding? = (call name args).binding? :=
  @callTree_cases (fun name args tree => tree.binding? = (call name args).binding?) (fun _ _ => rfl)
    (fun _ _ _ => rfl) name args

theorem isSign_callTree (name : String) (args : List Expr) : (callTree name args).isSign = false :=
  @callTree_cases (fun _ _ tree => tree.isSign = false) (fun _ _ => rfl) (fun _ _ _ => rfl) name args

theorem isJoined_callTree (name : String) (args : List Expr) :
    (callTree name args).isJoined = (call name args).isCompound := by
  apply @callTree_cases (fun name args tree => tree.isJoined = (call name args).isCompound)
  next => exact fun _ _ => rfl
  next => exact fun _ _ simple => simple.symm

section

variable [Stack]

theorem frames_constantTree (name : String) : Stack.frames .ident 0 ≤ (constantTree name).frames := by
  have right (op : String) (lhs rhs : Expr) : rhs.frames ≤ (arith op lhs rhs).frames :=
    (Nat.le_max_right lhs.frames rhs.frames).trans (Nat.le_of_lt (Stack.lt_frames .arith _))
  refine @constantTree_cases (fun _ tree => Stack.frames .ident 0 ≤ tree.frames) ?_ ?_ ?_ ?_ name
  next => exact Nat.le_refl _
  next => exact right "*" (number "2") (ident "pi")
  next => exact Stack.frames_ident.trans (right "/" _ (number "2"))
  next => exact fun _ _ _ _ => Nat.le_refl _

theorem frames_callTree (name : String) (args : List Expr) :
    Stack.frames .call (framesAll args) ≤ (callTree name args).frames := by
  apply @callTree_cases fun _ args tree => Stack.frames .call (framesAll args) ≤ tree.frames
  case quotient =>
    intro numerator denominator
    have mono : Monotone (Stack.frames .paren) := fun _ _ le => Stack.frames_mono .paren le
    have sides : Stack.frames .paren (framesAll [numerator, denominator]) =
        max (paren numerator).frames (paren denominator).frames := by
      simp only [framesAll, Nat.max_zero, frames, mono.map_max]
    exact (Stack.frames_call _).trans (Stack.frames_mono .arith (Nat.le_of_eq sides))
  case plain => exact fun _ _ _ => Nat.le_refl _

theorem framesAll_le_expandedAll {items : List Expr}
    (each : ∀ item ∈ items, item.frames ≤ item.expanded.frames) :
    framesAll items ≤ framesAll (expandedAll items) := by
  induction items with
  | nil => exact Nat.le_refl 0
  | cons item items ih =>
    obtain ⟨first, others⟩ := List.forall_mem_cons.1 each
    have rest := ih others
    simp only [expandedAll, framesAll]
    omega

theorem framesRows_le_expandedRows {rows : List (List Expr)}
    (each : ∀ row ∈ rows, ∀ cell ∈ row, cell.frames ≤ cell.expanded.frames) :
    framesRows rows ≤ framesRows (expandedRows rows) := by
  induction rows with
  | nil => exact Nat.le_refl 0
  | cons row rows ih =>
    obtain ⟨first, others⟩ := List.forall_mem_cons.1 each
    have top := framesAll_le_expandedAll first
    have rest := ih others
    simp only [expandedRows, framesRows]
    omega

theorem frames_le_expanded (expr : Expr) : expr.frames ≤ expr.expanded.frames := by
  induction expr using treeInduction with
  | missing | number _ | word _ => exact Nat.le_refl _
  | ident name => exact frames_constantTree name
  | sign _ _ operand => exact Stack.frames_mono .sign operand
  | arith _ _ _ left right | compare _ _ _ left right | assign _ _ left right =>
    exact Stack.frames_mono _ (by omega)
  | call name args each =>
    have inside := framesAll_le_expandedAll each
    exact (Stack.frames_mono .call inside).trans (frames_callTree name (expandedAll args))
  | array _ each => exact Stack.frames_mono .array (framesAll_le_expandedAll each)
  | matrix _ each => exact Stack.frames_mono .matrix (framesRows_le_expandedRows each)
  | paren _ inner => exact Stack.frames_mono .paren inner
  | tuple _ each => exact Nat.succ_le_succ (framesAll_le_expandedAll each)

theorem low_of_expanded {expr : Expr} (low : expr.expanded.isTall = false) : expr.isTall = false := by
  rw [isTall_eq_false] at low ⊢
  exact (frames_le_expanded expr).trans low

end

theorem binding?_expanded (expr : Expr) : expr.expanded.binding? = expr.binding? := by
  cases expr with
  | ident name => exact binding?_constantTree name
  | call name args =>
    apply (binding?_callTree name (expandedAll args)).trans
    rcases args with _ | ⟨first, _ | ⟨second, _ | ⟨third, more⟩⟩⟩ <;> rfl
  | _ => rfl

theorem isSign_expanded (expr : Expr) : expr.expanded.isSign = expr.isSign := by
  cases expr with
  | ident name => exact isSign_constantTree name
  | call name args => exact isSign_callTree name (expandedAll args)
  | _ => rfl

theorem isJoined_expanded (expr : Expr) :
    expr.expanded.isJoined = (expr.isJoined || expr.isCompound) := by
  cases expr with
  | ident name => exact isJoined_constantTree name
  | call name args =>
    apply (isJoined_callTree name (expandedAll args)).trans
    rcases args with _ | ⟨first, _ | ⟨second, _ | ⟨third, more⟩⟩⟩ <;> rfl
  | _ => rfl

theorem needsParens_expanded (joint : Joint) (side : Side) (expr : Expr) :
    needsParens joint side expr.expanded = needsParens joint side expr := by
  rw [needsParens, needsParens, binding?_expanded, isSign_expanded]

theorem expanded_node (joint : Joint) (lhs rhs : Expr) :
    (joint.node lhs rhs).expanded = joint.node lhs.expanded rhs.expanded := by
  cases joint <;> rfl

theorem pieces_expanded_node {lhs rhs : Expr} (joint : Joint) (left : lhs.expanded.pieces = lhs.pieces)
    (right : rhs.expanded.pieces = rhs.pieces) :
    (joint.node lhs rhs).expanded.pieces = (joint.node lhs rhs).pieces := by
  rw [expanded_node, pieces_node, pieces_node, joinedPieces, joinedPieces, left, right,
    needsParens_expanded, needsParens_expanded]

theorem piecesAll_expandedAll {items : List Expr}
    (same : ∀ item ∈ items, item.expanded.pieces = item.pieces) :
    piecesAll (expandedAll items) = piecesAll items := by
  rw [piecesAll_eq_map, piecesAll_eq_map, expandedAll_eq_map, List.map_map]
  exact List.map_congr_left same

theorem piecesRows_expandedRows {rows : List (List Expr)}
    (same : ∀ row ∈ rows, ∀ cell ∈ row, cell.expanded.pieces = cell.pieces) :
    piecesRows (expandedRows rows) = piecesRows rows := by
  induction rows with
  | nil => rfl
  | cons row rows ih =>
    obtain ⟨first, others⟩ := List.forall_mem_cons.1 same
    rw [expandedRows, piecesRows, piecesRows, piecesAll_expandedAll first, ih others]

namespace Regular

variable {spells : Kind → String → Prop} {expr : Expr}

theorem pieces_expanded (regular : expr.Regular spells)
    (spared : expr.Everywhere (·.sparesCompound = true)) : expr.expanded.pieces = expr.pieces := by
  induction regular with
  | number => rfl
  | ident => exact pieces_constantTree _
  | @sign op operand _ _ ih =>
    have simple : operand.isCompound = false := by simpa [sparesCompound] using spared.here
    rw [expanded, pieces, pieces, isJoined_expanded, simple, Bool.or_false, ih spared.sign]
  | arith _ _ _ left right =>
    obtain ⟨sparedLeft, sparedRight⟩ := spared.arith
    exact pieces_expanded_node (.arith _) (left sparedLeft) (right sparedRight)
  | compare _ _ _ left right =>
    obtain ⟨sparedLeft, sparedRight⟩ := spared.compare
    exact pieces_expanded_node (.compare _) (left sparedLeft) (right sparedRight)
  | assign _ _ left right =>
    obtain ⟨sparedLeft, sparedRight⟩ := spared.assign
    exact pieces_expanded_node .assign (left sparedLeft) (right sparedRight)
  | @call name args _ _ ih =>
    have same := piecesAll_expandedAll fun arg isArg => ih arg isArg (spared.call arg isArg)
    rw [expanded, pieces_callTree, pieces, pieces, same]
  | @array items _ ih =>
    have same := piecesAll_expandedAll fun item isItem => ih item isItem (spared.array item isItem)
    rw [expanded, pieces, pieces, same]
  | @matrix rows _ ih =>
    have spared := (Everywhere.matrix_iff.1 spared).2
    have same := piecesRows_expandedRows fun row isRow cell isCell =>
      ih row isRow cell isCell (spared row isRow cell isCell)
    rw [expanded, pieces, pieces, same]
  | paren _ ih => rw [expanded, pieces, pieces, ih spared.paren]

theorem expanded (regular : expr.Regular spells) : expr.expanded.Regular fun _ _ => True := by
  induction regular with
  | number => exact .number trivial
  | @ident name =>
    have two : Regular (fun _ _ => True) (Expr.number "2") := .number trivial
    have sum : Regular (fun _ _ => True) (Expr.arith "+" (.number "1") (.call "\\sqrt" [.number "5"])) :=
      .arith (by decide) (.number trivial)
        (.call trivial (List.forall_mem_singleton.2 (Regular.number trivial)))
    apply @constantTree_cases fun _ tree => tree.Regular fun _ _ => True
    case pi => exact .ident trivial
    case tau => exact .arith (by decide) two (.ident trivial)
    case phi => exact .arith (by decide) (.paren sum) two
    case plain => exact fun _ _ _ _ => .ident trivial
  | sign isSign _ ih => exact .sign isSign ih
  | arith joins _ _ left right => exact .arith joins left right
  | compare relates _ _ left right => exact .compare relates left right
  | assign _ _ left right => exact .assign left right
  | @call name args _ _ ih =>
    have inside : ∀ arg ∈ expandedAll args, Regular (fun _ _ => True) arg := by
      rw [expandedAll_eq_map]
      exact List.forall_mem_map.2 ih
    revert inside
    apply @callTree_cases fun _ args tree =>
      (∀ arg ∈ args, Regular (fun _ _ => True) arg) → tree.Regular fun _ _ => True
    case quotient =>
      intro numerator denominator inside
      exact .arith (by decide) (.paren (inside _ (by simp))) (.paren (inside _ (by simp)))
    case plain => exact fun _ _ _ inside => .call trivial inside
  | @array items _ ih =>
    apply Regular.array
    rw [expandedAll_eq_map]
    exact List.forall_mem_map.2 ih
  | @matrix rows _ ih =>
    apply Regular.matrix
    rw [expandedRows_eq_map]
    exact List.forall_mem_map.2 fun row isRow => List.forall_mem_map.2 (ih row isRow)
  | paren _ ih => exact .paren ih

end Regular

theorem flat_expanded [Stack] {spells : Kind → String → Prop} {expr : Expr} (regular : expr.Regular spells)
    (spared : expr.Everywhere (·.sparesCompound = true)) :
    expr.expanded.flatText = expr.flatText ∧
      (expr.isTall = false → expr.flat = .ok expr.flatText) ∧
      (expr.expanded.isTall = false → expr.expanded.flat = expr.flat) := by
  have sameText : expr.expanded.flatText = expr.flatText := by
    rw [flatText, flatText, regular.pieces_expanded spared]
  constructor
  next => exact sameText
  constructor
  next => exact regular.flat_ok
  next =>
    intro low
    rw [regular.expanded.flat_ok low, regular.flat_ok (low_of_expanded low), sameText]

theorem golden_product_expanded :
    (arith "*" (ident "τ") (arith "^" (ident "φ") (call "\\frac" [ident "π", number "3"]))).flat =
        .ok "2*pi*((1+sqrt(5))/2)^((pi)/(3))" ∧
      (arith "*" (arith "*" (number "2") (ident "pi"))
        (arith "^"
          (arith "/" (paren (arith "+" (number "1") (call "\\sqrt" [number "5"]))) (number "2"))
          (arith "/" (paren (ident "pi")) (paren (number "3"))))).flat =
        .ok "2*pi*((1+sqrt(5))/2)^((pi)/(3))" := by
  have regular : (arith "*" (ident "τ")
      (arith "^" (ident "φ") (call "\\frac" [ident "π", number "3"]))).Regular fun _ _ => True := by
    have args : ∀ arg ∈ [ident "π", number "3"], Regular (fun _ _ => True) arg :=
      List.forall_mem_cons.2 ⟨.ident trivial, List.forall_mem_singleton.2 (.number trivial)⟩
    exact .arith (by decide) (.ident trivial)
      (.arith (by decide) (.ident trivial) (.call trivial args))
  obtain ⟨-, written, same⟩ := flat_expanded regular (by decide)
  have product := written (by decide)
  exact ⟨product, (same (by decide)).trans product⟩

-- Directly after a sign the product is put in parentheses, but the constant is not.
example : (sign "-" (ident "τ")).flatText = "-2*pi" ∧
    (sign "-" (ident "τ")).expanded.flatText = "-(2*pi)" := by decide

end FormulaCalculator.Expr
