import FormulaCalculator.Proofs.Expr.Construction
import FormulaCalculator.Proofs.Expr.Joints

set_option autoImplicit false

namespace FormulaCalculator.Expr

def isParen : Expr → Bool
  | paren _ => true
  | _ => false

/-- One pair of parentheses, wherever it stands, gives way to what it holds. -/
inductive DropsPair : Expr → Expr → Prop where
  | here (inner : Expr) : DropsPair (paren inner) inner
  | operand {op : String} {operand other : Expr} (inside : DropsPair operand other) :
      DropsPair (sign op operand) (sign op other)
  | left {joint : Joint} {lhs rhs other : Expr} (inside : DropsPair lhs other) :
      DropsPair (joint.node lhs rhs) (joint.node other rhs)
  | right {joint : Joint} {lhs rhs other : Expr} (inside : DropsPair rhs other) :
      DropsPair (joint.node lhs rhs) (joint.node lhs other)
  | arg {name : String} {before after : List Expr} {arg other : Expr} (inside : DropsPair arg other) :
      DropsPair (call name (before ++ arg :: after)) (call name (before ++ other :: after))
  | item {before after : List Expr} {item other : Expr} (inside : DropsPair item other) :
      DropsPair (array (before ++ item :: after)) (array (before ++ other :: after))
  | cell {above below : List (List Expr)} {before after : List Expr} {cell other : Expr}
      (inside : DropsPair cell other) :
      DropsPair (matrix (above ++ (before ++ cell :: after) :: below))
        (matrix (above ++ (before ++ other :: after) :: below))
  | inner {inner other : Expr} (inside : DropsPair inner other) : DropsPair (paren inner) (paren other)

abbrev DropsPairs : Expr → Expr → Prop := Relation.ReflTransGen DropsPair

mutual

/-- All tuples but parentheses are built anew, so that their first items tell their classes once more. -/
def rebuiltBare : Form → Except FieldCount Expr
  | .absent => .ok missing
  | .text value => .ok (word value)
  | .tuple [.text "(", inner] => rebuiltBare inner
  | .tuple items => rebuiltBares items >>= assemble

def rebuiltBares : List Form → Except FieldCount (List Expr)
  | [] => .ok []
  | item :: items => do
    let tree ← rebuiltBare item
    let trees ← rebuiltBares items
    return tree :: trees

end

theorem mem_nodesRows {rows : List (List Expr)} {node : Expr} :
    node ∈ nodesRows rows ↔ ∃ row ∈ rows, ∃ cell ∈ row, node ∈ cell.nodes := by
  induction rows with
  | nil => simp [nodesRows]
  | cons row rows ih => simp [nodesRows, nodesAll_eq_flatMap, ih]

theorem mem_nodes_trans {expr node other : Expr} (inside : node ∈ expr.nodes)
    (deeper : other ∈ node.nodes) : other ∈ expr.nodes := by
  induction expr using treeInduction with
  | missing | number | ident | word => simp_all [nodes]
  | sign op operand ih | paren inner ih =>
    rcases List.mem_cons.1 inside with rfl | below
    · exact deeper
    · exact List.mem_cons_of_mem _ (ih below)
  | arith op lhs rhs left right | compare rel lhs rhs left right | assign lhs rhs left right =>
    rcases List.mem_cons.1 inside with rfl | below
    · exact deeper
    · apply List.mem_cons_of_mem
      exact List.mem_append.2 ((List.mem_append.1 below).imp left right)
  | call name items ih | array items ih | tuple items ih =>
    rcases List.mem_cons.1 inside with rfl | below
    · exact deeper
    · rw [nodesAll_eq_flatMap] at below
      obtain ⟨item, isItem, below⟩ := List.mem_flatMap.1 below
      apply List.mem_cons_of_mem
      rw [nodesAll_eq_flatMap]
      exact List.mem_flatMap.2 ⟨item, isItem, ih item isItem below⟩
  | matrix rows ih =>
    rcases List.mem_cons.1 inside with rfl | below
    · exact deeper
    · obtain ⟨row, isRow, cell, isCell, below⟩ := mem_nodesRows.1 below
      apply List.mem_cons_of_mem
      exact mem_nodesRows.2 ⟨row, isRow, cell, isCell, ih row isRow cell isCell below⟩

theorem nodes_bare (expr : Expr) : expr.bare.nodes = (expr.nodes.filter (!·.isParen)).map bare := by
  have flat {items : List Expr}
      (ih : ∀ item ∈ items, item.bare.nodes = (item.nodes.filter (!·.isParen)).map bare) :
      nodesAll (bareAll items) = ((nodesAll items).filter (!·.isParen)).map bare := by
    induction items with
    | nil => rfl
    | cons item items more =>
      obtain ⟨here, others⟩ := List.forall_mem_cons.1 ih
      simp [bareAll, nodesAll, here, more others]
  induction expr using treeInduction with
  | missing | number | ident | word => rfl
  | sign op operand ih => simp [bare, nodes, isParen, ih]
  | paren inner ih => simp [bare, nodes, isParen, ih]
  | arith op lhs rhs left right | compare rel lhs rhs left right | assign lhs rhs left right =>
    simp [bare, nodes, isParen, left, right]
  | call name items ih | array items ih | tuple items ih => simp [bare, nodes, isParen, flat ih]
  | matrix rows ih =>
    have grid : nodesRows (bareRows rows) = ((nodesRows rows).filter (!·.isParen)).map bare := by
      induction rows with
      | nil => rfl
      | cons row rows more =>
        obtain ⟨here, others⟩ := List.forall_mem_cons.1 ih
        simp [bareRows, nodesRows, flat here, more others]
    simp [bare, nodes, isParen, grid]

theorem bareAll_self {items : List Expr} (each : ∀ item ∈ items, item.bare = item) :
    bareAll items = items := by
  rw [bareAll_eq_map]
  exact (List.map_congr_left each).trans (List.map_id items)

theorem bareRows_self {rows : List (List Expr)} (each : ∀ row ∈ rows, ∀ cell ∈ row, cell.bare = cell) :
    bareRows rows = rows := by
  rw [bareRows_eq_map]
  have same (row : List Expr) (isRow : row ∈ rows) : row.map bare = row := by
    rw [← bareAll_eq_map, bareAll_self (each row isRow)]
  exact (List.map_congr_left same).trans (List.map_id rows)

theorem bare_self {expr : Expr} (noParen : expr.Everywhere (·.isParen = false)) : expr.bare = expr := by
  induction expr using treeInduction with
  | missing | number | ident | word => rfl
  | sign op operand ih => rw [bare, ih noParen.sign]
  | arith op lhs rhs left right => rw [bare, left noParen.arith.1, right noParen.arith.2]
  | compare rel lhs rhs left right => rw [bare, left noParen.compare.1, right noParen.compare.2]
  | assign lhs rhs left right => rw [bare, left noParen.assign.1, right noParen.assign.2]
  | call name args ih => rw [bare, bareAll_self fun arg isArg => ih arg isArg (noParen.call arg isArg)]
  | array items ih => rw [bare, bareAll_self fun item isItem => ih item isItem (noParen.array item isItem)]
  | tuple items ih => rw [bare, bareAll_self fun item isItem => ih item isItem (noParen.tuple item isItem)]
  | matrix rows ih =>
    have cells := (Everywhere.matrix_iff.1 noParen).2
    rw [bare, bareRows_self fun row isRow cell isCell => ih row isRow cell isCell (cells row isRow cell isCell)]
  | paren inner => cases noParen.here

theorem isParen_bare (expr : Expr) : expr.bare.isParen = false := by
  induction expr using treeInduction with
  | paren inner ih => exact ih
  | _ => rfl

theorem bare_noParen (expr : Expr) : expr.bare.Everywhere (·.isParen = false) := by
  intro node inside
  rw [nodes_bare] at inside
  obtain ⟨source, -, rfl⟩ := List.mem_map.1 inside
  exact isParen_bare source

theorem bare_bare (expr : Expr) : expr.bare.bare = expr.bare := bare_self (bare_noParen expr)

theorem freeNames_bare (expr : Expr) : expr.bare.freeNames = expr.freeNames := by
  have all {items : List Expr} (ih : ∀ item ∈ items, item.bare.freeNames = item.freeNames) :
      freeNamesAll (bareAll items) = freeNamesAll items := by
    rw [bareAll_eq_map, freeNamesAll_eq_flatMap, freeNamesAll_eq_flatMap, List.flatMap_map]
    exact List.flatMap_congr ih
  induction expr using treeInduction with
  | missing | number | ident | word => rfl
  | sign op operand ih | paren inner ih => exact ih
  | arith op lhs rhs left right | compare rel lhs rhs left right | assign lhs rhs left right =>
    rw [bare, freeNames, freeNames, left, right]
  | call name items ih | array items ih | tuple items ih => exact all ih
  | matrix rows ih =>
    rw [bare, freeNames, freeNames, bareRows_eq_map, freeNamesRows_eq_flatMap, freeNamesRows_eq_flatMap,
      List.flatMap_map]
    apply List.flatMap_congr
    intro row isRow
    have same := all (ih row isRow)
    rwa [bareAll_eq_map, freeNamesAll_eq_flatMap, freeNamesAll_eq_flatMap] at same

theorem HasNoGap.inside {expr node : Expr} (filled : expr.HasNoGap) (inside : node ∈ expr.nodes) :
    node.HasNoGap :=
  fun _ deeper => filled _ (mem_nodes_trans inside deeper)

theorem class?_bare {expr : Expr} (filled : expr.HasNoGap) (noParen : expr.isParen = false) :
    expr.bare.class? = expr.class? := by
  cases expr with
  | paren => cases noParen
  | tuple items => exact absurd filled (not_hasNoGap_tuple items)
  | _ => rfl

theorem DropsPair.bare_eq {expr other : Expr} (drops : DropsPair expr other) : other.bare = expr.bare := by
  induction drops with
  | here => rfl
  | operand _ ih | inner _ ih => simp [bare, ih]
  | left _ ih | right _ ih => rw [bare_node, bare_node, ih]
  | arg _ ih | item _ ih => simp [bare, bareAll_eq_map, ih]
  | cell _ ih => simp [bare, bareRows_eq_map, ih]

theorem bare_of_dropsPairs {expr other : Expr} (drops : DropsPairs expr other) : other.bare = expr.bare := by
  induction drops with
  | refl => rfl
  | tail _ drops ih => exact drops.bare_eq.trans ih

theorem dropsPairs_map {α : Type} {change : α → α} (build : List α → Expr) (before : List α) {items : List α}
    (each : ∀ item ∈ items, ∀ before after, DropsPairs (build (before ++ item :: after))
      (build (before ++ change item :: after))) :
    DropsPairs (build (before ++ items)) (build (before ++ items.map change)) := by
  induction items generalizing before with
  | nil => exact .refl
  | cons item items ih =>
    obtain ⟨here, others⟩ := List.forall_mem_cons.1 each
    have first := here before items
    have more := ih (before ++ [change item]) others
    rw [List.append_assoc, List.append_assoc] at more
    exact first.trans more

theorem dropsPairs_node {joint : Joint} {lhs rhs other another : Expr} (left : DropsPairs lhs other)
    (right : DropsPairs rhs another) : DropsPairs (joint.node lhs rhs) (joint.node other another) := by
  have first : DropsPairs (joint.node lhs rhs) (joint.node other rhs) :=
    left.lift (joint.node · rhs) fun _ _ => .left
  exact first.trans (right.lift (joint.node other) fun _ _ => .right)

theorem dropsPairs_bare {expr : Expr} (filled : expr.HasNoGap) : DropsPairs expr expr.bare := by
  induction expr using treeInduction with
  | missing | number | ident | word => exact .refl
  | sign op operand ih => exact (ih filled.sign).lift (sign op) fun _ _ => .operand
  | arith op lhs rhs left right =>
    exact @dropsPairs_node (.arith op) _ _ _ _ (left filled.arith.1) (right filled.arith.2)
  | compare rel lhs rhs left right =>
    exact @dropsPairs_node (.compare rel) _ _ _ _ (left filled.compare.1) (right filled.compare.2)
  | assign lhs rhs left right =>
    exact @dropsPairs_node .assign _ _ _ _ (left filled.assign.1) (right filled.assign.2)
  | call name args ih =>
    rw [bare, bareAll_eq_map]
    apply dropsPairs_map (call name) []
    intro arg isArg before after
    exact (ih arg isArg (filled.call arg isArg)).lift (fun arg => call name (before ++ arg :: after))
      fun _ _ => .arg
  | array items ih =>
    rw [bare, bareAll_eq_map]
    apply dropsPairs_map array []
    intro item isItem before after
    exact (ih item isItem (filled.array item isItem)).lift (fun item => array (before ++ item :: after))
      fun _ _ => .item
  | matrix rows ih =>
    have cells := (Everywhere.matrix_iff.1 filled).2
    rw [bare, bareRows_eq_map]
    apply dropsPairs_map matrix []
    intro row isRow above below
    apply dropsPairs_map (fun row => matrix (above ++ row :: below)) []
    intro cell isCell before after
    exact (ih row isRow cell isCell (cells row isRow cell isCell)).lift
      (fun cell => matrix (above ++ (before ++ cell :: after) :: below)) fun _ _ => .cell
  | paren inner ih => exact .head (.here inner) (ih filled.paren)
  | tuple items => exact absurd filled (not_hasNoGap_tuple items)

theorem toForm_of_hasNoGap {expr : Expr} (filled : expr.HasNoGap) : ∃ items, expr.toForm = .tuple items := by
  have here := Everywhere.here filled
  cases expr <;> first | exact ⟨_, rfl⟩ | cases here

theorem bare_ne_word {expr : Expr} (filled : expr.HasNoGap) (text : String) : expr.bare ≠ word text := by
  induction expr using treeInduction with
  | paren inner ih => exact ih filled.paren
  | word other => cases filled.here
  | _ => simp [bare]

theorem rebuiltBares_cons {form : Form} {forms : List Form} {tree : Expr} {trees : List Expr}
    (first : rebuiltBare form = .ok tree) (more : rebuiltBares forms = .ok trees) :
    rebuiltBares (form :: forms) = .ok (tree :: trees) := by
  rw [rebuiltBares, first, more]
  rfl

theorem rebuiltBares_pair {lhs rhs : Expr} (left : rebuiltBare lhs.toForm = .ok lhs.bare)
    (right : rebuiltBare rhs.toForm = .ok rhs.bare) :
    rebuiltBares [lhs.toForm, rhs.toForm] = .ok [lhs.bare, rhs.bare] :=
  rebuiltBares_cons left (rebuiltBares_cons right rfl)

theorem rebuiltBares_of_each {items : List Expr}
    (each : ∀ item ∈ items, rebuiltBare item.toForm = .ok item.bare) :
    rebuiltBares (toForms items) = .ok (bareAll items) := by
  induction items with
  | nil => rfl
  | cons item items ih =>
    obtain ⟨here, others⟩ := List.forall_mem_cons.1 each
    exact rebuiltBares_cons here (ih others)

theorem rebuiltBare_plain {items : List Expr} (filled : ∀ item ∈ items, item.HasNoGap)
    (each : ∀ item ∈ items, rebuiltBare item.toForm = .ok item.bare) :
    rebuiltBare (.tuple (toForms items)) = .ok (tuple (bareAll items)) := by
  have noWord (text : String) : (bareAll items).head? ≠ some (word text) := by
    cases items with
    | nil => nofun
    | cons item items => simpa [bareAll] using bare_ne_word (filled item (by simp)) text
  rw [rebuiltBare, rebuiltBares_of_each each]
  · exact assemble_plain fun cls => noWord cls.tag
  · intro inner isPair
    cases items with
    | nil => cases isPair
    | cons item items =>
      obtain ⟨parts, isTuple⟩ := toForm_of_hasNoGap (filled item (by simp))
      rw [toForms, isTuple] at isPair
      cases isPair

theorem rebuiltBare_tagged {tag : String} {fields : List Form} {trees : List Expr} (noParen : tag ≠ "(")
    (parts : rebuiltBares fields = .ok trees) :
    rebuiltBare (.tuple (.text tag :: fields)) = assemble (word tag :: trees) := by
  have tagged : rebuiltBares (.text tag :: fields) = .ok (word tag :: trees) := rebuiltBares_cons rfl parts
  rw [rebuiltBare, tagged]
  · rfl
  · intro inner isPair
    cases isPair
    exact noParen rfl

theorem rebuiltBares_rows {rows : List (List Expr)}
    (each : ∀ row ∈ rows, rebuiltBare (.tuple (toForms row)) = .ok (tuple (bareAll row))) :
    rebuiltBares (toFormRows rows) = .ok ((bareRows rows).map tuple) := by
  induction rows with
  | nil => rfl
  | cons row rows ih =>
    obtain ⟨here, others⟩ := List.forall_mem_cons.1 each
    exact rebuiltBares_cons here (ih others)

theorem rebuiltBare_toForm {expr : Expr} (filled : expr.HasNoGap) :
    rebuiltBare expr.toForm = .ok expr.bare := by
  induction expr using treeInduction with
  | missing | word => cases filled.here
  | number | ident => rfl
  | sign op operand ih =>
    have parts : rebuiltBares [.text op, operand.toForm] = .ok [word op, operand.bare] :=
      rebuiltBares_cons rfl (rebuiltBares_cons (ih filled.sign) rfl)
    exact rebuiltBare_tagged (by decide) parts
  | arith op lhs rhs left right =>
    have parts : rebuiltBares [.text op, lhs.toForm, rhs.toForm] = .ok [word op, lhs.bare, rhs.bare] :=
      rebuiltBares_cons rfl (rebuiltBares_pair (left filled.arith.1) (right filled.arith.2))
    exact rebuiltBare_tagged (by decide) parts
  | compare rel lhs rhs left right =>
    have parts : rebuiltBares [.text rel, lhs.toForm, rhs.toForm] = .ok [word rel, lhs.bare, rhs.bare] :=
      rebuiltBares_cons rfl (rebuiltBares_pair (left filled.compare.1) (right filled.compare.2))
    exact rebuiltBare_tagged (by decide) parts
  | assign lhs rhs left right =>
    exact rebuiltBare_tagged (by decide) (rebuiltBares_pair (left filled.assign.1) (right filled.assign.2))
  | call name args ih =>
    have plain := rebuiltBare_plain filled.call fun arg isArg => ih arg isArg (filled.call arg isArg)
    have parts : rebuiltBares [.text name, .tuple (toForms args)] = .ok [word name, tuple (bareAll args)] :=
      rebuiltBares_cons rfl (rebuiltBares_cons plain rfl)
    exact rebuiltBare_tagged (by decide) parts
  | array items ih =>
    have plain := rebuiltBare_plain filled.array fun item isItem => ih item isItem (filled.array item isItem)
    have parts : rebuiltBares [.tuple (toForms items)] = .ok [tuple (bareAll items)] :=
      rebuiltBares_cons plain rfl
    exact rebuiltBare_tagged (by decide) parts
  | matrix rows ih =>
    have cells := (Everywhere.matrix_iff.1 filled).2
    have each (row : List Expr) (isRow : row ∈ rows) :
        rebuiltBare (.tuple (toForms row)) = .ok (tuple (bareAll row)) :=
      rebuiltBare_plain (cells row isRow) fun cell isCell =>
        ih row isRow cell isCell (cells row isRow cell isCell)
    have grid := rebuiltBares_rows each
    have plain : rebuiltBare (.tuple (toFormRows rows)) = .ok (tuple ((bareRows rows).map tuple)) := by
      rw [rebuiltBare, grid]
      · apply assemble_plain
        intro cls
        cases rows <;> simp [bareRows]
      · intro inner isPair
        cases rows <;> cases isPair
    have parts : rebuiltBares [.tuple (toFormRows rows)] = .ok [tuple ((bareRows rows).map tuple)] :=
      rebuiltBares_cons plain rfl
    rw [toForm, rebuiltBare_tagged (by decide) parts]
    exact assemble_items rfl (by simp [bare])
  | paren inner ih => exact ih filled.paren
  | tuple items => exact absurd filled (not_hasNoGap_tuple items)

theorem unparenthesized_tree {expr : Expr} (filled : expr.HasNoGap) :
    rebuiltBare expr.toForm = .ok expr.bare ∧
      expr.bare.Everywhere (·.isParen = false) ∧
      (∀ other, DropsPairs expr other ∧ other.Everywhere (·.isParen = false) ↔ other = expr.bare) ∧
      expr.bare.bare = expr.bare ∧
      expr.bare.nodes = (expr.nodes.filter (!·.isParen)).map bare ∧
      (∀ node ∈ expr.nodes, node.isParen = false → node.bare.class? = node.class?) ∧
      expr.bare.variableNames = expr.variableNames := by
  have unique (other : Expr) :
      DropsPairs expr other ∧ other.Everywhere (·.isParen = false) ↔ other = expr.bare := by
    constructor
    · rintro ⟨drops, noParen⟩
      rw [← bare_of_dropsPairs drops, bare_self noParen]
    · rintro rfl
      exact ⟨dropsPairs_bare filled, bare_noParen expr⟩
  have classes (node : Expr) (inside : node ∈ expr.nodes) (noParen : node.isParen = false) :
      node.bare.class? = node.class? :=
    class?_bare (filled.inside inside) noParen
  have names : expr.bare.variableNames = expr.variableNames := by
    rw [variableNames, freeNames_bare, variableNames]
  exact ⟨rebuiltBare_toForm filled, bare_noParen expr, unique, bare_bare expr, nodes_bare expr, classes,
    names⟩

theorem unparenthesized_tree_matrix :
    let expr := call "\\frac"
      [paren (paren (ident "x")), matrix [[paren (array [paren (number "1")]), ident "y"]]]
    expr.HasNoGap ∧ rebuiltBare expr.toForm = .ok expr.bare ∧
      expr.bare = call "\\frac" [ident "x", matrix [[array [number "1"], ident "y"]]] := by
  intro expr
  have filled : expr.HasNoGap := by
    unfold HasNoGap Everywhere
    decide
  exact ⟨filled, (unparenthesized_tree filled).1, rfl⟩

end FormulaCalculator.Expr
