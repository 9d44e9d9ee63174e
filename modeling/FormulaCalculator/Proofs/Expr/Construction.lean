import FormulaCalculator.Expr.Profile
import FormulaCalculator.Proofs.Grammar.Verdict
import Mathlib.Logic.Relation

set_option autoImplicit false

namespace FormulaCalculator

-- Forms and trees alike are told apart by the tag in front, which is written in a way of their own.
theorem NodeClass.tagged_or_plain {α : Type} (write : String → α) (items : List α) :
    (∃ cls fields, items = write (tag cls) :: fields) ∨
      ∀ cls : NodeClass, items.head? ≠ some (write cls.tag) := by
  by_cases tagged : ∃ cls : NodeClass, items.head? = some (write cls.tag)
  · obtain ⟨cls, head⟩ := tagged
    obtain ⟨fields, rfl⟩ := List.head?_eq_some_iff.1 head
    exact .inl ⟨cls, fields, rfl⟩
  · exact .inr (not_exists.1 tagged)

namespace Form

mutual

def parts : Form → List Form
  | absent => [absent]
  | text value => [text value]
  | tuple items => partsAll items ++ [tuple items]

def partsAll : List Form → List Form
  | [] => []
  | item :: items => parts item ++ partsAll items

end

theorem partsAll_eq_flatMap (items : List Form) : partsAll items = items.flatMap parts := by
  induction items with
  | nil => rfl
  | cons item items ih => rw [partsAll, ih, List.flatMap_cons]

/-- The tuple starts with the tag of a class and has not as many fields as the class asks for. -/
def Miscounted (form : Form) : Prop :=
  ∃ cls fields, form = tuple (text (NodeClass.tag cls) :: fields) ∧ fields.length ≠ cls.arity

def miscount? : Form → Option FieldCount
  | tuple (text tag :: fields) =>
    match NodeClass.ofTag? tag with
    | some cls => if fields.length = cls.arity then none else some ⟨cls, fields.length⟩
    | none => none
  | _ => none

theorem miscount?_tagged (cls : NodeClass) (fields : List Form) :
    miscount? (tuple (text cls.tag :: fields)) =
      if fields.length = cls.arity then none else some ⟨cls, fields.length⟩ := by
  rw [miscount?, NodeClass.ofTag?_eq_some_iff.2 rfl]

theorem miscount?_plain {items : List Form} (noTag : ∀ cls : NodeClass, items.head? ≠ some (text cls.tag)) :
    miscount? (tuple items) = none := by
  cases items with
  | nil => rfl
  | cons first fields =>
    cases first with
    | absent | tuple => rfl
    | text tag =>
      cases found : NodeClass.ofTag? tag with
      | none => rw [miscount?, found]
      | some cls =>
        rw [NodeClass.ofTag?_eq_some_iff] at found
        exact absurd (by rw [found]; rfl) (noTag cls)

theorem miscount?_isSome_iff {form : Form} : form.miscount?.isSome ↔ form.Miscounted := by
  constructor
  · intro present
    cases form with
    | absent | text => cases present
    | tuple items =>
      rcases NodeClass.tagged_or_plain text items with ⟨cls, fields, rfl⟩ | noTag
      · refine ⟨cls, fields, rfl, fun full => ?_⟩
        simp [miscount?_tagged, full] at present
      · rw [miscount?_plain noTag] at present
        cases present
  · rintro ⟨cls, fields, rfl, wrong⟩
    simp [miscount?_tagged, wrong]

instance : DecidablePred Miscounted := fun _ => decidable_of_iff _ miscount?_isSome_iff

end Form

namespace Expr

def items? : Expr → Option (List Expr)
  | missing | word _ => none
  | number text => some [word NodeClass.number.tag, word text]
  | ident name => some [word NodeClass.ident.tag, word name]
  | sign op operand => some [word NodeClass.sign.tag, word op, operand]
  | arith op lhs rhs => some [word NodeClass.arith.tag, word op, lhs, rhs]
  | compare rel lhs rhs => some [word NodeClass.compare.tag, word rel, lhs, rhs]
  | assign lhs rhs => some [word NodeClass.assign.tag, lhs, rhs]
  | call name args => some [word NodeClass.call.tag, word name, tuple args]
  | array items => some [word NodeClass.array.tag, tuple items]
  | matrix rows => some [word NodeClass.matrix.tag, tuple (rows.map tuple)]
  | paren inner => some [word NodeClass.paren.tag, inner]
  | tuple items => some items

def HasItem (expr item : Expr) : Prop := ∃ items, expr.items? = some items ∧ item ∈ items

abbrev Contains : Expr → Expr → Prop := Relation.ReflTransGen HasItem

/-- Every tuple at every depth is what is built from its items. -/
inductive Canonical : Expr → Prop where
  | missing : Canonical missing
  | word (text : String) : Canonical (word text)
  | built {items : List Expr} {expr : Expr} (assembled : assemble items = .ok expr)
      (each : ∀ item ∈ items, Canonical item) : Canonical expr

theorem toForm_of_items? {expr : Expr} {items : List Expr} (isTuple : expr.items? = some items) :
    expr.toForm = .tuple (toForms items) := by
  cases expr with
  | missing | word => cases isTuple
  | matrix rows =>
    cases isTuple
    simp [toForm, toForms, toFormRows_eq_map, toForms_eq_map, NodeClass.tag, Function.comp_def]
  | _ => cases isTuple; rfl

theorem items?_of_toForm {expr : Expr} {forms : List Form} (shape : expr.toForm = .tuple forms) :
    ∃ items, expr.items? = some items ∧ toForms items = forms := by
  cases isTuple : expr.items? with
  | none =>
    cases expr with
    | missing | word => cases shape
    | _ => cases isTuple
  | some items =>
    rw [toForm_of_items? isTuple] at shape
    exact ⟨items, rfl, Form.tuple.inj shape⟩

theorem head?_toForms {items : List Expr} {text : String} :
    (toForms items).head? = some (.text text) ↔ items.head? = some (word text) := by
  cases items with
  | nil => simp [toForms]
  | cons first rest => cases first <;> simp [toForms, toForm]

theorem class?_eq_some_iff {expr : Expr} {items : List Expr} {cls : NodeClass}
    (isTuple : expr.items? = some items) :
    expr.class? = some cls ↔ items.head? = some (word cls.tag) := by
  cases expr with
  | missing | word => cases isTuple
  | tuple others =>
    cases isTuple
    cases items with
    | nil => simp [class?]
    | cons first fields => cases first <;> simp [class?, NodeClass.ofTag?_eq_some_iff]
  | _ => cases isTuple; simp [class?, NodeClass.tag_inj]

theorem assemble_tagged (cls : NodeClass) (fields : List Expr) :
    assemble (word cls.tag :: fields) =
      if fields.length = cls.arity then .ok ((node? cls fields).getD (tuple (word cls.tag :: fields)))
      else .error ⟨cls, fields.length⟩ := by
  rw [assemble, NodeClass.ofTag?_eq_some_iff.2 rfl]

theorem assemble_plain {items : List Expr} (noTag : ∀ cls : NodeClass, items.head? ≠ some (word cls.tag)) :
    assemble items = .ok (tuple items) := by
  unfold assemble
  split
  next tag fields =>
    split
    next cls found =>
      rw [NodeClass.ofTag?_eq_some_iff] at found
      exact absurd (by rw [found]; rfl) (noTag cls)
    next => rfl
  next => rfl

theorem cells?_eq_some_iff {row : Expr} {cells : List Expr} : row.cells? = some cells ↔ row = tuple cells := by
  cases row <;> simp [cells?]

theorem mapM_cells?_eq_some_iff {rows : List Expr} {grid : List (List Expr)} :
    rows.mapM cells? = some grid ↔ rows = grid.map tuple := by
  induction rows generalizing grid with
  | nil => cases grid <;> simp
  | cons row rows ih =>
    cases grid <;> simp [List.mapM_cons, Option.bind_eq_some_iff, cells?_eq_some_iff, ih]

theorem items?_of_node? {cls : NodeClass} {fields : List Expr} {node : Expr}
    (found : node? cls fields = some node) : node.items? = some (word cls.tag :: fields) := by
  unfold node? at found
  split at found <;> try cases found <;> rfl
  next rows =>
    obtain ⟨grid, isGrid, rfl⟩ := Option.map_eq_some_iff.1 found
    rw [items?, mapM_cells?_eq_some_iff.1 isGrid]

theorem items?_of_assemble {items : List Expr} {expr : Expr} (assembled : assemble items = .ok expr) :
    expr.items? = some items := by
  rcases NodeClass.tagged_or_plain word items with ⟨cls, fields, rfl⟩ | noTag
  · rw [assemble_tagged] at assembled
    split at assembled
    next =>
      cases assembled
      cases isNode : node? cls fields with
      -- Fields of the wrong sort stay where they were.
      | none => rfl
      | some node => exact items?_of_node? isNode
    next => cases assembled
  · rw [assemble_plain noTag] at assembled
    cases assembled
    rfl

theorem assemble_items {expr : Expr} {items : List Expr} (isTuple : expr.items? = some items)
    (isNode : ∀ others, expr ≠ tuple others) : assemble items = .ok expr := by
  cases expr with
  | missing | word => cases isTuple
  | tuple others => exact absurd rfl (isNode others)
  | matrix rows =>
    cases isTuple
    rw [assemble_tagged, node?, mapM_cells?_eq_some_iff.2 rfl]
    rfl
  | _ => cases isTuple; rfl

theorem ofForm_tuple_eq_ok_iff {items : List Form} {expr : Expr} :
    ofForm (.tuple items) = .ok expr ↔ ∃ trees, ofForms items = .ok trees ∧ assemble trees = .ok expr := by
  rw [ofForm]
  cases ofForms items <;> simp [bind, Except.bind]

theorem ofForms_cons_eq_ok_iff {form : Form} {forms : List Form} {trees : List Expr} :
    ofForms (form :: forms) = .ok trees ↔
      ∃ tree more, ofForm form = .ok tree ∧ ofForms forms = .ok more ∧ tree :: more = trees := by
  rw [ofForms]
  cases ofForm form <;> cases ofForms forms <;> simp [bind, Except.bind, pure, Except.pure]

theorem toForms_of_ofForms {forms : List Form} {trees : List Expr}
    (each : ∀ form ∈ forms, ∀ tree, ofForm form = .ok tree → tree.toForm = form)
    (built : ofForms forms = .ok trees) : toForms trees = forms := by
  induction forms generalizing trees with
  | nil => cases built; rfl
  | cons form forms ih =>
    obtain ⟨here, others⟩ := List.forall_mem_cons.1 each
    obtain ⟨tree, more, first, rest, rfl⟩ := ofForms_cons_eq_ok_iff.1 built
    rw [toForms, here tree first, ih others rest]

theorem toForm_of_ofForm {form : Form} {expr : Expr} (built : ofForm form = .ok expr) :
    expr.toForm = form := by
  induction form using Form.formInduction generalizing expr with
  | absent | text => cases built; rfl
  | tuple items ih =>
    obtain ⟨trees, parts, assembled⟩ := ofForm_tuple_eq_ok_iff.1 built
    rw [toForm_of_items? (items?_of_assemble assembled),
      toForms_of_ofForms (fun item isItem _ => ih item isItem) parts]

def fault? {α : Type} : Except FieldCount α → Option FieldCount
  | .error fault => some fault
  | .ok _ => none

theorem fault?_assemble (items : List Expr) :
    fault? (assemble items) = (Form.tuple (toForms items)).miscount? := by
  rcases NodeClass.tagged_or_plain word items with ⟨cls, fields, rfl⟩ | noTag
  · rw [assemble_tagged, toForms, toForm, Form.miscount?_tagged, toForms_eq_map, List.length_map]
    split <;> rfl
  · rw [assemble_plain noTag, Form.miscount?_plain fun cls head => noTag cls (head?_toForms.1 head)]
    rfl

theorem fault?_ofForms {forms : List Form}
    (each : ∀ form ∈ forms, fault? (ofForm form) = form.parts.findSome? Form.miscount?) :
    fault? (ofForms forms) = (Form.partsAll forms).findSome? Form.miscount? := by
  induction forms with
  | nil => rfl
  | cons form forms ih =>
    obtain ⟨here, others⟩ := List.forall_mem_cons.1 each
    rw [ofForms, Form.partsAll, List.findSome?_append, ← here, ← ih others]
    cases ofForm form with
    | error fault => rfl
    | ok tree => cases ofForms forms <;> rfl

theorem fault?_ofForm (form : Form) : fault? (ofForm form) = form.parts.findSome? Form.miscount? := by
  induction form using Form.formInduction with
  | absent | text => rfl
  | tuple items ih =>
    rw [Form.parts, List.findSome?_append, ← fault?_ofForms ih, List.findSome?_singleton, ofForm]
    cases built : ofForms items with
    | error fault => rfl
    | ok trees =>
      -- The items were built, so that only their tuple itself can be at fault.
      have written : toForms trees = items :=
        toForms_of_ofForms (fun _ _ _ => toForm_of_ofForm) built
      rw [← written, ← fault?_assemble]
      rfl

-- Both tuples are miscounted, and the inner one is found.
example : ofForm (.tuple [.text "(", .tuple [.text "@"], .absent]) = .error ⟨.ident, 0⟩ := by
  rfl

theorem ofForm_error_iff {form : Form} :
    (∃ fault, ofForm form = .error fault) ↔ ∃ part ∈ form.parts, part.Miscounted := by
  have failed : (∃ fault, ofForm form = .error fault) ↔ (fault? (ofForm form)).isSome := by
    cases ofForm form <;> simp [fault?]
  simp [failed, fault?_ofForm, List.findSome?_isSome_iff, Form.miscount?_isSome_iff]

namespace Canonical

theorem items {expr : Expr} {items : List Expr} (canonical : Canonical expr)
    (isTuple : expr.items? = some items) :
    assemble items = .ok expr ∧ ∀ item ∈ items, Canonical item := by
  cases canonical with
  | missing | word => cases isTuple
  | built assembled each =>
    rw [items?_of_assemble assembled] at isTuple
    cases isTuple
    exact ⟨assembled, each⟩

theorem contained {expr node : Expr} (canonical : Canonical expr) (inside : Contains expr node) :
    Canonical node := by
  induction inside with
  | refl => exact canonical
  | tail _ next ih =>
    -- What is reached last is an item of a tuple that is canonical by induction.
    obtain ⟨items, isTuple, isItem⟩ := next
    exact (ih.items isTuple).2 _ isItem

theorem ofForms_toForms {items : List Expr} (each : ∀ item ∈ items, ofForm item.toForm = .ok item) :
    ofForms (toForms items) = .ok items := by
  induction items with
  | nil => rfl
  | cons item items ih =>
    obtain ⟨here, others⟩ := List.forall_mem_cons.1 each
    exact ofForms_cons_eq_ok_iff.2 ⟨item, items, here, ih others, rfl⟩

theorem ofForm_toForm {expr : Expr} (canonical : Canonical expr) : ofForm expr.toForm = .ok expr := by
  induction canonical with
  | missing | word => rfl
  | @built items expr assembled _ ih =>
    rw [toForm_of_items? (items?_of_assemble assembled)]
    exact ofForm_tuple_eq_ok_iff.2 ⟨items, ofForms_toForms ih, assembled⟩

theorem rebuildsSame {expr : Expr} (canonical : Canonical expr) : expr.rebuildsSame = true := by
  simp [Expr.rebuildsSame, canonical.ofForm_toForm]

theorem node {expr : Expr} {items : List Expr} (isTuple : expr.items? = some items)
    (isNode : ∀ others, expr ≠ tuple others) (each : ∀ item ∈ items, Canonical item) : Canonical expr :=
  .built (assemble_items isTuple isNode) each

theorem plain {items : List Expr} (noTag : ∀ cls : NodeClass, items.head? ≠ some (.word cls.tag))
    (each : ∀ item ∈ items, Canonical item) : Canonical (tuple items) :=
  .built (assemble_plain noTag) each

end Canonical

theorem canonical_of_ofForms {forms : List Form} {trees : List Expr}
    (each : ∀ form ∈ forms, ∀ tree, ofForm form = .ok tree → Canonical tree)
    (built : ofForms forms = .ok trees) : ∀ tree ∈ trees, Canonical tree := by
  induction forms generalizing trees with
  | nil => cases built; simp
  | cons form forms ih =>
    obtain ⟨here, others⟩ := List.forall_mem_cons.1 each
    obtain ⟨tree, more, first, rest, rfl⟩ := ofForms_cons_eq_ok_iff.1 built
    exact List.forall_mem_cons.2 ⟨here tree first, ih others rest⟩

theorem canonical_of_ofForm {form : Form} {expr : Expr} (built : ofForm form = .ok expr) :
    Canonical expr := by
  induction form using Form.formInduction generalizing expr with
  | absent => cases built; exact .missing
  | text value => cases built; exact .word value
  | tuple items ih =>
    obtain ⟨trees, parts, assembled⟩ := ofForm_tuple_eq_ok_iff.1 built
    exact .built assembled (canonical_of_ofForms (fun item isItem _ => ih item isItem) parts)

theorem canonical_iff {expr : Expr} : Canonical expr ↔ ofForm expr.toForm = .ok expr :=
  ⟨Canonical.ofForm_toForm, canonical_of_ofForm⟩

theorem exists_contained {expr : Expr} {part : Form} (isPart : part ∈ expr.toForm.parts) :
    ∃ node, Contains expr node ∧ node.toForm = part := by
  induction shape : expr.toForm using Form.formInduction generalizing expr part with
  | absent | text =>
    rw [shape] at isPart
    cases List.mem_singleton.1 isPart
    exact ⟨expr, .refl, shape⟩
  | tuple forms ih =>
    -- The tree has an item for each item of its form.
    obtain ⟨items, isTuple, rfl⟩ := items?_of_toForm shape
    rw [shape, Form.parts, List.mem_append, List.mem_singleton] at isPart
    rcases isPart with inside | rfl
    · rw [Form.partsAll_eq_flatMap, List.mem_flatMap] at inside
      obtain ⟨form, isForm, inside⟩ := inside
      obtain ⟨item, isItem, rfl⟩ := List.mem_map.1 (toForms_eq_map items ▸ isForm)
      obtain ⟨node, deeper, written⟩ := ih item.toForm isForm inside rfl
      exact ⟨node, .head ⟨items, isTuple, isItem⟩ deeper, written⟩
    · exact ⟨expr, .refl, shape⟩

theorem construction_canonical (items : List Form) :
    ((∃ fault, ofForm (.tuple items) = .error fault) ↔
        ∃ part ∈ (Form.tuple items).parts, part.Miscounted) ∧
      ((∀ part ∈ (Form.tuple items).parts, ¬ part.Miscounted) →
        ∃ expr, ofForm (.tuple items) = .ok expr ∧ expr.toForm = .tuple items ∧
          (∀ part ∈ (Form.tuple items).parts, ∃ node, Contains expr node ∧ node.toForm = part) ∧
          ∀ node fields, Contains expr node → node.items? = some fields →
            (∀ cls, node.class? = some cls ↔ fields.head? = some (word cls.tag)) ∧
              assemble fields = .ok node ∧ node.rebuildsSame = true) := by
  refine ⟨ofForm_error_iff, fun sound => ?_⟩
  cases built : ofForm (.tuple items) with
  | error fault =>
    obtain ⟨part, isPart, miscounted⟩ := ofForm_error_iff.1 ⟨fault, built⟩
    exact absurd miscounted (sound part isPart)
  | ok expr =>
    have shape := toForm_of_ofForm built
    have canonical := canonical_of_ofForm built
    refine ⟨expr, rfl, shape, fun part isPart => exists_contained (shape ▸ isPart), ?_⟩
    intro node fields inside isTuple
    have here := canonical.contained inside
    exact ⟨fun cls => class?_eq_some_iff isTuple, (here.items isTuple).1, here.rebuildsSame⟩

theorem tagged_row_constructed :
    let row : Form := .tuple [.text "#", .tuple []]
    let items : List Form := [.text "-func", .text "\\frac", .tuple [.tuple [.text "#", .text "1"],
      .tuple [.text "-mat", .tuple [.tuple [.tuple [.text "@", .text "x"], .absent], row]]]]
    (∀ part ∈ (Form.tuple items).parts, ¬ part.Miscounted) ∧
      ∃ expr node, ofForm (.tuple items) = .ok expr ∧ expr.toForm = .tuple items ∧
        Contains expr node ∧ node.toForm = row ∧ node.class? = some .number ∧ node.rebuildsSame = true := by
  intro row items
  have sound : ∀ part ∈ (Form.tuple items).parts, ¬ part.Miscounted := by decide
  obtain ⟨expr, built, shape, each, canonical⟩ := (construction_canonical items).2 sound
  obtain ⟨node, inside, written⟩ := each row (by decide)
  obtain ⟨fields, isTuple, same⟩ := items?_of_toForm written
  obtain ⟨classes, -, rebuilds⟩ := canonical node fields inside isTuple
  have tagged : fields.head? = some (word NodeClass.number.tag) := by
    rw [← head?_toForms, same]
    rfl
  exact ⟨sound, expr, node, built, shape, inside, written, (classes _).2 tagged, rebuilds⟩

theorem HasNoGap.head_ne {items : List Expr} (filled : ∀ item ∈ items, item.HasNoGap) (text : String) :
    items.head? ≠ some (word text) := by
  intro head
  cases (filled _ (List.mem_of_head? head)).here

theorem not_hasNoGap_tuple (items : List Expr) : ¬ HasNoGap (tuple items) := by
  intro filled
  -- A plain tuple has a class only by a word in front, which is no node.
  obtain ⟨cls, isNode⟩ := Option.isSome_iff_exists.1 filled.here
  exact HasNoGap.head_ne filled.tuple cls.tag ((class?_eq_some_iff rfl).1 isNode)

theorem HasNoGap.list {items : List Expr} (filled : ∀ item ∈ items, item.HasNoGap)
    (each : ∀ item ∈ items, item.HasNoGap → Canonical item) : Canonical (tuple items) :=
  .plain (fun cls => head_ne filled cls.tag) fun item isItem => each item isItem (filled item isItem)

theorem HasNoGap.canonical {expr : Expr} (filled : expr.HasNoGap) : Canonical expr := by
  induction expr using treeInduction with
  | missing | word => cases filled.here
  | number text => exact .node rfl nofun (by simp [Canonical.word])
  | ident name => exact .node rfl nofun (by simp [Canonical.word])
  | sign op operand ih => exact .node rfl nofun (by simp [Canonical.word, ih filled.sign])
  | arith op lhs rhs left right =>
    exact .node rfl nofun (by simp [Canonical.word, left filled.arith.1, right filled.arith.2])
  | compare rel lhs rhs left right =>
    exact .node rfl nofun (by simp [Canonical.word, left filled.compare.1, right filled.compare.2])
  | assign lhs rhs left right =>
    exact .node rfl nofun (by simp [Canonical.word, left filled.assign.1, right filled.assign.2])
  | call name args ih => exact .node rfl nofun (by simp [Canonical.word, HasNoGap.list filled.call ih])
  | array items ih => exact .node rfl nofun (by simp [Canonical.word, HasNoGap.list filled.array ih])
  | matrix rows ih =>
    have cells := (Everywhere.matrix_iff.1 filled).2
    have each (row : List Expr) (isRow : row ∈ rows) : Canonical (tuple row) :=
      HasNoGap.list (cells row isRow) (ih row isRow)
    -- Rows are tuples, and no words.
    have grid : Canonical (tuple (rows.map tuple)) := by
      apply Canonical.plain
      · intro cls
        cases rows <;> simp
      · simpa using each
    exact .node rfl nofun (by simp [Canonical.word, grid])
  | paren inner ih => exact .node rfl nofun (by simp [Canonical.word, ih filled.paren])
  | tuple items => exact absurd filled (not_hasNoGap_tuple items)

theorem ofForm_of_parse [Stack] {tokens : List Token} {expr : Expr} (parsed : Grammar.parse tokens = .ok expr) :
    ofForm expr.toForm = .ok expr :=
  (Grammar.derives_of_parseWithin parsed).hasNoGap.canonical.ofForm_toForm

end Expr

end FormulaCalculator
