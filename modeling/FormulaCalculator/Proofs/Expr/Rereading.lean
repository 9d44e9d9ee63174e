import FormulaCalculator.Proofs.Expr.FlatTokens
import FormulaCalculator.Proofs.Grammar.Acceptance

set_option autoImplicit false

namespace FormulaCalculator

open Grammar (Level Phrase Spans commaJoined_eq_listed)

-- What is read in place of a subtree, with a divisor that is left loose at its end.
structure Rereading where
  head : Expr
  divisor? : Option Expr

namespace Rereading

def closed (expr : Expr) : Rereading := ⟨expr, none⟩

def whole : Rereading → Expr
  | ⟨head, none⟩ => head
  | ⟨head, some divisor⟩ => .arith "/" head divisor

def sided (needed : Bool) (read : Rereading) : Rereading :=
  if needed then closed (.paren read.whole) else read

-- A power and a sign leave a loose divisor of their operand to what stands around them. So does the right
-- side of a product, where it divides the whole product.
def joined (op : String) (left right : Rereading) : Rereading :=
  if op = "^" then ⟨.arith op left.head right.head, right.divisor?⟩
  else if Expr.factors.contains op then closed (whole ⟨.arith op left.whole right.head, right.divisor?⟩)
  else closed (.arith op left.whole right.whole)

def called : List Rereading → Rereading
  | [numerator, denominator] => ⟨.paren numerator.whole, some (.paren denominator.whole)⟩
  | [arg] => closed (.paren arg.whole)
  | _ => closed .missing

end Rereading

namespace Expr

mutual

def rereading : Expr → Rereading
  | missing | word _ | tuple _ | matrix _ => .closed missing
  | number text => .closed (number text)
  | ident name => .closed (ident (writtenName name))
  | sign op operand =>
    let inside := (rereading operand).sided operand.isJoined
    ⟨sign op inside.head, inside.divisor?⟩
  | arith op lhs rhs =>
    .joined op ((rereading lhs).sided (needsParens (.arith op) .left lhs))
      ((rereading rhs).sided (needsParens (.arith op) .right rhs))
  | compare rel lhs rhs =>
    .closed (compare rel ((rereading lhs).sided (needsParens (.compare rel) .left lhs)).whole
      ((rereading rhs).sided (needsParens (.compare rel) .right rhs)).whole)
  | assign lhs rhs =>
    .closed (assign ((rereading lhs).sided (needsParens .assign .left lhs)).whole
      ((rereading rhs).sided (needsParens .assign .right rhs)).whole)
  | call _ args => .called (rereadingAll args)
  | array items => .closed (array ((rereadingAll items).map Rereading.whole))
  | paren inner => .closed (paren (rereading inner).whole)

def rereadingAll : List Expr → List Rereading
  | [] => []
  | item :: items => rereading item :: rereadingAll items

end

theorem rereadingAll_eq_map (items : List Expr) : rereadingAll items = items.map rereading := by
  induction items with
  | nil => rfl
  | cons item items ih => simp [rereadingAll, ih]

def back (expr : Expr) : Expr := expr.rereading.whole

def looseDivisor? (op : String) (rhs : Expr) : Option Expr :=
  (rhs.rereading.sided (needsParens (.arith op) .right rhs)).divisor?

theorem divisor?_arith (op : String) (lhs rhs : Expr) :
    (arith op lhs rhs).rereading.divisor? = if op = "^" then looseDivisor? op rhs else none := by
  rw [rereading, Rereading.joined]
  split
  next => rfl
  next => split <;> rfl

theorem looseDivisor?_isSome {op : String} {rhs : Expr} :
    (looseDivisor? op rhs).isSome = true ↔
      needsParens (.arith op) .right rhs = false ∧ rhs.rereading.divisor?.isSome = true := by
  unfold looseDivisor?
  cases needsParens (.arith op) .right rhs with
  | true => simp [Rereading.sided, Rereading.closed]
  | false => simp [Rereading.sided]

/-- The trees whose flat text the grammar has. An equation with a bare identifier on its left would be read as
an assignment anywhere but on the left of a comparison. -/
inductive Legible : Expr → Prop where
  | number {text : String} (isNumber : Kind.number.Spells text) : Legible (number text)
  | ident {name : String} (isIdent : Kind.identifier.Spells name) : Legible (ident name)
  | sign {op : String} {operand : Expr} (isSign : op ∈ signs) (inside : Legible operand)
      (kept : operand.isEquation = false) : Legible (sign op operand)
  | arith {op : String} {lhs rhs : Expr} (joins : op ∈ signs ++ factors ++ ["^"])
      (left : Legible lhs) (keptLeft : lhs.isEquation = false) (right : Legible rhs)
      (keptRight : rhs.isEquation = false) : Legible (arith op lhs rhs)
  | compare {rel : String} {lhs rhs : Expr} (relates : rel ∈ relations) (left : Legible lhs)
      (right : Legible rhs) (keptRight : rhs.isEquation = false) : Legible (compare rel lhs rhs)
  | assign {name : String} {rhs : Expr} (isIdent : Kind.identifier.Spells name) (right : Legible rhs)
      (keptRight : rhs.isEquation = false) : Legible (assign (.ident name) rhs)
  | fraction {numerator denominator : Expr} (above : Legible numerator)
      (keptAbove : numerator.isEquation = false) (below : Legible denominator)
      (keptBelow : denominator.isEquation = false) : Legible (call fraction [numerator, denominator])
  | nameless {arg : Expr} (inside : Legible arg) (kept : arg.isEquation = false) :
      Legible (call "\\" [arg])
  | array {items : List Expr} (inside : ∀ item ∈ items, Legible item)
      (kept : ∀ item ∈ items, item.isEquation = false) : Legible (array items)
  | paren {inner : Expr} (inside : Legible inner) (kept : inner.isEquation = false) :
      Legible (paren inner)

theorem Legible.regular {expr : Expr} (legible : Legible expr) : expr.Regular Kind.Spells := by
  induction legible with
  | number isNumber => exact .number isNumber
  | ident isIdent => exact .ident isIdent
  | sign isSign _ _ ih => exact .sign isSign ih
  | arith joins _ _ _ _ left right => exact .arith joins left right
  | compare relates _ _ _ left right => exact .compare relates left right
  | assign isIdent _ _ right => exact .assign (.ident isIdent) right
  | fraction _ _ _ _ above below => exact .call (by decide) (by simp [above, below])
  | nameless _ _ ih => exact .call (by decide) (by simpa using ih)
  | array _ _ ih => exact .array ih
  | paren _ _ ih => exact .paren ih

end Expr

namespace Grammar

def Level.binding : Level → Nat
  | relation => 2
  | sum => 3
  | product => 4

namespace Spans

variable {pieces : List String} {expr : Expr}

theorem widen {level outer : Level} (wider : outer.binding ≤ level.binding)
    (chain : Spans pieces (.chain level expr)) : Spans pieces (.chain outer expr) := by
  have outOfProduct (chain : Spans pieces (.chain .product expr)) : Spans pieces (.chain .sum expr) :=
    first chain
  have outOfSum (chain : Spans pieces (.chain .sum expr)) : Spans pieces (.chain .relation expr) :=
    first chain
  cases outer with
  | relation =>
    cases level with
    | relation => exact chain
    | sum => exact outOfSum chain
    | product => exact outOfSum (outOfProduct chain)
  | sum =>
    cases level with
    | relation => simp [Level.binding] at wider
    | sum => exact chain
    | product => exact outOfProduct chain
  | product =>
    cases level with
    | relation | sum => simp [Level.binding] at wider
    | product => exact chain

theorem of_exponent (level : Level) (exponent : Spans pieces (.exponent expr)) :
    Spans pieces (.chain level expr) := by
  have product : Spans pieces (.chain .product expr) := first exponent
  exact product.widen (by cases level <;> decide)

end Spans

end Grammar

namespace Rereading

open FormulaCalculator.Expr (isEquation)

def Divides (pieces : List String) : Option Expr → Prop
  | none => pieces = []
  | some divisor => ∃ tail, pieces = "/" :: tail ∧ Spans tail (.exponent divisor)

def Fits (pieces : List String) (read : Rereading) : Prop :=
  ∃ front loose, pieces = front ++ loose ∧ Spans front (.exponent read.head) ∧
    Divides loose read.divisor?

theorem divided {front loose : List String} {read : Rereading}
    (chain : Spans front (.chain .product read.head)) (divides : Divides loose read.divisor?) :
    Spans (front ++ loose) (.chain .product read.whole) := by
  rcases read with ⟨head, _ | divisor⟩
  · cases divides
    rwa [List.append_nil]
  · obtain ⟨tail, rfl, divisor⟩ := divides
    exact .link (by decide) chain divisor

theorem Fits.product {pieces : List String} {read : Rereading} (fits : Fits pieces read) :
    Spans pieces (.chain .product read.whole) := by
  obtain ⟨front, loose, rfl, head, divides⟩ := fits
  exact divided (.first head) divides

theorem fits_closed {pieces : List String} {expr : Expr} (exponent : Spans pieces (.exponent expr)) :
    Fits pieces (closed expr) :=
  ⟨pieces, [], by simp, exponent, rfl⟩

end Rereading

namespace Expr

def isAtom (expr : Expr) : Bool := expr.binding?.isNone && !expr.isSign

def isTight : Expr → Bool
  | compare _ _ _ | assign _ _ => false
  | arith op _ _ => op == "^"
  | _ => true

def Holds (expr : Expr) (level : Level) : Prop := ∀ inner ∈ expr.binding?, level.binding ≤ inner

-- How the text is read in each of the places that a tree may stand in without parentheses.
structure Written (expr : Expr) : Prop where
  atom : expr.isAtom = true → expr.rereading.divisor? = none ∧
    Spans expr.pieces (.primary false expr.rereading.head)
  exponent : expr.isTight = true → expr.rereading.Fits expr.pieces
  chain : ∀ level, expr.Holds level → Spans expr.pieces (.chain level expr.back)
  slot : expr.isEquation = false → Spans expr.pieces (.expression expr.back)

namespace Written

variable {expr : Expr}

theorem of_fits (fits : expr.rereading.Fits expr.pieces) (kept : expr.back.isEquation = false)
    (atom : expr.isAtom = true → expr.rereading.divisor? = none ∧
      Spans expr.pieces (.primary false expr.rereading.head)) : Written expr where
  atom := atom
  exponent _ := fits
  chain level _ := fits.product.widen (by cases level <;> decide)
  slot _ := .expression (fits.product.widen (by decide)) kept

theorem of_primary {head : Expr} (closed : expr.rereading = .closed head)
    (primary : Spans expr.pieces (.primary false head)) (kept : head.isEquation = false) :
    Written expr := by
  have same : expr.back = head := by rw [back, closed]; rfl
  refine of_fits ?_ (by rwa [same]) fun _ => ?_
  · rw [closed]
    exact Rereading.fits_closed (.base primary)
  · rw [closed]
    exact ⟨rfl, primary⟩

theorem of_chain {level : Level} (bound : expr.binding? = some level.binding)
    (loose : expr.isTight = false) (chain : Spans expr.pieces (.chain level expr.back))
    (kept : expr.isEquation = false → expr.back.isEquation = false) : Written expr where
  atom alone := by simp [isAtom, bound] at alone
  exponent tight := by simp [loose] at tight
  chain outer holds := chain.widen (holds _ bound)
  slot isSlot := .expression (chain.widen (by cases level <;> decide)) (kept isSlot)

end Written

theorem holds_of_left {joint : Joint} {level : Level} {child : Expr}
    (bound : joint.binding? = some level.binding) (bare : needsParens joint .left child = false) :
    child.Holds level := by
  intro inner isInner
  rw [Option.mem_def] at isInner
  simp [needsParens, isInner, bound] at bare
  omega

theorem bound_of_right {joint : Joint} {outer : Nat} {child : Expr} (bound : joint.binding? = some outer)
    (bare : needsParens joint .right child = false) : ∀ inner ∈ child.binding?, outer < inner := by
  intro inner isInner
  rw [Option.mem_def] at isInner
  simp [needsParens, isInner, bound] at bare
  omega

theorem binding?_ident {name : String} (isIdent : Kind.identifier.Spells name) :
    (ident name).binding? = none := by
  have apart : ¬(name = "τ" ∨ name = "φ") := by
    rintro (rfl | rfl) <;> exact absurd isIdent (by decide)
  rw [binding?, if_neg apart]

theorem Legible.binding_le {child : Expr} (legible : Legible child) :
    ∀ inner ∈ child.binding?, inner ≤ 5 := by
  intro inner isInner
  rw [Option.mem_def] at isInner
  cases legible with
  | arith joins =>
    simp only [signs, factors, List.cons_append, List.nil_append, List.mem_cons, List.not_mem_nil,
      or_false] at joins
    rcases joins with rfl | rfl | rfl | rfl | rfl <;> cases isInner <;> decide
  | ident | fraction =>
    simp [binding?] at isInner
    omega
  | compare | assign =>
    cases isInner
    decide
  | _ => cases isInner

theorem Legible.isAtom_of_base {child : Expr} (legible : Legible child)
    (bare : needsParens (.arith "^") .left child = false) : child.isAtom = true := by
  cases binding : child.binding? with
  | none => simpa [needsParens, isAtom, binding, Joint.isPower] using bare
  | some inner =>
    have below := legible.binding_le inner binding
    have power : (Joint.arith "^").binding? = some 5 := rfl
    simp [needsParens, binding, power, Joint.isPower] at bare
    omega

theorem Legible.isTight_of_bound {child : Expr} (legible : Legible child)
    (bound : ∀ inner ∈ child.binding?, 4 < inner) : child.isTight = true := by
  cases legible with
  | arith joins =>
    simp only [signs, factors, List.cons_append, List.nil_append, List.mem_cons, List.not_mem_nil,
      or_false] at joins
    rcases joins with rfl | rfl | rfl | rfl | rfl <;>
      first | rfl | exact absurd (bound _ rfl) (by decide)
  | compare => exact absurd (bound _ rfl) (by decide)
  | assign => exact absurd (bound _ rfl) (by decide)
  | _ => rfl

namespace Written

variable {child : Expr}

theorem enclosed (written : Written child) (kept : child.isEquation = false) :
    Spans (enclose true child.pieces) (.primary false (.paren child.back)) :=
  .paren (written.slot kept)

theorem left {joint : Joint} {level : Level} (written : Written child)
    (kept : needsParens joint .left child = true → child.isEquation = false)
    (bound : joint.binding? = some level.binding) :
    Spans (enclose (needsParens joint .left child) child.pieces)
      (.chain level (child.rereading.sided (needsParens joint .left child)).whole) := by
  cases needed : needsParens joint .left child with
  | true => exact .of_exponent level (.base (written.enclosed (kept needed)))
  | false => exact written.chain level (holds_of_left bound needed)

theorem right {joint : Joint} {level inner : Level} (written : Written child)
    (kept : child.isEquation = false) (bound : joint.binding? = some level.binding)
    (next : inner.binding = level.binding + 1) :
    Spans (enclose (needsParens joint .right child) child.pieces)
      (.chain inner (child.rereading.sided (needsParens joint .right child)).whole) := by
  cases needed : needsParens joint .right child with
  | true => exact .of_exponent inner (.base (written.enclosed kept))
  | false =>
    refine written.chain inner fun binding isBinding => ?_
    have above := bound_of_right bound needed binding isBinding
    omega

theorem tight {joint : Joint} {outer : Nat} (written : Written child) (legible : Legible child)
    (kept : child.isEquation = false) (bound : joint.binding? = some outer) (strong : 4 ≤ outer) :
    (child.rereading.sided (needsParens joint .right child)).Fits
      (enclose (needsParens joint .right child) child.pieces) := by
  cases needed : needsParens joint .right child with
  | true => exact Rereading.fits_closed (.base (written.enclosed kept))
  | false =>
    refine written.exponent (legible.isTight_of_bound fun binding isBinding => ?_)
    have above := bound_of_right bound needed binding isBinding
    omega

end Written

theorem back_arith (op : String) (lhs rhs : Expr) :
    ∃ outer left right, (arith op lhs rhs).back = arith outer left right := by
  unfold back rereading Rereading.joined
  split
  next =>
    rcases ((rereading rhs).sided _).divisor? with _ | divisor <;> exact ⟨_, _, _, rfl⟩
  next =>
    split
    next => rcases ((rereading rhs).sided _).divisor? with _ | divisor <;> exact ⟨_, _, _, rfl⟩
    next => exact ⟨_, _, _, rfl⟩

theorem kept_arith (op : String) (lhs rhs : Expr) : (arith op lhs rhs).back.isEquation = false := by
  obtain ⟨outer, left, right, same⟩ := back_arith op lhs rhs
  rw [same]
  rfl

theorem written_sign {op : String} {operand : Expr} (isSign : op ∈ signs) (written : Written operand)
    (kept : operand.isEquation = false) : Written (sign op operand) := by
  have inside : (operand.rereading.sided operand.isJoined).Fits
      (enclose operand.isJoined operand.pieces) := by
    cases joined : operand.isJoined with
    | true => exact Rereading.fits_closed (.base (written.enclosed kept))
    | false =>
      refine written.exponent ?_
      cases operand <;> first | rfl | cases joined
  obtain ⟨front, loose, same, head, divides⟩ := inside
  refine .of_fits ⟨op :: front, loose, ?_, .base (.sign isSign head), divides⟩ ?_ nofun
  · rw [pieces, same, List.cons_append]
  · rw [back, rereading]
    cases ((rereading operand).sided operand.isJoined).divisor? <;> rfl

theorem written_sum {op : String} {lhs rhs : Expr} (isSign : op ∈ signs) (left : Written lhs)
    (keptLeft : lhs.isEquation = false) (right : Written rhs) (keptRight : rhs.isEquation = false) :
    Written (arith op lhs rhs) := by
  simp only [signs, List.mem_cons, List.not_mem_nil, or_false] at isSign
  have bound : (Joint.arith op).binding? = some Level.sum.binding := by
    rcases isSign with rfl | rfl <;> rfl
  have loose : (arith op lhs rhs).isTight = false := by rcases isSign with rfl | rfl <;> rfl
  have same : (arith op lhs rhs).rereading = .closed (arith op
      ((rereading lhs).sided (needsParens (.arith op) .left lhs)).whole
      ((rereading rhs).sided (needsParens (.arith op) .right rhs)).whole) := by
    rcases isSign with rfl | rfl <;> rfl
  have joins : op ∈ Level.sum.marks := by rcases isSign with rfl | rfl <;> decide
  have spans := Spans.link joins (left.left (fun _ => keptLeft) bound) (right.right keptRight bound rfl)
  refine .of_chain bound loose ?_ fun _ => kept_arith op lhs rhs
  rw [back, same]
  exact spans

theorem written_product {op : String} {lhs rhs : Expr} (isFactor : op ∈ factors) (left : Written lhs)
    (keptLeft : lhs.isEquation = false) (legible : Legible rhs) (right : Written rhs)
    (keptRight : rhs.isEquation = false) : Written (arith op lhs rhs) := by
  simp only [factors, List.mem_cons, List.not_mem_nil, or_false] at isFactor
  have bound : (Joint.arith op).binding? = some Level.product.binding := by
    rcases isFactor with rfl | rfl <;> rfl
  have loose : (arith op lhs rhs).isTight = false := by rcases isFactor with rfl | rfl <;> rfl
  have same : (arith op lhs rhs).rereading = .closed (Rereading.whole ⟨arith op
      ((rereading lhs).sided (needsParens (.arith op) .left lhs)).whole
      ((rereading rhs).sided (needsParens (.arith op) .right rhs)).head,
      ((rereading rhs).sided (needsParens (.arith op) .right rhs)).divisor?⟩) := by
    rcases isFactor with rfl | rfl <;> rfl
  have joins : op ∈ Level.product.marks := by rcases isFactor with rfl | rfl <;> decide
  obtain ⟨front, divisor, split, head, divides⟩ := right.tight legible keptRight bound (by decide)
  have chain := Spans.link joins (left.left (fun _ => keptLeft) bound) head
  have spans := @Rereading.divided _ _ ⟨_, _⟩ chain divides
  refine .of_chain bound loose ?_ fun _ => kept_arith op lhs rhs
  rw [back, same, pieces, joinedPieces, split, ← List.cons_append, ← List.append_assoc]
  exact spans

theorem written_power {lhs rhs : Expr} (legibleBase : Legible lhs) (left : Written lhs)
    (keptLeft : lhs.isEquation = false) (legible : Legible rhs) (right : Written rhs)
    (keptRight : rhs.isEquation = false) : Written (arith "^" lhs rhs) := by
  have base : Spans (enclose (needsParens (.arith "^") .left lhs) lhs.pieces)
      (.primary false ((rereading lhs).sided (needsParens (.arith "^") .left lhs)).head) := by
    cases needed : needsParens (.arith "^") .left lhs with
    | true => exact left.enclosed keptLeft
    | false => exact (left.atom (legibleBase.isAtom_of_base needed)).2
  obtain ⟨front, divisor, split, head, divides⟩ :=
    @Written.tight _ (.arith "^") 5 right legible keptRight rfl (by decide)
  have power := Spans.power base head
  refine .of_fits ⟨_, divisor, ?_, power, divides⟩ (kept_arith "^" lhs rhs) nofun
  rw [pieces, joinedPieces, split, ← List.cons_append, ← List.append_assoc]
  rfl

def isIdent : Expr → Bool
  | ident _ => true
  | _ => false

theorem isEquation_compare (rel : String) (lhs rhs : Expr) :
    (compare rel lhs rhs).isEquation = (rel == "=" && lhs.isIdent) := by
  cases lhs <;> simp [isEquation, isIdent]

theorem Legible.isIdent_back {expr : Expr} (legible : Legible expr) (named : expr.back.isIdent = true) :
    expr.isIdent = true := by
  cases legible with
  | ident => rfl
  | @arith op lhs rhs =>
    obtain ⟨outer, left, right, same⟩ := back_arith op lhs rhs
    rw [same] at named
    cases named
  | @sign op operand =>
    rw [back, rereading] at named
    cases loose : ((rereading operand).sided operand.isJoined).divisor? <;>
      simp [loose, Rereading.whole, isIdent] at named
  | _ => cases named

theorem written_compare {rel : String} {lhs rhs : Expr} (relates : rel ∈ relations)
    (legible : Legible lhs) (left : Written lhs) (right : Written rhs)
    (keptRight : rhs.isEquation = false) : Written (compare rel lhs rhs) := by
  have bound : (Joint.compare rel).binding? = some Level.relation.binding := rfl
  have keptLeft (needed : needsParens (.compare rel) .left lhs = true) : lhs.isEquation = false := by
    cases lhs <;> first | rfl | simp [needsParens, binding?, Joint.binding?, Joint.isPower] at needed
  have joins : rel ∈ Level.relation.marks := relates
  have spans := Spans.link joins (left.left keptLeft bound) (right.right keptRight bound rfl)
  refine .of_chain bound rfl spans fun kept => ?_
  have named
      (isName : ((rereading lhs).sided (needsParens (.compare rel) .left lhs)).whole.isIdent = true) :
      lhs.isIdent = true := by
    cases needed : needsParens (.compare rel) .left lhs with
    | true =>
      rw [needed] at isName
      cases isName
    | false =>
      rw [needed] at isName
      exact legible.isIdent_back isName
  change (compare rel _ _).isEquation = false
  rw [isEquation_compare] at kept ⊢
  cases isName : ((rereading lhs).sided (needsParens (.compare rel) .left lhs)).whole.isIdent with
  | false => simp
  | true => rwa [named isName] at kept

theorem written_assign {name : String} {rhs : Expr} (isIdent : Kind.identifier.Spells name)
    (right : Written rhs) (keptRight : rhs.isEquation = false) : Written (assign (ident name) rhs) := by
  have bare : needsParens .assign .left (ident name) = false := by
    rw [needsParens, binding?_ident isIdent]
    rfl
  have sum := @Written.right _ .assign .relation .sum right keptRight rfl rfl
  have spans := Spans.assignment (spells_writtenName isIdent) sum
  have same : (assign (ident name) rhs).back = assign (ident (writtenName name))
      ((rereading rhs).sided (needsParens .assign .right rhs)).whole := by
    rw [back, rereading, bare]
    rfl
  have text : (assign (ident name) rhs).pieces =
      writtenName name :: "=" :: enclose (needsParens .assign .right rhs) rhs.pieces := by
    rw [pieces, pieces, joinedPieces, bare, glyphPieces_eq isIdent]
    rfl
  exact {
    atom := fun alone => by cases alone
    exponent := fun tight => by cases tight
    chain := fun level holds => absurd (holds 1 rfl) (by cases level <;> decide)
    slot := fun _ => by rwa [same, text]
  }

theorem Legible.written {expr : Expr} (legible : Legible expr) : Written expr := by
  -- Induction on the tree. Each kind of tree holds together as tightly as its binding says.
  induction legible with
  | number isNumber => exact .of_primary rfl (.number isNumber) rfl
  | @ident name isIdent =>
    refine .of_primary rfl ?_ rfl
    rw [pieces, glyphPieces_eq isIdent]
    exact .ident (spells_writtenName isIdent)
  | sign isSign _ kept ih => exact written_sign isSign ih kept
  | arith joins left keptLeft right keptRight ihLeft ihRight =>
    simp only [List.mem_append, List.mem_singleton] at joins
    rcases joins with (isSign | isFactor) | rfl
    · exact written_sum isSign ihLeft keptLeft ihRight keptRight
    · exact written_product isFactor ihLeft keptLeft right ihRight keptRight
    · exact written_power left ihLeft keptLeft right ihRight keptRight
  | compare relates left _ keptRight ihLeft ihRight =>
    exact written_compare relates left ihLeft ihRight keptRight
  | assign isIdent _ keptRight ih => exact written_assign isIdent ih keptRight
  | fraction above keptAbove below keptBelow ihAbove ihBelow =>
    have divisor := Spans.base (ihBelow.enclosed keptBelow)
    refine .of_fits ⟨_, _, rfl, .base (ihAbove.enclosed keptAbove), _, rfl, divisor⟩ rfl fun alone => ?_
    cases alone
  | nameless inside kept ih => exact .of_primary rfl (.blank (ih.enclosed kept)) rfl
  | @array items inside kept ih =>
    have spans := @Spans.array _ pieces back items fun item isItem =>
      (ih item isItem).slot (kept item isItem)
    refine @Written.of_primary _ (Expr.array (items.map back)) ?_ ?_ rfl
    · rw [rereading, rereadingAll_eq_map, List.map_map]
      rfl
    · rwa [pieces, piecesAll_eq_map, bracketed, commaJoined_eq_listed]
  | paren inside kept ih => exact .of_primary rfl (ih.enclosed kept) rfl

theorem Legible.derives_flatText {expr : Expr} (legible : Legible expr)
    (kept : expr.isEquation = false) :
    Grammar.Derives (Token.scan expr.flatText) [] (.expression expr.back) := by
  have derived := legible.written.slot kept _ [] legible.regular.carries_scan_flatText
  rwa [List.append_nil] at derived

theorem Legible.parseText_flatText [Stack] {expr : Expr} (legible : Legible expr)
    (kept : expr.isEquation = false)
    (unbroken : ¬ Grammar.BreaksOff Stack.nesting (Token.scan expr.flatText)) :
    Grammar.parseText expr.flatText = .ok expr.back :=
  (Grammar.parseWithin_ok_iff (.inr unbroken)).2 (legible.derives_flatText kept)

end Expr

end FormulaCalculator
