import FormulaCalculator.Expr.Form

set_option autoImplicit false

namespace FormulaCalculator

inductive Expr where
  | missing
  | number (text : String)
  | ident (name : String)
  | sign (op : String) (operand : Expr)
  | arith (op : String) (lhs rhs : Expr)
  | compare (rel : String) (lhs rhs : Expr)
  | assign (lhs rhs : Expr)
  | call (name : String) (args : List Expr)
  | array (items : List Expr)
  | matrix (rows : List (List Expr))
  | paren (inner : Expr)
  | word (text : String)
  | tuple (items : List Expr)
deriving Repr, Inhabited

inductive NodeClass where
  | number | ident | sign | arith | compare | assign | call | array | matrix | paren
deriving DecidableEq, Repr

namespace NodeClass

def all : List NodeClass :=
  [number, ident, sign, arith, compare, assign, call, array, matrix, paren]

def tag : NodeClass → String
  | number => "#"
  | ident => "@"
  | sign => "-uop"
  | arith => "-bop"
  | compare => "<>"
  | assign => "="
  | call => "-func"
  | array => "["
  | matrix => "-mat"
  | paren => "("

def arity : NodeClass → Nat
  | number | ident | array | matrix | paren => 1
  | sign | assign | call => 2
  | arith | compare => 3

def ofTag? (tag : String) : Option NodeClass :=
  all.find? (·.tag == tag)

theorem ofTag?_eq_some_iff {tag : String} {cls : NodeClass} : ofTag? tag = some cls ↔ tag = cls.tag := by
  constructor
  · intro found
    have same : cls.tag = tag := by simpa using List.find?_some found
    exact same.symm
  · rintro rfl
    cases cls <;> rfl

theorem tag_inj {cls other : NodeClass} : cls.tag = other.tag ↔ cls = other := by
  constructor
  · intro same
    have found := ofTag?_eq_some_iff.2 same
    rw [ofTag?_eq_some_iff.2 rfl] at found
    exact Option.some.inj found
  · rintro rfl
    rfl

end NodeClass

structure FieldCount where
  cls : NodeClass
  count : Nat
deriving DecidableEq, Repr

namespace Expr

@[elab_as_elim]
theorem treeInduction {motive : Expr → Prop}
    (missing : motive missing) (number : ∀ text, motive (number text))
    (ident : ∀ name, motive (ident name))
    (sign : ∀ op operand, motive operand → motive (sign op operand))
    (arith : ∀ op lhs rhs, motive lhs → motive rhs → motive (arith op lhs rhs))
    (compare : ∀ rel lhs rhs, motive lhs → motive rhs → motive (compare rel lhs rhs))
    (assign : ∀ lhs rhs, motive lhs → motive rhs → motive (assign lhs rhs))
    (call : ∀ name args, (∀ arg ∈ args, motive arg) → motive (call name args))
    (array : ∀ items, (∀ item ∈ items, motive item) → motive (array items))
    (matrix : ∀ rows, (∀ row ∈ rows, ∀ cell ∈ row, motive cell) → motive (matrix rows))
    (paren : ∀ inner, motive inner → motive (paren inner))
    (word : ∀ text, motive (word text))
    (tuple : ∀ items, (∀ item ∈ items, motive item) → motive (tuple items))
    (expr : Expr) : motive expr :=
  @Expr.rec motive (fun items => ∀ item ∈ items, motive item)
    (fun rows => ∀ row ∈ rows, ∀ cell ∈ row, motive cell)
    missing number ident sign arith compare assign call array matrix paren word tuple
    (fun _ inside => nomatch inside)
    (fun _ _ head rest => List.forall_mem_cons.2 ⟨head, rest⟩)
    (fun _ inside => nomatch inside)
    (fun _ _ head rest => List.forall_mem_cons.2 ⟨head, rest⟩)
    expr

def class? : Expr → Option NodeClass
  | missing | word _ => none
  | number _ => some .number
  | ident _ => some .ident
  | sign _ _ => some .sign
  | arith _ _ _ => some .arith
  | compare _ _ _ => some .compare
  | assign _ _ => some .assign
  | call _ _ => some .call
  | array _ => some .array
  | matrix _ => some .matrix
  | paren _ => some .paren
  | tuple (word tag :: _) => NodeClass.ofTag? tag
  | tuple _ => none

mutual

def toForm : Expr → Form
  | missing => .absent
  | number text => .tuple [.text "#", .text text]
  | ident name => .tuple [.text "@", .text name]
  | sign op operand => .tuple [.text "-uop", .text op, toForm operand]
  | arith op lhs rhs => .tuple [.text "-bop", .text op, toForm lhs, toForm rhs]
  | compare rel lhs rhs => .tuple [.text "<>", .text rel, toForm lhs, toForm rhs]
  | assign lhs rhs => .tuple [.text "=", toForm lhs, toForm rhs]
  | call name args => .tuple [.text "-func", .text name, .tuple (toForms args)]
  | array items => .tuple [.text "[", .tuple (toForms items)]
  | matrix rows => .tuple [.text "-mat", .tuple (toFormRows rows)]
  | paren inner => .tuple [.text "(", toForm inner]
  | word text => .text text
  | tuple items => .tuple (toForms items)

def toForms : List Expr → List Form
  | [] => []
  | item :: items => toForm item :: toForms items

def toFormRows : List (List Expr) → List Form
  | [] => []
  | row :: rows => .tuple (toForms row) :: toFormRows rows

end

theorem toForms_eq_map (items : List Expr) : toForms items = items.map toForm := by
  induction items with
  | nil => rfl
  | cons item items ih => simp [toForms, ih]

theorem toFormRows_eq_map (rows : List (List Expr)) :
    toFormRows rows = rows.map fun row => .tuple (row.map toForm) := by
  induction rows with
  | nil => rfl
  | cons row rows ih => simp [toFormRows, toForms_eq_map, ih]

def cells? : Expr → Option (List Expr)
  | tuple items => some items
  | _ => none

def node? : NodeClass → List Expr → Option Expr
  | .number, [word text] => some (number text)
  | .ident, [word name] => some (ident name)
  | .sign, [word op, operand] => some (sign op operand)
  | .arith, [word op, lhs, rhs] => some (arith op lhs rhs)
  | .compare, [word rel, lhs, rhs] => some (compare rel lhs rhs)
  | .assign, [lhs, rhs] => some (assign lhs rhs)
  | .call, [word name, tuple args] => some (call name args)
  | .array, [tuple items] => some (array items)
  | .matrix, [tuple rows] => (rows.mapM cells?).map matrix
  | .paren, [inner] => some (paren inner)
  | _, _ => none

-- A tuple that starts with a tag is a node, and any other a plain one.
def assemble (items : List Expr) : Except FieldCount Expr :=
  match items with
  | word tag :: fields =>
    match NodeClass.ofTag? tag with
    | some cls =>
      -- Fields of the wrong sort are kept as they are.
      if fields.length = cls.arity then .ok ((node? cls fields).getD (tuple items))
      else .error ⟨cls, fields.length⟩
    | none => .ok (tuple items)
  | _ => .ok (tuple items)

mutual

def ofForm : Form → Except FieldCount Expr
  | .absent => .ok missing
  | .text value => .ok (word value)
  | .tuple items => ofForms items >>= assemble

def ofForms : List Form → Except FieldCount (List Expr)
  | [] => .ok []
  | item :: items => do
    let tree ← ofForm item
    let trees ← ofForms items
    return tree :: trees

end

mutual

def height : Expr → Nat
  | missing | word _ => 0
  | number _ | ident _ => 1
  | sign _ operand => height operand + 1
  | arith _ lhs rhs | compare _ lhs rhs | assign lhs rhs => max (height lhs) (height rhs) + 1
  | call _ args => heights args + 1
  | array items => heights items + 1
  | matrix rows => rowHeights rows + 1
  | paren inner => height inner + 1
  | tuple items => heights items + 1

def heights : List Expr → Nat
  | [] => 0
  | item :: items => max (height item) (heights items)

def rowHeights : List (List Expr) → Nat
  | [] => 0
  | row :: rows => max (heights row) (rowHeights rows)

end

def constants : List String := ["e", "i", "pi", "π"]

def isConstant : Expr → Bool
  | ident name => constants.contains name
  | _ => false

def fraction : String := "\\frac"

end Expr

end FormulaCalculator
