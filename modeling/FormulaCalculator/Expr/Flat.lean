import FormulaCalculator.Expr.Depth

set_option autoImplicit false

namespace FormulaCalculator

inductive FlatFault where
  | unknownOperator (op : String)
  | unknownNode (form : Form)
  | looseWord
  | tooTall
deriving DecidableEq, Repr

def FlatFault.message? : FlatFault → Option String
  | unknownOperator op => some (Text.quoted op)
  | unknownNode form => some ("cannot write out unknown AST node " ++ form.shown)
  | looseWord | tooTall => none

inductive Joint where
  | arith (op : String)
  | compare (rel : String)
  | assign
deriving DecidableEq, Repr

inductive Side where
  | left | right
deriving DecidableEq, Repr

def bindingOf? (op : String) : Option Nat :=
  [("=", 1), ("<", 2), (">", 2), ("<=", 2), (">=", 2), ("!=", 2), ("+", 3), ("-", 3), ("*", 4),
    ("/", 4), ("^", 5)].lookup op

namespace Joint

def text : Joint → String
  | arith op => op
  | compare rel => rel
  | assign => "="

-- An assignment binds as a comparison does, so that a relation on its right stays apart from it.
def binding? : Joint → Option Nat
  | arith op => bindingOf? op
  | compare _ | assign => some 2

def isPower (joint : Joint) : Bool := joint == arith "^"

def strangeOp? : Joint → Option String
  | arith op => if bindingOf? op = none then some op else none
  | _ => none

end Joint

namespace Expr

def glyphPieces (name : String) : List String :=
  if name = "π" then ["pi"]
  else if name = "τ" then ["2", "*", "pi"]
  else if name = "φ" then ["(", "1", "+", "sqrt", "(", "5", ")", ")", "/", "2"]
  else [name]

def plainName (name : String) : String :=
  String.ofList (name.toList.dropWhile (· == '\\'))

def binding? : Expr → Option Nat
  | arith op _ _ => bindingOf? op
  | compare _ _ _ => some 2
  | assign _ _ => some 1
  | ident name => if name = "τ" ∨ name = "φ" then some 4 else none
  | call name [_, _] => if name = fraction then some 4 else none
  | _ => none

def isSign : Expr → Bool
  | sign _ _ => true
  | _ => false

def isJoined : Expr → Bool
  | arith _ _ _ | compare _ _ _ | assign _ _ => true
  | _ => false

-- A power wants parentheses around another power on either side, and around a sign on its left.
def needsParens (joint : Joint) (side : Side) (child : Expr) : Bool :=
  match child.binding?, joint.binding? with
  | none, _ => side == .left && joint.isPower && child.isSign
  -- Sums and products group to the left, so an equal binding needs none there.
  | some inner, some outer =>
    decide (inner < outer) || (inner == outer && (joint.isPower || side == .right))
  | some _, none => false

def enclose (needed : Bool) (pieces : List String) : List String :=
  if needed then "(" :: pieces ++ [")"] else pieces

def commaJoined : List (List String) → List String
  | [] => []
  | [pieces] => pieces
  | pieces :: more => pieces ++ "," :: commaJoined more

def joinedPieces (joint : Joint) (lhs rhs : Expr) (left right : List String) : List String :=
  enclose (needsParens joint .left lhs) left ++
    joint.text :: enclose (needsParens joint .right rhs) right

def callPieces (name : String) (args : List (List String)) : List String :=
  match args with
  | [numerator, denominator] =>
    if name = fraction then enclose true numerator ++ "/" :: enclose true denominator
    else plainName name :: enclose true (commaJoined args)
  | _ => plainName name :: enclose true (commaJoined args)

def bracketed (items : List (List String)) : List String :=
  "[" :: commaJoined items ++ ["]"]

mutual

def pieces : Expr → List String
  | missing | word _ | tuple _ => []
  | number text => [text]
  | ident name => glyphPieces name
  | sign op operand => op :: enclose operand.isJoined (pieces operand)
  | arith op lhs rhs => joinedPieces (.arith op) lhs rhs (pieces lhs) (pieces rhs)
  | compare rel lhs rhs => joinedPieces (.compare rel) lhs rhs (pieces lhs) (pieces rhs)
  | assign lhs rhs => joinedPieces .assign lhs rhs (pieces lhs) (pieces rhs)
  | call name args => callPieces name (piecesAll args)
  | array items => bracketed (piecesAll items)
  | matrix rows => "Matrix" :: enclose true (bracketed (piecesRows rows))
  | paren inner => enclose true (pieces inner)

def piecesAll : List Expr → List (List String)
  | [] => []
  | item :: items => pieces item :: piecesAll items

def piecesRows : List (List Expr) → List (List String)
  | [] => []
  | row :: rows => bracketed (piecesAll row) :: piecesRows rows

end

theorem piecesAll_eq_map (items : List Expr) : piecesAll items = items.map pieces := by
  induction items with
  | nil => rfl
  | cons item items ih => simp [piecesAll, ih]

theorem piecesRows_eq_map (rows : List (List Expr)) :
    piecesRows rows = rows.map fun row => bracketed (row.map pieces) := by
  induction rows with
  | nil => rfl
  | cons row rows ih => simp [piecesRows, piecesAll_eq_map, ih]

def flatText (expr : Expr) : String :=
  String.join (pieces expr)

def strangeOp? : Expr → Option String
  | arith op _ _ => if bindingOf? op = none then some op else none
  | _ => none

def sideFault? (joint : Joint) (child : Expr) : Option FlatFault :=
  match child with
  | word _ => some .looseWord
  | _ =>
    -- A joint without a binding only matters beside a child that can come apart.
    let strange := child.strangeOp?.or (child.binding?.bind fun _ => joint.strangeOp?)
    strange.map .unknownOperator

def joinedFault? (joint : Joint) (lhs rhs : Expr) (left right : Option FlatFault) :
    Option FlatFault :=
  ((sideFault? joint lhs).or left).or ((sideFault? joint rhs).or right)

mutual

def flatFault? : Expr → Option FlatFault
  | missing | number _ | ident _ => none
  | word _ => some .looseWord
  | tuple items => some (.unknownNode (tuple items).toForm)
  | sign _ operand => flatFault? operand
  | arith op lhs rhs => joinedFault? (.arith op) lhs rhs (flatFault? lhs) (flatFault? rhs)
  | compare rel lhs rhs => joinedFault? (.compare rel) lhs rhs (flatFault? lhs) (flatFault? rhs)
  | assign lhs rhs => joinedFault? .assign lhs rhs (flatFault? lhs) (flatFault? rhs)
  | call _ args => flatFaultIn? args
  | array items => flatFaultIn? items
  | matrix rows => flatFaultInRows? rows
  | paren inner => flatFault? inner

def flatFaultIn? : List Expr → Option FlatFault
  | [] => none
  | item :: items => (flatFault? item).or (flatFaultIn? items)

def flatFaultInRows? : List (List Expr) → Option FlatFault
  | [] => none
  | row :: rows => (flatFaultIn? row).or (flatFaultInRows? rows)

end

def flat [Stack] (expr : Expr) : Except FlatFault String :=
  if expr.isTall then .error .tooTall
  else
    match flatFault? expr with
    | some fault => .error fault
    | none => .ok (flatText expr)

end Expr

end FormulaCalculator
