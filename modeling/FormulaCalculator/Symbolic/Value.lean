import FormulaCalculator.Symbolic.Relate
import FormulaCalculator.Text.Quoted

set_option autoImplicit false

namespace FormulaCalculator.Symbolic

inductive Refusal where
  -- Whatever else an evaluator may raise.
  | raised (kind reason : String)
  | unreadable
  | unsupported
  | raggedRows
  | shapeMismatch
  | notSquare
  | notShown (kind : String)
deriving DecidableEq, Repr

def Refusal.kind : Refusal → String
  | raised kind _ => kind
  | unreadable => "SympifyError"
  | unsupported => "TypeError"
  | raggedRows => "ValueError"
  | shapeMismatch => "ShapeError"
  | notSquare => "NonSquareMatrixError"
  | notShown _ => "CalcError"

def Refusal.reason : Refusal → String
  | raised _ reason => reason
  | unreadable => "the formula cannot be read for evaluation"
  | unsupported => "the operation does not apply to these values"
  | raggedRows => "the rows of a matrix differ in length"
  | shapeMismatch => "the sizes of the matrices do not fit"
  | notSquare => "the matrix is not square"
  | notShown kind => "cannot display result of type " ++ Text.quoted kind

def Refusal.message (refusal : Refusal) : String := refusal.kind ++ ": " ++ refusal.reason

inductive Brackets where
  | square | round
deriving DecidableEq, Repr

/-- A flag is a truth value that also counts as one or zero. A word names what is no value of a formula. -/
inductive Value where
  | scalar (value : Term)
  | truth (value : Bool)
  | flag (value : Bool)
  | relation (rel : Relation) (lhs rhs : Value)
  | list (brackets : Brackets) (items : List Value)
  | matrix (rows : List (List Value))
  | word (name kind : String)
deriving Repr, Inhabited

abbrev Outcome := Except Refusal

abbrev Grid := List (List Term)

namespace Grid

def height (grid : Grid) : Nat := grid.length

def width : Grid → Nat
  | [] => 0
  | row :: _ => row.length

def mapCells (f : Term → Term) (grid : Grid) : Grid := List.map (List.map f) grid

def combine (f : Term → Term → Term) (a b : Grid) : Outcome Grid :=
  if a.height = b.height ∧ a.width = b.width then .ok (List.zipWith (List.zipWith f) a b)
  else .error .shapeMismatch

def column (grid : Grid) (index : Nat) : List Term :=
  List.filterMap (fun row : List Term => row[index]?) grid

def dot (row column : List Term) : Term :=
  (List.zipWith Term.mul row column).foldl Term.add Term.zero

def mul (a b : Grid) : Outcome Grid :=
  if a.width = b.height then
    .ok (List.map (fun row => (List.range b.width).map fun index => dot row (b.column index)) a)
  else .error .shapeMismatch

def one (size : Nat) : Grid :=
  (List.range size).map fun row =>
    (List.range size).map fun column => Term.ofInt (if row = column then 1 else 0)

def pow (a : Grid) : Nat → Outcome Grid
  | 0 => .ok (one a.height)
  | 1 => .ok a
  | n + 2 => do (← pow a (n + 1)).mul a

def scale (c : Term) (grid : Grid) : Grid :=
  if c.number?.any fun size => size.value == 1 then grid else grid.mapCells (Term.mul c)

end Grid

namespace Value

def ofInt (n : Int) : Value := scalar (Term.ofInt n)

def scalar? : Value → Option Term
  | scalar value => some value
  | _ => none

def grid? (rows : List (List Value)) : Option Grid :=
  rows.mapM fun row => row.mapM scalar?

def cell (t : Term) : Value := scalar (if t.isZero then Term.zero else t)

def ofGrid (grid : Grid) : Value := matrix (List.map (List.map cell) grid)

def needGrid (rows : List (List Value)) : Outcome Grid :=
  match grid? rows with
  | some grid => .ok grid
  | none => .error .unsupported

def flagTerm (value : Bool) : Term := Term.ofInt value.toNat

def counts? : Value → Value → Option (Term × Term)
  | flag a, flag b => some (flagTerm a, flagTerm b)
  | flag a, scalar b => if b.whole?.isSome then some (flagTerm a, b) else none
  | scalar a, flag b => if a.whole?.isSome then some (a, flagTerm b) else none
  | _, _ => none

def ofCounts (f : Term → Term → Term) (a b : Value) : Outcome Value :=
  match counts? a b with
  | some (m, n) => .ok (scalar (f m n))
  | none => .error .unsupported

def plus : Value → Outcome Value
  | scalar a => .ok (scalar a)
  | flag a => .ok (scalar (flagTerm a))
  | _ => .error .unsupported

def neg : Value → Outcome Value
  | scalar a => .ok (scalar a.neg)
  | flag a => .ok (scalar (flagTerm a).neg)
  | matrix rows => do return ofGrid ((← needGrid rows).mapCells Term.neg)
  | _ => .error .unsupported

def add : Value → Value → Outcome Value
  | scalar a, scalar b => .ok (scalar (a.add b))
  | list s as, list t bs => if s = t then .ok (list s (as ++ bs)) else .error .unsupported
  | matrix as, matrix bs => do
    return ofGrid (← (← needGrid as).combine Term.add (← needGrid bs))
  | a, b => ofCounts Term.add a b

def sub : Value → Value → Outcome Value
  | scalar a, scalar b => .ok (scalar (a.sub b))
  | matrix as, matrix bs => do
    return ofGrid (← (← needGrid as).combine Term.sub (← needGrid bs))
  | a, b => ofCounts Term.sub a b

def repeated (brackets : Brackets) (items : List Value) (times : Term) : Outcome Value :=
  match times.whole? with
  | some n => .ok (list brackets (List.replicate n.toNat items).flatten)
  | none => .error .unsupported

def mul : Value → Value → Outcome Value
  | scalar a, scalar b => .ok (scalar (a.mul b))
  | list s items, scalar n | scalar n, list s items => repeated s items n
  | list s items, flag n | flag n, list s items => repeated s items (flagTerm n)
  | matrix rows, scalar a | scalar a, matrix rows => do
    return ofGrid ((← needGrid rows).scale a)
  | matrix as, matrix bs => do return ofGrid (← (← needGrid as).mul (← needGrid bs))
  | a, b => ofCounts Term.mul a b

def div : Value → Value → Outcome Value
  | scalar a, scalar b => .ok (scalar (a.div b))
  | matrix rows, scalar a => do
    return ofGrid ((← needGrid rows).scale (Term.one.div a))
  | _, _ => .error .unsupported

def pow : Value → Value → Outcome Value
  | scalar a, scalar b => .ok (scalar (a.pow b))
  | matrix rows, scalar n => do
    let grid ← needGrid rows
    if grid.height ≠ grid.width then throw .notSquare
    match n.whole? with
    | some times => if 0 ≤ times then return ofGrid (← grid.pow times.toNat) else throw .unsupported
    | none => throw .unsupported
  | flag a, flag b => .ok (scalar ((flagTerm a).pow (flagTerm b)))
  | _, _ => .error .unsupported

def arith (op : String) (a b : Value) : Outcome Value :=
  match op with
  | "+" => add a b
  | "-" => sub a b
  | "*" => mul a b
  | "/" => div a b
  | "^" => pow a b
  | _ => .error .unreadable

def sign (op : String) (a : Value) : Outcome Value :=
  match op with
  | "+" => plus a
  | "-" => neg a
  | _ => .error .unreadable

def block (row : List Value) : Outcome (List (List Value)) :=
  let blocks := row.filterMap fun each => match each with
    | matrix rows => some rows
    | _ => none
  let isPlain := row.all fun each => match each with
    | scalar _ | truth _ | flag _ | relation _ _ _ => true
    | _ => false
  -- Matrices in a row have to be equally high, and empty ones do not count.
  if isPlain then
    .ok [row.map fun each => match each with
      | scalar t => cell t
      | _ => each]
  else if blocks.length = row.length then
    match blocks.filter fun block => !block.isEmpty with
    | [] => .ok []
    | first :: rest =>
      if rest.all fun block => block.length == first.length then
        .ok (rest.foldl (List.zipWith (· ++ ·)) first)
      else .error .raggedRows
  else .error .unsupported

def ofRows (rows : List (List Value)) : Outcome Value := do
  let cells := (← rows.mapM block).flatten
  match cells with
  | [] => return matrix []
  | first :: rest =>
    if rest.all fun row => row.length == first.length then return matrix cells
    else throw .raggedRows

def truth? : Value → Option Bool
  | truth value | flag value => some value
  | _ => none

def isLogical : Value → Bool
  | truth _ | flag _ | relation _ _ _ => true
  | _ => false

def isSymbol : Value → Bool
  | scalar a => a.isSymbol
  | _ => false

def canRelate : Value → Bool
  | list _ _ | word _ _ => false
  | _ => true

mutual

def same : Value → Value → Bool
  | scalar a, scalar b => a.same b
  | truth a, truth b | truth a, flag b | flag a, truth b | flag a, flag b => a == b
  | relation r a b, relation s c d => r == s && same a c && same b d
  | list s as, list t bs => s == t && sameAll as bs
  | matrix as, matrix bs => sameRows as bs
  | word a _, word b _ => a == b
  | _, _ => false

def sameAll : List Value → List Value → Bool
  | [], [] => true
  | a :: as, b :: bs => same a b && sameAll as bs
  | _, _ => false

def sameRows : List (List Value) → List (List Value) → Bool
  | [], [] => true
  | a :: as, b :: bs => sameAll a b && sameRows as bs
  | _, _ => false

end

def gridsEqual? (a b : Grid) : Option Bool :=
  if a.height = b.height ∧ a.width = b.width then
    (List.zipWith Term.equal? a.flatten b.flatten).foldr (fun cell rest =>
      match cell, rest with
      | some false, _ | _, some false => some false
      | some true, some true => some true
      | _, _ => none) (some true)
  else some false

def equal? : Value → Value → Option Bool
  | scalar a, scalar b => a.equal? b
  | matrix as, matrix bs => do gridsEqual? (← grid? as) (← grid? bs)
  | matrix _, scalar _ | scalar _, matrix _ => some false
  | a, b =>
    if a.same b then some true
    else if a.truth?.isSome && b.truth?.isSome then some false
    else if a.isLogical != b.isLogical ∧ !a.isSymbol ∧ !b.isSymbol then some false
    else none

def relateByOrder (rel : Relation) (a b : Value) : Outcome Value :=
  match a, b with
  | scalar x, scalar y =>
    if x.isOffLine || y.isOffLine then .error .unsupported
    else
      match x.order? y with
      | some order => .ok (truth (rel.holds order))
      | none => .ok (relation rel a b)
  | _, _ => .error .unsupported

-- What is shown for an order between values that have none and cannot be compared at all.
def noOrder : Value := word "NotImplemented" "NotImplementedType"

def relate (rel : Relation) (a b : Value) : Outcome Value :=
  let comparable := a.canRelate && b.canRelate
  match rel with
  | .eq =>
    if comparable then .ok (((a.equal? b).map truth).getD (relation .eq a b)) else .error .unreadable
  | .ne =>
    if comparable then .ok (((a.equal? b).map fun same => truth (!same)).getD (relation .ne a b))
    else .error .unreadable
  | _ => if comparable then relateByOrder rel a b else .ok noOrder

def equation (a b : Value) : Outcome Value :=
  if a.canRelate && b.canRelate then .ok (relation .eq a b) else .error .unreadable

def relateInside (rel : Relation) (a b : Value) : Outcome Value :=
  match rel with
  | .ne => .ok (flag (!isSameInside a b))
  | .eq => .error .unreadable
  | _ => relateByOrder rel a b
where
  isSameInside (a b : Value) : Bool :=
    match a, b with
    | scalar (.number c), scalar (.number d) => c.value == d.value
    | flag c, scalar (.number d) | scalar (.number d), flag c => d.isExactly c.toNat
    | _, _ => a.same b

def decides : Value → Outcome Bool
  | truth value | flag value => .ok value
  | _ => .error .unsupported

end Value

end FormulaCalculator.Symbolic
