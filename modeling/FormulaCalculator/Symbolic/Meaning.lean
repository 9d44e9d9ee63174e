import FormulaCalculator.Symbolic.Value
import FormulaCalculator.Symbolic.Vocabulary
import FormulaCalculator.Expr.Flat

set_option autoImplicit false

namespace FormulaCalculator.Symbolic

namespace Literal

-- A whole number may begin with zeros only if it is zero.
def isReadable (text : String) : Bool :=
  let chars := text.toList
  chars.contains '.' || chars.head? != some '0' || chars.all (· == '0')

def digitsValue (digits : List Char) : Nat :=
  digits.foldl (fun n c => 10 * n + (c.toNat - '0'.toNat)) 0

-- An inexact number is good for its digits without the zeros in front, and for these at least.
def leastDigits : Nat := 15

def value (text : String) : Number :=
  let chars := text.toList
  let before := chars.takeWhile (· != '.')
  let after := (chars.dropWhile (· != '.')).tail
  let digits := before ++ after
  let size : Rat := (digitsValue digits : Rat) / (10 : Rat) ^ after.length
  let count := (digits.dropWhile (· == '0')).length
  if chars.contains '.' then .written (max leastDigits count) size else .ofRat size

end Literal

def reserved : List String :=
  ["and", "as", "assert", "async", "await", "break", "class", "continue", "def", "del", "elif",
    "else", "except", "finally", "for", "from", "global", "if", "import", "in", "is", "lambda",
    "nonlocal", "not", "or", "pass", "raise", "return", "try", "while", "with", "yield"]

def constants : List (String × Term) :=
  [("e", .euler), ("E", .euler), ("i", .imaginary), ("I", .imaginary), ("π", .pi), ("pi", .pi),
    ("oo", .infinity), ("zoo", .complexInfinity), ("nan", .undefined),
    ("GoldenRatio", .constant .goldenRatio), ("EulerGamma", .constant .eulerGamma),
    ("Catalan", .constant .catalan), ("TribonacciConstant", .constant .tribonacci)]

def turnParts : Value × Value := (.ofInt 2, .scalar .pi)

def goldenParts : Value × Value :=
  (.scalar (Term.add .one ((Term.ofInt 5).pow .half)), .ofInt 2)

def ofName (name : String) : Outcome Value :=
  match name with
  | "True" => .ok (.flag true)
  | "False" => .ok (.flag false)
  | "true" => .ok (.truth true)
  | "false" => .ok (.truth false)
  | _ =>
    match constants.lookup name, Vocabulary.kind? name with
    | some value, _ => .ok (.scalar value)
    | none, some kind => .ok (.word name kind)
    | none, none => .ok (.scalar (.symbol name))

def isFunctionName (name : String) : Bool :=
  !(["e", "E", "i", "I", "pi", "True", "False", "None"].contains name)

def scalars? (args : List Value) : Option (List Term) := args.mapM Value.scalar?

def elementaryName (name : String) : String := if name == "ln" then "log" else name

def ofElementary (name : String) (args : List Term) : Outcome Value :=
  match name, args with
  | "sqrt", [a] => .ok (.scalar (a.pow .half))
  | "log", [a, b] => .ok (.scalar (.callOf "log" [a, b]))
  | "sqrt", _ => .error .unsupported
  | _, [a] => .ok (.scalar (.callOf name [a]))
  | _, _ => .error .unsupported

def ofCall (command : String) (args : List Value) : Outcome Value :=
  let name := elementaryName (Expr.plainName command)
  match name, args with
  | "", [arg] => .ok arg
  | "", _ => .ok (.list .round args)
  | "frac", [a, b] => a.div b
  | _, _ =>
    match scalars? args with
    | some terms =>
      if name == "sqrt" || Term.isElementary name then ofElementary name terms
      else if isFunctionName name then .ok (.scalar (.callOf name terms))
      else .error .unsupported
    | none => .error .unsupported

mutual

def isReadable : Expr → Bool
  | .number text => Literal.isReadable text
  | .ident name => !reserved.contains name
  | .sign _ operand => isReadable operand
  | .arith _ lhs rhs => isReadable lhs && isReadable rhs
  | .compare rel lhs rhs => rel != "=" && (isReadable lhs && isReadable rhs)
  | .call name args => !reserved.contains (Expr.plainName name) && areReadable args
  | .array items => areReadable items
  | .matrix rows => rowsReadable rows
  | .paren inner => isReadable inner
  | .missing | .assign _ _ | .word _ | .tuple _ => false

def areReadable : List Expr → Bool
  | [] => true
  | item :: items => isReadable item && areReadable items

def rowsReadable : List (List Expr) → Bool
  | [] => true
  | row :: rows => areReadable row && rowsReadable rows

end

-- The first part of a formula, which a sign in front belongs to, and what is done with that part then.
structure Opening where
  first : Value
  rest : Value → Outcome Value
  last : Option Value

namespace Opening

def of (value : Value) : Opening := ⟨value, .ok, none⟩

def value (opening : Opening) : Outcome Value := opening.rest opening.first

def sided (needed : Bool) (opening : Opening) : Outcome Opening :=
  if needed then of <$> opening.value else .ok opening

-- On the right of a product the first part is taken before the rest is done, and with the whole product.
def joined (op : String) (left : Value) (right : Opening) : Outcome Opening := do
  if op = "^" then return ⟨← Value.arith op left right.first, right.rest, none⟩
  else if op = "*" ∨ op = "/" then return of (← right.rest (← Value.arith op left right.first))
  else return of (← Value.arith op left (← right.value))

def ofName (name : String) : Outcome Opening :=
  if name = "τ" then .ok ⟨turnParts.1, fun first => first.mul turnParts.2, none⟩
  else if name = "φ" then .ok ⟨goldenParts.1, fun first => first.div goldenParts.2, none⟩
  else Opening.of <$> Symbolic.ofName name

def ofCall (command : String) (args : List Value) : Outcome Opening :=
  match args with
  | [above, below] =>
    if command = Expr.fraction then .ok ⟨above, fun first => first.div below, none⟩
    else of <$> Symbolic.ofCall command args
  | _ => of <$> Symbolic.ofCall command args

end Opening

def link (rel : String) (before : Value × Option Value) (next : Unit → Outcome Value) :
    Outcome Opening := do
  let some known := Relation.ofText? rel | throw .unreadable
  match before with
  | (first, none) =>
    let side ← next ()
    return ⟨← Value.relateInside known first side, .ok, some side⟩
  | (sofar, some last) =>
    -- A chain that is false already does not look at its other sides.
    if ← sofar.decides then
      let side ← next ()
      return ⟨← Value.relateInside known last side, .ok, some side⟩
    else return ⟨sofar, .ok, some last⟩

mutual

def opening : Expr → Outcome Opening
  | .number text => .ok (.of (.scalar (.number (Literal.value text))))
  | .ident name => Opening.ofName name
  | .sign op operand => do
    let signed ← (← opening operand).sided operand.isJoined
    return ⟨← signed.first.sign op, signed.rest, none⟩
  | .arith op lhs rhs => do
    let left ← (← opening lhs).value
    let right ← (← opening rhs).sided (Expr.needsParens (.arith op) .right rhs)
    Opening.joined op left right
  | .compare rel lhs rhs => do
    let before ← opening lhs
    link rel (← before.value, before.last) fun _ => do (← opening rhs).value
  | .call name args => do Opening.ofCall name (← valuesOf args)
  | .array items => do return .of (.list .square (← valuesOf items))
  | .matrix rows => do return .of (← Value.ofRows (← rowsOf rows))
  | .paren inner => do return .of (← (← opening inner).value)
  | .missing | .assign _ _ | .word _ | .tuple _ => .error .unreadable

def valuesOf : List Expr → Outcome (List Value)
  | [] => .ok []
  | item :: items => do
    let value ← (← opening item).value
    let values ← valuesOf items
    return value :: values

def rowsOf : List (List Expr) → Outcome (List (List Value))
  | [] => .ok []
  | row :: rows => do
    let values ← valuesOf row
    let more ← rowsOf rows
    return values :: more

end

def meaning (expr : Expr) : Outcome Value := do
  if isReadable expr then (← opening expr).value else .error .unreadable

end FormulaCalculator.Symbolic
