import FormulaCalculator.Grammar.Reading

set_option autoImplicit false

namespace FormulaCalculator.Grammar

/-- The three rules that other rules hold inside themselves. -/
structure Layer where
  expression : Reading Expr
  exponent : Reading Expr
  primary : Reading Expr

def chain (kinds : Kind → Bool) (join : String → Expr → Expr → Expr) (operand : Reading Expr) :
    Nat → Expr → Reading Expr
  | 0, lhs => return lhs
  | bound + 1, lhs => do
    match ← takeIf kinds with
    | some op =>
      let rhs ← operand
      chain kinds join operand bound (join op.text lhs rhs)
    | none => return lhs

def leftGrouped (kinds : Kind → Bool) (join : String → Expr → Expr → Expr)
    (operand : Reading Expr) : Reading Expr := do
  let first ← operand
  chain kinds join operand (← remaining) first

def assignment : Expr → Expr
  | .compare "=" (.ident name) rhs => .assign (.ident name) rhs
  | expr => expr

namespace Layer

variable (inner : Layer)

def group : Reading Expr := do
  require .leftBrace
  let expr ← inner.expression
  require .rightBrace
  return expr

def groups : Nat → Reading (List Expr)
  | 0 => return []
  | bound + 1 => do
    if ← isNext (· == .leftBrace) then
      let expr ← inner.group
      return expr :: (← groups bound)
    else return []

def afterCommas : Nat → Reading (List Expr)
  | 0 => return []
  | bound + 1 => do
    match ← takeIf (· == .comma) with
    | some _ =>
      let expr ← inner.expression
      return expr :: (← afterCommas bound)
    | none => return []

def list : Reading (List Expr) := do
  let first ← inner.expression
  return first :: (← inner.afterCommas (← remaining))

def fraction (command : Option Token) : Reading Expr := do
  if ← isNext (· == .leftBrace) then
    let numerator ← inner.group
    if ← isNext (· == .leftBrace) then
      let denominator ← inner.group
      return .call Expr.fraction [numerator, denominator]
    else
      -- The brace that is not there is no token, so the command stands for it.
      note .noDenominator command
      return .missing
  else
    note .noNumerator command
    return .missing

def arguments : Reading (List Expr) := do
  if ← isNext (· == .leftBrace) then
    inner.groups (← remaining)
  else
    match ← takeIf (· == .leftParen) with
    | some _ =>
      let args ← if ← isNext (· == .rightParen) then pure [] else inner.list
      require .rightParen
      return args
    -- That primary may be a command with a primary of its own.
    | none => return [← inner.primary]

def command : Reading Expr := do
  match ← consume none with
  | none => throw .noCommand
  | some token =>
    if token.text = Expr.fraction then inner.fraction (some token)
    else return .call token.text (← inner.arguments)

def array : Reading Expr := do
  require .leftBracket
  match ← takeIf (· == .rightBracket) with
  | some _ => return .array []
  | none =>
    let items ← inner.list
    require .rightBracket
    return .array items

def cells : Nat → Reading (List Expr × List (List Expr))
  | 0 => return ([], [])
  | bound + 1 => do
    match ← peek with
    | none => return ([], [])
    | some token =>
      match token.kind with
      | .rightBrace => return ([], [])
      | .comma =>
        advance
        let cell ← inner.expression
        let (row, rows) ← cells bound
        return (cell :: row, rows)
      | .semicolon =>
        advance
        let cell ← inner.expression
        let (row, rows) ← cells bound
        return ([], (cell :: row) :: rows)
      -- A stray token is passed over, so that each cell after it is still read.
      | kind =>
        note (.strayInMatrix kind) (some token)
        advance
        cells bound

def matrix : Reading Expr := do
  require .leftBrace
  match ← takeIf (· == .rightBrace) with
  | some _ => return .matrix []
  | none =>
    let cell ← inner.expression
    let (row, rows) ← inner.cells (← remaining)
    require .rightBrace
    return .matrix ((cell :: row) :: rows)

def primaryFrom : Reading Expr := do
  match ← peek with
  | none =>
    note (.ended .expression) none
    return .missing
  | some token =>
    match token.kind with
    | .number =>
      advance
      return .number token.text
    | .identifier =>
      advance
      return .ident token.text
    | .command => inner.command
    | .leftParen =>
      advance
      let expr ← inner.expression
      require .rightParen
      return .paren expr
    | .leftBracket => inner.array
    | .leftBrace => inner.matrix
    -- The operand takes the power after it, so no power is left for the sign.
    | .plus | .minus =>
      advance
      return .sign token.text (← inner.exponent)
    -- It is taken all the same: otherwise an operand could end where it started.
    | kind =>
      note (.unexpected kind) (some token)
      advance
      return .missing

def exponentFrom : Reading Expr := do
  let base ← inner.primaryFrom
  match ← takeIf (· == .power) with
  | some _ => return .arith "^" base (← inner.exponent)
  | none => return base

def term : Reading Expr :=
  leftGrouped Kind.isFactor .arith inner.exponentFrom

def additive : Reading Expr :=
  leftGrouped Kind.isSign .arith inner.term

def comparison : Reading Expr :=
  leftGrouped Kind.isRelation .compare inner.additive

def expressionFrom : Reading Expr :=
  assignment <$> inner.comparison

def outward : Layer :=
  ⟨inner.expressionFrom, inner.exponentFrom, inner.primaryFrom⟩

end Layer

def layer : Nat → Layer
  | 0 => ⟨throw .tooDeep, throw .tooDeep, throw .tooDeep⟩
  | depth + 1 => (layer depth).outward

end FormulaCalculator.Grammar
