import FormulaCalculator.Grammar.Parse

set_option autoImplicit false

namespace FormulaCalculator

/-- An equation with a bare identifier on its left is an assignment as an expression. -/
def Expr.isEquation : Expr → Bool
  | compare rel (ident _) _ => rel == "="
  | _ => false

namespace Grammar

inductive Level where
  | relation | sum | product
deriving DecidableEq

def Level.operators : Level → Kind → Bool
  | relation => Kind.isRelation
  | sum => Kind.isSign
  | product => Kind.isFactor

def Level.join : Level → String → Expr → Expr → Expr
  | relation => .compare
  | sum | product => .arith

/-- What can be read off tokens, with the tree or trees that it stands for. -/
inductive Phrase where
  | expression (expr : Expr)
  | chain (level : Level) (expr : Expr)
  -- The operators and operands after `lhs`, which make `expr` of it.
  | links (level : Level) (lhs expr : Expr)
  | exponent (expr : Expr)
  -- A loose primary ends in the operand of a sign, so that a power after it belongs to that operand.
  | primary (loose : Bool) (expr : Expr)
  | group (expr : Expr)
  | groups (exprs : List Expr)
  | list (exprs : List Expr)
  | items (exprs : List Expr)
  -- The rest of a row, and the rows after it.
  | cells (row : List Expr) (rows : List (List Expr))

def Level.operand : Level → Expr → Phrase
  | relation => .chain .sum
  | sum => .chain .product
  | product => .exponent

inductive Derives : List Token → List Token → Phrase → Prop where
  | expression {tokens rest : List Token} {expr : Expr}
      (chain : Derives tokens rest (.chain .relation expr)) (kept : expr.isEquation = false) :
      Derives tokens rest (.expression expr)
  | assignment {tokens rest : List Token} {name : String} {rhs : Expr}
      (chain : Derives tokens rest (.chain .relation (.compare "=" (.ident name) rhs))) :
      Derives tokens rest (.expression (.assign (.ident name) rhs))
  | chain {level : Level} {tokens mid rest : List Token} {first expr : Expr}
      (operand : Derives tokens mid (level.operand first))
      (links : Derives mid rest (.links level first expr)) :
      Derives tokens rest (.chain level expr)
  | unlinked {level : Level} {tokens : List Token} {expr : Expr} :
      Derives tokens tokens (.links level expr expr)
  | link {level : Level} {op : Token} {tokens mid rest : List Token} {lhs rhs expr : Expr}
      (joins : level.operators op.kind = true) (operand : Derives tokens mid (level.operand rhs))
      (links : Derives mid rest (.links level (level.join op.text lhs rhs) expr)) :
      Derives (op :: tokens) rest (.links level lhs expr)
  | base {tokens rest : List Token} {loose : Bool} {expr : Expr}
      (primary : Derives tokens rest (.primary loose expr)) : Derives tokens rest (.exponent expr)
  | power {op : Token} {tokens mid rest : List Token} {base expr : Expr}
      (primary : Derives tokens (op :: mid) (.primary false base)) (raises : op.kind = .power)
      (exponent : Derives mid rest (.exponent expr)) :
      Derives tokens rest (.exponent (.arith "^" base expr))
  | number {token : Token} {rest : List Token} (isNumber : token.kind = .number) :
      Derives (token :: rest) rest (.primary false (.number token.text))
  | ident {token : Token} {rest : List Token} (isIdent : token.kind = .identifier) :
      Derives (token :: rest) rest (.primary false (.ident token.text))
  | sign {op : Token} {tokens rest : List Token} {operand : Expr} (isSign : op.kind.isSign = true)
      (exponent : Derives tokens rest (.exponent operand)) :
      Derives (op :: tokens) rest (.primary true (.sign op.text operand))
  | paren {left right : Token} {tokens rest : List Token} {inner : Expr}
      (opens : left.kind = .leftParen) (inside : Derives tokens (right :: rest) (.expression inner))
      (closes : right.kind = .rightParen) : Derives (left :: tokens) rest (.primary false (.paren inner))
  | emptyArray {left right : Token} {rest : List Token} (opens : left.kind = .leftBracket)
      (closes : right.kind = .rightBracket) :
      Derives (left :: right :: rest) rest (.primary false (.array []))
  | array {left right : Token} {tokens rest : List Token} {items : List Expr}
      (opens : left.kind = .leftBracket) (inside : Derives tokens (right :: rest) (.list items))
      (closes : right.kind = .rightBracket) :
      Derives (left :: tokens) rest (.primary false (.array items))
  | emptyMatrix {left right : Token} {rest : List Token} (opens : left.kind = .leftBrace)
      (closes : right.kind = .rightBrace) :
      Derives (left :: right :: rest) rest (.primary false (.matrix []))
  | matrix {left right : Token} {tokens mid rest : List Token} {cell : Expr} {row : List Expr}
      {rows : List (List Expr)} (opens : left.kind = .leftBrace)
      (first : Derives tokens mid (.expression cell))
      (more : Derives mid (right :: rest) (.cells row rows)) (closes : right.kind = .rightBrace) :
      Derives (left :: tokens) rest (.primary false (.matrix ((cell :: row) :: rows)))
  | fraction {command : Token} {tokens mid rest : List Token} {numerator denominator : Expr}
      (isCommand : command.kind = .command) (named : command.text = Expr.fraction)
      (above : Derives tokens mid (.group numerator)) (below : Derives mid rest (.group denominator)) :
      Derives (command :: tokens) rest (.primary false (.call Expr.fraction [numerator, denominator]))
  | callGroups {command : Token} {tokens mid rest : List Token} {arg : Expr} {args : List Expr}
      (isCommand : command.kind = .command) (named : command.text ≠ Expr.fraction)
      (first : Derives tokens mid (.group arg)) (more : Derives mid rest (.groups args)) :
      Derives (command :: tokens) rest (.primary false (.call command.text (arg :: args)))
  | callEmpty {command left right : Token} {rest : List Token} (isCommand : command.kind = .command)
      (named : command.text ≠ Expr.fraction) (opens : left.kind = .leftParen)
      (closes : right.kind = .rightParen) :
      Derives (command :: left :: right :: rest) rest (.primary false (.call command.text []))
  | callList {command left right : Token} {tokens rest : List Token} {args : List Expr}
      (isCommand : command.kind = .command) (named : command.text ≠ Expr.fraction)
      (opens : left.kind = .leftParen) (inside : Derives tokens (right :: rest) (.list args))
      (closes : right.kind = .rightParen) :
      Derives (command :: left :: tokens) rest (.primary false (.call command.text args))
  | callBare {command : Token} {tokens rest : List Token} {loose : Bool} {arg : Expr}
      (isCommand : command.kind = .command) (named : command.text ≠ Expr.fraction)
      (bare : ∀ token ∈ tokens.head?, token.kind ≠ .leftBrace ∧ token.kind ≠ .leftParen)
      (primary : Derives tokens rest (.primary loose arg)) :
      Derives (command :: tokens) rest (.primary loose (.call command.text [arg]))
  | group {left right : Token} {tokens rest : List Token} {expr : Expr}
      (opens : left.kind = .leftBrace) (inside : Derives tokens (right :: rest) (.expression expr))
      (closes : right.kind = .rightBrace) : Derives (left :: tokens) rest (.group expr)
  | noGroups {tokens : List Token} : Derives tokens tokens (.groups [])
  | groups {tokens mid rest : List Token} {expr : Expr} {exprs : List Expr}
      (first : Derives tokens mid (.group expr)) (more : Derives mid rest (.groups exprs)) :
      Derives tokens rest (.groups (expr :: exprs))
  | list {tokens mid rest : List Token} {expr : Expr} {exprs : List Expr}
      (first : Derives tokens mid (.expression expr)) (more : Derives mid rest (.items exprs)) :
      Derives tokens rest (.list (expr :: exprs))
  | noItems {tokens : List Token} : Derives tokens tokens (.items [])
  | items {comma : Token} {tokens mid rest : List Token} {expr : Expr} {exprs : List Expr}
      (divides : comma.kind = .comma) (first : Derives tokens mid (.expression expr))
      (more : Derives mid rest (.items exprs)) :
      Derives (comma :: tokens) rest (.items (expr :: exprs))
  | noCells {tokens : List Token} : Derives tokens tokens (.cells [] [])
  | cell {comma : Token} {tokens mid rest : List Token} {cell : Expr} {row : List Expr}
      {rows : List (List Expr)} (divides : comma.kind = .comma)
      (first : Derives tokens mid (.expression cell)) (more : Derives mid rest (.cells row rows)) :
      Derives (comma :: tokens) rest (.cells (cell :: row) rows)
  | row {semicolon : Token} {tokens mid rest : List Token} {cell : Expr} {row : List Expr}
      {rows : List (List Expr)} (divides : semicolon.kind = .semicolon)
      (first : Derives tokens mid (.expression cell)) (more : Derives mid rest (.cells row rows)) :
      Derives (semicolon :: tokens) rest (.cells [] ((cell :: row) :: rows))

end Grammar

end FormulaCalculator
