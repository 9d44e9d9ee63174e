import FormulaCalculator.Text.Quoted

set_option autoImplicit false

namespace FormulaCalculator

/-- A token made by hand may be of a kind that no scanner gives. -/
inductive Kind where
  | number | identifier | command
  | plus | minus | multiply | divide | power | equals
  | leftParen | rightParen | leftBracket | rightBracket | leftBrace | rightBrace
  | comma | semicolon | dot
  | lessThan | greaterThan | lessEqual | greaterEqual | notEqual
  | unknown | endOfInput
  | other (name : String)
deriving DecidableEq, Repr, Inhabited

namespace Kind

def name : Kind → String
  | number => "Number"
  | identifier => "Identifier"
  | command => "Command"
  | plus => "Plus"
  | minus => "Minus"
  | multiply => "Multiply"
  | divide => "Divide"
  | power => "Power"
  | equals => "Equals"
  | leftParen => "LParen"
  | rightParen => "RParen"
  | leftBracket => "LBracket"
  | rightBracket => "RBracket"
  | leftBrace => "LBrace"
  | rightBrace => "RBrace"
  | comma => "Comma"
  | semicolon => "Semicolon"
  | dot => "Dot"
  | lessThan => "LessThan"
  | greaterThan => "GreaterThan"
  | lessEqual => "LessEqual"
  | greaterEqual => "GreaterEqual"
  | notEqual => "NotEqual"
  | unknown => "Unknown"
  | endOfInput => "EndOfInput"
  | other name => name

def named : List Kind :=
  [number, identifier, command, plus, minus, multiply, divide, power, equals, leftParen, rightParen,
    leftBracket, rightBracket, leftBrace, rightBrace, comma, semicolon, dot, lessThan, greaterThan,
    lessEqual, greaterEqual, notEqual, unknown, endOfInput]

def ofName (name : String) : Kind :=
  (named.find? (·.name == name)).getD (other name)

def isRelation : Kind → Bool
  | lessThan | greaterThan | lessEqual | greaterEqual | equals | notEqual => true
  | _ => false

def isSign : Kind → Bool
  | plus | minus => true
  | _ => false

def isFactor : Kind → Bool
  | multiply | divide => true
  | _ => false

end Kind

structure Token where
  kind : Kind
  text : String
  pos : Option Int
deriving DecidableEq, Repr, Inhabited

namespace Token

def posText (token : Token) : String :=
  match token.pos with
  | some pos => toString pos
  | none => "None"

def shown (token : Token) : String :=
  "Token(" ++ Text.quoted token.kind.name ++ ", " ++ Text.quoted token.text ++ ", " ++
    token.posText ++ ")"

end Token

end FormulaCalculator
