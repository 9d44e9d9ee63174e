import FormulaCalculator.Grammar.Parse

set_option autoImplicit false

namespace FormulaCalculator.Grammar

structure Session where
  tokens : List Token
  cursor : Cursor
deriving DecidableEq, Repr

inductive Step where
  | peek (offset : Int)
  | isNext (kinds : List Kind)
  | consume (wanted : Option Kind)
  | note (text : String) (token : Option Token)
  | expression | assignment | comparison | additive | term | exponent | primary
  | group | command | fraction | array | matrix
  | parse
deriving DecidableEq, Repr

inductive Answer where
  | none
  | flag (value : Bool)
  | token (value : Option Token)
  | tree (value : Expr)
  | verdict (value : Except (List Diagnostic) Expr)
deriving Inhabited

namespace Session

def start (tokens : List Token) (index : Nat) : Session :=
  ⟨tokens, tokens.drop index, []⟩

def index (session : Session) : Nat :=
  session.tokens.length - session.cursor.rest.length

def tokenAt (session : Session) (offset : Int) : Except Stop (Option Token) :=
  let place := session.index + offset
  if 0 <= place then .ok session.tokens[place.toNat]?
  else
    -- Counted from the end, and no further back than the first token.
    match (session.tokens.length + place).toNat?, session.tokens with
    | some fromEnd, tokens => .ok tokens[fromEnd]?
    | none, _ => .error .outOfRange

variable [Stack]

def atTop (rule : Layer → Reading Expr) : Reading Answer :=
  Answer.tree <$> rule (layer (Stack.nesting - 1))

def reading (session : Session) : Step → Reading Answer
  | .peek offset => return .token (← (session.tokenAt offset : Except Stop (Option Token)))
  | .isNext kinds => return .flag (← Grammar.isNext kinds.contains)
  | .consume wanted => return .token (← Grammar.consume wanted)
  | .note text token => do
    Grammar.note (.remark text) token
    return .none
  | .expression => atTop Layer.expressionFrom
  | .assignment => atTop Layer.expressionFrom
  | .comparison => atTop Layer.comparison
  | .additive => atTop Layer.additive
  | .term => atTop Layer.term
  | .exponent => atTop Layer.exponentFrom
  | .primary => atTop Layer.primaryFrom
  | .group => atTop Layer.group
  | .command => atTop Layer.command
  | .fraction => do
    let command ← Grammar.peek
    atTop (·.fraction command)
  | .array => atTop Layer.array
  | .matrix => atTop Layer.matrix
  | .parse => do
    -- Where the session stood and what it had noted does not matter here.
    let (expr, cursor) := readAll Stack.nesting session.tokens
    set cursor
    return .verdict (verdict expr cursor.noted)

def run (session : Session) (step : Step) : Except Stop Answer × Session :=
  let (answer, cursor) := (session.reading step).run.run session.cursor
  (answer, { session with cursor })

def runAll (session : Session) : List Step → List (Except Stop Answer × Session)
  | [] => []
  | step :: steps =>
    let (answer, after) := session.run step
    (answer, after) :: runAll after steps

end Session

end FormulaCalculator.Grammar
