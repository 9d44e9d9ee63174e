import FormulaCalculator.Token.Basic

set_option autoImplicit false

namespace FormulaCalculator

inductive Wanted where
  | expression
  | token (kind : Kind)
  | anyToken
deriving DecidableEq, Repr

def Wanted.text : Wanted → String
  | expression => "expression"
  | token kind => if kind.name.isEmpty then "token" else kind.name
  | anyToken => "token"

inductive Problem where
  | ended (wanted : Wanted)
  | mismatch (wanted found : Kind)
  | unexpected (found : Kind)
  | strayInMatrix (found : Kind)
  | noNumerator
  | noDenominator
  | leftOver (texts : List String)
  | tooDeep
  | remark (text : String)
deriving DecidableEq, Repr

def Problem.text : Problem → String
  | ended wanted => "unexpected end of input, expected " ++ wanted.text
  | mismatch wanted found => "expected " ++ wanted.name ++ " but found " ++ found.name
  | unexpected found => "unexpected token " ++ found.name
  | strayInMatrix found => "unexpected token " ++ found.name ++ " in matrix"
  | noNumerator => "\\frac is missing its numerator, expected \x7bexpression\x7d"
  | noDenominator => "\\frac is missing its denominator, expected \x7bexpression\x7d"
  | leftOver texts => "unconsumed tokens remain after expression: " ++ " ".intercalate texts
  | tooDeep => "expression nested too deeply"
  | remark text => text

structure Diagnostic where
  problem : Problem
  token : Option Token
deriving DecidableEq, Repr

def Diagnostic.message (diagnostic : Diagnostic) : String :=
  match diagnostic.token with
  | none => diagnostic.problem.text
  | some token =>
    diagnostic.problem.text ++ " at " ++ token.posText ++ ": " ++ Text.quoted token.text ++ " (" ++
      token.kind.name ++ ")"

end FormulaCalculator
