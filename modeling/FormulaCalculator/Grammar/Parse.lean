import FormulaCalculator.Expr.Depth
import FormulaCalculator.Grammar.Rules
import FormulaCalculator.Token.Scan

set_option autoImplicit false

namespace FormulaCalculator.Grammar

def readAll (depth : Nat) (tokens : List Token) : Expr × Cursor :=
  match (layer depth).expression.run.run ⟨tokens, []⟩ with
  -- What led to the break was noted before it, and nothing after it is looked at.
  | (.error _, cursor) => (.missing, { cursor with noted := cursor.noted ++ [⟨.tooDeep, none⟩] })
  | (.ok expr, cursor) =>
    match cursor.rest with
    | [] => (expr, cursor)
    | token :: _ =>
      let texts := cursor.rest.map Token.text
      (expr, { cursor with noted := cursor.noted ++ [⟨.leftOver texts, some token⟩] })

def verdict (expr : Expr) (noted : List Diagnostic) : Except (List Diagnostic) Expr :=
  if noted.isEmpty then .ok expr else .error noted

def parseWithin (depth : Nat) (tokens : List Token) : Except (List Diagnostic) Expr :=
  let (expr, cursor) := readAll depth tokens
  verdict expr cursor.noted

def parse [Stack] (tokens : List Token) : Except (List Diagnostic) Expr :=
  parseWithin Stack.nesting tokens

def parseText [Stack] (text : String) : Except (List Diagnostic) Expr :=
  parse (Token.scan text)

def summary (diagnostics : List Diagnostic) : String :=
  "\n".intercalate (diagnostics.map Diagnostic.message)

end FormulaCalculator.Grammar
