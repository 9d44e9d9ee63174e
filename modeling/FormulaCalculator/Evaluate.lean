import FormulaCalculator.Formula
import FormulaCalculator.Symbolic.Meaning
import FormulaCalculator.Symbolic.Shown
import FormulaCalculator.Plan
import FormulaCalculator.Settings
import FormulaCalculator.Typeset.Value

set_option autoImplicit false

namespace FormulaCalculator

open Symbolic

inductive Engine where
  | numeric | symbolic
deriving DecidableEq, Repr

def Engine.name : Engine → String
  | numeric => "numeric"
  | symbolic => "symbolic"

structure Result where
  engine : Engine
  latex : String
  flat : String
deriving DecidableEq, Repr

inductive Response where
  | result (result : Result)
  | rejected (noted : List Diagnostic)
  | refused (refusal : Refusal) (flat : String)
deriving DecidableEq, Repr

def Outline.value : Outline → Outcome Value
  | formula expr => meaning expr
  | equation lhs rhs => do
    let left ← lhs.value
    let right ← rhs.value
    Value.equation left right
  | relation rel lhs rhs => do
    let left ← lhs.value
    let right ← rhs.value
    match Relation.ofText? rel with
    | some known => Value.relate known left right
    | none => throw .unreadable

def engineFor (hasVariables : Bool) : Engine :=
  if hasVariables then .symbolic else .numeric

def shownValue (settings : Settings) (engine : Engine) (value : Value) : Value :=
  match engine with
  | .symbolic => value.simple
  | .numeric => if settings.fraction then value else value.decimals settings.places

def latexOf (settings : Settings) (value : Value) : Outcome String :=
  match value with
  | .word _ kind => .error (.notShown kind)
  | _ =>
    let text := Typeset.value value
    .ok (if settings.displayStyle then "\\displaystyle " ++ text else text)

abbrev Evaluator := Settings → Formula → Outcome String

def typesetValue : Evaluator := fun settings formula => do
  let value ← formula.expr.outline.value
  latexOf settings (shownValue settings (engineFor formula.hasVariables) value)

def Formula.evaluateBy (evaluator : Evaluator) (settings : Settings) (formula : Formula) : Response :=
  -- Only the value can be refused: the flat text is there already.
  match evaluator settings formula with
  | .ok latex => .result ⟨engineFor formula.hasVariables, latex, formula.flat⟩
  | .error refusal => .refused refusal formula.flat

def evaluateBy [Stack] (evaluator : Evaluator) (settings : Settings) (text : String) :
    Except FlatFault Response :=
  match Formula.ofText text with
  | .error (.rejected noted) => .ok (.rejected noted)
  | .error (.unwritten fault) => .error fault
  | .ok formula => .ok (formula.evaluateBy evaluator settings)

def evaluate [Stack] (settings : Settings) (text : String) : Except FlatFault Response :=
  evaluateBy typesetValue settings text

end FormulaCalculator
