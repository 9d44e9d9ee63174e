import FormulaCalculator.CommandLine.Run

set_option autoImplicit false

namespace FormulaCalculator.CommandLine

structure Changes where
  fraction : Option Bool
  displayStyle : Option Bool
  places : Option Int
deriving DecidableEq, Repr

def Changes.apply (changes : Changes) (settings : Settings) : Settings :=
  ⟨changes.fraction.getD settings.fraction, changes.displayStyle.getD settings.displayStyle,
    changes.places.getD settings.places⟩

inductive Call where
  | nothing
  | evaluate (text : String)
  | run (debugVariable : Option String) (args : List String) (input : Input)
deriving DecidableEq, Repr

inductive Reply where
  | nothing
  | response (outcome : Except FlatFault Response)
  | finished (finished : Finished)

variable [Stack]

def Call.replyBy (evaluator : Evaluator) (settings : Settings) : Call → Reply × Settings
  | nothing => (.nothing, settings)
  | evaluate text => (.response (evaluateBy evaluator settings text), settings)
  | run debugVariable args input =>
    let result := runBy evaluator settings debugVariable args input
    (.finished result.finished, result.settings)

def Call.reply (settings : Settings) (call : Call) : Reply × Settings :=
  call.replyBy typesetValue settings

def repliesBy (evaluator : Evaluator) (settings : Settings) :
    List (Changes × Call) → List (Reply × Settings)
  | [] => []
  | (changes, call) :: calls =>
    let (reply, after) := call.replyBy evaluator (changes.apply settings)
    (reply, after) :: repliesBy evaluator after calls

def replies (settings : Settings) (calls : List (Changes × Call)) : List (Reply × Settings) :=
  repliesBy typesetValue settings calls

end FormulaCalculator.CommandLine
