import FormulaCalculator.CommandLine.Options
import FormulaCalculator.Evaluate

set_option autoImplicit false

namespace FormulaCalculator.CommandLine

def version : String := "1.0.0"

def help : String :=
  "usage: texcalc [options] [expression ...]\n\n" ++
  "  -h, --help                         - Show help information\n" ++
  "  -v, --version                      - Show version string\n" ++
  "  -d, --debug                        - Dump tokens, AST and evaluator text to stderr\n" ++
  "  -c, --calc                         - Only print evaluator text, do not evaluate\n" ++
  "  -f, --fraction, --nofraction       - Show exact results instead of decimals or not\n" ++
  "  --displaystyle, --nodisplaystyle   - Prefix results with \"\\displaystyle\" or not\n\n" ++
  "Without expressions on the command line one expression is read per line from stdin.\n"

structure Printed where
  out : String
  err : String
  good : Except FlatFault Bool

namespace Printed

def nothing : Printed := ⟨"", "", .ok true⟩

def broken (err : String) (fault : FlatFault) : Printed := ⟨"", err, .error fault⟩

-- Where the first breaks off, the second does not come about.
def append (first second : Printed) : Printed :=
  match first.good with
  | .error _ => first
  | .ok good => ⟨first.out ++ second.out, first.err ++ second.err, (good && ·) <$> second.good⟩

end Printed

structure Mode where
  calcOnly : Bool
  debug : Bool
deriving DecidableEq, Repr

def line (text : String) : String := text ++ "\n"

def noted (text : String) : Printed := ⟨"", text, .ok true⟩

def dumpTree [Stack] (expr : Expr) : Printed :=
  match expr.flat with
  | .error fault => .broken "ast:     " fault
  | .ok flat => noted (line ("ast:     " ++ expr.toForm.shown) ++ line ("calc:    " ++ flat) ++
      line ("syms:    " ++ if expr.hasVariables then "True" else "False"))

def dump [Stack] (text : String) : Printed :=
  let plain := normalize text
  let tokens := Token.scan plain
  let stages := line ("text:    " ++ Text.quoted text) ++ line ("norm:    " ++ Text.quoted plain) ++
    line ("tokens:  [" ++ ", ".intercalate (tokens.map Token.shown) ++ "]")
  let verdict := match Grammar.parse tokens with
    | .error diagnostics =>
      let messages := diagnostics.map fun (diagnostic : Diagnostic) => Text.quoted diagnostic.message
      noted (line ("diags:   [" ++ ", ".intercalate messages ++ "]"))
    | .ok expr => dumpTree expr
  ⟨"", stages ++ verdict.err ++ line "", verdict.good⟩

def failed (text : String) (details : List String) : Printed :=
  ⟨line ("\n  ".intercalate (("error: " ++ text) :: details)), "", .ok false⟩

def rejected (diagnostics : List Diagnostic) : Printed :=
  failed "syntax error" (diagnostics.map Diagnostic.message)

def printFlat [Stack] (text : String) : Printed :=
  match Formula.ofText text with
  | .ok formula => ⟨line formula.flat, "", .ok true⟩
  | .error (.rejected diagnostics) => rejected diagnostics
  | .error (.unwritten fault) => .broken "" fault

def printResponse (debug : Bool) : Response → Printed
  | .rejected diagnostics => rejected diagnostics
  | .refused refusal _ => failed refusal.message []
  | .result result =>
    let note := if debug then line ("engine:  " ++ result.engine.name) else ""
    ⟨line result.latex, note, .ok true⟩

section

variable [Stack] (evaluator : Evaluator) (settings : Settings)

def printResult (debug : Bool) (text : String) : Printed :=
  match evaluateBy evaluator settings text with
  | .error fault => .broken "" fault
  | .ok response => printResponse debug response

def process (mode : Mode) (text : String) : Printed :=
  let stages := if mode.debug then dump text else .nothing
  stages.append
    (if mode.calcOnly then printFlat text else printResult evaluator settings mode.debug text)

def processAll (mode : Mode) : List String → Printed
  | [] => .nothing
  | text :: texts => (process evaluator settings mode text).append (processAll mode texts)

end

structure Input where
  text : String
  interrupted : Bool
deriving DecidableEq, Repr

-- A line comes in with what ends it, so an interrupt takes the line away that is still being typed.
def Input.delivered (input : Input) : List Char :=
  if input.interrupted then Text.settled input.text.toList else input.text.toList

def Input.expressions (input : Input) : List String :=
  ((Text.lines input.delivered).map Text.strip).filterMap fun chars =>
    if chars.isEmpty then none else some (String.ofList chars)

-- Input counts only where no expression is among the arguments.
def Input.unless (input : Input) (texts : List String) : List String :=
  if texts.isEmpty then input.expressions else texts

inductive Request where
  | show (text : String)
  | work (mode : Mode)
deriving DecidableEq, Repr

def act (settings : Settings) (mode : Mode) : List Flag → Settings × Request
  | [] => (settings, .work mode)
  | .help :: _ => (settings, .show help)
  | .version :: _ => (settings, .show version)
  | .debug :: flags => act settings { mode with debug := true } flags
  | .calc :: flags => act settings { mode with calcOnly := true } flags
  | .fraction :: flags => act { settings with fraction := true } mode flags
  | .noFraction :: flags => act { settings with fraction := false } mode flags
  | .displayStyle :: flags => act { settings with displayStyle := true } mode flags
  | .noDisplayStyle :: flags => act { settings with displayStyle := false } mode flags

/-- What is printed is there also where a run breaks off, which leaves no exit status. -/
structure Finished where
  status : Except FlatFault Nat
  out : String
  err : String

structure Run where
  settings : Settings
  finished : Finished

def finish (printed : Printed) : Finished :=
  ⟨(fun good => if good then 0 else 1) <$> printed.good, printed.out, printed.err⟩

def runBy [Stack] (evaluator : Evaluator) (settings : Settings) (debugVariable : Option String)
    (args : List String) (input : Input) : Run :=
  match readOptions args with
  -- No flag has acted yet when a fault is found.
  | .error fault => ⟨settings, .ok 2, "", line ("error: " ++ fault.message ++ "\n\n" ++ help)⟩
  | .ok (flags, texts) =>
    let debug := debugVariable.any fun text => !text.isEmpty
    match act settings ⟨false, debug⟩ flags with
    | (after, .show text) => ⟨after, .ok 0, line text, ""⟩
    | (after, .work mode) => ⟨after, finish (processAll evaluator after mode (input.unless texts))⟩

def run [Stack] (settings : Settings) (debugVariable : Option String) (args : List String) (input : Input) :
    Run :=
  runBy typesetValue settings debugVariable args input

end FormulaCalculator.CommandLine
