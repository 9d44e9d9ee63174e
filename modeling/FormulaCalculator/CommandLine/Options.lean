set_option autoImplicit false

namespace FormulaCalculator.CommandLine

inductive Flag where
  | help | version | debug | calc | fraction | noFraction | displayStyle | noDisplayStyle
deriving DecidableEq, Repr

inductive OptionFault where
  | unknownLetter (letter : Char)
  | unknownName (name : String)
  | ambiguous (name : String)
  | takesNoValue (name : String)
deriving DecidableEq, Repr

def OptionFault.message : OptionFault → String
  | unknownLetter letter => "option -" ++ letter.toString ++ " not recognized"
  | unknownName name => "option --" ++ name ++ " not recognized"
  | ambiguous name => "option --" ++ name ++ " not a unique prefix"
  | takesNoValue name => "option --" ++ name ++ " must not have an argument"

def letters : List (Char × Flag) :=
  [('h', .help), ('v', .version), ('d', .debug), ('c', .calc), ('f', .fraction)]

def names : List (String × Flag) :=
  [("help", .help), ("version", .version), ("debug", .debug), ("calc", .calc),
    ("fraction", .fraction), ("nofraction", .noFraction), ("displaystyle", .displayStyle),
    ("nodisplaystyle", .noDisplayStyle)]

def ofLetters : List Char → Except OptionFault (List Flag)
  | [] => .ok []
  | letter :: rest =>
    match letters.lookup letter with
    | some flag => (flag :: ·) <$> ofLetters rest
    | none => .error (.unknownLetter letter)

-- A name that is given in full wins over longer ones that it begins.
def ofName (name : String) : Except OptionFault (String × Flag) :=
  match names.lookup name, names.filter fun (full, _) => name.toList.isPrefixOf full.toList with
  | some flag, _ => .ok (name, flag)
  | none, [] => .error (.unknownName name)
  | none, [found] => .ok found
  | none, _ => .error (.ambiguous name)

def ofLong (typed : List Char) : Except OptionFault Flag := do
  let (full, flag) ← ofName (String.ofList (typed.takeWhile (· != '=')))
  if typed.contains '=' then throw (.takesNoValue full)
  return flag

def readOptions : List String → Except OptionFault (List Flag × List String)
  | [] => .ok ([], [])
  | arg :: rest =>
    match arg.toList with
    | ['-', '-'] => .ok ([], rest)
    | '-' :: '-' :: typed => do
      let flag ← ofLong typed
      let (flags, args) ← readOptions rest
      return (flag :: flags, args)
    | '-' :: letter :: more => do
      let first ← ofLetters (letter :: more)
      let (flags, args) ← readOptions rest
      return (first ++ flags, args)
    | _ => .ok ([], arg :: rest)

end FormulaCalculator.CommandLine
