import FormulaCalculator.Token.Scan

set_option autoImplicit false

namespace FormulaCalculator.Shorthand

def meaning? (name : List Char) : Option (List Char) :=
  [("cdot", "*"), ("times", "*"), ("div", "/"), ("leq", "<="), ("le", "<="), ("geq", ">="),
    ("ge", ">="), ("neq", "!="), ("ne", "!="), ("pi", "π"), ("tau", "(2*π)"),
    ("phi", "((1+\\sqrt\x7b5\x7d)/2)"), ("left", ""), ("right", "")].findSome? fun (short, long) =>
      if short.toList = name then some long.toList else none

-- The first `taken` characters belong to a command that has given way to its meaning.
def expandFrom : Nat → List Char → List Char
  | _, [] => []
  | taken + 1, _ :: rest => expandFrom taken rest
  | 0, c :: rest =>
    if c = '\\' then
      -- A command ends only where no letter follows, so \lefty is none of these.
      let name := rest.takeWhile Char.isAlpha
      match meaning? name with
      | some long => long ++ expandFrom name.length rest
      | none => c :: expandFrom 0 rest
    else c :: expandFrom 0 rest

def expand (text : List Char) : List Char := expandFrom 0 text

def isApart (previous : Option Char) : Bool :=
  match previous with
  | none => true
  | some c => !(Lexeme.isWordChar c || c == '.')

def startsFactor (c : Char) : Bool :=
  c.isAlpha || c == Lexeme.glyph || c == '\\' || c == '('

def withSign (number : List Char) (following : Option Char) : List Char :=
  if following.any startsFactor then number ++ ['*'] else number

-- The first `taken` characters belong to a number that is written already.
def multiplyFrom (previous : Option Char) : Nat → List Char → List Char
  | _, [] => []
  | taken + 1, c :: rest => multiplyFrom (some c) taken rest
  | 0, c :: rest =>
    match Lexeme.number? (c :: rest) with
    | some number =>
      if isApart previous then
        withSign number (rest.drop number.tail.length).head? ++
          multiplyFrom (some c) number.tail.length rest
      else c :: multiplyFrom (some c) 0 rest
    | none => c :: multiplyFrom (some c) 0 rest

def multiply (text : List Char) : List Char := multiplyFrom none 0 text

end Shorthand

def normalize (text : String) : String :=
  String.ofList (Shorthand.multiply (Shorthand.expand text.toList))

end FormulaCalculator
