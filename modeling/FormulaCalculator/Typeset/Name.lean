set_option autoImplicit false

namespace FormulaCalculator.Typeset

def braced (text : String) : String := "\x7b" ++ text ++ "\x7d"

def command (name text : String) : String := "\\" ++ name ++ braced text

namespace Name

def greek : List String :=
  ["alpha", "beta", "gamma", "delta", "epsilon", "zeta", "eta", "theta", "iota", "kappa", "lambda",
    "mu", "nu", "xi", "omicron", "pi", "rho", "sigma", "tau", "upsilon", "phi", "chi", "psi",
    "omega"]

def special : List (String × String) :=
  [("Alpha", command "mathrm" "A"), ("Beta", command "mathrm" "B"), ("Gamma", "\\Gamma"),
    ("Delta", "\\Delta"), ("Epsilon", command "mathrm" "E"), ("Zeta", command "mathrm" "Z"),
    ("Eta", command "mathrm" "H"), ("Theta", "\\Theta"), ("Iota", command "mathrm" "I"),
    ("Kappa", command "mathrm" "K"), ("Lambda", "\\Lambda"), ("Mu", command "mathrm" "M"),
    ("Nu", command "mathrm" "N"), ("Xi", "\\Xi"), ("omicron", "o"),
    ("Omicron", command "mathrm" "O"), ("Pi", "\\Pi"), ("Rho", command "mathrm" "P"),
    ("Sigma", "\\Sigma"), ("Tau", command "mathrm" "T"), ("Upsilon", "\\Upsilon"),
    ("Phi", "\\Phi"), ("Chi", command "mathrm" "X"), ("Psi", "\\Psi"), ("Omega", "\\Omega"),
    ("lamda", "\\lambda"), ("Lamda", "\\Lambda"), ("khi", "\\chi"), ("Khi", command "mathrm" "X"),
    ("varepsilon", "\\varepsilon"), ("varkappa", "\\varkappa"), ("varphi", "\\varphi"),
    ("varpi", "\\varpi"), ("varrho", "\\varrho"), ("varsigma", "\\varsigma"),
    ("vartheta", "\\vartheta")]

def letterlike : List String :=
  ["aleph", "beth", "daleth", "gimel", "ell", "eth", "hbar", "hslash", "mho", "wp"]

-- The longest come first.
def decorations : List (String × (String → String)) :=
  [("mathring", command "mathring"), ("ddddot", command "ddddot"), ("dddot", command "dddot"),
    ("check", command "check"), ("breve", command "breve"), ("acute", command "acute"),
    ("grave", command "grave"), ("tilde", command "tilde"), ("prime", fun s => braced s ++ "'"),
    ("ddot", command "ddot"), ("bold", command "boldsymbol"), ("frak", command "mathfrak"),
    ("norm", fun s => "\\left\\|" ++ braced s ++ "\\right\\|"), ("dot", command "dot"),
    ("hat", command "hat"), ("bar", command "bar"), ("vec", command "vec"),
    ("prm", fun s => braced s ++ "'"), ("cal", command "mathcal"), ("scr", command "mathscr"),
    ("avg", fun s => "\\left\\langle" ++ braced s ++ "\\right\\rangle"),
    ("abs", fun s => "\\left|" ++ braced s ++ "\\right|"),
    ("mag", fun s => "\\left|" ++ braced s ++ "\\right|"), ("bm", command "boldsymbol")]

def decoration? (name : List Char) : Option ((String → String) × Nat) :=
  decorations.findSome? fun (ending, decorate) =>
    let length := ending.toList.length
    if length < name.length ∧ (name.drop (name.length - length)).map Char.toLower = ending.toList then
      some (decorate, name.length - length)
    else none

def letters : Nat → List Char → String
  | fuel, name =>
    let text := String.ofList name
    match special.lookup text with
    | some written => written
    | none =>
      let lower := String.ofList (name.map Char.toLower)
      if greek.contains lower then "\\" ++ lower
      else if letterlike.contains text then "\\" ++ text
      else
        match fuel, decoration? name with
        | fuel + 1, some (decorate, rest) => decorate (letters fuel (name.take rest))
        | _, _ => text

-- One or two underscores begin a part.
def parts : Nat → List Char → List (List Char)
  | 0, _ | _, [] => []
  | fuel + 1, c :: rest =>
    let opening := if c = '_' ∧ rest.head? = some '_' then 1 else 0
    let body := (rest.drop opening).takeWhile (· != '_')
    (c :: rest.take opening ++ body) :: parts fuel (rest.drop (opening + body.length))

def split? (name : List Char) : Option (List Char × List Char) :=
  let digits := (name.reverse.takeWhile Char.isDigit).reverse
  let front := name.take (name.length - digits.length)
  if front.isEmpty || digits.isEmpty || front.any (fun c => c.isDigit || c == '_') then none
  else some (front, digits)

def written (name : List Char) : String := letters name.length name

def joined (parts : List (List Char)) : String :=
  braced (" ".intercalate (parts.map written))

def typeset (text : String) : String :=
  let name := text.toList
  match parts name.length name with
  | [] => text
  | first :: more =>
    let raised := (more.filter fun part => part.take 2 == ['_', '_']).map (List.drop 2)
    let lowered := (more.filter fun part => part.take 2 != ['_', '_']).map (List.drop 1)
    -- Digits at the end of the first part are the first index below.
    let (base, lowered) := match split? first with
      | some (front, digits) => (front, digits :: lowered)
      | none => (first, lowered)
    written base ++ (if raised.isEmpty then "" else "^" ++ joined raised) ++
      (if lowered.isEmpty then "" else "_" ++ joined lowered)

def knownFunctions : List String :=
  ["arcsin", "arccos", "arctan", "sin", "cos", "tan", "sinh", "cosh", "tanh", "sqrt", "ln", "log",
    "sec", "csc", "cot", "coth", "re", "im", "frac", "root", "arg"]

def function (name : String) : String :=
  let text := typeset name
  let chars := text.toList
  let word := chars.takeWhile fun c => c != '^' && c != '_'
  if knownFunctions.contains text then "\\" ++ text
  else if chars.length = 1 || chars.head? == some '\\' || (word.length = 1 && word.length < chars.length)
  then text
  else command "operatorname" (String.ofList word) ++ String.ofList (chars.drop word.length)

end Name

end FormulaCalculator.Typeset
