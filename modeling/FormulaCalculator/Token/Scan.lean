import FormulaCalculator.Text.Blank
import FormulaCalculator.Token.Basic

set_option autoImplicit false

namespace FormulaCalculator

namespace Lexeme

def glyph : Char := 'π'

def isWordStart (c : Char) : Bool := c.isAlpha || c == '_' || c == glyph

def isWordChar (c : Char) : Bool := c.isAlphanum || c == '_' || c == glyph

def numberTail : List Char → List Char
  | [] => []
  | c :: rest =>
    if c.isDigit then c :: numberTail rest
    -- The point belongs to the number also where no digit follows it.
    else if c = '.' then c :: rest.takeWhile Char.isDigit
    else []

def number? : List Char → Option (List Char)
  | [] => none
  | c :: rest =>
    if c.isDigit then some (c :: numberTail rest)
    else if c = '.' then
      match rest.takeWhile Char.isDigit with
      | [] => none
      | digits => some (c :: digits)
    else none

def markKind (c : Char) : Kind :=
  match c with
  | '+' => .plus
  | '-' => .minus
  | '*' => .multiply
  | '/' => .divide
  | '^' => .power
  | '=' => .equals
  | '(' => .leftParen
  | ')' => .rightParen
  | '[' => .leftBracket
  | ']' => .rightBracket
  | '{' => .leftBrace
  | '}' => .rightBrace
  | ',' => .comma
  | ';' => .semicolon
  | '.' => .dot
  | '<' => .lessThan
  | '>' => .greaterThan
  | _ => .unknown

def pairKind? (c d : Char) : Option Kind :=
  if d = '=' then
    match c with
    | '<' => some .lessEqual
    | '>' => some .greaterEqual
    | '!' => some .notEqual
    | _ => none
  else none

def mark (c : Char) (rest : List Char) : Kind × List Char :=
  match rest with
  | d :: _ =>
    match pairKind? c d with
    | some kind => (kind, [d])
    | none => (markKind c, [])
  | [] => (markKind c, [])

def tail (c : Char) (rest : List Char) : Kind × List Char :=
  match number? (c :: rest) with
  | some text => (.number, text.tail)
  | none =>
    if isWordStart c then (.identifier, rest.takeWhile isWordChar)
    else if c = '\\' then (.command, rest.takeWhile Char.isAlpha)
    else mark c rest

theorem numberTail_begins (rest : List Char) : numberTail rest <+: rest := by
  induction rest with
  | nil => simp [numberTail]
  | cons c rest ih =>
    unfold numberTail
    split
    next => exact (List.prefix_cons_inj c).2 ih
    next =>
      split
      next => exact (List.prefix_cons_inj c).2 <| List.takeWhile_prefix _
      next => exact List.nil_prefix

theorem number?_begins {text number : List Char} (found : number? text = some number) :
    number <+: text ∧ number ≠ [] := by
  cases text with
  | nil => simp [number?] at found
  | cons c rest =>
    simp only [number?] at found
    split at found
    next =>
      cases found
      exact ⟨(List.prefix_cons_inj c).2 (numberTail_begins rest), by simp⟩
    next =>
      split at found
      next =>
        split at found
        next => cases found
        next digits _ =>
          cases found
          exact ⟨(List.prefix_cons_inj c).2 <| List.takeWhile_prefix _, by simp⟩
      next => cases found

theorem mark_begins (c : Char) (rest : List Char) : (mark c rest).2 <+: rest := by
  unfold mark
  split
  next d more =>
    split
    next => exact ⟨more, rfl⟩
    next => exact List.nil_prefix
  next => exact List.nil_prefix

theorem tail_begins (c : Char) (rest : List Char) : (tail c rest).2 <+: rest := by
  unfold tail
  split
  next number found =>
    obtain ⟨⟨more, same⟩, _⟩ := number?_begins found
    cases number with
    | nil => exact List.nil_prefix
    | cons d digits => exact ⟨more, by simpa using (List.cons.inj same).2⟩
  next =>
    split
    next => exact List.takeWhile_prefix _
    next =>
      split
      next => exact List.takeWhile_prefix _
      next => exact mark_begins c rest

end Lexeme

namespace Token

-- The text starts at `pos`, and its first `taken` characters belong to a token already found.
def scanFrom (pos : Nat) : Nat → List Char → List Token
  | _, [] => []
  | taken + 1, _ :: rest => scanFrom (pos + 1) taken rest
  | 0, c :: rest =>
    if Text.isBlank c then scanFrom (pos + 1) 0 rest
    else
      let (kind, tail) := Lexeme.tail c rest
      ⟨kind, String.ofList (c :: tail), some pos⟩ :: scanFrom (pos + 1) tail.length rest

theorem scanFrom_taken (pos taken : Nat) (text : List Char) :
    scanFrom pos taken text = scanFrom (pos + min taken text.length) 0 (text.drop taken) := by
  induction text generalizing pos taken with
  | nil => cases taken <;> simp [scanFrom]
  | cons c rest ih =>
    cases taken with
    | zero => simp
    | succ taken =>
      rw [scanFrom, ih]
      have place : pos + 1 + min taken rest.length = pos + min (taken + 1) (c :: rest).length := by
        simp only [List.length_cons]
        omega
      rw [place, List.drop_succ_cons]

def scan (text : String) : List Token :=
  scanFrom 0 0 text.toList

end Token

end FormulaCalculator
