set_option autoImplicit false

namespace FormulaCalculator.Text

def isBlank (c : Char) : Bool :=
  let n := c.toNat
  (0x09 <= n && n <= 0x0D) || (0x1C <= n && n <= 0x20) || n == 0x85 || n == 0xA0 || n == 0x1680 ||
    (0x2000 <= n && n <= 0x200A) || n == 0x2028 || n == 0x2029 || n == 0x202F || n == 0x205F ||
    n == 0x3000

def strip (text : List Char) : List Char :=
  ((text.dropWhile isBlank).reverse.dropWhile isBlank).reverse

def lines : List Char → List (List Char)
  | [] => []
  | '\r' :: '\n' :: rest => [] :: lines rest
  | '\r' :: rest => [] :: lines rest
  | '\n' :: rest => [] :: lines rest
  | c :: rest =>
    match lines rest with
    | [] => [[c]]
    | line :: more => (c :: line) :: more

def endsLine (c : Char) : Bool := c == '\n' || c == '\r'

def upToEnd (text : List Char) : List Char :=
  (text.reverse.dropWhile (!endsLine ·)).reverse

-- The lines of a text that are whole where more could follow. A carriage return at the very end does not make
-- one yet, for a line feed may belong to it.
def settled (text : List Char) : List Char :=
  upToEnd (if text.getLast? = some '\r' then text.dropLast else text)

end FormulaCalculator.Text
