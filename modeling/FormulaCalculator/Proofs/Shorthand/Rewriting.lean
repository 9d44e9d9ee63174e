import FormulaCalculator.Proofs.Shorthand.Products

set_option autoImplicit false

namespace FormulaCalculator

namespace Token

def start (token : Token) : Nat := (token.pos.getD 0).toNat

def stop (token : Token) : Nat := token.start + token.text.length

def rewrittenFrom (write : Token → List Char) (text : List Char) : Nat → List Token → List Char
  | pos, [] => text.drop pos
  | pos, token :: tokens =>
    (text.take token.start).drop pos ++ write token ++ rewrittenFrom write text token.stop tokens

def rewritten (write : Token → List Char) (text : String) : List Char :=
  rewrittenFrom write text.toList 0 (scan text)

section Steps

variable {write : Token → List Char} {text before : List Char}

theorem rewrittenFrom_gap {c : Char} {pos : Nat} (isAt : text[pos]? = some c) {tokens : List Token}
    (later : ∀ token ∈ tokens.head?, pos < token.start) :
    rewrittenFrom write text pos tokens = c :: rewrittenFrom write text (pos + 1) tokens := by
  obtain ⟨within, same⟩ := List.getElem?_eq_some_iff.1 isAt
  have next : text.drop pos = c :: text.drop (pos + 1) := by
    rw [List.drop_eq_getElem_cons within, same]
  cases tokens with
  | nil => exact next
  | cons token tokens =>
    have after : pos < token.start := later token rfl
    have width : token.start - pos = token.start - (pos + 1) + 1 := by omega
    have gap : (text.take token.start).drop pos = c :: (text.take token.start).drop (pos + 1) := by
      rw [List.drop_take, List.drop_take, next, width, List.take_succ_cons]
    simp only [rewrittenFrom, gap, List.cons_append]

theorem rewrittenFrom_blank {c : Char} {rest : List Char} (whole : text = before ++ c :: rest)
    (isBlank : Text.isBlank c = true) :
    rewrittenFrom write text before.length (scanFrom before.length 0 (c :: rest)) =
      c :: rewrittenFrom write text (before ++ [c]).length (scanFrom (before ++ [c]).length 0 rest) := by
  rw [scanFrom_blank isBlank, List.length_append, List.length_singleton]
  apply rewrittenFrom_gap
  case isAt => simp [whole]
  case later =>
    intro token isFirst
    obtain ⟨place, isPlace, after⟩ := pos_of_mem_scanFrom (List.mem_of_mem_head? isFirst)
    have same : token.start = place := by simp [start, isPlace]
    omega

theorem rewrittenFrom_lexeme {c : Char} {own more : List Char} {kind : Kind}
    (notBlank : Text.isBlank c = false) (whole : Lexeme.tail c (own ++ more) = (kind, own)) :
    rewrittenFrom write text before.length (scanFrom before.length 0 (c :: (own ++ more))) =
      write ⟨kind, String.ofList (c :: own), some (before.length : Int)⟩ ++
        rewrittenFrom write text (before ++ c :: own).length
          (scanFrom (before ++ c :: own).length 0 more) := by
  rw [scanFrom_lexeme notBlank whole, rewrittenFrom]
  simp [start, stop, Nat.add_comm]

end Steps

theorem rewritten_congr {write other : Token → List Char} {text : String}
    (same : ∀ token ∈ scan text, write token = other token) : rewritten write text = rewritten other text := by
  have from_place (tokens : List Token) (pos : Nat) (same : ∀ token ∈ tokens, write token = other token) :
      rewrittenFrom write text.toList pos tokens = rewrittenFrom other text.toList pos tokens := by
    induction tokens generalizing pos with
    | nil => rfl
    | cons token tokens ih =>
      obtain ⟨here, later⟩ := List.forall_mem_cons.1 same
      rw [rewrittenFrom, rewrittenFrom, here, ih token.stop later]
  exact from_place _ 0 same

theorem rewritten_self (text : String) : rewritten (fun token => token.text.toList) text = text.toList := by
  have from_place (before given : List Char) :
      rewrittenFrom (fun token => token.text.toList) (before ++ given) before.length
        (scanFrom before.length 0 given) = given := by
    induction given using partInduction generalizing before with
    | nil => simp [scanFrom, rewrittenFrom]
    | blank c rest isBlank ih =>
      rw [rewrittenFrom_blank rfl isBlank, List.append_cons, ih]
    | lexeme c own more kind notBlank whole ih =>
      have same : before ++ c :: (own ++ more) = before ++ c :: own ++ more := by simp
      rw [rewrittenFrom_lexeme notBlank whole, same, ih]
      simp
  exact from_place [] text.toList

end Token

namespace Shorthand

def tokenMeaning? (token : Token) : Option (List Char) :=
  if token.kind = .command then meaning? token.text.toList.tail else none

def meaningText (token : Token) : List Char := (tokenMeaning? token).getD token.text.toList

def replacedText (text : String) : String := String.ofList (Token.rewritten meaningText text)

/-- A number with the second factor directly behind it, and with nothing directly before it that a name or a
number could go on from. -/
def LeadsProduct (text : String) (token : Token) : Prop :=
  token.kind = .number ∧
    (∃ d ∈ (text.toList.drop token.stop).head?, d.isAlpha = true ∨ d = 'π' ∨ d = '\\' ∨ d = '(') ∧
    ∀ c ∈ (text.toList.take token.start).getLast?,
      ¬ (c.isAlpha = true ∨ c.isDigit = true ∨ c = '_' ∨ c = '.' ∨ c = 'π')

instance (text : String) (token : Token) : Decidable (LeadsProduct text token) :=
  inferInstanceAs (Decidable (_ ∧ _))

def signedText (text : String) (token : Token) : List Char :=
  if LeadsProduct text token then token.text.toList ++ ['*'] else token.text.toList

def signedLexemes (text : String) (token : Token) : List (Kind × String) :=
  if LeadsProduct text token then [token.lexeme, (.multiply, "*")] else [token.lexeme]

theorem text_replaced (kind : Kind) (text : List Char) (pos : Option Int) :
    Part.text (replaced (.lexeme kind text)) = meaningText ⟨kind, String.ofList text, pos⟩ := by
  by_cases isCommand : kind = .command
  next =>
    subst isCommand
    cases meaning : meaning? text.tail <;>
      simp [replaced, partMeaning?, meaningText, tokenMeaning?, meaning, Part.chars]
  next =>
    have none := partMeaning?_of_ne isCommand text
    simp [replaced, none, meaningText, tokenMeaning?, isCommand, Part.chars]

theorem expand_eq_rewrittenFrom {text before given : List Char} (whole : text = before ++ given) :
    expand given =
      Token.rewrittenFrom meaningText text before.length (Token.scanFrom before.length 0 given) := by
  induction given using Token.partInduction generalizing before with
  | nil => simp [expand, expandFrom, Token.scanFrom, Token.rewrittenFrom, whole]
  | blank c rest isBlank ih =>
    have later : text = before ++ [c] ++ rest := by simp [whole]
    rw [Token.rewrittenFrom_blank whole isBlank, ← ih later, expand_blank isBlank]
  | lexeme c own more kind notBlank isLexeme ih =>
    have later : text = before ++ c :: own ++ more := by simp [whole]
    rw [Token.rewrittenFrom_lexeme notBlank isLexeme, ← ih later, ← text_replaced,
      expand_lexeme notBlank isLexeme]

theorem ofList_expand (text : String) : String.ofList (expand text.toList) = replacedText text :=
  congrArg String.ofList (expand_eq_rewrittenFrom (List.nil_append text.toList).symm)

theorem expand_eq_self_of_tokens {text : String} (plain : ∀ token ∈ Token.scan text, tokenMeaning? token = none) :
    expand text.toList = text.toList := by
  have kept : ∀ token ∈ Token.scan text, meaningText token = token.text.toList := by
    intro token inside
    rw [meaningText, plain token inside, Option.getD_none]
  have same := ofList_expand text
  rwa [replacedText, Token.rewritten_congr kept, Token.rewritten_self, String.ofList_inj] at same

theorem startsFactor_iff {d : Char} :
    startsFactor d = true ↔ d.isAlpha = true ∨ d = 'π' ∨ d = '\\' ∨ d = '(' := by
  simp [startsFactor, Lexeme.glyph, or_assoc]

theorem isApart_iff {previous : Option Char} :
    isApart previous = true ↔ ∀ c ∈ previous,
      ¬ (c.isAlpha = true ∨ c.isDigit = true ∨ c = '_' ∨ c = '.' ∨ c = 'π') := by
  cases previous with
  | none => simp [isApart]
  | some c =>
    simp only [isApart, Lexeme.isWordChar, Char.isAlphanum, Lexeme.glyph, Option.mem_some_iff, forall_eq']
    grind

theorem takesSign_iff {text : String} {before own more : List Char} {kind : Kind}
    (whole : text.toList = before ++ own ++ more) :
    takesSign before.getLast? (.lexeme kind own) more.head? = true ↔
      LeadsProduct text ⟨kind, String.ofList own, some (before.length : Int)⟩ := by
  have after : text.toList.drop (before.length + own.length) = more := by
    rw [whole, ← List.length_append, List.drop_left]
  have front : text.toList.take before.length = before := by
    rw [whole, List.append_assoc, List.take_left]
  by_cases isNumber : kind = .number
  next =>
    subst isNumber
    simp [takesSign, LeadsProduct, Token.start, Token.stop, after, front, isApart_iff, startsFactor_iff,
      Option.any_eq_true, and_comm]
  next =>
    simp only [LeadsProduct, isNumber, false_and, iff_false]
    unfold takesSign
    split <;> simp_all

theorem multiplyFrom_eq_rewrittenFrom {text : String} {before given : List Char}
    (whole : text.toList = before ++ given) :
    multiplyFrom before.getLast? 0 given =
      Token.rewrittenFrom (signedText text) text.toList before.length
        (Token.scanFrom before.length 0 given) := by
  induction given using Token.partInduction generalizing before with
  | nil => simp [multiplyFrom, Token.scanFrom, Token.rewrittenFrom, whole]
  | blank c rest isBlank ih =>
    have later : text.toList = before ++ [c] ++ rest := by simp [whole]
    rw [Token.rewrittenFrom_blank whole isBlank, ← ih later, multiplyFrom_blank isBlank]
    simp
  | lexeme c own more kind notBlank isLexeme ih =>
    have later : text.toList = before ++ c :: own ++ more := by simp [whole]
    rw [Token.rewrittenFrom_lexeme notBlank isLexeme, ← ih later, multiplyFrom_lexeme notBlank isLexeme]
    simp only [takesSign_iff later, signedText, String.toList_ofList, List.cons_append,
      List.getLast?_append, List.getLast?_cons, Option.some_or]

theorem lexemes_signed {text : String} {before given : List Char}
    (whole : text.toList = before ++ given) :
    Part.lexemes (signed before.getLast? (Part.cut given)) =
      (Token.scanFrom before.length 0 given).flatMap (signedLexemes text) := by
  induction given using Token.partInduction generalizing before with
  | nil => rfl
  | blank c rest isBlank ih =>
    have later : text.toList = before ++ [c] ++ rest := by simp [whole]
    have next := ih later
    rw [List.length_append, List.length_singleton, List.getLast?_concat] at next
    rw [Part.cut_blank isBlank, Token.scanFrom_blank isBlank, ← next]
    rfl
  | lexeme c own more kind notBlank isLexeme ih =>
    have later : text.toList = before ++ c :: own ++ more := by simp [whole]
    have next := ih later
    rw [List.length_append, List.length_cons, List.getLast?_append, List.getLast?_cons, Option.some_or] at next
    rw [Part.cut_lexeme notBlank isLexeme, Token.scanFrom_lexeme notBlank isLexeme, List.flatMap_cons, ← next,
      signed, Part.text_cut]
    simp only [takesSign_iff later, signedLexemes, Part.chars, List.getLast?_cons]
    split <;> rfl

theorem normalize_eq_rewritten (text : String) :
    normalize text =
        String.ofList (Token.rewritten (signedText (replacedText text)) (replacedText text)) ∧
      (Token.scan (normalize text)).map Token.lexeme =
        (Token.scan (replacedText text)).flatMap (signedLexemes (replacedText text)) := by
  have given : expand text.toList = (replacedText text).toList := by
    rw [← ofList_expand, String.toList_ofList]
  have start : (replacedText text).toList = [] ++ (replacedText text).toList := (List.nil_append _).symm
  constructor
  next =>
    have signs := multiplyFrom_eq_rewrittenFrom start
    rw [List.getLast?_nil, List.length_nil] at signs
    rw [normalize, given, multiply, signs, Token.rewritten, Token.scan]
  next =>
    have lexemes := lexemes_signed start
    rw [List.getLast?_nil, List.length_nil] at lexemes
    rw [Token.scan, ← Part.lexemes_cut, normalize, String.toList_ofList, cut_multiply, given, lexemes,
      Token.scan]

example : normalize "1.2.3x+2\\pi y_2(a) 7\\left(b" = "1.2.3x+2*π y_2(a) 7*(b" := by decide

end Shorthand

end FormulaCalculator
