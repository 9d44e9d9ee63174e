import FormulaCalculator.Token.Scan

set_option autoImplicit false

namespace FormulaCalculator

def Kind.Spells (kind : Kind) (text : String) : Prop :=
  Token.scan text = [⟨kind, text, some 0⟩]

instance (kind : Kind) (text : String) : Decidable (kind.Spells text) :=
  inferInstanceAs (Decidable (_ = _))

theorem Kind.Spells.unique {kind other : Kind} {text : String} (spells : kind.Spells text)
    (also : other.Spells text) : kind = other := by
  have same := spells.symm.trans also
  simpa using same

theorem Kind.Spells.ne_empty {kind : Kind} {text : String} (spells : kind.Spells text) : text ≠ "" := by
  rintro rfl
  cases spells

namespace Lexeme

def goesOn (c d : Char) : Bool :=
  if isWordChar c || c == '.' || c == '\\' then isWordChar d || d == '.'
  else (c == '<' || c == '>' || c == '!') && d == '='

theorem isWordChar_of_isDigit {c : Char} (isDigit : c.isDigit = true) : isWordChar c = true := by
  simp [isWordChar, Char.isAlphanum, isDigit]

theorem isWordChar_of_isAlpha {c : Char} (isAlpha : c.isAlpha = true) : isWordChar c = true := by
  simp [isWordChar, Char.isAlphanum, isAlpha]

theorem isWordChar_of_isWordStart {c : Char} (starts : isWordStart c = true) :
    isWordChar c = true := by
  unfold isWordStart at starts
  unfold isWordChar Char.isAlphanum
  grind

theorem letter_range {c : Char} (isAlpha : c.isAlpha = true) :
    65 ≤ c.toNat ∧ c.toNat ≤ 90 ∨ 97 ≤ c.toNat ∧ c.toNat ≤ 122 := by
  change (decide (c.val ≥ 'A'.val ∧ c.val ≤ 'Z'.val) ||
    (decide (c.val ≥ 'a'.val) && decide (c.val ≤ 'z'.val))) = true at isAlpha
  simpa [UInt32.le_iff_toNat_le, Char.toNat_val] using isAlpha

theorem digit_range {c : Char} (isDigit : c.isDigit = true) : 48 ≤ c.toNat ∧ c.toNat ≤ 57 := by
  simpa [Char.isDigit, UInt32.le_iff_toNat_le, Char.toNat_val] using isDigit

theorem notBlank_of_isAlpha {c : Char} (isAlpha : c.isAlpha = true) : Text.isBlank c = false := by
  have letter := letter_range isAlpha
  simp only [Text.isBlank, Bool.or_eq_false_iff, Bool.and_eq_false_iff, decide_eq_false_iff_not,
    beq_eq_false_iff_ne]
  omega

theorem notBlank_of_isDigit {c : Char} (isDigit : c.isDigit = true) : Text.isBlank c = false := by
  have digit := digit_range isDigit
  simp only [Text.isBlank, Bool.or_eq_false_iff, Bool.and_eq_false_iff, decide_eq_false_iff_not,
    beq_eq_false_iff_ne]
  omega

theorem notDigit_of_isAlpha {c : Char} (isAlpha : c.isAlpha = true) : c.isDigit = false := by
  have letter := letter_range isAlpha
  rw [Bool.eq_false_iff]
  intro isDigit
  have digit := digit_range isDigit
  omega

theorem notBlank_of_isWordChar {c : Char} (inside : isWordChar c = true) : Text.isBlank c = false := by
  simp only [isWordChar, Char.isAlphanum, Bool.or_eq_true, beq_iff_eq] at inside
  rcases inside with ((isAlpha | isDigit) | rfl) | rfl
  · exact notBlank_of_isAlpha isAlpha
  · exact notBlank_of_isDigit isDigit
  · decide
  · decide

theorem goesOn_word {c d : Char} (inside : isWordChar c = true ∨ c = '.' ∨ c = '\\')
    (stops : goesOn c d = false) : isWordChar d = false ∧ d ≠ '.' := by
  have word : (isWordChar c || c == '.' || c == '\\') = true := by
    rcases inside with inside | rfl | rfl <;> simp_all
  simpa [goesOn, word] using stops

theorem goesOn_blank {c d : Char} (isBlank : Text.isBlank d = true) : goesOn c d = false := by
  have outside : isWordChar d = false := by
    rw [Bool.eq_false_iff]
    intro inside
    rw [notBlank_of_isWordChar inside] at isBlank
    cases isBlank
  have notPoint : d ≠ '.' := by
    rintro rfl
    cases isBlank
  have notEquals : d ≠ '=' := by
    rintro rfl
    cases isBlank
  simp [goesOn, outside, notPoint, notEquals]

theorem not_isDigit {d : Char} (outside : isWordChar d = false) : d.isDigit = false := by
  cases isDigit : d.isDigit with
  | false => rfl
  | true => simp [isWordChar_of_isDigit isDigit] at outside

theorem not_isAlpha {d : Char} (outside : isWordChar d = false) : d.isAlpha = false := by
  cases isAlpha : d.isAlpha with
  | false => rfl
  | true => simp [isWordChar_of_isAlpha isAlpha] at outside

theorem pairKind?_eq_none {c d : Char}
    (apart : ((c == '<' || c == '>' || c == '!') && d == '=') = false) : pairKind? c d = none := by
  unfold pairKind?
  split
  next =>
    split <;> simp_all
  next => rfl

theorem tail_digit {c : Char} (isDigit : c.isDigit = true) (rest : List Char) :
    tail c rest = (.number, numberTail rest) := by
  simp [tail, number?, isDigit]

theorem tail_point (rest : List Char) :
    tail '.' rest =
      (if rest.takeWhile Char.isDigit = [] then .dot else .number, rest.takeWhile Char.isDigit) := by
  have alone : mark '.' rest = (.dot, []) := by
    cases rest with
    | nil => rfl
    | cons d rest => simp [mark, pairKind?, markKind]
  cases digits : rest.takeWhile Char.isDigit with
  | nil => simpa [tail, number?, digits, isWordStart, glyph] using alone
  | cons d digits' => simp [tail, number?, digits]

theorem tail_word {c : Char} (notDigit : c.isDigit = false) (starts : isWordStart c = true)
    (rest : List Char) : tail c rest = (.identifier, rest.takeWhile isWordChar) := by
  have notPoint : c ≠ '.' := by
    rintro rfl
    cases starts
  simp [tail, number?, notDigit, notPoint, starts]

theorem tail_command (rest : List Char) : tail '\\' rest = (.command, rest.takeWhile Char.isAlpha) := rfl

theorem tail_mark {c : Char} (outside : isWordChar c = false) (notPoint : c ≠ '.')
    (notBackslash : c ≠ '\\') (rest : List Char) : tail c rest = mark c rest := by
  have notWord : isWordStart c = false := by
    cases starts : isWordStart c with
    | false => rfl
    | true => simp [isWordChar_of_isWordStart starts] at outside
  simp [tail, number?, not_isDigit outside, notPoint, notWord, notBackslash]

-- The five ways in which a lexeme can start.
inductive Lead (c : Char) : Prop where
  | digit (isDigit : c.isDigit = true)
  | word (notDigit : c.isDigit = false) (starts : isWordStart c = true)
  | point (isPoint : c = '.')
  | command (isBackslash : c = '\\')
  | mark (outside : isWordChar c = false) (notPoint : c ≠ '.') (notBackslash : c ≠ '\\')

theorem lead (c : Char) : Lead c := by
  by_cases point : c = '.'
  next => exact .point point
  by_cases backslash : c = '\\'
  next => exact .command backslash
  cases inside : isWordChar c with
  | false => exact .mark inside point backslash
  | true =>
    cases isDigit : c.isDigit with
    | true => exact .digit isDigit
    | false =>
      refine .word isDigit ?_
      simpa [isWordChar, isWordStart, Char.isAlphanum, isDigit] using inside

def fuses (kind : Kind) (text : List Char) (d : Char) : Bool :=
  match kind with
  | .number => d.isDigit || d == '.' && !text.contains '.'
  | .identifier => isWordChar d
  | .command => d.isAlpha
  | .dot => d.isDigit
  | _ =>
    match text with
    | [c] => (pairKind? c d).isSome
    | _ => false

theorem fuses_point {text more : List Char} {kind : Kind}
    (whole : tail '.' (text ++ more) = (kind, text)) : fuses kind ('.' :: text) = Char.isDigit := by
  rw [tail_point] at whole
  obtain ⟨isKind, isTail⟩ := Prod.mk.inj whole
  rw [isTail] at isKind
  subst isKind
  funext d
  by_cases none : text = [] <;> simp [none, fuses]

theorem mark_alone {c : Char} {more : List Char} {kind : Kind} (whole : mark c more = (kind, [])) :
    markKind c = kind := by
  cases more with
  | nil => exact (Prod.mk.inj whole).1
  | cons e more => cases pair : pairKind? c e <;> simp_all [mark]

theorem fuses_mark {c : Char} {text more : List Char} {kind : Kind} (notPoint : c ≠ '.')
    (whole : mark c (text ++ more) = (kind, text)) (d : Char) :
    fuses kind (c :: text) d = (text.isEmpty && (pairKind? c d).isSome) := by
  cases text with
  | nil =>
    obtain rfl := mark_alone whole
    unfold markKind
    split <;> first | rfl | exact absurd rfl notPoint
  | cons e text =>
    cases pair : pairKind? c e with
    | none => simp [mark, pair] at whole
    | some found =>
      obtain ⟨rfl, rfl⟩ : found = kind ∧ text = [] := by simpa [mark, pair, eq_comm] using whole
      unfold pairKind? at pair
      split at pair <;> try cases pair
      split at pair <;> cases pair <;> rfl

theorem takeWhile_append_iff {p : Char → Bool} {text more : List Char}
    (whole : (text ++ more).takeWhile p = text) (other : List Char) :
    (text ++ other).takeWhile p = text ↔ ∀ d ∈ other.head?, p d = false := by
  have all : ∀ d ∈ text, p d = true := by
    rw [← whole]
    exact List.all_eq_true.1 List.all_takeWhile
  rw [List.takeWhile_append_of_pos all]
  cases other with
  | nil => simp
  | cons d other => by_cases holds : p d = true <;> simp [holds]

theorem numberTail_append_iff {text more : List Char} (whole : numberTail (text ++ more) = text)
    (other : List Char) : numberTail (text ++ other) = text ↔
      ∀ d ∈ other.head?, (d.isDigit || d == '.' && !text.contains '.') = false := by
  induction text with
  | nil =>
    cases other with
    | nil => simp [numberTail]
    | cons d other =>
      by_cases isDigit : d.isDigit = true <;> by_cases isPoint : d = '.' <;>
        simp [numberTail, isDigit, isPoint]
  | cons c text ih =>
    rw [List.cons_append, numberTail] at whole ⊢
    by_cases isDigit : c.isDigit = true
    next =>
      have notPoint : ('.' == c) = false := by
        rw [beq_eq_false_iff_ne]
        rintro rfl
        cases isDigit
      rw [if_pos isDigit] at whole ⊢
      rw [List.cons_inj_right, ih (List.cons.inj whole).2]
      simp only [List.contains_cons, notPoint, Bool.false_or]
    next =>
      rw [if_neg isDigit] at whole ⊢
      by_cases isPoint : c = '.'
      next =>
        subst isPoint
        rw [if_pos rfl] at whole ⊢
        rw [List.cons_inj_right, takeWhile_append_iff (List.cons.inj whole).2]
        simp
      next => simp [isPoint] at whole

theorem mark_append_iff {c : Char} {text more : List Char} {kind : Kind} (notPoint : c ≠ '.')
    (whole : mark c (text ++ more) = (kind, text)) (other : List Char) :
    mark c (text ++ other) = (kind, text) ↔ ∀ d ∈ other.head?, fuses kind (c :: text) d = false := by
  simp only [fuses_mark notPoint whole]
  cases text with
  | nil =>
    obtain rfl := mark_alone whole
    cases other with
    | nil => simp [mark]
    | cons d other => cases pair : pairKind? c d <;> simp [mark, pair]
  | cons d text =>
    cases pair : pairKind? c d with
    | none => simp [mark, pair] at whole
    | some found => simpa [mark, pair] using whole

theorem tail_append_iff {c : Char} {text more : List Char} {kind : Kind}
    (whole : tail c (text ++ more) = (kind, text)) (other : List Char) :
    tail c (text ++ other) = (kind, text) ↔ ∀ d ∈ other.head?, fuses kind (c :: text) d = false := by
  cases lead c with
  | digit isDigit =>
    rw [tail_digit isDigit] at whole ⊢
    obtain ⟨rfl, isTail⟩ := Prod.mk.inj whole
    have notPoint : ('.' == c) = false := by
      rw [beq_eq_false_iff_ne]
      rintro rfl
      cases isDigit
    simp only [Prod.mk.injEq, true_and, fuses, List.contains_cons, notPoint, Bool.false_or]
    exact numberTail_append_iff isTail other
  | word notDigit starts =>
    rw [tail_word notDigit starts] at whole ⊢
    obtain ⟨rfl, isTail⟩ := Prod.mk.inj whole
    simp only [Prod.mk.injEq, true_and]
    exact takeWhile_append_iff isTail other
  | point isPoint =>
    subst isPoint
    rw [fuses_point whole]
    rw [tail_point] at whole ⊢
    obtain ⟨isKind, isTail⟩ := Prod.mk.inj whole
    rw [← takeWhile_append_iff isTail other]
    constructor
    next => exact fun same => (Prod.mk.inj same).2
    next =>
      intro same
      rw [isTail] at whole
      rwa [same]
  | command isBackslash =>
    subst isBackslash
    rw [tail_command] at whole ⊢
    obtain ⟨rfl, isTail⟩ := Prod.mk.inj whole
    simp only [Prod.mk.injEq, true_and]
    exact takeWhile_append_iff isTail other
  | mark outside notPoint notBackslash =>
    rw [tail_mark outside notPoint notBackslash] at whole ⊢
    exact mark_append_iff notPoint whole other

theorem fuses_eq_false {c d : Char} {text more : List Char} {kind : Kind}
    (whole : tail c (text ++ more) = (kind, text)) (stops : goesOn c d = false) :
    fuses kind (c :: text) d = false := by
  cases lead c with
  | digit isDigit =>
    obtain ⟨outside, notPoint⟩ := goesOn_word (.inl (isWordChar_of_isDigit isDigit)) stops
    rw [tail_digit isDigit] at whole
    cases (Prod.mk.inj whole).1
    simp [fuses, not_isDigit outside, notPoint]
  | word notDigit starts =>
    rw [tail_word notDigit starts] at whole
    cases (Prod.mk.inj whole).1
    exact (goesOn_word (.inl (isWordChar_of_isWordStart starts)) stops).1
  | point isPoint =>
    subst isPoint
    rw [fuses_point whole]
    exact not_isDigit (goesOn_word (.inr (.inl rfl)) stops).1
  | command isBackslash =>
    subst isBackslash
    rw [tail_command] at whole
    cases (Prod.mk.inj whole).1
    exact not_isAlpha (goesOn_word (.inr (.inr rfl)) stops).1
  | mark outside notPoint notBackslash =>
    rw [tail_mark outside notPoint notBackslash] at whole
    have apart : pairKind? c d = none := by
      apply pairKind?_eq_none
      simpa [goesOn, outside, notPoint, notBackslash] using stops
    simp [fuses_mark notPoint whole, apart]

end Lexeme

namespace Token

theorem scanFrom_cons {c : Char} {rest : List Char} (notBlank : Text.isBlank c = false) (pos : Nat) :
    scanFrom pos 0 (c :: rest) =
      ⟨(Lexeme.tail c rest).1, String.ofList (c :: (Lexeme.tail c rest).2), some (pos : Int)⟩ ::
        scanFrom (pos + 1) (Lexeme.tail c rest).2.length rest := by
  simp [scanFrom, notBlank]

theorem scanFrom_blank {c : Char} {rest : List Char} (blank : Text.isBlank c = true) (pos : Nat) :
    scanFrom pos 0 (c :: rest) = scanFrom (pos + 1) 0 rest := by
  simp [scanFrom, blank]

theorem scanFrom_lexeme {c : Char} {tail more : List Char} {kind : Kind}
    (notBlank : Text.isBlank c = false) (whole : Lexeme.tail c (tail ++ more) = (kind, tail)) (pos : Nat) :
    scanFrom pos 0 (c :: (tail ++ more)) =
      ⟨kind, String.ofList (c :: tail), some (pos : Int)⟩ ::
        scanFrom (pos + (tail.length + 1)) 0 more := by
  have place : pos + 1 + min tail.length (tail.length + more.length) = pos + (tail.length + 1) := by
    omega
  rw [scanFrom_cons notBlank, whole, scanFrom_taken, List.length_append, List.drop_left, place]

theorem pos_of_mem_scanFrom {token : Token} {pos taken : Nat} {text : List Char}
    (inside : token ∈ scanFrom pos taken text) :
    ∃ place : Nat, token.pos = some place ∧ pos ≤ place := by
  induction text generalizing pos taken with
  | nil => cases taken <;> simp [scanFrom] at inside
  | cons c rest ih =>
    have later {taken : Nat} (inside : token ∈ scanFrom (pos + 1) taken rest) :
        ∃ place : Nat, token.pos = some place ∧ pos ≤ place := by
      obtain ⟨place, isPlace, after⟩ := ih inside
      exact ⟨place, isPlace, by omega⟩
    cases taken with
    | succ taken => exact later inside
    | zero =>
      cases blank : Text.isBlank c with
      | true =>
        rw [scanFrom_blank blank] at inside
        exact later inside
      | false =>
        rw [scanFrom_cons blank] at inside
        rcases List.mem_cons.1 inside with rfl | inside
        next => exact ⟨pos, rfl, Nat.le_refl pos⟩
        next => exact later inside

end Token

theorem Kind.spells_iff {kind : Kind} {text : String} : kind.Spells text ↔
    ∃ c rest, text.toList = c :: rest ∧ Text.isBlank c = false ∧ Lexeme.tail c rest = (kind, rest) := by
  unfold Spells Token.scan
  constructor
  case mp =>
    intro spells
    cases chars : text.toList with
    | nil => simp [chars, Token.scanFrom] at spells
    | cons c rest =>
      rw [chars] at spells
      cases blank : Text.isBlank c with
      | true =>
        rw [Token.scanFrom_blank blank] at spells
        have inside : (⟨kind, text, some 0⟩ : Token) ∈ Token.scanFrom (0 + 1) 0 rest := by simp [spells]
        obtain ⟨place, isPlace, after⟩ := Token.pos_of_mem_scanFrom inside
        simp at isPlace
        omega
      | false =>
        rw [Token.scanFrom_cons blank] at spells
        simp only [List.cons.injEq, Token.mk.injEq] at spells
        obtain ⟨⟨isKind, isText, -⟩, -⟩ := spells
        have whole : c :: (Lexeme.tail c rest).2 = c :: rest := by
          rw [← chars, ← isText, String.toList_ofList]
        exact ⟨c, rest, rfl, blank, Prod.ext isKind (List.cons.inj whole).2⟩
  case mpr =>
    rintro ⟨c, rest, chars, blank, whole⟩
    have same : String.ofList (c :: rest) = text := by rw [← chars, String.ofList_toList]
    rw [chars, Token.scanFrom_cons blank, whole]
    have ended : Token.scanFrom 1 rest.length rest = [] := by
      rw [Token.scanFrom_taken, List.drop_length]
      rfl
    simp [same, ended]

def Kind.spelling? : Kind → Option String
  | plus => "+"
  | minus => "-"
  | multiply => "*"
  | divide => "/"
  | power => "^"
  | equals => "="
  | leftParen => "("
  | rightParen => ")"
  | leftBracket => "["
  | rightBracket => "]"
  | leftBrace => "\x7b"
  | rightBrace => "\x7d"
  | comma => ","
  | semicolon => ";"
  | dot => "."
  | lessThan => "<"
  | greaterThan => ">"
  | lessEqual => "<="
  | greaterEqual => ">="
  | notEqual => "!="
  | number | identifier | command | unknown | endOfInput | other _ => none

theorem Lexeme.spelling_of_mark {c : Char} {rest : List Char} {kind : Kind} {spelling : String}
    (whole : mark c rest = (kind, rest)) (fixed : kind.spelling? = some spelling) :
    String.ofList (c :: rest) = spelling := by
  cases rest with
  | nil =>
    obtain rfl : markKind c = kind := (Prod.mk.inj whole).1
    unfold markKind at fixed
    split at fixed <;> cases fixed <;> rfl
  | cons d rest =>
    cases pair : pairKind? c d with
    | none => simp [mark, pair] at whole
    | some found =>
      obtain ⟨rfl, rfl⟩ : found = kind ∧ rest = [] := by simpa [mark, pair, eq_comm] using whole
      unfold pairKind? at pair
      split at pair <;> try cases pair
      next isEquals =>
        subst isEquals
        split at pair <;> cases pair <;> cases fixed <;> rfl

theorem Lexeme.spelling_of_tail {c : Char} {rest : List Char} {kind : Kind} {spelling : String}
    (whole : tail c rest = (kind, rest)) (fixed : kind.spelling? = some spelling) :
    String.ofList (c :: rest) = spelling := by
  cases lead c with
  | digit isDigit =>
    rw [tail_digit isDigit] at whole
    cases (Prod.mk.inj whole).1
    cases fixed
  | word notDigit starts =>
    rw [tail_word notDigit starts] at whole
    cases (Prod.mk.inj whole).1
    cases fixed
  | point isPoint =>
    subst isPoint
    rw [tail_point] at whole
    by_cases digits : rest.takeWhile Char.isDigit = []
    case pos =>
      obtain ⟨rfl, rfl⟩ : Kind.dot = kind ∧ [] = rest := by simpa [digits] using whole
      cases fixed
      rfl
    case neg =>
      rw [if_neg digits] at whole
      cases (Prod.mk.inj whole).1
      cases fixed
  | command isBackslash =>
    subst isBackslash
    cases (Prod.mk.inj whole).1
    cases fixed
  | mark outside notPoint notBackslash =>
    rw [tail_mark outside notPoint notBackslash] at whole
    exact spelling_of_mark whole fixed

theorem Kind.spells_iff_of_spelling {kind : Kind} {spelling : String}
    (fixed : kind.spelling? = some spelling) (text : String) :
    kind.Spells text ↔ text = spelling := by
  constructor
  case mp =>
    intro spells
    obtain ⟨c, rest, chars, -, whole⟩ := Kind.spells_iff.1 spells
    rw [← Lexeme.spelling_of_tail whole fixed, ← chars, String.ofList_toList]
  case mpr =>
    rintro rfl
    cases kind <;> cases fixed <;> rfl

namespace Token

theorem spells_of_mem_scanFrom {token : Token} {pos taken : Nat} {text : List Char}
    (inside : token ∈ scanFrom pos taken text) : token.kind.Spells token.text := by
  induction text generalizing pos taken with
  | nil => cases taken <;> simp [scanFrom] at inside
  | cons c rest ih =>
    cases taken with
    | succ taken => exact ih inside
    | zero =>
      cases blank : Text.isBlank c with
      | true =>
        rw [scanFrom_blank blank] at inside
        exact ih inside
      | false =>
        rw [scanFrom_cons blank] at inside
        rcases List.mem_cons.1 inside with rfl | inside
        next =>
          obtain ⟨more, same⟩ := Lexeme.tail_begins c rest
          have whole : Lexeme.tail c ((Lexeme.tail c rest).2 ++ more) =
              ((Lexeme.tail c rest).1, (Lexeme.tail c rest).2) := by rw [same]
          have alone := (Lexeme.tail_append_iff whole []).2 (by simp)
          rw [List.append_nil] at alone
          exact Kind.spells_iff.2 ⟨c, _, String.toList_ofList, blank, alone⟩
        next => exact ih inside

theorem spells_of_mem_scan {token : Token} {text : String} (inside : token ∈ scan text) :
    token.kind.Spells token.text :=
  spells_of_mem_scanFrom inside

theorem scanFrom_append {kind : Kind} {piece : String} {next : List Char} (spells : kind.Spells piece)
    (stops : ∀ c ∈ piece.toList.head?, ∀ d ∈ next.head?, Lexeme.goesOn c d = false) (pos : Nat) :
    scanFrom pos 0 (piece.toList ++ next) =
      ⟨kind, piece, some (pos : Int)⟩ :: scanFrom (pos + piece.toList.length) 0 next := by
  obtain ⟨c, rest, chars, notBlank, whole⟩ := Kind.spells_iff.1 spells
  have same : String.ofList (c :: rest) = piece := by rw [← chars, String.ofList_toList]
  rw [chars] at stops ⊢
  have alone : Lexeme.tail c (rest ++ []) = (kind, rest) := by rw [List.append_nil, whole]
  have longer := (Lexeme.tail_append_iff alone next).2 fun d isFirst =>
    Lexeme.fuses_eq_false alone (stops c rfl d isFirst)
  rw [List.cons_append, scanFrom_lexeme notBlank longer, same, List.length_cons]

end Token

end FormulaCalculator
