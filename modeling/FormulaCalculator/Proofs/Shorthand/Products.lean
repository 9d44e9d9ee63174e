import FormulaCalculator.Proofs.Shorthand.Meanings

set_option autoImplicit false

namespace FormulaCalculator

namespace Lexeme

theorem mark_ne_number (c : Char) (rest : List Char) : (mark c rest).1 ≠ .number := by
  have single : markKind c ≠ .number := by
    unfold markKind
    split <;> decide
  unfold mark
  split
  next d more =>
    cases pair : pairKind? c d with
    | none => exact single
    | some kind =>
      unfold pairKind? at pair
      split at pair <;> try cases pair
      split at pair <;> cases pair <;> simp
  next => exact single

theorem number?_eq (c : Char) (rest : List Char) :
    number? (c :: rest) =
      if (tail c rest).1 = .number then some (c :: (tail c rest).2) else none := by
  cases lead c with
  | digit isDigit => simp [tail_digit isDigit, number?, isDigit]
  | word notDigit starts =>
    have notPoint : c ≠ '.' := by
      rintro rfl
      cases starts
    simp [tail_word notDigit starts, number?, notDigit, notPoint]
  | point isPoint =>
    subst isPoint
    cases digits : rest.takeWhile Char.isDigit <;> simp [tail_point, number?, digits]
  | command isBackslash =>
    subst isBackslash
    simp [tail_command, number?]
  | mark outside notPoint notBackslash =>
    have isMark := tail_mark outside notPoint notBackslash rest
    simp [isMark, mark_ne_number, number?, not_isDigit outside, notPoint]

theorem Form.plain {kind : Kind} {text : List Char} (form : Form kind text)
    (notSolid : isSolid kind = false) : ∀ c ∈ text, c.isDigit = false ∧ c ≠ '.' := by
  cases form with
  | whole | decimal | places | name => cases notSolid
  | command all =>
    refine List.forall_mem_cons.2 ⟨by decide, fun d inside => ⟨notDigit_of_isAlpha (all d inside), ?_⟩⟩
    rintro rfl
    cases all _ inside
  | mark fixed => cases kind <;> cases fixed <;> first | cases notSolid; done | simp
  | strange strange =>
    refine List.forall_mem_singleton.2 ⟨strange.notDigit, ?_⟩
    rintro rfl
    exact strange.noMark .dot rfl

end Lexeme

namespace Shorthand

def sign : Part := .lexeme .multiply ['*']

def takesSign (previous : Option Char) (part : Part) (next : Option Char) : Bool :=
  match part with
  | .lexeme .number _ => isApart previous && next.any startsFactor
  | _ => false

def signed (previous : Option Char) : List Part → List Part
  | [] => []
  | part :: parts =>
    let later := signed part.chars.getLast? parts
    if takesSign previous part (Part.text parts).head? then part :: sign :: later else part :: later

theorem multiplyFrom_cons {previous : Option Char} {c : Char} {rest : List Char}
    (passes : isApart previous = false ∨ Lexeme.number? (c :: rest) = none) :
    multiplyFrom previous 0 (c :: rest) = c :: multiplyFrom (some c) 0 rest := by
  rw [multiplyFrom]
  cases found : Lexeme.number? (c :: rest) with
  | none => rfl
  | some number =>
    have inside : isApart previous = false := passes.resolve_right (by simp [found])
    simp [inside]

theorem multiplyFrom_number {previous : Option Char} {c : Char} {own more : List Char}
    (found : Lexeme.number? (c :: (own ++ more)) = some (c :: own)) (apart : isApart previous = true) :
    multiplyFrom previous 0 (c :: (own ++ more)) =
      withSign (c :: own) more.head? ++ multiplyFrom (own.getLast?.or (some c)) 0 more := by
  have taken (previous : Option Char) (own : List Char) :
      multiplyFrom previous own.length (own ++ more) =
        multiplyFrom (own.getLast?.or previous) 0 more := by
    induction own generalizing previous with
    | nil => simp
    | cons d own ih => simp [multiplyFrom, ih, List.getLast?_cons]
  rw [multiplyFrom]
  simp [found, apart, taken]

theorem multiplyFrom_plain {own : List Char} (plain : ∀ d ∈ own, d.isDigit = false ∧ d ≠ '.')
    (previous : Option Char) (more : List Char) :
    multiplyFrom previous 0 (own ++ more) = own ++ multiplyFrom (own.getLast?.or previous) 0 more := by
  induction own generalizing previous with
  | nil => simp
  | cons d own ih =>
    obtain ⟨⟨notDigit, notPoint⟩, later⟩ := List.forall_mem_cons.1 plain
    rw [List.cons_append, multiplyFrom_cons (.inr (by simp [Lexeme.number?, notDigit, notPoint])),
      ih later]
    simp [List.getLast?_cons]

theorem multiplyFrom_blank {previous : Option Char} {c : Char} {rest : List Char}
    (isBlank : Text.isBlank c = true) :
    multiplyFrom previous 0 (c :: rest) = c :: multiplyFrom (some c) 0 rest := by
  have notDigit : c.isDigit = false := by
    by_contra isDigit
    simp [Lexeme.notBlank_of_isDigit (Bool.not_eq_false _ ▸ isDigit)] at isBlank
  have notPoint : c ≠ '.' := by
    rintro rfl
    cases isBlank
  exact multiplyFrom_cons (.inr (by simp [Lexeme.number?, notDigit, notPoint]))

theorem notApart_of_solid {c : Char} (solid : Lexeme.isWordChar c = true ∨ c = '.') :
    isApart (some c) = false := by
  rcases solid with inside | rfl
  · simp [isApart, inside]
  · decide

theorem multiplyFrom_solid {own : List Char} (solid : ∀ d ∈ own, Lexeme.isWordChar d = true ∨ d = '.')
    {previous : Option Char} (inside : isApart previous = false) (more : List Char) :
    multiplyFrom previous 0 (own ++ more) = own ++ multiplyFrom (own.getLast?.or previous) 0 more := by
  induction own generalizing previous with
  | nil => simp
  | cons d own ih =>
    obtain ⟨here, later⟩ := List.forall_mem_cons.1 solid
    rw [List.cons_append, multiplyFrom_cons (.inl inside), ih later (notApart_of_solid here)]
    simp [List.getLast?_cons]

theorem multiplyFrom_lexeme {c : Char} {own more : List Char} {kind : Kind}
    (notBlank : Text.isBlank c = false) (whole : Lexeme.tail c (own ++ more) = (kind, own))
    (previous : Option Char) :
    multiplyFrom previous 0 (c :: (own ++ more)) =
      (if takesSign previous (.lexeme kind (c :: own)) more.head? then c :: own ++ ['*'] else c :: own) ++
        multiplyFrom (c :: own).getLast? 0 more := by
  have form := Lexeme.form_of_tail notBlank whole
  have number := Lexeme.number?_eq c (own ++ more)
  rw [whole] at number
  by_cases isNumber : kind = .number
  next =>
    subst isNumber
    cases apart : isApart previous with
    | true =>
      rw [multiplyFrom_number number apart]
      simp [takesSign, apart, withSign, List.getLast?_cons]
    | false =>
      rw [← List.cons_append, multiplyFrom_solid (form.solid rfl) apart]
      simp [takesSign, apart, List.getLast?_cons]
  next =>
    have unsigned : takesSign previous (.lexeme kind (c :: own)) more.head? = false := by
      unfold takesSign
      split <;> simp_all
    rw [if_neg isNumber] at number
    rw [multiplyFrom_cons (.inr number), unsigned]
    cases isSolid : Lexeme.isSolid kind with
    | true =>
      obtain ⟨first, others⟩ := List.forall_mem_cons.1 (form.solid isSolid)
      rw [multiplyFrom_solid others (notApart_of_solid first)]
      simp [List.getLast?_cons]
    | false =>
      obtain ⟨-, others⟩ := List.forall_mem_cons.1 (form.plain isSolid)
      rw [multiplyFrom_plain others]
      simp [List.getLast?_cons]

theorem multiplyFrom_eq_text (previous : Option Char) (given : List Char) :
    multiplyFrom previous 0 given = Part.text (signed previous (Part.cut given)) := by
  induction given using Token.partInduction generalizing previous with
  | nil => rfl
  | blank c rest isBlank ih =>
    rw [multiplyFrom_blank isBlank, Part.cut_blank isBlank]
    simp [signed, takesSign, Part.chars, ih]
  | lexeme c own more kind notBlank whole ih =>
    rw [multiplyFrom_lexeme notBlank whole, Part.cut_lexeme notBlank whole, signed, Part.text_cut, ih]
    split <;> simp [Part.chars, sign]

theorem proper_signed {parts : List Part} (proper : ∀ part ∈ parts, part.Proper)
    (previous : Option Char) : ∀ part ∈ signed previous parts, part.Proper := by
  induction parts generalizing previous with
  | nil => simp [signed]
  | cons part parts ih =>
    obtain ⟨here, others⟩ := List.forall_mem_cons.1 proper
    have isSign : sign.Proper := @Lexeme.Form.mark .multiply "*" rfl
    rw [signed]
    split
    next => exact List.forall_mem_cons.2 ⟨here, List.forall_mem_cons.2 ⟨isSign, ih others _⟩⟩
    next => exact List.forall_mem_cons.2 ⟨here, ih others _⟩

theorem head?_signed (previous : Option Char) (parts : List Part) :
    (signed previous parts).head? = parts.head? := by
  cases parts with
  | nil => rfl
  | cons part parts =>
    rw [signed]
    split <;> rfl

theorem isChain_signed {parts : List Part} (apart : parts.IsChain Part.Apart) (previous : Option Char) :
    (signed previous parts).IsChain Part.Apart := by
  induction parts generalizing previous with
  | nil => exact .nil
  | cons part parts ih =>
    obtain ⟨next, others⟩ := List.isChain_cons.1 apart
    have later := ih others part.chars.getLast?
    rw [signed]
    split
    next takes =>
      have before : Part.Apart part sign := by
        unfold takesSign at takes
        split at takes
        next text =>
          intro d isFirst
          cases isFirst
          simp [Part.fuses, Lexeme.fuses]
        next => cases takes
      have after (other : Part) : Part.Apart sign other := by
        intro d _
        simp [sign, Part.fuses, Lexeme.fuses, Lexeme.pairKind?]
      rw [List.isChain_cons, List.isChain_cons]
      exact ⟨fun other isNext => by cases isNext; exact before, fun other _ => after other, later⟩
    next =>
      rw [List.isChain_cons, head?_signed]
      exact ⟨next, later⟩

theorem cut_multiply (given : List Char) :
    Part.cut (multiply given) = signed none (Part.cut given) := by
  rw [multiply, multiplyFrom_eq_text]
  exact Part.cut_text (proper_signed (Part.proper_cut given) none) (isChain_signed (Part.isChain_cut given) none)

def NoProduct (lexeme next : Kind × String) : Prop :=
  lexeme.1 = .number → ∀ d ∈ next.2.toList.head?, startsFactor d = false

def opensFactor : Kind → Bool
  | .identifier | .command | .leftParen => true
  | _ => false

theorem startsFactor_digit {d : Char} (isDigit : d.isDigit = true) : startsFactor d = false := by
  by_contra starts
  simp only [startsFactor, Bool.not_eq_false, Bool.or_eq_true, beq_iff_eq] at starts
  rcases starts with ((isAlpha | rfl) | rfl) | rfl
  · simp [Lexeme.notDigit_of_isAlpha isAlpha] at isDigit
  all_goals cases isDigit

theorem startsFactor_mark {kind : Kind} {mark : String} (fixed : kind.spelling? = some mark)
    (other : kind ≠ .leftParen) : ∀ d ∈ mark.toList.head?, startsFactor d = false := by
  cases kind <;> cases fixed <;> first | exact absurd rfl other | simp [startsFactor, Lexeme.glyph]

theorem startsFactor_form {kind : Kind} {text : List Char} (form : Lexeme.Form kind text)
    (other : opensFactor kind = false) : ∀ d ∈ text.head?, startsFactor d = false := by
  cases form with
  | whole _ all => exact fun d isFirst => startsFactor_digit (all d (List.mem_of_mem_head? isFirst))
  | decimal filled all =>
    rw [List.head?_append_of_ne_nil _ filled]
    exact fun d isFirst => startsFactor_digit (all d (List.mem_of_mem_head? isFirst))
  | places =>
    intro d isFirst
    cases isFirst
    decide
  | name | command => cases other
  | mark fixed =>
    apply startsFactor_mark fixed
    rintro rfl
    cases other
  | @strange c strange =>
    intro d isFirst
    obtain rfl : c = d := by simpa using isFirst
    have notStart := strange.notStart
    have notParen : c ≠ '(' := by
      rintro rfl
      exact strange.noMark .leftParen rfl
    simp only [Lexeme.isWordStart, Bool.or_eq_false_iff] at notStart
    simp [startsFactor, notStart, strange.notBackslash, notParen]

theorem startsFactor_blank {c : Char} (isBlank : Text.isBlank c = true) : startsFactor c = false := by
  by_contra starts
  simp only [startsFactor, Bool.not_eq_false, Bool.or_eq_true, beq_iff_eq] at starts
  rcases starts with ((isAlpha | rfl) | rfl) | rfl
  · simp [Lexeme.notBlank_of_isAlpha isAlpha] at isBlank
  all_goals cases isBlank

theorem signed_eq_self {parts : List Part} (proper : ∀ part ∈ parts, part.Proper)
    (none : (Part.lexemes parts).IsChain NoProduct) (previous : Option Char) :
    signed previous parts = parts := by
  induction parts generalizing previous with
  | nil => rfl
  | cons part parts ih =>
    obtain ⟨-, others⟩ := List.forall_mem_cons.1 proper
    have later : (Part.lexemes parts).IsChain NoProduct := by
      cases part with
      | blank c => exact none
      | lexeme kind text => exact (List.isChain_cons.1 none).2
    have unsigned : takesSign previous part (Part.text parts).head? = false := by
      unfold takesSign
      split
      next text =>
        rw [Part.head?_text others]
        cases parts with
        | nil => simp
        | cons next parts =>
          obtain ⟨first, -⟩ := List.forall_mem_cons.1 others
          cases next with
          | blank c => simp [Part.chars, startsFactor_blank first]
          | lexeme kind text =>
            have apart := (List.isChain_cons.1 none).1 _ rfl rfl
            rw [String.toList_ofList] at apart
            cases text <;> simp_all [Part.chars]
      next => rfl
    rw [signed, ih others later, unsigned]
    rfl

theorem multiply_eq_self {text : String}
    (none : ((Token.scan text).map Token.lexeme).IsChain NoProduct) :
    multiply text.toList = text.toList := by
  rw [Token.scan, ← Part.lexemes_cut] at none
  have same := cut_multiply text.toList
  rw [signed_eq_self (Part.proper_cut _) none] at same
  rw [← Part.text_cut (multiply text.toList), same, Part.text_cut]

theorem scan_normalize (text : String) :
    (Token.scan (normalize text)).map Token.lexeme =
        Part.lexemes (signed none (Part.cut (expand text.toList))) ∧
      (Part.lexemes (Part.cut (expand text.toList)) =
          ((Token.scan text).map Token.lexeme).flatMap meant ↔
        ((Part.cut text.toList).flatMap replaced).IsChain Part.Apart) := by
  constructor
  next =>
    rw [Token.scan, ← Part.lexemes_cut, normalize, String.toList_ofList, cut_multiply]
  next =>
    rw [expand_eq_text, Token.scan, ← Part.lexemes_cut, ← lexemes_replaced]
    exact Part.lexemes_cut_text_iff (proper_replacedAll (Part.proper_cut text.toList))

theorem scan_normalize_name_constant :
    (Token.scan (normalize "x\\pi")).map Token.lexeme = [(.identifier, "xπ")] ∧
      ((Token.scan "x\\pi").map Token.lexeme).flatMap meant =
        [(.identifier, "x"), (.identifier, "π")] := by
  decide

end Shorthand

end FormulaCalculator
