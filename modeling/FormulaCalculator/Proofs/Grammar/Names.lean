import FormulaCalculator.Evaluate
import FormulaCalculator.Proofs.Expr.Stable

set_option autoImplicit false

namespace FormulaCalculator

def Token.isVariable (token : Token) : Bool :=
  token.kind == .identifier && !Expr.constants.contains token.text

def Token.freeNames (tokens : List Token) : List String :=
  (tokens.filter isVariable).map Token.text

namespace Token

variable {token : Token}

theorem freeNames_ident (isIdent : token.kind = .identifier) (tokens : List Token) :
    freeNames (token :: tokens) = (Expr.ident token.text).freeNames ++ freeNames tokens := by
  by_cases isConstant : token.text ∈ Expr.constants <;>
    simp [freeNames, isVariable, Expr.freeNames, isIdent, isConstant]

theorem freeNames_other {kind : Kind} (isKind : token.kind = kind) (other : kind ≠ .identifier)
    (tokens : List Token) : freeNames (token :: tokens) = freeNames tokens := by
  simp [freeNames, isVariable, isKind, other]

theorem freeNames_operator (isOperator : token.kind.isOperator = true) (tokens : List Token) :
    freeNames (token :: tokens) = freeNames tokens := by
  apply freeNames_other rfl
  intro isIdent
  rw [isIdent] at isOperator
  cases isOperator

theorem mem_freeNames {tokens : List Token} {name : String} :
    name ∈ freeNames tokens ↔ ∃ token ∈ tokens, token.isVariable = true ∧ token.text = name := by
  simp [freeNames, and_assoc]

theorem isEmpty_freeNames (tokens : List Token) :
    (freeNames tokens).isEmpty = !tokens.any isVariable := by
  rw [Bool.eq_iff_iff]
  simp [freeNames, List.filter_eq_nil_iff]

end Token

namespace Grammar

open Token (freeNames_ident freeNames_other freeNames_operator)

-- What was read has the variables that come before `after`.
def Phrase.Names (before after : List String) : Phrase → Prop
  | expression expr | chain _ expr | exponent expr | primary _ expr | group expr =>
    before = expr.freeNames ++ after
  | links _ lhs expr => lhs.freeNames ++ before = expr.freeNames ++ after
  | groups exprs | list exprs | items exprs => before = Expr.freeNamesAll exprs ++ after
  | cells row rows => before = Expr.freeNamesAll row ++ Expr.freeNamesRows rows ++ after

theorem Level.names_operand {level : Level} {expr : Expr} {before after : List String} :
    (level.operand expr).Names before after ↔ before = expr.freeNames ++ after := by
  cases level <;> rfl

theorem Level.freeNames_join (level : Level) (op : String) (lhs rhs : Expr) :
    (level.join op lhs rhs).freeNames = lhs.freeNames ++ rhs.freeNames := by
  cases level <;> rfl

theorem Derives.names {tokens rest : List Token} {phrase : Phrase}
    (derived : Derives tokens rest phrase) :
    phrase.Names (Token.freeNames tokens) (Token.freeNames rest) := by
  -- Only the rule of an identifier meets one: all other tokens that a rule takes are left out on both sides.
  induction derived with
  | expression _ _ ih | assignment _ ih | base _ ih => exact ih
  | chain _ _ operand links =>
    rw [Level.names_operand] at operand
    exact operand.trans links
  | unlinked => rfl
  | @link level op _ _ _ lhs rhs _ joins _ _ operand links =>
    rw [Level.names_operand] at operand
    simp only [Phrase.Names, Level.freeNames_join, List.append_assoc] at links ⊢
    rw [freeNames_operator (Level.isOperator joins), operand, links]
  | power _ raises _ base raised =>
    simp only [Phrase.Names, freeNames_other raises (by decide)] at base raised ⊢
    rw [base, raised, Expr.freeNames, List.append_assoc]
  | number isNumber => exact freeNames_other isNumber (by decide) _
  | ident isIdent => exact freeNames_ident isIdent _
  | sign isSign _ ih => exact (freeNames_operator (@Level.isOperator .sum _ isSign) _).trans ih
  | paren opens _ closes ih | array opens _ closes ih =>
    rw [freeNames_other closes (by decide)] at ih
    exact (freeNames_other opens (by decide) _).trans ih
  | emptyArray opens closes | emptyMatrix opens closes =>
    exact (freeNames_other opens (by decide) _).trans (freeNames_other closes (by decide) _)
  | matrix opens _ _ closes first more =>
    simp only [Phrase.Names, freeNames_other closes (by decide)] at first more ⊢
    rw [freeNames_other opens (by decide), first, more]
    simp [Expr.freeNames, Expr.freeNamesRows, Expr.freeNamesAll]
  | fraction isCommand _ _ _ above below =>
    simp only [Phrase.Names] at above below ⊢
    rw [freeNames_other isCommand (by decide), above, below]
    simp [Expr.freeNames, Expr.freeNamesAll]
  | callGroups isCommand _ _ _ first more =>
    simp only [Phrase.Names] at first more ⊢
    rw [freeNames_other isCommand (by decide), first, more]
    simp [Expr.freeNames, Expr.freeNamesAll]
  | callEmpty isCommand _ opens closes =>
    simp only [Phrase.Names]
    rw [freeNames_other isCommand (by decide), freeNames_other opens (by decide),
      freeNames_other closes (by decide)]
    rfl
  | callList isCommand _ opens _ closes ih =>
    rw [freeNames_other closes (by decide)] at ih
    simp only [Phrase.Names] at ih ⊢
    rw [freeNames_other isCommand (by decide), freeNames_other opens (by decide), ih]
    rfl
  | callBare isCommand _ _ _ ih =>
    simp only [Phrase.Names] at ih ⊢
    rw [freeNames_other isCommand (by decide), ih]
    simp [Expr.freeNames, Expr.freeNamesAll]
  | group opens _ closes ih =>
    rw [freeNames_other closes (by decide)] at ih
    exact (freeNames_other opens (by decide) _).trans ih
  | noGroups | noItems | noCells => rfl
  | groups _ _ first more | list _ _ first more =>
    simp only [Phrase.Names] at first more ⊢
    rw [first, more, Expr.freeNamesAll, List.append_assoc]
  | items divides _ _ first more =>
    simp only [Phrase.Names] at first more ⊢
    rw [freeNames_other divides (by decide), first, more, Expr.freeNamesAll, List.append_assoc]
  | cell divides _ _ first more | row divides _ _ first more =>
    simp only [Phrase.Names] at first more ⊢
    rw [freeNames_other divides (by decide), first, more]
    simp [Expr.freeNamesAll, Expr.freeNamesRows]

theorem freeNames_of_parse [Stack] {tokens : List Token} {expr : Expr} (parsed : parse tokens = .ok expr) :
    expr.freeNames = Token.freeNames tokens := by
  have names := (derives_of_parseWithin parsed).names
  simpa [Phrase.Names, Token.freeNames] using names.symm

end Grammar

theorem Expr.mem_variableNames {expr : Expr} {name : String} :
    name ∈ expr.variableNames ↔ name ∈ expr.freeNames := by
  simp [variableNames, List.mem_eraseDups]

theorem engine_of_result [Stack] {evaluator : Evaluator} {settings : Settings} {text : String}
    {formula : Formula} {result : Result} (translated : Formula.ofText text = .ok formula)
    (evaluated : evaluateBy evaluator settings text = .ok (.result result)) :
    result.engine = engineFor formula.hasVariables := by
  unfold evaluateBy at evaluated
  rw [translated] at evaluated
  have response := Except.ok.inj evaluated
  unfold Formula.evaluateBy at response
  cases found : evaluator settings formula <;> rw [found] at response <;> cases response
  rfl

namespace Grammar

theorem engine_of_tokens [Stack] {text : String} {formula : Formula}
    (translated : Formula.ofText text = .ok formula) :
    formula.expr.freeNames = Token.freeNames (Token.scan (normalize text)) ∧
    (∀ name, name ∈ formula.expr.variableNames ↔
      ∃ token ∈ Token.scan (normalize text), token.isVariable = true ∧ token.text = name) ∧
    formula.hasVariables = (Token.scan (normalize text)).any Token.isVariable ∧
    ∀ evaluator settings result, evaluateBy evaluator settings text = .ok (.result result) →
      result.engine =
        if (Token.scan (normalize text)).any Token.isVariable then .symbolic else .numeric := by
  obtain ⟨parsed, -⟩ := parseText_of_ofText translated
  have names : formula.expr.freeNames = Token.freeNames (Token.scan (normalize text)) :=
    freeNames_of_parse parsed
  have flag : formula.hasVariables = (Token.scan (normalize text)).any Token.isVariable := by
    rw [(flat_of_ofText translated).2, Expr.hasVariables, names, Token.isEmpty_freeNames, Bool.not_not]
  refine ⟨names, ?_, flag, ?_⟩
  next =>
    intro name
    rw [Expr.mem_variableNames, names, Token.mem_freeNames]
  next =>
    intro evaluator settings result evaluated
    rw [engine_of_result translated evaluated, flag]
    rfl

theorem applied_sine_engine :
    ∃ formula, Formula.ofText "\\pi<[e,\\sin\x7b2x\x7d]" = .ok formula ∧
      formula.expr.freeNames = ["x"] ∧ formula.hasVariables = true ∧
      ∀ evaluator settings result,
        evaluateBy evaluator settings "\\pi<[e,\\sin\x7b2x\x7d]" = .ok (.result result) →
          result.engine = .symbolic := by
  have translated : Formula.ofText "\\pi<[e,\\sin\x7b2x\x7d]" = .ok
      ⟨.compare "<" (.ident "π") (.array [.ident "e",
        .call "\\sin" [.arith "*" (.number "2") (.ident "x")]]), "pi<[e,sin(2*x)]", true⟩ := rfl
  obtain ⟨names, -, flag, engine⟩ := engine_of_tokens translated
  exact ⟨_, translated, names, flag, engine⟩

end Grammar

end FormulaCalculator
