import FormulaCalculator.Proofs.Grammar.Completeness
import FormulaCalculator.Proofs.Grammar.Spans

set_option autoImplicit false

namespace FormulaCalculator.Grammar

-- `squares` tells of each bracket still open, from the innermost outwards, if it is a square one.
def Orderly : List Bool → List Token → Prop
  | _, [] => True
  | squares, token :: rest =>
    match token.kind with
    | .identifier => (∀ next ∈ rest.head?, next.kind ≠ .leftParen) ∧ Orderly squares rest
    | .leftParen => (∀ next ∈ rest.head?, next.kind ≠ .rightParen) ∧ Orderly (false :: squares) rest
    | .leftBracket => Orderly (true :: squares) rest
    | .rightParen | .rightBracket => Orderly squares.tail rest
    | .comma => squares.head? = some true ∧ Orderly squares rest
    | _ => Orderly squares rest

section Tokens

variable {squares : List Bool} {token : Token} {rest : List Token}

attribute [local simp] Orderly

theorem orderly_number (isNumber : token.kind = .number) :
    Orderly squares (token :: rest) ↔ Orderly squares rest := by
  simp [isNumber]

theorem orderly_operator (isOperator : token.kind.isOperator = true) :
    Orderly squares (token :: rest) ↔ Orderly squares rest := by
  cases isKind : token.kind <;> rw [isKind] at isOperator <;>
    first | cases isOperator; done | simp [isKind]

theorem orderly_ident (isIdent : token.kind = .identifier) :
    Orderly squares (token :: rest) ↔
      (∀ next ∈ rest.head?, next.kind ≠ .leftParen) ∧ Orderly squares rest := by
  simp [isIdent]

theorem orderly_leftParen (opens : token.kind = .leftParen) :
    Orderly squares (token :: rest) ↔
      (∀ next ∈ rest.head?, next.kind ≠ .rightParen) ∧ Orderly (false :: squares) rest := by
  simp [opens]

theorem orderly_leftBracket (opens : token.kind = .leftBracket) :
    Orderly squares (token :: rest) ↔ Orderly (true :: squares) rest := by
  simp [opens]

theorem orderly_closing (closes : token.kind = .rightParen ∨ token.kind = .rightBracket) :
    Orderly squares (token :: rest) ↔ Orderly squares.tail rest := by
  rcases closes with closes | closes <;> simp [closes]

theorem orderly_comma (divides : token.kind = .comma) :
    Orderly squares (token :: rest) ↔ squares.head? = some true ∧ Orderly squares rest := by
  simp [divides]

end Tokens

def Phrase.Within (squares : List Bool) : Phrase → Prop
  | list _ | items _ => squares.head? = some true
  | cells _ _ => False
  | _ => True

def Apart (tokens : List Token) : Prop := ∀ next ∈ tokens.head?, next.kind ≠ .leftParen

theorem apart_cons {token : Token} {kind : Kind} (isKind : token.kind = kind) (other : kind ≠ .leftParen)
    (rest : List Token) : Apart (token :: rest) := by
  intro next isFirst
  cases isFirst
  rwa [isKind]

theorem apart_operator {token : Token} (isOperator : token.kind.isOperator = true) (rest : List Token) :
    Apart (token :: rest) := by
  apply apart_cons rfl
  intro isParen
  rw [isParen] at isOperator
  cases isOperator

theorem Derives.apart_links {level : Level} {tokens rest : List Token} {first expr : Expr}
    (links : Derives tokens rest (.links level first expr)) (apart : Apart rest) : Apart tokens := by
  cases links with
  | unlinked => exact apart
  | link joins => exact apart_operator (Level.isOperator joins) _

theorem Derives.apart_items {tokens rest : List Token} {exprs : List Expr}
    (items : Derives tokens rest (.items exprs)) (apart : Apart rest) : Apart tokens := by
  cases items with
  | noItems => exact apart
  | items divides => exact apart_cons divides (by decide) _

def Unmarked (tokens : List Token) : Prop :=
  ∀ token ∈ tokens, token.kind ≠ .command ∧ token.kind ≠ .leftBrace

theorem Derives.unmarked {tokens rest : List Token} {phrase : Phrase}
    (derived : Derives tokens rest phrase) (unmarked : Unmarked tokens) : Unmarked rest :=
  fun token inside => unmarked token (derived.suffix.subset inside)

theorem Derives.orderly {tokens rest : List Token} {phrase : Phrase}
    (derived : Derives tokens rest phrase) (unmarked : Unmarked tokens) (apart : Apart rest)
    {squares : List Bool} (within : phrase.Within squares) (after : Orderly squares rest) :
    Orderly squares tokens := by
  -- Induction on the derivation. What comes after a phrase inside another one is never a parenthesis.
  induction derived generalizing squares with
  | expression _ _ ih | assignment _ ih | base _ ih => exact ih unmarked apart trivial after
  | @chain level _ _ _ _ _ operand links first more =>
    have later := more (operand.unmarked unmarked) apart trivial after
    exact first unmarked (links.apart_links apart) (by cases level <;> trivial) later
  | unlinked | noGroups | noItems => exact after
  | @link level _ _ _ _ _ _ _ joins operand links second more =>
    obtain ⟨-, others⟩ := List.forall_mem_cons.1 unmarked
    have later := more (operand.unmarked others) apart trivial after
    rw [orderly_operator (Level.isOperator joins)]
    exact second others (links.apart_links apart) (by cases level <;> trivial) later
  | power primary raises exponent base raised =>
    obtain ⟨-, others⟩ := List.forall_mem_cons.1 (primary.unmarked unmarked)
    have isOperator : Kind.isOperator .power = true := rfl
    rw [← raises] at isOperator
    refine base unmarked (apart_operator isOperator _) trivial ?_
    rw [orderly_operator isOperator]
    exact raised others apart trivial after
  | number isNumber => exact (orderly_number isNumber).2 after
  | ident isIdent => exact (orderly_ident isIdent).2 ⟨apart, after⟩
  | sign isSign _ ih =>
    obtain ⟨-, others⟩ := List.forall_mem_cons.1 unmarked
    rw [orderly_operator (@Level.isOperator .sum _ isSign)]
    exact ih others apart trivial after
  | paren opens inside closes ih =>
    obtain ⟨-, others⟩ := List.forall_mem_cons.1 unmarked
    refine (orderly_leftParen opens).2 ⟨head_ne inside.opens rfl, ?_⟩
    refine ih others (apart_cons closes (by decide) _) trivial ?_
    exact (orderly_closing (.inl closes)).2 after
  | emptyArray opens closes =>
    rw [orderly_leftBracket opens, orderly_closing (.inr closes)]
    exact after
  | array opens inside closes ih =>
    obtain ⟨-, others⟩ := List.forall_mem_cons.1 unmarked
    refine (orderly_leftBracket opens).2 (ih others (apart_cons closes (by decide) _) rfl ?_)
    exact (orderly_closing (.inr closes)).2 after
  | emptyMatrix opens | matrix opens | group opens =>
    exact absurd opens (unmarked _ List.mem_cons_self).2
  | fraction isCommand | callGroups isCommand | callEmpty isCommand | callList isCommand
  | callBare isCommand => exact absurd isCommand (unmarked _ List.mem_cons_self).1
  | groups first =>
    cases first with
    | group opens => exact absurd opens (unmarked _ List.mem_cons_self).2
  | list first more ih ihMore =>
    have later := ihMore (first.unmarked unmarked) apart within after
    exact ih unmarked (more.apart_items apart) trivial later
  | items divides first more ih ihMore =>
    obtain ⟨-, others⟩ := List.forall_mem_cons.1 unmarked
    have later := ihMore (first.unmarked others) apart within after
    exact (orderly_comma divides).2 ⟨within, ih others (more.apart_items apart) trivial later⟩
  | noCells | cell | row => exact within.elim

end FormulaCalculator.Grammar
