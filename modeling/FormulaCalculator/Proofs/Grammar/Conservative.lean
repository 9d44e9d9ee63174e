import FormulaCalculator.Formula
import FormulaCalculator.Proofs.Grammar.Image
import FormulaCalculator.Proofs.Shorthand.Rewriting

set_option autoImplicit false

namespace FormulaCalculator.Grammar

def Follows (tokens : List Token) : Prop :=
  ∀ next ∈ tokens.head?, Shorthand.opensFactor next.kind = false

def NumbersEnd (tokens : List Token) : Prop :=
  tokens.IsChain fun token next => token.kind = .number → Shorthand.opensFactor next.kind = false

theorem follows_cons {token : Token} {kind : Kind} (isKind : token.kind = kind)
    (other : Shorthand.opensFactor kind = false) (rest : List Token) : Follows (token :: rest) := by
  intro next isFirst
  cases isFirst
  rwa [isKind]

theorem follows_operator {token : Token} (isOperator : token.kind.isOperator = true) (rest : List Token) :
    Follows (token :: rest) := by
  apply follows_cons rfl
  cases isKind : token.kind <;> rw [isKind] at isOperator <;> first | rfl | cases isOperator

namespace NumbersEnd

variable {token : Token} {rest : List Token}

theorem cons {kind : Kind} (isKind : token.kind = kind) (other : kind ≠ .number) (ends : NumbersEnd rest) :
    NumbersEnd (token :: rest) :=
  List.isChain_cons.2 ⟨fun _ _ isNumber => absurd (isKind.symm.trans isNumber) other, ends⟩

theorem operator (isOperator : token.kind.isOperator = true) (ends : NumbersEnd rest) :
    NumbersEnd (token :: rest) := by
  apply ends.cons rfl
  intro isNumber
  rw [isNumber] at isOperator
  cases isOperator

theorem number (follows : Follows rest) (ends : NumbersEnd rest) : NumbersEnd (token :: rest) :=
  List.isChain_cons.2 ⟨fun next isNext _ => follows next isNext, ends⟩

end NumbersEnd

def Phrase.trails : Phrase → Bool
  | links _ _ _ | group _ | groups _ | items _ | cells _ _ => true
  | _ => false

theorem Derives.follows {tokens rest : List Token} {phrase : Phrase} (derived : Derives tokens rest phrase)
    (trails : phrase.trails = true) (follows : Follows rest) : Follows tokens := by
  cases derived with
  | unlinked | noGroups | noItems | noCells => exact follows
  | link joins => exact follows_operator (Level.isOperator joins) _
  | group opens => exact follows_cons opens rfl _
  | groups first =>
    cases first with
    | group opens => exact follows_cons opens rfl _
  | items divides | cell divides | row divides => exact follows_cons divides rfl _
  | _ => cases trails

theorem Derives.numbersEnd {tokens rest : List Token} {phrase : Phrase} (derived : Derives tokens rest phrase)
    (follows : Follows rest) (ends : NumbersEnd rest) : NumbersEnd tokens := by
  -- Induction on the derivation. What comes directly after a phrase inside another one is an operator,
  -- a mark that divides or closes, or one more group, and none of these is a factor.
  induction derived with
  | expression _ _ ih | assignment _ ih | base _ ih => exact ih follows ends
  | chain _ links first more => exact first (links.follows rfl follows) (more follows ends)
  | unlinked | noGroups | noItems | noCells => exact ends
  | link joins _ links second more =>
    have later := second (links.follows rfl follows) (more follows ends)
    exact later.operator (Level.isOperator joins)
  | power _ raises _ base raised =>
    exact base (follows_cons raises rfl _) ((raised follows ends).cons raises (by decide))
  | number => exact ends.number follows
  | ident isIdent => exact ends.cons isIdent (by decide)
  | sign isSign _ ih => exact (ih follows ends).operator (@Level.isOperator .sum _ isSign)
  | paren opens _ closes ih =>
    have inside := ih (follows_cons closes rfl _) (ends.cons closes (by decide))
    exact inside.cons opens (by decide)
  | emptyArray opens closes => exact (ends.cons closes (by decide)).cons opens (by decide)
  | array opens _ closes ih =>
    have inside := ih (follows_cons closes rfl _) (ends.cons closes (by decide))
    exact inside.cons opens (by decide)
  | emptyMatrix opens closes => exact (ends.cons closes (by decide)).cons opens (by decide)
  | matrix opens _ more closes ih ihMore =>
    have later := ihMore (follows_cons closes rfl _) (ends.cons closes (by decide))
    have apart := more.follows rfl (follows_cons closes rfl _)
    exact (ih apart later).cons opens (by decide)
  | fraction isCommand _ _ below ih ihBelow =>
    exact (ih (below.follows rfl follows) (ihBelow follows ends)).cons isCommand (by decide)
  | callGroups isCommand _ _ more ih ihMore =>
    exact (ih (more.follows rfl follows) (ihMore follows ends)).cons isCommand (by decide)
  | callEmpty isCommand _ opens closes =>
    exact ((ends.cons closes (by decide)).cons opens (by decide)).cons isCommand (by decide)
  | callList isCommand _ opens _ closes ih =>
    have inside := ih (follows_cons closes rfl _) (ends.cons closes (by decide))
    exact (inside.cons opens (by decide)).cons isCommand (by decide)
  | callBare isCommand _ _ _ ih => exact (ih follows ends).cons isCommand (by decide)
  | group opens _ closes ih =>
    have inside := ih (follows_cons closes rfl _) (ends.cons closes (by decide))
    exact inside.cons opens (by decide)
  | groups _ more ih ihMore | list _ more ih ihMore =>
    exact ih (more.follows rfl follows) (ihMore follows ends)
  | items divides _ more ih ihMore | cell divides _ more ih ihMore =>
    exact (ih (more.follows rfl follows) (ihMore follows ends)).cons divides (by decide)
  | row divides _ more ih ihMore =>
    exact (ih (more.follows rfl follows) (ihMore follows ends)).cons divides (by decide)

theorem NumbersEnd.multiply_eq_self {text : String} (ends : NumbersEnd (Token.scan text)) :
    Shorthand.multiply text.toList = text.toList := by
  apply Shorthand.multiply_eq_self
  rw [List.isChain_map]
  refine ends.imp_of_mem_imp fun token next _ inside noFactor isNumber => ?_
  have form := Lexeme.spells_iff_form.1 (Token.spells_of_mem_scan inside)
  exact Shorthand.startsFactor_form form (noFactor isNumber)

theorem normalize_accepted [Stack] {text : String} {expr : Expr} (parsed : parseText text = .ok expr)
    (plain : ∀ token ∈ Token.scan text, Shorthand.tokenMeaning? token = none) :
    normalize text = text ∧
      Formula.ofText text =
        if expr.isTall then .error (.unwritten .tooTall)
        else .ok ⟨expr, expr.flatText, expr.hasVariables⟩ := by
  have derived := derives_of_parseWithin parsed
  have ends : NumbersEnd (Token.scan text) := derived.numbersEnd nofun .nil
  have normal : normalize text = text := by
    rw [normalize, Shorthand.expand_eq_self_of_tokens plain, ends.multiply_eq_self, String.ofList_toList]
  have regular := (wellFormed_of_parseText parsed).regular
  refine ⟨normal, ?_⟩
  unfold Formula.ofText
  rw [normal, parsed]
  cases tall : expr.isTall with
  | true => simp [Expr.flat, tall]
  | false => simp [regular.flat_ok tall]

theorem fraction_accepted :
    normalize "\\frac\x7b2\x7d\x7bx\x7d<3" = "\\frac\x7b2\x7d\x7bx\x7d<3" ∧
      Formula.ofText "\\frac\x7b2\x7d\x7bx\x7d<3" =
        .ok ⟨.compare "<" (.call Expr.fraction [.number "2", .ident "x"]) (.number "3"), "(2)/(x)<3", true⟩ :=
  @normalize_accepted _ _ (.compare "<" (.call Expr.fraction [.number "2", .ident "x"]) (.number "3")) rfl
    (by decide)

end FormulaCalculator.Grammar
