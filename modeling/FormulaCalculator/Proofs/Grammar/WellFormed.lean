import FormulaCalculator.Proofs.Grammar.Completeness
import FormulaCalculator.Proofs.Grammar.Spans

set_option autoImplicit false

namespace FormulaCalculator.Grammar

inductive Place where
  | slot | comparison | additive | term | exponent | primary

/-- What may stand further in may stand there too, but for an equation with a bare identifier on its left: in
a slot it would be an assignment. -/
inductive WellFormed : Place → Expr → Prop where
  | assign {name : String} {rhs : Expr} (isIdent : Kind.identifier.Spells name)
      (right : WellFormed .additive rhs) : WellFormed .slot (.assign (.ident name) rhs)
  | slot {expr : Expr} (inside : WellFormed .comparison expr) (kept : expr.isEquation = false) :
      WellFormed .slot expr
  | compare {rel : String} {lhs rhs : Expr} (relates : rel ∈ Expr.relations)
      (left : WellFormed .comparison lhs) (right : WellFormed .additive rhs) :
      WellFormed .comparison (.compare rel lhs rhs)
  | comparison {expr : Expr} (inside : WellFormed .additive expr) : WellFormed .comparison expr
  | sum {op : String} {lhs rhs : Expr} (joins : op ∈ Expr.signs) (left : WellFormed .additive lhs)
      (right : WellFormed .term rhs) : WellFormed .additive (.arith op lhs rhs)
  | additive {expr : Expr} (inside : WellFormed .term expr) : WellFormed .additive expr
  | product {op : String} {lhs rhs : Expr} (joins : op ∈ Expr.factors) (left : WellFormed .term lhs)
      (right : WellFormed .exponent rhs) : WellFormed .term (.arith op lhs rhs)
  | term {expr : Expr} (inside : WellFormed .exponent expr) : WellFormed .term expr
  | power {lhs rhs : Expr} (left : WellFormed .primary lhs) (unsigned : lhs.isSign = false)
      (right : WellFormed .exponent rhs) : WellFormed .exponent (.arith "^" lhs rhs)
  | exponent {expr : Expr} (inside : WellFormed .primary expr) : WellFormed .exponent expr
  | number {text : String} (isNumber : Kind.number.Spells text) : WellFormed .primary (.number text)
  | ident {name : String} (isIdent : Kind.identifier.Spells name) : WellFormed .primary (.ident name)
  | sign {op : String} {operand : Expr} (isSign : op ∈ Expr.signs)
      (inside : WellFormed .exponent operand) : WellFormed .primary (.sign op operand)
  | paren {inner : Expr} (inside : WellFormed .slot inner) : WellFormed .primary (.paren inner)
  | array {items : List Expr} (inside : ∀ item ∈ items, WellFormed .slot item) :
      WellFormed .primary (.array items)
  | matrix {rows : List (List Expr)} (filled : ∀ row ∈ rows, row ≠ [])
      (inside : ∀ row ∈ rows, ∀ cell ∈ row, WellFormed .slot cell) : WellFormed .primary (.matrix rows)
  | fraction {numerator denominator : Expr} (above : WellFormed .slot numerator)
      (below : WellFormed .slot denominator) :
      WellFormed .primary (.call Expr.fraction [numerator, denominator])
  | call {name : String} {args : List Expr} (isCommand : Kind.command.Spells name)
      (named : name ≠ Expr.fraction) (inside : ∀ arg ∈ args, WellFormed .slot arg) :
      WellFormed .primary (.call name args)

def Level.place : Level → Place
  | relation => .comparison
  | sum => .additive
  | product => .term

def Level.operandPlace : Level → Place
  | relation => .additive
  | sum => .term
  | product => .exponent

namespace WellFormed

theorem first {level : Level} {expr : Expr} (operand : WellFormed level.operandPlace expr) :
    WellFormed level.place expr := by
  cases level with
  | relation => exact .comparison operand
  | sum => exact .additive operand
  | product => exact .term operand

theorem link {level : Level} {op : String} {lhs rhs : Expr} (joins : op ∈ level.marks)
    (left : WellFormed level.place lhs) (right : WellFormed level.operandPlace rhs) :
    WellFormed level.place (level.join op lhs rhs) := by
  cases level with
  | relation => exact .compare joins left right
  | sum => exact .sum joins left right
  | product => exact .product joins left right

theorem spells_ident {place : Place} {name : String} (wellFormed : WellFormed place (.ident name)) :
    Kind.identifier.Spells name := by
  generalize same : Expr.ident name = expr at wellFormed
  induction wellFormed with
  | ident isIdent =>
    cases same
    exact isIdent
  | slot _ _ ih | comparison _ ih | additive _ ih | term _ ih | exponent _ ih => exact ih same
  | _ => cases same

theorem compare_sides {place : Place} {rel : String} {lhs rhs : Expr}
    (wellFormed : WellFormed place (.compare rel lhs rhs)) :
    WellFormed .comparison lhs ∧ WellFormed .additive rhs := by
  generalize same : Expr.compare rel lhs rhs = expr at wellFormed
  induction wellFormed with
  | compare _ left right =>
    cases same
    exact ⟨left, right⟩
  | slot _ _ ih | comparison _ ih | additive _ ih | term _ ih | exponent _ ih => exact ih same
  | _ => cases same

theorem primary_slot {expr : Expr} (wellFormed : WellFormed .primary expr) : WellFormed .slot expr := by
  refine .slot (.comparison (.additive (.term (.exponent wellFormed)))) ?_
  cases wellFormed <;> rfl

end WellFormed

def Phrase.WellFormed : Phrase → Prop
  | expression expr | group expr => Grammar.WellFormed .slot expr
  | chain level expr => Grammar.WellFormed level.place expr
  | links level lhs expr => Grammar.WellFormed level.place lhs → Grammar.WellFormed level.place expr
  | exponent expr => Grammar.WellFormed .exponent expr
  | primary loose expr => Grammar.WellFormed .primary expr ∧ (loose = false → expr.isSign = false)
  | groups exprs | list exprs | items exprs => ∀ expr ∈ exprs, Grammar.WellFormed .slot expr
  | cells row rows => (∀ cell ∈ row, Grammar.WellFormed .slot cell) ∧ (∀ row ∈ rows, row ≠ []) ∧
      ∀ row ∈ rows, ∀ cell ∈ row, Grammar.WellFormed .slot cell

def Spelled (tokens : List Token) : Prop := ∀ token ∈ tokens, token.kind.Spells token.text

theorem Spelled.cons {token : Token} {tokens : List Token} (spelled : Spelled (token :: tokens)) :
    token.kind.Spells token.text ∧ Spelled tokens :=
  List.forall_mem_cons.1 spelled

theorem Derives.spelled {tokens rest : List Token} {phrase : Phrase}
    (derived : Derives tokens rest phrase) (spelled : Spelled tokens) : Spelled rest :=
  fun token inside => spelled token (derived.suffix.subset inside)

theorem Derives.wellFormed {tokens rest : List Token} {phrase : Phrase}
    (derived : Derives tokens rest phrase) (spelled : Spelled tokens) : phrase.WellFormed := by
  -- Induction on the derivation. The tokens before a phrase do not matter, and each operator is
  -- that of its kind.
  induction derived with
  | expression _ kept ih => exact .slot (ih spelled) kept
  | assignment _ ih =>
    obtain ⟨left, right⟩ := (ih spelled).compare_sides
    exact .assign left.spells_ident right
  | @chain level _ _ _ _ _ operand _ first more =>
    refine more (operand.spelled spelled) (.first ?_)
    have formed := first spelled
    cases level <;> exact formed
  | unlinked => exact id
  | @link level _ _ _ _ _ _ _ joins operand _ second more =>
    intro left
    obtain ⟨spells, after⟩ := spelled.cons
    refine more (operand.spelled after) (.link (Level.mark_of_kind spells joins) left ?_)
    have formed := second after
    cases level <;> exact formed
  | base _ ih => exact .exponent (ih spelled).1
  | power primary _ _ first second =>
    obtain ⟨left, unsigned⟩ := first spelled
    obtain ⟨-, after⟩ := (primary.spelled spelled).cons
    exact .power left (unsigned rfl) (second after)
  | number isNumber => exact ⟨.number (isNumber ▸ spelled.cons.1), fun _ => rfl⟩
  | ident isIdent => exact ⟨.ident (isIdent ▸ spelled.cons.1), fun _ => rfl⟩
  | sign isSign _ ih =>
    obtain ⟨spells, after⟩ := spelled.cons
    exact ⟨.sign (@Level.mark_of_kind .sum _ _ spells isSign) (ih after), nofun⟩
  | paren _ _ _ ih => exact ⟨.paren (ih spelled.cons.2), fun _ => rfl⟩
  | emptyArray => exact ⟨.array nofun, fun _ => rfl⟩
  | array _ _ _ ih => exact ⟨.array (ih spelled.cons.2), fun _ => rfl⟩
  | emptyMatrix => exact ⟨.matrix nofun nofun, fun _ => rfl⟩
  | matrix _ first _ _ ihFirst ihMore =>
    obtain ⟨-, after⟩ := spelled.cons
    obtain ⟨row, filled, rows⟩ := ihMore (first.spelled after)
    refine ⟨.matrix (List.forall_mem_cons.2 ⟨by simp, filled⟩) (List.forall_mem_cons.2 ⟨?_, rows⟩),
      fun _ => rfl⟩
    exact List.forall_mem_cons.2 ⟨ihFirst after, row⟩
  | fraction _ _ above _ ihAbove ihBelow =>
    obtain ⟨-, after⟩ := spelled.cons
    exact ⟨.fraction (ihAbove after) (ihBelow (above.spelled after)), fun _ => rfl⟩
  | callGroups isCommand named first _ ihFirst ihMore =>
    obtain ⟨spells, after⟩ := spelled.cons
    refine ⟨.call (isCommand ▸ spells) named ?_, fun _ => rfl⟩
    exact List.forall_mem_cons.2 ⟨ihFirst after, ihMore (first.spelled after)⟩
  | callEmpty isCommand named => exact ⟨.call (isCommand ▸ spelled.cons.1) named nofun, fun _ => rfl⟩
  | callList isCommand named _ _ _ ih =>
    obtain ⟨spells, after⟩ := spelled.cons
    exact ⟨.call (isCommand ▸ spells) named (ih after.cons.2), fun _ => rfl⟩
  | callBare isCommand named _ _ ih =>
    obtain ⟨spells, after⟩ := spelled.cons
    have arg := WellFormed.primary_slot (ih after).1
    exact ⟨.call (isCommand ▸ spells) named (by simpa using arg), fun _ => rfl⟩
  | group _ _ _ ih => exact ih spelled.cons.2
  | noGroups | noItems => exact nofun
  | groups first _ ihFirst ihMore | list first _ ihFirst ihMore =>
    exact List.forall_mem_cons.2 ⟨ihFirst spelled, ihMore (first.spelled spelled)⟩
  | items _ first _ ihFirst ihMore =>
    obtain ⟨-, after⟩ := spelled.cons
    exact List.forall_mem_cons.2 ⟨ihFirst after, ihMore (first.spelled after)⟩
  | noCells => exact ⟨nofun, nofun, nofun⟩
  | cell _ first _ ihFirst ihMore =>
    obtain ⟨-, after⟩ := spelled.cons
    obtain ⟨row, filled, rows⟩ := ihMore (first.spelled after)
    exact ⟨List.forall_mem_cons.2 ⟨ihFirst after, row⟩, filled, rows⟩
  | row _ first _ ihFirst ihMore =>
    obtain ⟨-, after⟩ := spelled.cons
    obtain ⟨row, filled, rows⟩ := ihMore (first.spelled after)
    refine ⟨nofun, List.forall_mem_cons.2 ⟨by simp, filled⟩, List.forall_mem_cons.2 ⟨?_, rows⟩⟩
    exact List.forall_mem_cons.2 ⟨ihFirst after, row⟩

end FormulaCalculator.Grammar
