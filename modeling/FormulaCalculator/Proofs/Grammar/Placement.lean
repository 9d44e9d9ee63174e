import FormulaCalculator.Grammar.Parse
import FormulaCalculator.Proofs.Token.Spacing
import Mathlib.Data.List.Forall2

set_option autoImplicit false

namespace FormulaCalculator

variable (place : Option Int → Option Int)

def Token.placed (token : Token) : Token := { token with pos := place token.pos }

def Diagnostic.placed (diagnostic : Diagnostic) : Diagnostic :=
  { diagnostic with token := diagnostic.token.map (Token.placed place) }

namespace Grammar

def Cursor.placed (cursor : Cursor) : Cursor :=
  ⟨cursor.rest.map (Token.placed place), cursor.noted.map (Diagnostic.placed place)⟩

variable {α β γ δ : Type}

-- The second step does with tokens at their new places what the first does with them at their old ones.
def Replaces (carry : α → β) (step : Reading α) (other : Reading β) : Prop :=
  ∀ cursor, other.run.run (cursor.placed place) =
    ((step.run.run cursor).1.map carry, (step.run.run cursor).2.placed place)

abbrev Placeless (step : Reading α) : Prop := Replaces place id step step

variable {place}

namespace Replaces

theorem bind {carry : α → β} {last : γ → δ} {step : Reading α} {other : Reading β}
    {next : α → Reading γ} {more : β → Reading δ} (first : Replaces place carry step other)
    (after : ∀ value, Replaces place last (next value) (more (carry value))) :
    Replaces place last (step >>= next) (other >>= more) := by
  intro cursor
  rw [run_bind, run_bind, first cursor]
  rcases step.run.run cursor with ⟨stop | value, mid⟩
  next => rfl
  next => exact after value mid

theorem ite {holds : Prop} [Decidable holds] {carry : α → β} {yes no : Reading α}
    {otherYes otherNo : Reading β} (left : Replaces place carry yes otherYes)
    (right : Replaces place carry no otherNo) :
    Replaces place carry (if holds then yes else no) (if holds then otherYes else otherNo) := by
  by_cases decided : holds
  next => simpa only [decided, if_true] using left
  next => simpa only [decided, if_false] using right

theorem pure {carry : α → β} (value : α) :
    Replaces place carry (pure value : Reading α) (pure (carry value) : Reading β) :=
  fun _ => rfl

theorem throw {carry : α → β} (stop : Stop) :
    Replaces place carry (throw stop : Reading α) (throw stop : Reading β) :=
  fun _ => rfl

theorem peek : Replaces place (Option.map (Token.placed place)) peek peek := by
  intro cursor
  change (Except.ok (cursor.rest.map (Token.placed place)).head?, cursor.placed place) = _
  rw [List.head?_map]
  rfl

theorem advance : Placeless place advance := by
  intro cursor
  change (Except.ok (), Cursor.mk (cursor.rest.map (Token.placed place)).tail _) = _
  rw [← List.map_tail]
  rfl

theorem note (problem : Problem) (token : Option Token) :
    Replaces place id (note problem token) (note problem (token.map (Token.placed place))) := by
  intro cursor
  change _ = (Except.ok (), Cursor.mk _ ((cursor.noted ++ [_]).map (Diagnostic.placed place)))
  rw [List.map_append]
  rfl

theorem remaining : Placeless place remaining := by
  intro cursor
  change (Except.ok (cursor.rest.map (Token.placed place)).length, cursor.placed place) = _
  rw [List.length_map]
  rfl

theorem isNext (kinds : Kind → Bool) : Placeless place (isNext kinds) := by
  apply peek.bind
  intro found
  cases found <;> exact pure _

theorem takeIf (kinds : Kind → Bool) :
    Replaces place (Option.map (Token.placed place)) (takeIf kinds) (takeIf kinds) := by
  apply peek.bind
  intro found
  cases found with
  | none => exact pure none
  | some token => exact ite (advance.bind fun _ => pure (some token)) (pure none)

theorem consume (wanted : Option Kind) :
    Replaces place (Option.map (Token.placed place)) (consume wanted) (consume wanted) := by
  apply peek.bind
  intro found
  cases found with
  | none => cases wanted <;> exact (note _ none).bind fun _ => pure none
  | some token =>
    cases wanted with
    | none => exact advance.bind fun _ => pure (some token)
    | some kind =>
      apply ite (advance.bind fun _ => pure (some token))
      exact (note (.mismatch kind token.kind) (some token)).bind fun _ => pure none

theorem require (kind : Kind) : Placeless place (require kind) :=
  (consume (some kind)).bind fun _ => pure ()

theorem chain (kinds : Kind → Bool) (join : String → Expr → Expr → Expr) {operand : Reading Expr}
    (placeless : Placeless place operand) (bound : Nat) (lhs : Expr) :
    Placeless place (chain kinds join operand bound lhs) := by
  induction bound generalizing lhs with
  | zero => exact pure lhs
  | succ bound ih =>
    apply (takeIf kinds).bind
    intro op
    cases op with
    | none => exact pure lhs
    | some op => exact placeless.bind fun rhs => ih (join op.text lhs rhs)

theorem leftGrouped (kinds : Kind → Bool) (join : String → Expr → Expr → Expr) {operand : Reading Expr}
    (placeless : Placeless place operand) : Placeless place (leftGrouped kinds join operand) :=
  placeless.bind fun first => remaining.bind fun bound => chain kinds join placeless bound first

end Replaces

structure PlacelessLayer (place : Option Int → Option Int) (inner : Layer) : Prop where
  expression : Placeless place inner.expression
  exponent : Placeless place inner.exponent
  primary : Placeless place inner.primary

namespace PlacelessLayer

variable {inner : Layer}

theorem group (placeless : PlacelessLayer place inner) : Placeless place inner.group :=
  (Replaces.require .leftBrace).bind fun _ => placeless.expression.bind fun expr =>
    (Replaces.require .rightBrace).bind fun _ => .pure expr

theorem groups (placeless : PlacelessLayer place inner) (bound : Nat) :
    Placeless place (inner.groups bound) := by
  induction bound with
  | zero => exact .pure []
  | succ bound ih =>
    apply (Replaces.isNext _).bind
    intro more
    cases more with
    | false => exact .pure []
    | true => exact placeless.group.bind fun expr => ih.bind fun exprs => .pure (expr :: exprs)

theorem afterCommas (placeless : PlacelessLayer place inner) (bound : Nat) :
    Placeless place (inner.afterCommas bound) := by
  induction bound with
  | zero => exact .pure []
  | succ bound ih =>
    apply (Replaces.takeIf _).bind
    intro comma
    cases comma with
    | none => exact .pure []
    | some _ => exact placeless.expression.bind fun expr => ih.bind fun exprs => .pure (expr :: exprs)

theorem list (placeless : PlacelessLayer place inner) : Placeless place inner.list :=
  placeless.expression.bind fun first => Replaces.remaining.bind fun bound =>
    (placeless.afterCommas bound).bind fun exprs => .pure (first :: exprs)

theorem fraction (placeless : PlacelessLayer place inner) (command : Option Token) :
    Replaces place id (inner.fraction command) (inner.fraction (command.map (Token.placed place))) := by
  apply (Replaces.isNext _).bind
  intro above
  cases above with
  | false => exact (Replaces.note .noNumerator command).bind fun _ => .pure _
  | true =>
    apply placeless.group.bind
    intro numerator
    apply (Replaces.isNext _).bind
    intro below
    cases below with
    | false => exact (Replaces.note .noDenominator command).bind fun _ => .pure _
    | true => exact placeless.group.bind fun denominator => .pure _

theorem arguments (placeless : PlacelessLayer place inner) : Placeless place inner.arguments := by
  apply (Replaces.isNext _).bind
  intro braced
  cases braced with
  | true => exact Replaces.remaining.bind fun bound => placeless.groups bound
  | false =>
    apply (Replaces.takeIf _).bind
    intro left
    cases left with
    | none => exact placeless.primary.bind fun arg => .pure [arg]
    | some _ =>
      apply (Replaces.isNext _).bind
      intro empty
      cases empty with
      | true => exact (Replaces.require .rightParen).bind fun _ => .pure []
      | false => exact placeless.list.bind fun args => (Replaces.require .rightParen).bind fun _ => .pure args

theorem command (placeless : PlacelessLayer place inner) : Placeless place inner.command := by
  apply (Replaces.consume none).bind
  intro found
  cases found with
  | none => exact .throw .noCommand
  | some token =>
    apply Replaces.ite (placeless.fraction (some token))
    exact placeless.arguments.bind fun args => .pure _

theorem array (placeless : PlacelessLayer place inner) : Placeless place inner.array := by
  apply (Replaces.require .leftBracket).bind
  intro _
  apply (Replaces.takeIf _).bind
  intro right
  cases right with
  | some _ => exact .pure _
  | none => exact placeless.list.bind fun items => (Replaces.require .rightBracket).bind fun _ => .pure _

theorem cells (placeless : PlacelessLayer place inner) (bound : Nat) :
    Placeless place (inner.cells bound) := by
  induction bound with
  | zero => exact .pure _
  | succ bound ih =>
    -- Both marks between cells lead to a cell, and differ only in the row that it is put into.
    have cell (change : Expr → List Expr × List (List Expr) → List Expr × List (List Expr)) :
        Placeless place (advance >>= fun _ => inner.expression >>= fun expr =>
          inner.cells bound >>= fun others => .pure (change expr others)) :=
      Replaces.advance.bind fun _ => placeless.expression.bind fun expr => ih.bind fun others => .pure _
    apply Replaces.peek.bind
    intro found
    cases found with
    | none => exact .pure _
    | some token =>
      obtain ⟨kind, text, pos⟩ := token
      cases kind with
      | rightBrace => exact .pure _
      | comma => exact cell fun expr others => (expr :: others.1, others.2)
      | semicolon => exact cell fun expr others => ([], (expr :: others.1) :: others.2)
      | _ => exact (Replaces.note _ (some _)).bind fun _ => Replaces.advance.bind fun _ => ih

theorem matrix (placeless : PlacelessLayer place inner) : Placeless place inner.matrix := by
  apply (Replaces.require .leftBrace).bind
  intro _
  apply (Replaces.takeIf _).bind
  intro right
  cases right with
  | some _ => exact .pure _
  | none =>
    exact placeless.expression.bind fun cell => Replaces.remaining.bind fun bound =>
      (placeless.cells bound).bind fun more => (Replaces.require .rightBrace).bind fun _ => .pure _

theorem primaryFrom (placeless : PlacelessLayer place inner) : Placeless place inner.primaryFrom := by
  apply Replaces.peek.bind
  intro found
  cases found with
  | none => exact (Replaces.note (.ended .expression) none).bind fun _ => .pure _
  | some token =>
    obtain ⟨kind, text, pos⟩ := token
    cases kind with
    | number | identifier => exact Replaces.advance.bind fun _ => .pure _
    | command => exact placeless.command
    | leftParen =>
      exact Replaces.advance.bind fun _ => placeless.expression.bind fun expr =>
        (Replaces.require .rightParen).bind fun _ => .pure _
    | leftBracket => exact placeless.array
    | leftBrace => exact placeless.matrix
    | plus | minus => exact Replaces.advance.bind fun _ => placeless.exponent.bind fun operand => .pure _
    | _ => exact (Replaces.note _ (some _)).bind fun _ => Replaces.advance.bind fun _ => .pure _

theorem outward (placeless : PlacelessLayer place inner) : PlacelessLayer place inner.outward := by
  have exponent : Placeless place inner.exponentFrom := by
    apply placeless.primaryFrom.bind
    intro base
    apply (Replaces.takeIf _).bind
    intro op
    cases op with
    | none => exact .pure base
    | some op => exact placeless.exponent.bind fun raised => .pure _
  have comparison : Placeless place inner.comparison :=
    .leftGrouped _ _ (.leftGrouped _ _ (.leftGrouped _ _ exponent))
  constructor
  case expression =>
    change Placeless place (assignment <$> inner.comparison)
    rw [map_eq_pure_bind]
    exact comparison.bind fun expr => .pure (assignment expr)
  case exponent => exact exponent
  case primary => exact placeless.primaryFrom

end PlacelessLayer

theorem layer_placeless (depth : Nat) : PlacelessLayer place (layer depth) := by
  induction depth with
  | zero => exact ⟨.throw .tooDeep, .throw .tooDeep, .throw .tooDeep⟩
  | succ depth ih => exact ih.outward

theorem readAll_placed (depth : Nat) (tokens : List Token) :
    readAll depth (tokens.map (Token.placed place)) =
      ((readAll depth tokens).1, (readAll depth tokens).2.placed place) := by
  have run : (layer depth).expression.run.run ⟨tokens.map (Token.placed place), []⟩ = _ :=
    (layer_placeless depth).expression ⟨tokens, []⟩
  unfold readAll
  rw [run]
  rcases (layer depth).expression.run.run ⟨tokens, []⟩ with ⟨stop | expr, rest, noted⟩
  next =>
    simp only [Except.map, Cursor.placed, List.map_append]
    rfl
  next =>
    cases rest with
    | nil => rfl
    | cons token rest =>
      have sameTexts : (token :: rest).map (Token.text ∘ Token.placed place) =
          (token :: rest).map Token.text := rfl
      simp only [Except.map, Cursor.placed, List.map_append, List.map_map, sameTexts]
      rfl

theorem parse_placed [Stack] (tokens : List Token) :
    parse (tokens.map (Token.placed place)) =
      (parse tokens).mapError (List.map (Diagnostic.placed place)) := by
  unfold parse parseWithin
  rw [readAll_placed]
  rcases readAll Stack.nesting tokens with ⟨expr, rest, noted⟩
  cases noted <;> rfl

/-- The same problem with the same token, which may be at another place. -/
def Alike (diagnostic other : Diagnostic) : Prop :=
  diagnostic.problem = other.problem ∧ diagnostic.token.map Token.lexeme = other.token.map Token.lexeme

inductive SameAnswer : Except (List Diagnostic) Expr → Except (List Diagnostic) Expr → Prop where
  | read (expr : Expr) : SameAnswer (.ok expr) (.ok expr)
  | rejected {noted others : List Diagnostic} (alike : List.Forall₂ Alike noted others) :
      SameAnswer (.error noted) (.error others)

theorem map_eq_map_iff_forall₂ {view : α → β} {items others : List α} :
    items.map view = others.map view ↔
      List.Forall₂ (fun item other => view item = view other) items others := by
  rw [← List.forall₂_eq_eq_eq, List.forall₂_map_left_iff, List.forall₂_map_right_iff]

theorem placed_none_iff {token other : Token} :
    token.placed (fun _ => none) = other.placed (fun _ => none) ↔ token.lexeme = other.lexeme := by
  simp [Token.placed, Token.lexeme]

theorem alike_of_placed {diagnostic other : Diagnostic}
    (same : diagnostic.placed (fun _ => none) = other.placed (fun _ => none)) :
    Alike diagnostic other := by
  obtain ⟨sameProblem, sameToken⟩ := Diagnostic.mk.inj same
  constructor
  case left => exact sameProblem
  case right =>
    cases found : diagnostic.token <;> cases alsoFound : other.token <;>
      simp_all [placed_none_iff]

theorem sameAnswer_of_placed {answer other : Except (List Diagnostic) Expr}
    (same : answer.mapError (List.map (Diagnostic.placed fun _ => none)) =
      other.mapError (List.map (Diagnostic.placed fun _ => none))) : SameAnswer answer other := by
  cases answer with
  | ok expr =>
    cases other with
    | ok other =>
      cases same
      exact .read expr
    | error others => cases same
  | error noted =>
    cases other with
    | ok other => cases same
    | error others =>
      have sameNotes := map_eq_map_iff_forall₂.1 (Except.error.inj same)
      exact .rejected (sameNotes.imp fun _ _ => alike_of_placed)

theorem sameAnswer_of_lexemes [Stack] {tokens others : List Token}
    (same : tokens.map Token.lexeme = others.map Token.lexeme) :
    SameAnswer (parse tokens) (parse others) := by
  have pairwise := map_eq_map_iff_forall₂.1 same
  have unplaced : tokens.map (Token.placed fun _ => none) = others.map (Token.placed fun _ => none) :=
    map_eq_map_iff_forall₂.2 (pairwise.imp fun _ _ => placed_none_iff.2)
  have answers := congrArg parse unplaced
  rw [parse_placed, parse_placed] at answers
  exact sameAnswer_of_placed answers

theorem spacing_ignored [Stack] :
    (∀ text, (Token.scan (" ".intercalate ((Token.scan text).map Token.text))).map Token.lexeme =
      (Token.scan text).map Token.lexeme) ∧
    ∀ text other, (Token.scan text).map Token.lexeme = (Token.scan other).map Token.lexeme →
      SameAnswer (parseText text) (parseText other) :=
  ⟨Token.lexemes_scan_spaced, fun _ _ same => sameAnswer_of_lexemes same⟩

theorem spaced_matrix_rejected_alike :
    SameAnswer (parseText "\x7b1,\\frac(2 ,3; )") (parseText " \x7b1, \\frac( 2,3\t; )") :=
  spacing_ignored.2 _ _ (by decide)

end Grammar

end FormulaCalculator
