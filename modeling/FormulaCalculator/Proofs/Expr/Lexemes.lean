import FormulaCalculator.Proofs.Expr.FlatTokens
import FormulaCalculator.Proofs.Token.Spacing

set_option autoImplicit false

namespace FormulaCalculator

namespace Labelled

def mark (kind : Kind) : Kind × String := (kind, kind.spelling?.getD "")

def operator (op : String) : Kind × String :=
  ((Kind.named.find? (·.spelling? == some op)).getD .unknown, op)

def name (text : String) : List (Kind × String) := if text = "" then [] else [(.identifier, text)]

def grouped (needed : Bool) (inside : List (Kind × String)) : List (Kind × String) :=
  if needed then mark .leftParen :: inside ++ [mark .rightParen] else inside

def commas (lists : List (List (Kind × String))) : List (Kind × String) := [mark .comma].intercalate lists

def bracketed (lists : List (List (Kind × String))) : List (Kind × String) :=
  mark .leftBracket :: commas lists ++ [mark .rightBracket]

end Labelled

namespace Expr

open Labelled

def joinedLexemes (joint : Joint) (lhs rhs : Expr) (left right : List (Kind × String)) :
    List (Kind × String) :=
  grouped (needsParens joint .left lhs) left ++
    operator joint.text :: grouped (needsParens joint .right rhs) right

def callLexemes (command : String) (args : List (List (Kind × String))) : List (Kind × String) :=
  match args with
  | [numerator, denominator] =>
    if command = fraction then grouped true numerator ++ mark .divide :: grouped true denominator
    else name (plainName command) ++ grouped true (commas args)
  | _ => name (plainName command) ++ grouped true (commas args)

mutual

def lexemes : Expr → List (Kind × String)
  | missing | word _ | tuple _ => []
  | number text => [(.number, text)]
  | ident name => [(.identifier, writtenName name)]
  | sign op operand => operator op :: grouped operand.isJoined (lexemes operand)
  | arith op lhs rhs => joinedLexemes (.arith op) lhs rhs (lexemes lhs) (lexemes rhs)
  | compare rel lhs rhs => joinedLexemes (.compare rel) lhs rhs (lexemes lhs) (lexemes rhs)
  | assign lhs rhs => joinedLexemes .assign lhs rhs (lexemes lhs) (lexemes rhs)
  | call command args => callLexemes command (lexemesAll args)
  | array items => Labelled.bracketed (lexemesAll items)
  | matrix rows => name "Matrix" ++ grouped true (Labelled.bracketed (lexemesRows rows))
  | paren inner => grouped true (lexemes inner)

def lexemesAll : List Expr → List (List (Kind × String))
  | [] => []
  | item :: items => lexemes item :: lexemesAll items

def lexemesRows : List (List Expr) → List (List (Kind × String))
  | [] => []
  | row :: rows => Labelled.bracketed (lexemesAll row) :: lexemesRows rows

end

theorem lexemesAll_eq_map (items : List Expr) : lexemesAll items = items.map lexemes := by
  induction items with
  | nil => rfl
  | cons item items ih => simp [lexemesAll, ih]

theorem lexemesRows_eq_map (rows : List (List Expr)) :
    lexemesRows rows = rows.map fun row => Labelled.bracketed (row.map lexemes) := by
  induction rows with
  | nil => rfl
  | cons row rows ih => simp [lexemesRows, lexemesAll_eq_map, ih]

end Expr

inductive Labels : List (Kind × String) → List String → Prop where
  | nil : Labels [] []
  | blank {lexemes : List (Kind × String)} {pieces : List String} (more : Labels lexemes pieces) :
      Labels lexemes ("" :: pieces)
  | piece {kind : Kind} {text : String} {lexemes : List (Kind × String)} {pieces : List String}
      (spells : kind.Spells text) (more : Labels lexemes pieces) :
      Labels ((kind, text) :: lexemes) (text :: pieces)

namespace Labels

theorem single {kind : Kind} {text : String} (spells : kind.Spells text) : Labels [(kind, text)] [text] :=
  .piece spells .nil

theorem append {left right : List (Kind × String)} {first second : List String} (before : Labels left first)
    (after : Labels right second) : Labels (left ++ right) (first ++ second) := by
  induction before with
  | nil => exact after
  | blank _ ih => exact .blank ih
  | piece spells _ ih => exact .piece spells ih

theorem mark {kind : Kind} {text : String} (fixed : kind.spelling? = some text) :
    Labels [Labelled.mark kind] [text] := by
  rw [Labelled.mark, fixed]
  exact single ((Kind.spells_iff_of_spelling fixed text).2 rfl)

theorem operator {kind : Kind} {op : String} (fixed : kind.spelling? = some op) :
    Labels [Labelled.operator op] [op] := by
  have found : Kind.named.find? (·.spelling? == some op) = some kind := by
    cases kind <;> cases fixed <;> decide
  rw [Labelled.operator, found]
  exact single ((Kind.spells_iff_of_spelling fixed op).2 rfl)

theorem name {text : String} (written : text = "" ∨ Kind.identifier.Spells text) :
    Labels (Labelled.name text) [text] := by
  unfold Labelled.name
  split
  next isEmpty =>
    rw [isEmpty]
    exact .blank .nil
  next filled => exact single (written.resolve_left filled)

theorem between {opening closing : Kind} {first last : String} {inside : List (Kind × String)}
    {pieces : List String} (opens : opening.spelling? = some first) (closes : closing.spelling? = some last)
    (labels : Labels inside pieces) :
    Labels (Labelled.mark opening :: inside ++ [Labelled.mark closing]) (first :: pieces ++ [last]) :=
  ((mark opens).append labels).append (mark closes)

theorem grouped {inside : List (Kind × String)} {pieces : List String} (labels : Labels inside pieces)
    (needed : Bool) : Labels (Labelled.grouped needed inside) (Expr.enclose needed pieces) := by
  cases needed with
  | false => exact labels
  | true => exact @between .leftParen .rightParen _ _ _ _ rfl rfl labels

theorem commas {α : Type} {label : α → List (Kind × String)} {write : α → List String} {items : List α}
    (each : ∀ item ∈ items, Labels (label item) (write item)) :
    Labels (Labelled.commas (items.map label)) (Expr.commaJoined (items.map write)) := by
  induction items with
  | nil => exact .nil
  | cons item items ih =>
    obtain ⟨here, others⟩ := List.forall_mem_cons.1 each
    cases items with
    | nil => simpa [Labelled.commas, Expr.commaJoined] using here
    | cons next items =>
      have joined := here.append ((@mark .comma _ rfl).append (ih others))
      simpa [Labelled.commas, Expr.commaJoined] using joined

theorem bracketed {α : Type} {label : α → List (Kind × String)} {write : α → List String} {items : List α}
    (each : ∀ item ∈ items, Labels (label item) (write item)) :
    Labels (Labelled.bracketed (items.map label)) (Expr.bracketed (items.map write)) :=
  @between .leftBracket .rightBracket _ _ _ _ rfl rfl (commas each)

theorem carries {lexemes : List (Kind × String)} {pieces : List String} (labels : Labels lexemes pieces) :
    Token.Carries (lexemes.map fun lexeme => ⟨lexeme.1, lexeme.2, none⟩) pieces := by
  induction labels with
  | nil => exact .nil
  | blank _ ih => exact .blank ih
  | piece spells _ ih => exact .piece spells ih

theorem texts {lexemes : List (Kind × String)} {pieces : List String} (labels : Labels lexemes pieces) :
    lexemes.map Prod.snd = pieces.filter (· ≠ "") := by
  induction labels with
  | nil => rfl
  | blank _ ih => simpa using ih
  | piece spells _ ih => simpa [spells.ne_empty] using ih

end Labels

namespace Expr

theorem labels_joined {joint : Joint} {lhs rhs : Expr} {left right : List (Kind × String)}
    {first second : List String} {kind : Kind} (fixed : kind.spelling? = some joint.text)
    (before : Labels left first) (after : Labels right second) :
    Labels (joinedLexemes joint lhs rhs left right) (joinedPieces joint lhs rhs first second) :=
  (before.grouped _).append ((Labels.operator fixed).append (after.grouped _))

theorem labels_call {command : String} {args : List Expr} (isCommand : Kind.command.Spells command)
    (each : ∀ arg ∈ args, Labels arg.lexemes arg.pieces) :
    Labels (callLexemes command (args.map lexemes)) (callPieces command (args.map pieces)) := by
  have applied :
      Labels (Labelled.name (plainName command) ++ Labelled.grouped true (Labelled.commas (args.map lexemes)))
        (plainName command :: enclose true (commaJoined (args.map pieces))) :=
    (Labels.name (plainName_spells isCommand)).append ((Labels.commas each).grouped true)
  match args with
  | [] | [_] | _ :: _ :: _ :: _ => exact applied
  | [numerator, denominator] =>
    obtain ⟨above, below⟩ : Labels numerator.lexemes numerator.pieces ∧
        Labels denominator.lexemes denominator.pieces := by
      simpa using each
    by_cases quotient : command = fraction
    next =>
      simp only [callLexemes, callPieces, List.map_cons, List.map_nil, quotient, if_true]
      exact (above.grouped true).append ((@Labels.mark .divide _ rfl).append (below.grouped true))
    next =>
      simp only [callLexemes, callPieces, List.map_cons, List.map_nil, quotient, if_false]
      exact applied

theorem Regular.labels {expr : Expr} (regular : expr.Regular Kind.Spells) : Labels expr.lexemes expr.pieces := by
  induction regular with
  | number spells => exact .single spells
  | ident spells =>
    rw [pieces, glyphPieces_eq spells]
    exact .single (spells_writtenName spells)
  | sign isSign _ ih =>
    obtain ⟨kind, fixed, -⟩ := @Grammar.Level.kind_of_mark .sum _ isSign
    exact (Labels.operator fixed).append (ih.grouped _)
  | arith joins _ _ left right =>
    obtain ⟨kind, fixed, -⟩ := kind_of_arith joins
    exact labels_joined fixed left right
  | compare relates _ _ left right =>
    obtain ⟨kind, fixed, -⟩ := @Grammar.Level.kind_of_mark .relation _ relates
    exact labels_joined fixed left right
  | assign _ _ left right => exact @labels_joined .assign _ _ _ _ _ _ .equals rfl left right
  | call isCommand _ ih =>
    rw [lexemes, pieces, lexemesAll_eq_map, piecesAll_eq_map]
    exact labels_call isCommand ih
  | array _ ih =>
    rw [lexemes, pieces, lexemesAll_eq_map, piecesAll_eq_map]
    exact .bracketed ih
  | matrix _ ih =>
    rw [lexemes, pieces, lexemesRows_eq_map, piecesRows_eq_map]
    have rows := Labels.bracketed fun row inside => Labels.bracketed (ih row inside)
    exact (Labels.name (.inr (by decide))).append (rows.grouped true)
  | paren _ ih => exact ih.grouped true

theorem scan_flat_lexemes [Stack] {expr : Expr} (regular : expr.Regular Kind.Spells) :
    expr.flat = (if expr.isTall then .error .tooTall else .ok expr.flatText) ∧
      (Token.scan expr.flatText).map Token.lexeme = expr.lexemes ∧
      expr.lexemes.map Prod.snd = expr.pieces.filter (· ≠ "") := by
  refine ⟨?flat, ?scanned, regular.labels.texts⟩
  case flat =>
    cases tall : expr.isTall with
    | true => simp [flat, tall]
    | false => simpa using regular.flat_ok tall
  case scanned =>
    have same := regular.carries_scan_flatText.lexemes_unique regular.labels.carries
    rw [same, List.map_map]
    exact List.map_id' _

theorem scan_flat_lexemes_relation :
    let expr := compare "<=" (arith "-" (number "2.") (ident "π"))
      (sign "-" (call "\\" [matrix [[number ".5", call "\\sin" [ident "x"]]]]))
    expr.Regular Kind.Spells ∧ (Token.scan expr.flatText).map Token.lexeme =
      [(.number, "2."), (.minus, "-"), (.identifier, "pi"), (.lessEqual, "<="), (.minus, "-"),
        (.leftParen, "("), (.identifier, "Matrix"), (.leftParen, "("), (.leftBracket, "["),
        (.leftBracket, "["), (.number, ".5"), (.comma, ","), (.identifier, "sin"), (.leftParen, "("),
        (.identifier, "x"), (.rightParen, ")"), (.rightBracket, "]"), (.rightBracket, "]"),
        (.rightParen, ")"), (.rightParen, ")")] := by
  intro expr
  have sine : (call "\\sin" [ident "x"]).Regular Kind.Spells :=
    .call (by decide) (List.forall_mem_singleton.2 (.ident (by decide)))
  have cells : ∀ cell ∈ [number ".5", call "\\sin" [ident "x"]], cell.Regular Kind.Spells :=
    List.forall_mem_cons.2 ⟨.number (by decide), List.forall_mem_singleton.2 sine⟩
  have applied : (call "\\" [matrix [[number ".5", call "\\sin" [ident "x"]]]]).Regular Kind.Spells :=
    .call (by decide) (List.forall_mem_singleton.2 (.matrix (List.forall_mem_singleton.2 cells)))
  have difference : (arith "-" (number "2.") (ident "π")).Regular Kind.Spells :=
    .arith (by decide) (.number (by decide)) (.ident (by decide))
  have regular : expr.Regular Kind.Spells := .compare (by decide) difference (.sign (by decide) applied)
  exact ⟨regular, (scan_flat_lexemes regular).2.1⟩

end Expr

end FormulaCalculator
