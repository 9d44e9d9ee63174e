import FormulaCalculator.Proofs.Expr.Joints
import FormulaCalculator.Proofs.Expr.Nesting
import FormulaCalculator.Proofs.Grammar.Orderly
import Mathlib.Data.List.Basic

set_option autoImplicit false

namespace FormulaCalculator

namespace Grammar

-- The texts are those of the phrase, with `after` behind them.
def Phrase.Worded (texts after : List String) : Phrase → Prop
  | expression expr | chain _ expr | exponent expr | primary _ expr => texts = expr.source ++ after
  | links _ lhs expr => lhs.source ++ texts = expr.source ++ after
  | list exprs => texts = listed "," (exprs.map Expr.source) ++ after
  | items exprs => texts = (exprs.flatMap fun expr => "," :: expr.source) ++ after
  | group _ | groups _ | cells _ _ => True

theorem source_join (level : Level) (op : String) (lhs rhs : Expr) :
    (level.join op lhs rhs).source = lhs.source ++ op :: rhs.source := by
  cases level <;> rfl

theorem Level.worded_operand {level : Level} {texts after : List String} {expr : Expr} :
    (level.operand expr).Worded texts after ↔ texts = expr.source ++ after := by
  cases level <;> exact Iff.rfl

theorem text_of_kind {token : Token} {kind : Kind} {mark : String} (fixed : kind.spelling? = some mark)
    (isKind : token.kind = kind) (spells : token.kind.Spells token.text) : token.text = mark := by
  rw [isKind] at spells
  exact (Kind.spells_iff_of_spelling fixed token.text).1 spells

theorem texts_enclosed {left right : Token} {tokens rest : List Token} {opening closing : Kind}
    {first last : String} {pieces : List String} (fixedOpening : opening.spelling? = some first)
    (fixedClosing : closing.spelling? = some last) (opens : left.kind = opening) (closes : right.kind = closing)
    (spelled : Spelled (left :: tokens)) (isInside : right ∈ tokens)
    (inside : tokens.map Token.text = pieces ++ (right :: rest).map Token.text) :
    (left :: tokens).map Token.text = first :: pieces ++ [last] ++ rest.map Token.text := by
  obtain ⟨spells, others⟩ := spelled.cons
  rw [List.map_cons, text_of_kind fixedOpening opens spells, inside, List.map_cons,
    text_of_kind fixedClosing closes (others right isInside)]
  simp

theorem Derives.worded {tokens rest : List Token} {phrase : Phrase} (derived : Derives tokens rest phrase)
    (spelled : Spelled tokens) (unmarked : Unmarked tokens) :
    phrase.Worded (tokens.map Token.text) (rest.map Token.text) := by
  induction derived with
  | expression _ _ ih | base _ ih => exact ih spelled unmarked
  | assignment _ ih => exact ih spelled unmarked
  | chain operand _ first more =>
    have front := Level.worded_operand.1 (first spelled unmarked)
    have links := more (operand.spelled spelled) (operand.unmarked unmarked)
    exact front.trans links
  | unlinked => rfl
  | link _ operand _ second more =>
    obtain ⟨-, spelledAfter⟩ := spelled.cons
    obtain ⟨-, unmarkedAfter⟩ := List.forall_mem_cons.1 unmarked
    have front := Level.worded_operand.1 (second spelledAfter unmarkedAfter)
    have links := more (operand.spelled spelledAfter) (operand.unmarked unmarkedAfter)
    simp only [Phrase.Worded, source_join] at links ⊢
    rw [List.map_cons, front, ← links]
    simp
  | power primary raises _ base raised =>
    obtain ⟨spells, spelledAfter⟩ := (primary.spelled spelled).cons
    obtain ⟨-, unmarkedAfter⟩ := List.forall_mem_cons.1 (primary.unmarked unmarked)
    have front := base spelled unmarked
    have isPower := @text_of_kind _ .power _ rfl raises spells
    have exponent := raised spelledAfter unmarkedAfter
    simp only [Phrase.Worded, List.map_cons, isPower] at front exponent ⊢
    rw [front, exponent]
    simp [Expr.source]
  | number | ident => rfl
  | sign _ _ ih =>
    have operand := ih spelled.cons.2 (List.forall_mem_cons.1 unmarked).2
    exact congrArg _ operand
  | paren opens inside closes ih =>
    have inner := ih spelled.cons.2 (List.forall_mem_cons.1 unmarked).2
    have isInside := inside.suffix.subset List.mem_cons_self
    exact @texts_enclosed _ _ _ _ .leftParen .rightParen _ _ _ rfl rfl opens closes spelled isInside inner
  | emptyArray opens closes =>
    exact @texts_enclosed _ _ _ _ .leftBracket .rightBracket _ _ [] rfl rfl opens closes spelled
      List.mem_cons_self rfl
  | array opens inside closes ih =>
    have inner := ih spelled.cons.2 (List.forall_mem_cons.1 unmarked).2
    have isInside := inside.suffix.subset List.mem_cons_self
    rw [Phrase.Worded, Expr.source, Expr.sourceAll_eq_map]
    exact @texts_enclosed _ _ _ _ .leftBracket .rightBracket _ _ _ rfl rfl opens closes spelled isInside inner
  | emptyMatrix opens | matrix opens => exact absurd opens (unmarked _ List.mem_cons_self).2
  | fraction isCommand | callGroups isCommand | callEmpty isCommand | callList isCommand
  | callBare isCommand => exact absurd isCommand (unmarked _ List.mem_cons_self).1
  | group | noGroups | groups | noCells | cell | row => trivial
  | list first _ ih ihMore =>
    have front := ih spelled unmarked
    have items := ihMore (first.spelled spelled) (first.unmarked unmarked)
    simp only [Phrase.Worded] at front items ⊢
    rw [front, items]
    simp [listed, List.flatMap_map]
  | noItems => rfl
  | items divides first _ ih ihMore =>
    obtain ⟨spells, spelledAfter⟩ := spelled.cons
    obtain ⟨-, unmarkedAfter⟩ := List.forall_mem_cons.1 unmarked
    have isComma := @text_of_kind _ .comma _ rfl divides spells
    have front := ih spelledAfter unmarkedAfter
    have items := ihMore (first.spelled spelledAfter) (first.unmarked unmarkedAfter)
    simp only [Phrase.Worded, List.map_cons, isComma] at front items ⊢
    rw [front, items]
    simp

end Grammar

namespace Expr

open Nesting

namespace Regular

variable {expr : Expr}

theorem plain_arith {op : String} (joins : op ∈ signs ++ factors ++ ["^"]) : ¬ IsParen op := by
  obtain ⟨kind, fixed, isOperator, -⟩ := kind_of_arith joins
  exact plain_mark fixed isOperator

theorem plain_level {level : Grammar.Level} {op : String} (joins : op ∈ level.marks) : ¬ IsParen op := by
  obtain ⟨kind, fixed, operates⟩ := Grammar.Level.kind_of_mark joins
  exact plain_mark fixed (Grammar.Level.isOperator operates)

theorem plain_sign {op : String} (isSign : op ∈ signs) : ¬ IsParen op := @plain_level .sum op isSign

theorem plain_relation {rel : String} (relates : rel ∈ relations) : ¬ IsParen rel :=
  @plain_level .relation rel relates

theorem closed_source (regular : expr.Regular Kind.Spells) : Closed expr.source := by
  induction regular with
  | number spells => exact .single (plain_operand spells (.inl rfl))
  | ident spells => exact .single (plain_operand spells (.inr rfl))
  | sign isSign _ ih => exact ih.cons (plain_sign isSign)
  | arith joins _ _ left right => exact left.joined (plain_arith joins) right
  | compare relates _ _ left right => exact left.joined (plain_relation relates) right
  | assign _ _ left right => exact left.joined (by decide) right
  | call isCommand _ ih =>
    have named := plain_spelled isCommand (by decide)
    rw [source, sourceAll_eq_map]
    split
    next =>
      refine (Closed.flatMap (List.forall_mem_map.2 fun arg inside => ?_)).cons named
      exact ((ih arg inside).append (.single (by decide))).cons (by decide)
    next => exact (Closed.listed (by decide) (List.forall_mem_map.2 ih)).parens.cons named
  | array _ ih =>
    rw [source, sourceAll_eq_map, ← Grammar.commaJoined_eq_listed]
    exact .bracketed (List.forall_mem_map.2 ih)
  | matrix _ ih =>
    rw [source, sourceRows_eq_map]
    have rows := @Closed.listed ";" (by decide) _ (List.forall_mem_map.2 fun row inside =>
      @Closed.listed "," (by decide) _ (List.forall_mem_map.2 (ih row inside)))
    exact (rows.append (.single (by decide))).cons (by decide)
  | paren _ ih => exact ih.parens

theorem exposed_node {joint : Joint} {lhs rhs : Expr} {left right : List String}
    (regular : (joint.node lhs rhs).Regular Kind.Spells) (closed : Closed left) :
    Exposed (left ++ joint.text :: right) := by
  obtain ⟨-, -, kind, fixed, isOperator⟩ := regular.node
  exact exposed_joined closed (plain_mark fixed isOperator) right

theorem exposed_source (regular : expr.Regular Kind.Spells) (unwrapped : ∀ inner, expr ≠ .paren inner) :
    Exposed expr.source := by
  cases regular with
  | number spells => exact exposed_cons (plain_operand spells (.inl rfl)) []
  | ident spells => exact exposed_cons (plain_operand spells (.inr rfl)) []
  | sign isSign => exact exposed_cons (plain_sign isSign) _
  | arith joins left => exact exposed_joined left.closed_source (plain_arith joins) _
  | compare relates left => exact exposed_joined left.closed_source (plain_relation relates) _
  | assign left => exact exposed_joined left.closed_source (by decide) _
  | call isCommand =>
    have named := plain_spelled isCommand (by decide)
    rw [source]
    split <;> exact exposed_cons named _
  | array => exact exposed_cons (by decide) _
  | matrix => exact exposed_cons (by decide) _
  | paren => exact absurd rfl (unwrapped _)

theorem not_paren (regular : expr.Regular Kind.Spells) (exposed : Exposed expr.source) (inner : Expr) :
    expr ≠ .paren inner := by
  rintro rfl
  cases regular with
  | paren inside => exact exposed.ne_parens inside.closed_source rfl

theorem words_all {items : List Expr} (each : ∀ item ∈ items, words item.source = words item.bare.source) :
    (items.map source).map words = ((items.map bare).map source).map words := by
  simp only [List.map_map]
  exact List.map_congr_left each

theorem words_braces (lists : List (List String)) :
    (words (lists.flatMap fun pieces => "\x7b" :: pieces ++ ["\x7d"])) =
      (lists.map words).flatMap fun pieces => "\x7b" :: pieces ++ ["\x7d"] := by
  rw [words_flatMap, List.flatMap_map]
  exact List.flatMap_congr fun pieces _ => words_between (by decide) (by decide) pieces

theorem words_sides {joint : Joint} {lhs rhs : Expr} (isMark : ¬ IsParen joint.text)
    (left : words lhs.source = words lhs.bare.source) (right : words rhs.source = words rhs.bare.source) :
    words (joint.node lhs rhs).source = words (joint.node lhs rhs).bare.source := by
  rw [source_node, words_append, words_cons isMark, left, right, bare_node, source_node, words_append,
    words_cons isMark]

theorem words_source (regular : expr.Regular Kind.Spells) : words expr.source = words expr.bare.source := by
  induction regular with
  | number | ident => rfl
  | sign isSign _ ih =>
    have plain := plain_sign isSign
    rw [bare, source, source, words_cons plain, words_cons plain, ih]
  | arith joins _ _ left right => exact @words_sides (.arith _) _ _ (plain_arith joins) left right
  | compare relates _ _ left right => exact @words_sides (.compare _) _ _ (plain_relation relates) left right
  | assign _ _ left right => exact @words_sides .assign _ _ (by decide) left right
  | @call name args isCommand _ ih =>
    have named := plain_spelled isCommand (by decide)
    have each := words_all ih
    rw [bare, source, source, sourceAll_eq_map, sourceAll_eq_map, bareAll_eq_map]
    split
    next => rw [words_cons named, words_cons named, words_braces, words_braces, each]
    next =>
      rw [words_cons named, words_cons named]
      refine congrArg _ ((words_enclose true _).trans (Eq.trans ?_ (words_enclose true _).symm))
      rw [words_listed (by decide), words_listed (by decide), each]
  | array _ ih =>
    have each := words_all ih
    rw [bare, source, source, sourceAll_eq_map, sourceAll_eq_map, bareAll_eq_map,
      ← Grammar.commaJoined_eq_listed, ← Grammar.commaJoined_eq_listed]
    refine (words_bracketed _).trans (Eq.trans ?_ (words_bracketed _).symm)
    rw [each]
  | @matrix rows _ ih =>
    have each (row : List Expr) (isRow : row ∈ rows) :
        words (Grammar.listed "," (row.map source)) = words (Grammar.listed "," ((row.map bare).map source)) := by
      rw [words_listed (by decide), words_listed (by decide), words_all (ih row isRow)]
    have brace : ¬ IsParen "\x7b" ∧ ¬ IsParen "\x7d" := by decide
    have semicolon : ¬ IsParen ";" := by decide
    rw [bare, source, source, sourceRows_eq_map, sourceRows_eq_map, bareRows_eq_map,
      words_between brace.1 brace.2, words_between brace.1 brace.2, words_listed semicolon,
      words_listed semicolon, List.map_map, List.map_map, List.map_map]
    exact congrArg (fun lists => "\x7b" :: Grammar.listed ";" lists ++ ["\x7d"]) (List.map_congr_left each)
  | paren _ ih =>
    rw [bare, ← ih]
    exact words_enclose true _

end Regular

end Expr

end FormulaCalculator
