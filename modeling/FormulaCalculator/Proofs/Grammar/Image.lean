import FormulaCalculator.Proofs.Grammar.Acceptance
import FormulaCalculator.Proofs.Grammar.WellFormed

set_option autoImplicit false

namespace FormulaCalculator

namespace Expr

open Grammar (listed)

mutual

def source : Expr → List String
  | missing | word _ | tuple _ => []
  | number text => [text]
  | ident name => [name]
  | sign op operand => op :: source operand
  | arith op lhs rhs => source lhs ++ op :: source rhs
  | compare rel lhs rhs => source lhs ++ rel :: source rhs
  | assign lhs rhs => source lhs ++ "=" :: source rhs
  | call name args =>
    if name = fraction then name :: (sourceAll args).flatMap fun arg => "\x7b" :: arg ++ ["\x7d"]
    else name :: ("(" :: listed "," (sourceAll args) ++ [")"])
  | array items => "[" :: listed "," (sourceAll items) ++ ["]"]
  | matrix rows => "\x7b" :: listed ";" (sourceRows rows) ++ ["\x7d"]
  | paren inner => "(" :: source inner ++ [")"]

def sourceAll : List Expr → List (List String)
  | [] => []
  | item :: items => source item :: sourceAll items

def sourceRows : List (List Expr) → List (List String)
  | [] => []
  | row :: rows => listed "," (sourceAll row) :: sourceRows rows

end

theorem sourceAll_eq_map (items : List Expr) : sourceAll items = items.map source := by
  induction items with
  | nil => rfl
  | cons item items ih => simp [sourceAll, ih]

theorem sourceRows_eq_map (rows : List (List Expr)) :
    sourceRows rows = rows.map fun row => listed "," (row.map source) := by
  induction rows with
  | nil => rfl
  | cons row rows ih => simp [sourceRows, sourceAll_eq_map, ih]

def sourceText (expr : Expr) : String := " ".intercalate (source expr)

end Expr

namespace Grammar

def Place.phrase : Place → Expr → Phrase
  | slot, expr => .expression expr
  | comparison, expr => .chain .relation expr
  | additive, expr => .chain .sum expr
  | term, expr => .chain .product expr
  | exponent, expr => .exponent expr
  | primary, expr => .primary expr.isSign expr

theorem WellFormed.spans {place : Place} {expr : Expr} (wellFormed : WellFormed place expr) :
    Spans expr.source (place.phrase expr) := by
  induction wellFormed with
  | assign isIdent _ ih => exact .assignment isIdent ih
  | slot _ kept ih => exact .expression ih kept
  | compare relates _ _ left right => exact .link relates left right
  | sum joins _ _ left right => exact .link joins left right
  | product joins _ _ left right => exact .link joins left right
  | comparison _ ih => exact .first ih
  | additive _ ih => exact .first ih
  | term _ ih => exact .first ih
  | power _ unsigned _ left right => exact .power (by simpa [Place.phrase, unsigned] using left) right
  | exponent _ ih => exact .base ih
  | number isNumber => exact .number isNumber
  | ident isIdent => exact .ident isIdent
  | sign isSign _ ih => exact .sign isSign ih
  | paren _ ih => exact .paren ih
  | @array items _ ih =>
    have spans := @Spans.array _ Expr.source id items ih
    simpa [Place.phrase, Expr.isSign, Expr.source, Expr.sourceAll_eq_map] using spans
  | @matrix rows filled _ ih =>
    have spans := @Spans.matrix _ Expr.source id rows filled ih
    simpa [Place.phrase, Expr.isSign, Expr.source, Expr.sourceRows_eq_map] using spans
  | fraction _ _ above below =>
    have spans := Spans.fraction (.group above) (.group below)
    simpa [Place.phrase, Expr.isSign, Expr.source, Expr.sourceAll] using spans
  | @call name args isCommand named _ ih =>
    have spans := @Spans.call _ Expr.source id args name isCommand named ih
    simpa [Place.phrase, Expr.isSign, Expr.source, named, Expr.sourceAll_eq_map] using spans

def Lexemes (pieces : List String) : Prop := ∀ piece ∈ pieces, ∃ kind : Kind, kind.Spells piece

namespace Lexemes

theorem mark {kind : Kind} {text : String} (fixed : kind.spelling? = some text) : Lexemes [text] := by
  intro piece inside
  obtain rfl : piece = text := by simpa using inside
  exact ⟨kind, (Kind.spells_iff_of_spelling fixed piece).2 rfl⟩

theorem operator {level : Level} {op : String} (joins : op ∈ level.marks) : Lexemes [op] := by
  obtain ⟨kind, fixed, -⟩ := Level.kind_of_mark joins
  exact mark fixed

theorem append {first second : List String} (left : Lexemes first) (right : Lexemes second) :
    Lexemes (first ++ second) :=
  List.forall_mem_append.2 ⟨left, right⟩

theorem enclosed {opening closing : Kind} {first last : String} {pieces : List String}
    (opens : opening.spelling? = some first) (closes : closing.spelling? = some last)
    (inside : Lexemes pieces) : Lexemes (first :: pieces ++ [last]) :=
  ((mark opens).append inside).append (mark closes)

theorem joined {op : String} {left right : List String} (before : Lexemes left)
    (joins : Lexemes [op]) (after : Lexemes right) : Lexemes (left ++ op :: right) :=
  before.append (joins.append after)

theorem flatMap {α : Type} {write : α → List String} {items : List α}
    (each : ∀ item ∈ items, Lexemes (write item)) : Lexemes (items.flatMap write) := by
  intro piece inside
  obtain ⟨item, isItem, inside⟩ := List.mem_flatMap.1 inside
  exact each item isItem piece inside

theorem listed {mark : String} {lists : List (List String)} (marked : Lexemes [mark])
    (each : ∀ pieces ∈ lists, Lexemes pieces) : Lexemes (listed mark lists) := by
  cases lists with
  | nil => exact nofun
  | cons first more =>
    obtain ⟨here, others⟩ := List.forall_mem_cons.1 each
    exact here.append (flatMap fun pieces inside => marked.append (others pieces inside))

theorem commas {items : List Expr} (each : ∀ item ∈ items, Lexemes item.source) :
    Lexemes (Grammar.listed "," (Expr.sourceAll items)) := by
  rw [Expr.sourceAll_eq_map]
  exact listed (@mark .comma _ rfl) (List.forall_mem_map.2 each)

end Lexemes

theorem lexemes_source {expr : Expr} (regular : expr.Regular Kind.Spells) : Lexemes expr.source := by
  induction regular with
  | number spells | ident spells =>
    intro piece inside
    obtain rfl : piece = _ := List.mem_singleton.1 inside
    exact ⟨_, spells⟩
  | sign isSign _ ih => exact (@Lexemes.operator .sum _ isSign).append ih
  | arith joins _ _ left right =>
    refine left.joined ?_ right
    simp only [List.mem_append, List.mem_singleton] at joins
    rcases joins with (isSign | isFactor) | rfl
    · exact @Lexemes.operator .sum _ isSign
    · exact @Lexemes.operator .product _ isFactor
    · exact @Lexemes.mark .power _ rfl
  | compare relates _ _ left right => exact left.joined (@Lexemes.operator .relation _ relates) right
  | assign _ _ left right => exact left.joined (@Lexemes.mark .equals _ rfl) right
  | @call name args isCommand _ ih =>
    have named : Lexemes [name] := by simpa [Lexemes] using ⟨_, isCommand⟩
    rw [Expr.source]
    split
    next =>
      refine named.append (.flatMap ?_)
      rw [Expr.sourceAll_eq_map, List.forall_mem_map]
      exact fun arg inside => @Lexemes.enclosed .leftBrace .rightBrace _ _ _ rfl rfl (ih arg inside)
    next => exact named.append (@Lexemes.enclosed .leftParen .rightParen _ _ _ rfl rfl (.commas ih))
  | array _ ih => exact @Lexemes.enclosed .leftBracket .rightBracket _ _ _ rfl rfl (.commas ih)
  | matrix _ ih =>
    have semicolon := @Lexemes.mark .semicolon _ rfl
    refine @Lexemes.enclosed .leftBrace .rightBrace _ _ _ rfl rfl (.listed semicolon ?_)
    rw [Expr.sourceRows_eq_map, List.forall_mem_map]
    intro row inside
    rw [← Expr.sourceAll_eq_map]
    exact .commas (ih row inside)
  | paren _ ih => exact @Lexemes.enclosed .leftParen .rightParen _ _ _ rfl rfl ih

theorem WellFormed.regular {place : Place} {expr : Expr} (wellFormed : WellFormed place expr) :
    expr.Regular Kind.Spells := by
  induction wellFormed with
  | assign isIdent _ ih => exact .assign (.ident isIdent) ih
  | slot _ _ ih | comparison _ ih | additive _ ih | term _ ih | exponent _ ih => exact ih
  | compare relates _ _ left right => exact .compare relates left right
  | sum joins _ _ left right => exact .arith (by simp [joins]) left right
  | product joins _ _ left right => exact .arith (by simp [joins]) left right
  | power _ _ _ left right => exact .arith (by simp) left right
  | number isNumber => exact .number isNumber
  | ident isIdent => exact .ident isIdent
  | sign isSign _ ih => exact .sign isSign ih
  | paren _ ih => exact .paren ih
  | array _ ih => exact .array ih
  | matrix _ _ ih => exact .matrix ih
  | fraction _ _ above below => exact .call (by decide) (by simp [above, below])
  | call isCommand _ _ ih => exact .call isCommand ih

theorem WellFormed.derives_sourceText {expr : Expr} (wellFormed : WellFormed .slot expr) :
    Derives (Token.scan expr.sourceText) [] (.expression expr) := by
  have carries := Token.carries_scan_spaced (lexemes_source wellFormed.regular)
  have derived := wellFormed.spans _ [] carries
  rwa [List.append_nil] at derived

theorem parseText_sourceText [Stack] {expr : Expr} (wellFormed : WellFormed .slot expr)
    (shallow : expr.height ≤ Stack.nesting) : parseText expr.sourceText = .ok expr :=
  (parse_ok_iff_derives (.inl shallow)).2 wellFormed.derives_sourceText

theorem wellFormed_of_parseText [Stack] {text : String} {expr : Expr} (parsed : parseText text = .ok expr) :
    WellFormed .slot expr :=
  (derives_of_parseWithin parsed).wellFormed fun _ => Token.spells_of_mem_scan

theorem parseText_image [Stack] (expr : Expr) :
    (expr.height ≤ Stack.nesting → ((∃ text, parseText text = .ok expr) ↔ WellFormed .slot expr)) ∧
      ∀ text, parseText text = .ok expr →
        expr.flat = (if expr.isTall then .error .tooTall else .ok expr.flatText) ∧
        ((∃ plan, expr.plan = .ok plan) ∨
          expr.isTall = true ∧ expr.plan = .error (.unwritten .tooTall)) := by
  constructor
  case left =>
    intro shallow
    constructor
    · rintro ⟨text, parsed⟩
      exact wellFormed_of_parseText parsed
    · intro wellFormed
      exact ⟨expr.sourceText, parseText_sourceText wellFormed shallow⟩
  case right =>
    intro text parsed
    have regular := (wellFormed_of_parseText parsed).regular
    cases tall : expr.isTall with
    | true => exact ⟨by simp [Expr.flat, tall], .inr ⟨rfl, by simp [Expr.plan, tall]⟩⟩
    | false => exact ⟨by simp [regular.flat_ok tall], .inl (regular.plan_ok tall)⟩

theorem chained_equation_image :
    (∃ text, parseText text =
      .ok (.compare "=" (.compare "=" (.ident "x") (.number "1")) (.number "2"))) ∧
      ¬ ∃ text, parseText text = .ok (.compare "=" (.ident "x") (.number "1")) := by
  have atom {expr : Expr} (wellFormed : WellFormed .primary expr) : WellFormed .additive expr :=
    .additive (.term (.exponent wellFormed))
  constructor
  · refine ((parseText_image _).1 (by decide)).2 (.slot ?_ rfl)
    refine .compare (by decide) (.compare (by decide) ?_ ?_) ?_
    · exact .comparison (atom (.ident rfl))
    · exact atom (.number rfl)
    · exact atom (.number rfl)
  · intro read
    cases ((parseText_image _).1 (by decide)).1 read with
    | slot _ kept => cases kept

end Grammar

end FormulaCalculator
