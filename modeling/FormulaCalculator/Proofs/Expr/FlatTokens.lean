import FormulaCalculator.Proofs.Grammar.Spans
import FormulaCalculator.Proofs.Token.Forms

set_option autoImplicit false

namespace FormulaCalculator

namespace Token

def AfterOperand (next : List Char) : Prop :=
  ∀ d ∈ next.head?, Lexeme.isWordChar d = false ∧ d ≠ '.'

theorem afterOperand_cons {d : Char} {next : List Char} (outside : Lexeme.isWordChar d = false)
    (notPoint : d ≠ '.') : AfterOperand (d :: next) := by
  intro other isFirst
  cases isFirst
  exact ⟨outside, notPoint⟩

theorem mark_shape {kind : Kind} {mark : String} (fixed : kind.spelling? = some mark)
    (notDot : kind ≠ .dot) : ∃ c rest, mark.toList = c :: rest ∧
      (Lexeme.isWordChar c || c == '.' || c == '\\') = false ∧
      (kind.isRelation = false → (c == '<' || c == '>' || c == '!' || c == '=') = false) := by
  cases kind <;> cases fixed <;> first | exact ⟨_, _, rfl, by decide⟩ | exact absurd rfl notDot

theorem goesOn_of_mark {kind : Kind} {mark : String} (fixed : kind.spelling? = some mark)
    (notDot : kind ≠ .dot) {d : Char} (apart : kind.isRelation = true → d ≠ '=') :
    ∀ c ∈ mark.toList.head?, Lexeme.goesOn c d = false := by
  intro c isFirst
  obtain ⟨first, rest, chars, outside, single⟩ := mark_shape fixed notDot
  obtain rfl : first = c := by simpa [chars] using isFirst
  unfold Lexeme.goesOn
  rw [outside]
  cases relates : kind.isRelation with
  | true => simp [apart relates]
  | false =>
    have single := single relates
    simp_all

theorem afterOperand_mark {kind : Kind} {mark : String} (fixed : kind.spelling? = some mark)
    (notDot : kind ≠ .dot) (next : List Char) : AfterOperand (mark.toList ++ next) := by
  obtain ⟨c, rest, chars, outside, -⟩ := mark_shape fixed notDot
  rw [chars]
  refine afterOperand_cons ?_ ?_ <;> simp_all

theorem operand_shape {kind : Kind} {text : String} (spells : kind.Spells text)
    (isOperand : kind = .number ∨ kind = .identifier) :
    ∃ c rest, text.toList = c :: rest ∧ (Lexeme.isWordChar c || c == '.') = true := by
  obtain ⟨c, rest, chars, -⟩ := Kind.spells_iff.1 spells
  have isSolid : Lexeme.isSolid kind = true := by rcases isOperand with rfl | rfl <;> rfl
  have first := (Lexeme.spells_iff_form.1 spells).solid isSolid c (by simp [chars])
  exact ⟨c, rest, chars, by simpa using first⟩

theorem goesOn_of_operand {kind : Kind} {text : String} (spells : kind.Spells text)
    (isOperand : kind = .number ∨ kind = .identifier) {d : Char} (outside : Lexeme.isWordChar d = false)
    (notPoint : d ≠ '.') : ∀ c ∈ text.toList.head?, Lexeme.goesOn c d = false := by
  intro c isFirst
  obtain ⟨first, rest, chars, inside⟩ := operand_shape spells isOperand
  obtain rfl : first = c := by simpa [chars] using isFirst
  simp [Lexeme.goesOn, inside, outside, notPoint]

namespace Cuts

theorem mark {kind : Kind} {piece : String} {pieces : List String} {next : List Char}
    (fixed : kind.spelling? = some piece) (notDot : kind ≠ .dot)
    (apart : kind.isRelation = true → ∀ d ∈ (chars pieces ++ next).head?, d ≠ '=')
    (cuts : Cuts pieces next) : Cuts (piece :: pieces) next :=
  cuts.cons ((Kind.spells_iff_of_spelling fixed piece).2 rfl) fun c isFirst d isNext =>
    goesOn_of_mark fixed notDot (fun isRelation => apart isRelation d isNext) c isFirst

theorem operand {kind : Kind} {piece : String} {next : List Char} (spells : kind.Spells piece)
    (isOperand : kind = .number ∨ kind = .identifier) (after : AfterOperand next) :
    Cuts [piece] next :=
  (nil next).cons spells fun c isFirst d isNext =>
    goesOn_of_operand spells isOperand (after d isNext).1 (after d isNext).2 c isFirst

end Cuts

structure Stands (pieces : List String) : Prop where
  cuts : ∀ next, AfterOperand next → Cuts pieces next
  opens : ∃ c rest, chars pieces = c :: rest ∧ c ≠ '='

namespace Stands

variable {left right pieces : List String}

theorem operand {kind : Kind} {text : String} (spells : kind.Spells text)
    (isOperand : kind = .number ∨ kind = .identifier) : Stands [text] := by
  refine ⟨fun next after => .operand spells isOperand after, ?_⟩
  obtain ⟨c, rest, same, inside⟩ := operand_shape spells isOperand
  refine ⟨c, rest, by simp [same], ?_⟩
  rintro rfl
  cases inside

theorem sign {kind : Kind} {op : String} (fixed : kind.spelling? = some op)
    (isSign : kind.isSign = true) (inside : Stands pieces) : Stands (op :: pieces) := by
  have plain : kind ≠ .dot ∧ kind.isRelation = false := by cases kind <;> cases isSign <;> decide
  constructor
  case cuts => exact fun next after => (inside.cuts next after).mark fixed plain.1 (by simp [plain.2])
  case opens =>
    obtain ⟨c, rest, same, -, single⟩ := mark_shape fixed plain.1
    have single := single plain.2
    refine ⟨c, rest ++ chars pieces, by simp [same], ?_⟩
    simp_all

theorem enclosed {opening closing : Kind} {first last : String} (opens : opening.spelling? = some first)
    (closes : closing.spelling? = some last)
    (plain : (opening ≠ .dot ∧ opening.isRelation = false) ∧ closing ≠ .dot ∧ closing.isRelation = false)
    (inside : ∀ next, AfterOperand next → Cuts pieces next) : Stands (first :: pieces ++ [last]) := by
  obtain ⟨⟨solid, open_single⟩, solidEnd, close_single⟩ := plain
  constructor
  case cuts =>
    intro next _
    have ended : Cuts [last] next := (Cuts.nil next).mark closes solidEnd (by simp [close_single])
    have filled : Cuts pieces (chars [last] ++ next) := by
      refine inside _ ?_
      simpa using afterOperand_mark closes solidEnd next
    exact (filled.append ended).mark opens solid (by simp [open_single])
  case opens =>
    obtain ⟨c, rest, same, -, single⟩ := mark_shape opens solid
    have single := single open_single
    refine ⟨c, rest ++ chars (pieces ++ [last]), by simp [same], ?_⟩
    simp_all

theorem joined {kind : Kind} {op : String} (fixed : kind.spelling? = some op) (notDot : kind ≠ .dot)
    (before : Stands left) (after : Stands right) : Stands (left ++ op :: right) := by
  constructor
  case cuts =>
    intro next atEnd
    obtain ⟨c, rest, same, notEquals⟩ := after.opens
    have later : Cuts (op :: right) next := by
      refine (after.cuts next atEnd).mark fixed notDot fun _ d isNext => ?_
      rw [same] at isNext
      cases isNext
      exact notEquals
    refine (before.cuts _ ?_).append later
    simpa using afterOperand_mark fixed notDot (chars right ++ next)
  case opens =>
    obtain ⟨c, rest, same, notEquals⟩ := before.opens
    exact ⟨c, rest ++ chars (op :: right), by simp [same], notEquals⟩

theorem commas {lists : List (List String)} (each : ∀ pieces ∈ lists, Stands pieces) (next : List Char)
    (after : AfterOperand next) : Cuts (Expr.commaJoined lists) next := by
  induction lists with
  | nil => exact .nil next
  | cons pieces lists ih =>
    obtain ⟨first, others⟩ := List.forall_mem_cons.1 each
    cases lists with
    | nil => exact first.cuts next after
    | cons other lists =>
      have later : Cuts ("," :: Expr.commaJoined (other :: lists)) next :=
        @Token.Cuts.mark .comma _ _ _ rfl (by decide) nofun (ih others)
      refine (first.cuts _ ?_).append later
      exact afterOperand_cons (by decide) (by decide)

theorem bracketed {lists : List (List String)} (each : ∀ pieces ∈ lists, Stands pieces) :
    Stands (Expr.bracketed lists) :=
  @enclosed _ .leftBracket .rightBracket _ _ rfl rfl (by decide) (commas each)

theorem parens (inside : ∀ next, AfterOperand next → Cuts pieces next) :
    Stands (Expr.enclose true pieces) :=
  @enclosed _ .leftParen .rightParen _ _ rfl rfl (by decide) inside

theorem blank (inside : Stands pieces) : Stands ("" :: pieces) :=
  ⟨fun next after => (inside.cuts next after).blank, by simpa using inside.opens⟩

theorem applied {name : String} (isIdent : Kind.identifier.Spells name)
    (inside : ∀ next, AfterOperand next → Cuts pieces next) :
    Stands (name :: Expr.enclose true pieces) := by
  have named : Stands [name] := .operand isIdent (.inr rfl)
  constructor
  case cuts =>
    intro next after
    refine (named.cuts _ ?_).append ((parens inside).cuts next after)
    exact afterOperand_cons (by decide) (by decide)
  case opens =>
    obtain ⟨c, rest, same, notEquals⟩ := named.opens
    refine ⟨c, rest ++ chars (Expr.enclose true pieces), ?_, notEquals⟩
    rw [← List.singleton_append, chars_append, same, List.cons_append]

end Stands

inductive Laid : List String → Prop where
  | operand {kind : Kind} {text : String} (spells : kind.Spells text)
      (isOperand : kind = .number ∨ kind = .identifier) : Laid [text]
  | sign {kind : Kind} {op : String} {pieces : List String} (fixed : kind.spelling? = some op)
      (isSign : kind.isSign = true) (inside : Laid pieces) : Laid (op :: pieces)
  | joined {kind : Kind} {op : String} {left right : List String} (fixed : kind.spelling? = some op)
      (isOperator : kind.isOperator = true) (before : Laid left) (after : Laid right) :
      Laid (left ++ op :: right)
  | parens {pieces : List String} (inside : Laid pieces) : Laid (Expr.enclose true pieces)
  | bracketed {lists : List (List String)} (each : ∀ pieces ∈ lists, Laid pieces) :
      Laid (Expr.bracketed lists)
  | applied {name : String} {lists : List (List String)} (isIdent : Kind.identifier.Spells name)
      (each : ∀ pieces ∈ lists, Laid pieces) : Laid (name :: Expr.enclose true (Expr.commaJoined lists))
  | nameless {lists : List (List String)} (each : ∀ pieces ∈ lists, Laid pieces) :
      Laid ("" :: Expr.enclose true (Expr.commaJoined lists))

namespace Laid

theorem enclose {pieces : List String} (inside : Laid pieces) (needed : Bool) :
    Laid (Expr.enclose needed pieces) := by
  cases needed with
  | false => exact inside
  | true => exact .parens inside

theorem stands {pieces : List String} (laid : Laid pieces) : Stands pieces := by
  induction laid with
  | operand spells isOperand => exact .operand spells isOperand
  | sign fixed isSign _ ih => exact ih.sign fixed isSign
  | @joined kind _ _ _ fixed isOperator _ _ before after =>
    refine before.joined fixed ?_ after
    rintro rfl
    cases isOperator
  | parens _ ih => exact .parens ih.cuts
  | bracketed _ ih => exact .bracketed ih
  | applied isIdent _ ih => exact .applied isIdent (Stands.commas ih)
  | nameless _ ih => exact (Stands.parens (Stands.commas ih)).blank

end Laid

end Token

namespace Expr

open Token (Laid Carries)

theorem laid_joint {level : Grammar.Level} {op : String} {left right : List String}
    (joins : op ∈ level.marks) (before : Laid left) (after : Laid right) :
    Laid (left ++ op :: right) := by
  obtain ⟨kind, fixed, operates⟩ := Grammar.Level.kind_of_mark joins
  exact .joined fixed (Grammar.Level.isOperator operates) before after

def writtenName (name : String) : String := if name = "π" then "pi" else name

theorem spells_writtenName {name : String} (isIdent : Kind.identifier.Spells name) :
    Kind.identifier.Spells (writtenName name) := by
  unfold writtenName
  split
  next => decide
  next => exact isIdent

theorem glyphPieces_eq {name : String} (isIdent : Kind.identifier.Spells name) :
    glyphPieces name = [writtenName name] := by
  unfold glyphPieces writtenName
  split
  next => rfl
  next =>
    split
    next isTau => exact absurd (isTau ▸ isIdent) (by decide)
    next =>
      split
      next isPhi => exact absurd (isPhi ▸ isIdent) (by decide)
      next => rfl

theorem laid_glyph {name : String} (isIdent : Kind.identifier.Spells name) :
    Laid (glyphPieces name) := by
  rw [glyphPieces_eq isIdent]
  exact .operand (spells_writtenName isIdent) (.inr rfl)

theorem command_shape {name : String} (isCommand : Kind.command.Spells name) :
    ∃ letters, name.toList = '\\' :: letters ∧ ∀ d ∈ letters, d.isAlpha = true := by
  have form := Lexeme.spells_iff_form.1 isCommand
  generalize name.toList = chars at form ⊢
  cases form with
  | command all => exact ⟨_, rfl, all⟩
  | mark fixed => cases fixed

theorem plainName_spells {name : String} (isCommand : Kind.command.Spells name) :
    plainName name = "" ∨ Kind.identifier.Spells (plainName name) := by
  obtain ⟨letters, chars, all⟩ := command_shape isCommand
  unfold plainName
  cases letters with
  | nil =>
    left
    rw [chars]
    rfl
  | cons d more =>
    right
    obtain ⟨first, others⟩ := List.forall_mem_cons.1 all
    have notBackslash : d ≠ '\\' := by
      rintro rfl
      cases first
    have dropped : name.toList.dropWhile (· == '\\') = d :: more := by simp [chars, notBackslash]
    have starts : Lexeme.isWordStart d = true := by simp [Lexeme.isWordStart, first]
    rw [dropped, Lexeme.spells_iff_form, String.toList_ofList]
    exact .name starts fun e inside => Lexeme.isWordChar_of_isAlpha (others e inside)

theorem laid_call {name : String} {args : List (List String)} (isCommand : Kind.command.Spells name)
    (each : ∀ pieces ∈ args, Laid pieces) : Laid (callPieces name args) := by
  have plain : Laid (plainName name :: enclose true (commaJoined args)) := by
    rcases plainName_spells isCommand with empty | isIdent
    · rw [empty]
      exact .nameless each
    · exact .applied isIdent each
  unfold callPieces
  split
  next numerator denominator =>
    split
    next =>
      obtain ⟨above, below⟩ : Laid numerator ∧ Laid denominator := by simpa using each
      exact @laid_joint .product "/" _ _ (by decide) (.parens above) (.parens below)
    next => exact plain
  next => exact plain

theorem kind_of_arith {op : String} (joins : op ∈ signs ++ factors ++ ["^"]) :
    ∃ kind : Kind, kind.spelling? = some op ∧ kind.isOperator = true ∧ kind.isRelation = false := by
  simp only [signs, factors, List.cons_append, List.nil_append, List.mem_cons, List.not_mem_nil,
    or_false] at joins
  rcases joins with rfl | rfl | rfl | rfl | rfl
  · exact ⟨.plus, rfl, rfl, rfl⟩
  · exact ⟨.minus, rfl, rfl, rfl⟩
  · exact ⟨.multiply, rfl, rfl, rfl⟩
  · exact ⟨.divide, rfl, rfl, rfl⟩
  · exact ⟨.power, rfl, rfl, rfl⟩

theorem Regular.laid {expr : Expr} (regular : expr.Regular Kind.Spells) : Laid expr.pieces := by
  induction regular with
  | number spells => exact .operand spells (.inl rfl)
  | ident spells => exact laid_glyph spells
  | sign isSign _ ih =>
    obtain ⟨kind, fixed, isSign⟩ := @Grammar.Level.kind_of_mark .sum _ isSign
    exact .sign fixed isSign (ih.enclose _)
  | arith joins _ _ left right =>
    obtain ⟨kind, fixed, isOperator, -⟩ := kind_of_arith joins
    exact .joined fixed isOperator (left.enclose _) (right.enclose _)
  | compare relates _ _ left right =>
    exact @laid_joint .relation _ _ _ relates (left.enclose _) (right.enclose _)
  | assign _ _ left right =>
    exact @laid_joint .relation "=" _ _ (by decide) (left.enclose _) (right.enclose _)
  | call isCommand _ ih =>
    rw [pieces, piecesAll_eq_map]
    exact laid_call isCommand (List.forall_mem_map.2 ih)
  | array _ ih =>
    rw [pieces, piecesAll_eq_map]
    exact .bracketed (List.forall_mem_map.2 ih)
  | @matrix rows _ ih =>
    rw [pieces, piecesRows_eq_map]
    have each : ∀ pieces ∈ [bracketed (rows.map fun row => bracketed (row.map Expr.pieces))],
        Laid pieces := by
      refine List.forall_mem_singleton.2 (.bracketed ?_)
      exact List.forall_mem_map.2 fun row inside => .bracketed (List.forall_mem_map.2 (ih row inside))
    exact .applied (by decide) each
  | paren _ ih => exact .parens ih

theorem Regular.carries_scan_flatText {expr : Expr} (regular : expr.Regular Kind.Spells) :
    Carries (Token.scan expr.flatText) expr.pieces :=
  (regular.laid.stands.cuts [] nofun).scan

end Expr

end FormulaCalculator
