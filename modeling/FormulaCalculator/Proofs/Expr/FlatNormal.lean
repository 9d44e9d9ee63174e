import FormulaCalculator.Proofs.Expr.FlatTokens
import FormulaCalculator.Proofs.Shorthand.Products

set_option autoImplicit false

namespace FormulaCalculator

namespace Token

def Spaced (pieces : List String) : Prop :=
  ∀ tokens, Carries tokens pieces → (tokens.map lexeme).IsChain Shorthand.NoProduct

namespace Spaced

variable {left right pieces : List String}

theorem nil : Spaced [] := by
  intro tokens carries
  rw [carries_nil.1 carries]
  exact .nil

theorem single {kind : Kind} {text : String} (spells : kind.Spells text) : Spaced [text] := by
  intro tokens carries
  obtain ⟨token, more, rfl, -, -, ended⟩ := (carries_cons spells).1 carries
  rw [carries_nil.1 ended]
  exact .singleton _

theorem cons {kind : Kind} {piece : String} (spells : kind.Spells piece) (other : kind ≠ .number)
    (spaced : Spaced pieces) : Spaced (piece :: pieces) := by
  intro tokens carries
  obtain ⟨token, more, rfl, rfl, -, after⟩ := (carries_cons spells).1 carries
  exact List.isChain_cons.2 ⟨fun next _ isNumber => absurd isNumber other, spaced more after⟩

theorem joined {kind : Kind} {mark : String} (fixed : kind.spelling? = some mark)
    (other : kind ≠ .leftParen) (before : Spaced left) (after : Spaced right) :
    Spaced (left ++ mark :: right) := by
  have spells := (Kind.spells_iff_of_spelling fixed mark).2 rfl
  have notNumber : kind ≠ .number := by
    rintro rfl
    cases fixed
  intro tokens carries
  obtain ⟨first, second, rfl, carriesLeft, carriesRight⟩ := carries_append.1 carries
  have later := (after.cons spells notNumber) second carriesRight
  obtain ⟨token, more, rfl, -, rfl, -⟩ := (carries_cons spells).1 carriesRight
  rw [List.map_append, List.isChain_append]
  refine ⟨before first carriesLeft, later, fun last _ next isNext _ => ?_⟩
  cases isNext
  exact Shorthand.startsFactor_mark fixed other

theorem enclosed {opening closing : Kind} {first last : String} (opens : opening.spelling? = some first)
    (closes : closing.spelling? = some last) (other : closing ≠ .leftParen) (inside : Spaced pieces) :
    Spaced (first :: pieces ++ [last]) := by
  refine cons ((Kind.spells_iff_of_spelling opens first).2 rfl) ?_ (inside.joined closes other nil)
  rintro rfl
  cases opens

theorem commas {lists : List (List String)} (each : ∀ pieces ∈ lists, Spaced pieces) :
    Spaced (Expr.commaJoined lists) := by
  induction lists with
  | nil => exact nil
  | cons pieces lists ih =>
    obtain ⟨first, others⟩ := List.forall_mem_cons.1 each
    cases lists with
    | nil => exact first
    | cons other lists => exact @joined _ _ .comma "," rfl (by decide) first (ih others)

theorem parens (inside : Spaced pieces) : Spaced (Expr.enclose true pieces) :=
  @enclosed _ .leftParen .rightParen _ _ rfl rfl (by decide) inside

end Spaced

namespace Laid

variable {pieces : List String}

theorem spaced (laid : Laid pieces) : Spaced pieces := by
  induction laid with
  | operand spells => exact .single spells
  | sign fixed isSign _ ih =>
    refine ih.cons ((Kind.spells_iff_of_spelling fixed _).2 rfl) ?_
    rintro rfl
    cases isSign
  | joined fixed isOperator _ _ before after =>
    refine before.joined fixed ?_ after
    rintro rfl
    cases isOperator
  | parens _ ih => exact ih.parens
  | bracketed _ ih => exact @Spaced.enclosed _ .leftBracket .rightBracket _ _ rfl rfl (by decide) (.commas ih)
  | applied isIdent _ ih => exact (Spaced.commas ih).parens.cons isIdent (by decide)
  | nameless _ ih => exact fun tokens carries => (Spaced.commas ih).parens tokens (carries_blank.1 carries)

def Bare (piece : String) : Prop :=
  piece = "" ∨ ∃ kind : Kind, kind.Spells piece ∧ kind ≠ .command ∧ kind ≠ .leftBrace

theorem bare_mark {kind : Kind} {mark : String} (fixed : kind.spelling? = some mark)
    (other : kind ≠ .leftBrace) : Bare mark := by
  refine .inr ⟨kind, (Kind.spells_iff_of_spelling fixed mark).2 rfl, ?_, other⟩
  rintro rfl
  cases fixed

theorem bare_operand {kind : Kind} {text : String} (spells : kind.Spells text)
    (isOperand : kind = .number ∨ kind = .identifier) : Bare text := by
  refine .inr ⟨kind, spells, ?_⟩
  rcases isOperand with rfl | rfl <;> simp

theorem mem_commaJoined {lists : List (List String)} {piece : String}
    (inside : piece ∈ Expr.commaJoined lists) : piece = "," ∨ ∃ pieces ∈ lists, piece ∈ pieces := by
  induction lists with
  | nil => simp [Expr.commaJoined] at inside
  | cons pieces lists ih =>
    cases lists with
    | nil => exact .inr ⟨pieces, by simp, inside⟩
    | cons other lists =>
      simp only [Expr.commaJoined, List.mem_append, List.mem_cons] at inside
      rcases inside with here | isComma | later
      · exact .inr ⟨pieces, by simp, here⟩
      · exact .inl isComma
      · obtain isComma | ⟨more, isMore, inMore⟩ := ih later
        · exact .inl isComma
        · exact .inr ⟨more, List.mem_cons_of_mem _ isMore, inMore⟩

theorem bare (laid : Laid pieces) : ∀ piece ∈ pieces, Bare piece := by
  have enclosed {opening closing : String} {pieces : List String} (opens : Bare opening)
      (closes : Bare closing) (inside : ∀ piece ∈ pieces, Bare piece) :
      ∀ piece ∈ opening :: pieces ++ [closing], Bare piece := by
    simp only [List.cons_append, List.forall_mem_cons, List.forall_mem_append]
    exact ⟨opens, inside, closes, nofun⟩
  have parens {pieces : List String} (inside : ∀ piece ∈ pieces, Bare piece) :
      ∀ piece ∈ Expr.enclose true pieces, Bare piece :=
    enclosed (@bare_mark .leftParen _ rfl (by decide)) (@bare_mark .rightParen _ rfl (by decide)) inside
  have commas {lists : List (List String)} (each : ∀ pieces ∈ lists, ∀ piece ∈ pieces, Bare piece) :
      ∀ piece ∈ Expr.commaJoined lists, Bare piece := by
    intro piece inside
    rcases mem_commaJoined inside with rfl | ⟨pieces, isOne, within⟩
    · exact @bare_mark .comma _ rfl (by decide)
    · exact each pieces isOne piece within
  induction laid with
  | operand spells isOperand => exact List.forall_mem_singleton.2 (bare_operand spells isOperand)
  | sign fixed isSign _ ih =>
    refine List.forall_mem_cons.2 ⟨bare_mark fixed ?_, ih⟩
    rintro rfl
    cases isSign
  | joined fixed isOperator _ _ before after =>
    refine List.forall_mem_append.2 ⟨before, List.forall_mem_cons.2 ⟨bare_mark fixed ?_, after⟩⟩
    rintro rfl
    cases isOperator
  | parens _ ih => exact parens ih
  | bracketed _ ih =>
    exact enclosed (@bare_mark .leftBracket _ rfl (by decide))
      (@bare_mark .rightBracket _ rfl (by decide)) (commas ih)
  | applied isIdent _ ih => exact List.forall_mem_cons.2 ⟨bare_operand isIdent (.inr rfl), parens (commas ih)⟩
  | nameless _ ih => exact List.forall_mem_cons.2 ⟨.inl rfl, parens (commas ih)⟩

end Laid

theorem Carries.mem {token : Token} {tokens : List Token} {pieces : List String}
    (carries : Carries tokens pieces) (inside : token ∈ tokens) :
    token.text ∈ pieces ∧ token.kind.Spells token.text := by
  induction carries with
  | nil => simp at inside
  | blank _ ih => exact (ih inside).imp_left (List.mem_cons_of_mem _)
  | piece spells _ ih =>
    rcases List.mem_cons.1 inside with rfl | later
    · exact ⟨List.mem_cons_self, spells⟩
    · exact (ih later).imp_left (List.mem_cons_of_mem _)

theorem Laid.bare_token {tokens : List Token} {pieces : List String} (laid : Laid pieces)
    (carries : Carries tokens pieces) : ∀ token ∈ tokens, token.kind ≠ .command ∧ token.kind ≠ .leftBrace := by
  intro token inside
  obtain ⟨isPiece, spells⟩ := carries.mem inside
  rcases laid.bare _ isPiece with empty | ⟨kind, also, other⟩
  · exact absurd empty spells.ne_empty
  · rwa [spells.unique also]

end Token

namespace Expr.Regular

variable {expr : Expr}

theorem bare_token (regular : expr.Regular Kind.Spells) :
    ∀ token ∈ Token.scan expr.flatText, token.kind ≠ .command ∧ token.kind ≠ .leftBrace :=
  regular.laid.bare_token regular.carries_scan_flatText

theorem notBackslash (regular : expr.Regular Kind.Spells) : ∀ c ∈ expr.flatText.toList, c ≠ '\\' := by
  intro c inside
  rw [flatText, String.toList_join, List.mem_flatMap] at inside
  obtain ⟨piece, isPiece, within⟩ := inside
  rcases regular.laid.bare piece isPiece with rfl | ⟨kind, spells, notCommand, -⟩
  · simp at within
  · exact (Lexeme.spells_iff_form.1 spells).notBackslash notCommand c within

theorem normalize_flatText (regular : expr.Regular Kind.Spells) :
    normalize expr.flatText = expr.flatText := by
  have spaced := regular.laid.spaced _ regular.carries_scan_flatText
  rw [normalize, Shorthand.expand_eq_self regular.notBackslash, Shorthand.multiply_eq_self spaced,
    String.ofList_toList]

end Expr.Regular

end FormulaCalculator
