import FormulaCalculator.Proofs.Expr.FlatTokens

set_option autoImplicit false

namespace FormulaCalculator

namespace Kind

def closing? : Kind → Option Kind
  | leftParen => some rightParen
  | leftBracket => some rightBracket
  | leftBrace => some rightBrace
  | _ => none

def isBracket : Kind → Bool
  | leftParen | leftBracket | leftBrace | rightParen | rightBracket | rightBrace => true
  | _ => false

theorem notBracket_of_isOperator {kind : Kind} (isOperator : kind.isOperator = true) :
    kind.isBracket = false := by
  cases kind <;> first | rfl | cases isOperator

end Kind

namespace Token

/-- Every bracket has its partner. The second list is that of the tokens outside of all brackets. -/
inductive Balanced : List Token → List Token → Prop where
  | nil : Balanced [] []
  | single {token : Token} (plain : token.kind.isBracket = false) : Balanced [token] [token]
  | append {left right exposedLeft exposedRight : List Token} (before : Balanced left exposedLeft)
      (after : Balanced right exposedRight) : Balanced (left ++ right) (exposedLeft ++ exposedRight)
  | enclosed {left right : Token} {inside hidden : List Token}
      (partners : left.kind.closing? = some right.kind) (inner : Balanced inside hidden) :
      Balanced (left :: inside ++ [right]) []

-- Relations may stand outside of all brackets only if `relates` says so.
def Boxed (relates : Bool) (pieces : List String) : Prop :=
  ∀ tokens, Carries tokens pieces → ∃ exposed, Balanced tokens exposed ∧
    (relates = false → ∀ token ∈ exposed, token.kind.isRelation = false)

namespace Boxed

variable {relates relatesLeft relatesRight : Bool} {left right pieces : List String}

theorem mono {also : Bool} (boxed : Boxed relates pieces) (implies : also = false → relates = false) :
    Boxed also pieces := by
  intro tokens carries
  obtain ⟨exposed, balanced, none⟩ := boxed tokens carries
  exact ⟨exposed, balanced, fun strict => none (implies strict)⟩

theorem loose (boxed : Boxed relates pieces) : Boxed true pieces := boxed.mono nofun

theorem nil : Boxed false [] := by
  intro tokens carries
  rw [carries_nil.1 carries]
  exact ⟨[], .nil, nofun⟩

theorem single {kind : Kind} {piece : String} (spells : kind.Spells piece)
    (plain : kind.isBracket = false) : Boxed kind.isRelation [piece] := by
  intro tokens carries
  obtain ⟨token, more, rfl, rfl, -, ended⟩ := (carries_cons spells).1 carries
  rw [carries_nil.1 ended]
  exact ⟨[token], .single plain, fun none => by simpa using none⟩

theorem append (before : Boxed relatesLeft left) (after : Boxed relatesRight right) :
    Boxed (relatesLeft || relatesRight) (left ++ right) := by
  intro tokens carries
  obtain ⟨first, second, rfl, carriesLeft, carriesRight⟩ := carries_append.1 carries
  obtain ⟨exposedLeft, balancedLeft, noneLeft⟩ := before first carriesLeft
  obtain ⟨exposedRight, balancedRight, noneRight⟩ := after second carriesRight
  refine ⟨_, balancedLeft.append balancedRight, fun none => ?_⟩
  obtain ⟨left, right⟩ := Bool.or_eq_false_iff.1 none
  exact List.forall_mem_append.2 ⟨noneLeft left, noneRight right⟩

theorem blank (boxed : Boxed relates pieces) : Boxed relates ("" :: pieces) :=
  fun tokens carries => boxed tokens (carries_blank.1 carries)

theorem enclosed {opening closing : Kind} {first last : String} (opens : opening.spelling? = some first)
    (closes : closing.spelling? = some last) (partners : opening.closing? = some closing)
    (inside : Boxed relates pieces) : Boxed false (first :: pieces ++ [last]) := by
  intro tokens carries
  obtain ⟨left, inner, right, rfl, rfl, rfl, carriesInner⟩ :=
    Grammar.carries_enclosed opens closes carries
  -- Whether relations stand outside of the brackets inside does not matter: they are hidden now.
  obtain ⟨hidden, balanced, -⟩ := inside inner carriesInner
  exact ⟨[], .enclosed partners balanced, nofun⟩

theorem parens (inside : Boxed relates pieces) : Boxed false (Expr.enclose true pieces) :=
  @enclosed _ _ .leftParen .rightParen _ _ rfl rfl rfl inside

theorem enclose (inside : Boxed relates pieces) (needed : Bool) :
    Boxed (relates && !needed) (Expr.enclose needed pieces) := by
  cases needed with
  | false => exact inside.mono fun strict => by simpa using strict
  | true => exact inside.parens.mono fun _ => rfl

theorem joined {kind : Kind} {op : String} (fixed : kind.spelling? = some op)
    (plain : kind.isBracket = false) (before : Boxed relatesLeft left)
    (after : Boxed relatesRight right) :
    Boxed (relatesLeft || (kind.isRelation || relatesRight)) (left ++ op :: right) :=
  before.append ((single ((Kind.spells_iff_of_spelling fixed op).2 rfl) plain).append after)

theorem commas {lists : List (List String)} (each : ∀ pieces ∈ lists, Boxed true pieces) :
    Boxed true (Expr.commaJoined lists) := by
  induction lists with
  | nil => exact nil.loose
  | cons pieces lists ih =>
    obtain ⟨first, others⟩ := List.forall_mem_cons.1 each
    cases lists with
    | nil => exact first
    | cons other lists => exact @joined _ _ _ _ .comma "," rfl rfl first (ih others)

theorem bracketed {lists : List (List String)} (each : ∀ pieces ∈ lists, Boxed true pieces) :
    Boxed false (Expr.bracketed lists) :=
  @enclosed _ _ .leftBracket .rightBracket _ _ rfl rfl rfl (commas each)

end Boxed

end Token

namespace Expr

open Token (Boxed Balanced)

def isRelational : Expr → Bool
  | compare _ _ _ | assign _ _ => true
  | _ => false

theorem isJoined_of_relational {expr : Expr} (relational : expr.isRelational = true) :
    expr.isJoined = true := by
  cases expr <;> first | rfl | cases relational

theorem needsParens_of_relational {op : String} {child : Expr} (joins : op ∈ signs ++ factors ++ ["^"])
    (relational : child.isRelational = true) (side : Side) :
    needsParens (.arith op) side child = true := by
  have tighter : ∃ outer, bindingOf? op = some outer ∧ 2 < outer := by
    simp only [signs, factors, List.cons_append, List.nil_append, List.mem_cons, List.not_mem_nil,
      or_false] at joins
    rcases joins with rfl | rfl | rfl | rfl | rfl <;> exact ⟨_, rfl, by decide⟩
  -- An operator binds its sides more tightly than any relation does.
  obtain ⟨outer, bound, tight⟩ := tighter
  have looser : ∃ inner, child.binding? = some inner ∧ inner < outer := by
    cases child with
    | compare => exact ⟨2, rfl, tight⟩
    | assign => exact ⟨1, rfl, by omega⟩
    | _ => cases relational
  obtain ⟨inner, isInner, less⟩ := looser
  simp [needsParens, isInner, Joint.binding?, bound, less]

theorem boxed_operator {op : String} {lhs rhs : Expr} (joins : op ∈ signs ++ factors ++ ["^"])
    (left : Boxed lhs.isRelational lhs.pieces) (right : Boxed rhs.isRelational rhs.pieces) :
    Boxed false (arith op lhs rhs).pieces := by
  have closed (side : Side) (child : Expr) :
      (child.isRelational && !needsParens (.arith op) side child) = false := by
    cases relational : child.isRelational with
    | false => rfl
    | true => simp [needsParens_of_relational joins relational side]
  have before := left.enclose (needsParens (.arith op) .left lhs)
  have after := right.enclose (needsParens (.arith op) .right rhs)
  rw [closed] at before after
  obtain ⟨kind, fixed, isOperator, noRelation⟩ := kind_of_arith joins
  have both := before.joined fixed (Kind.notBracket_of_isOperator isOperator) after
  rw [noRelation] at both
  exact both

theorem boxed_relation {rel : String} (relates : rel ∈ relations) {left right : List String}
    {relatesLeft relatesRight : Bool} (before : Boxed relatesLeft left)
    (after : Boxed relatesRight right) : Boxed true (left ++ rel :: right) := by
  obtain ⟨kind, fixed, isRelation⟩ := @Grammar.Level.kind_of_mark .relation _ relates
  have plain := Kind.notBracket_of_isOperator (Grammar.Level.isOperator isRelation)
  have isRelation : kind.isRelation = true := isRelation
  simpa [isRelation] using before.joined fixed plain after

theorem boxed_call {name : String} {args : List (List String)} (isCommand : Kind.command.Spells name)
    (each : ∀ pieces ∈ args, Boxed true pieces) : Boxed false (callPieces name args) := by
  have plain : Boxed false (plainName name :: enclose true (commaJoined args)) := by
    have inside := (Boxed.commas each).parens
    rcases plainName_spells isCommand with empty | isIdent
    · rw [empty]
      exact inside.blank
    · exact (Boxed.single isIdent rfl).append inside
  unfold callPieces
  split
  next numerator denominator =>
    split
    next =>
      obtain ⟨above, below⟩ : Boxed true numerator ∧ Boxed true denominator := by simpa using each
      exact @Boxed.joined _ _ _ _ .divide "/" rfl rfl above.parens below.parens
    next => exact plain
  next => exact plain

theorem Regular.boxed {expr : Expr} (regular : expr.Regular Kind.Spells) :
    Boxed expr.isRelational expr.pieces := by
  -- Induction on the tree. A relation below an operator or a sign is written in parentheses, so only
  -- those of comparisons and assignments at the root show.
  induction regular with
  | number spells => exact .single spells rfl
  | ident spells =>
    rw [pieces, glyphPieces_eq spells]
    exact .single (spells_writtenName spells) rfl
  | @sign op operand isSign _ ih =>
    have joins : op ∈ signs ++ factors ++ ["^"] :=
      List.mem_append_left _ (List.mem_append_left _ isSign)
    obtain ⟨kind, fixed, isOperator, noRelation⟩ := kind_of_arith joins
    have closed : (operand.isRelational && !operand.isJoined) = false := by
      cases relational : operand.isRelational with
      | false => rfl
      | true => simp [isJoined_of_relational relational]
    have inside := ih.enclose operand.isJoined
    rw [closed] at inside
    have signed := Boxed.nil.joined fixed (Kind.notBracket_of_isOperator isOperator) inside
    rw [noRelation] at signed
    exact signed
  | arith joins _ _ left right => exact boxed_operator joins left right
  | compare relates _ _ left right => exact boxed_relation relates (left.enclose _) (right.enclose _)
  | assign _ _ left right =>
    exact @boxed_relation "=" (by decide) _ _ _ _ (left.enclose _) (right.enclose _)
  | call isCommand _ ih =>
    rw [pieces, piecesAll_eq_map]
    exact boxed_call isCommand (List.forall_mem_map.2 fun arg inside => (ih arg inside).loose)
  | array _ ih =>
    rw [pieces, piecesAll_eq_map]
    exact .bracketed (List.forall_mem_map.2 fun item inside => (ih item inside).loose)
  | matrix _ ih =>
    rw [pieces, piecesRows_eq_map]
    have grid (row : List Expr) (isRow : row ∈ _) : Boxed true (bracketed (row.map pieces)) :=
      (Boxed.bracketed (List.forall_mem_map.2 fun cell isCell => (ih row isRow cell isCell).loose)).loose
    have rows := (Boxed.bracketed (List.forall_mem_map.2 grid)).parens
    exact (Boxed.single (by decide : Kind.identifier.Spells "Matrix") rfl).append rows
  | paren _ ih => exact ih.parens

theorem Regular.balanced_scan_flatText {expr : Expr} (regular : expr.Regular Kind.Spells) :
    ∃ exposed, Balanced (Token.scan expr.flatText) exposed ∧
      (expr.isRelational = false → ∀ token ∈ exposed, token.kind.isRelation = false) :=
  regular.boxed _ regular.carries_scan_flatText

end Expr

end FormulaCalculator
