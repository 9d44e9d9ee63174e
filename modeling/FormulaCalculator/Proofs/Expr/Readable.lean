import FormulaCalculator.Proofs.Expr.FlatNormal
import FormulaCalculator.Proofs.Expr.RoundTrip
import FormulaCalculator.Proofs.Grammar.Orderly

set_option autoImplicit false

namespace FormulaCalculator

open Token (Carries carries_nil carries_blank carries_cons carries_append)

namespace Grammar

-- Orderly tokens that start with those of the pieces go on orderly, and tell something.
def Tells (holds : Prop) (pieces : List String) : Prop :=
  ∀ tokens, Carries tokens pieces → ∀ squares rest, Orderly squares (tokens ++ rest) →
    holds ∧ Orderly squares rest

namespace Tells

variable {holds also : Prop} {left right pieces : List String}

theorem imp (tells : Tells holds pieces) (implies : holds → also) : Tells also pieces := by
  intro tokens carries squares rest orderly
  exact (tells tokens carries squares rest orderly).imp_left implies

theorem operand {kind : Kind} {text : String} (spells : kind.Spells text)
    (isOperand : kind = .number ∨ kind = .identifier) : Tells True [text] := by
  intro tokens carries squares rest orderly
  obtain ⟨token, more, rfl, isKind, -, ended⟩ := (carries_cons spells).1 carries
  rw [carries_nil.1 ended] at orderly
  rcases isOperand with rfl | rfl
  · exact ⟨trivial, (orderly_number isKind).1 orderly⟩
  · exact ⟨trivial, ((orderly_ident isKind).1 orderly).2⟩

theorem operator {kind : Kind} {op : String} (fixed : kind.spelling? = some op)
    (isOperator : kind.isOperator = true) (tells : Tells holds pieces) : Tells holds (op :: pieces) := by
  intro tokens carries squares rest orderly
  obtain ⟨token, more, rfl, rfl, -, after⟩ := carries_mark fixed carries
  exact tells more after squares rest ((orderly_operator isOperator).1 orderly)

theorem append (before : Tells holds left) (after : Tells also right) :
    Tells (holds ∧ also) (left ++ right) := by
  intro tokens carries squares rest orderly
  obtain ⟨first, second, rfl, carriesLeft, carriesRight⟩ := carries_append.1 carries
  rw [List.append_assoc] at orderly
  obtain ⟨told, later⟩ := before first carriesLeft squares _ orderly
  obtain ⟨more, ended⟩ := after second carriesRight squares rest later
  exact ⟨⟨told, more⟩, ended⟩

theorem joined {kind : Kind} {op : String} (fixed : kind.spelling? = some op)
    (isOperator : kind.isOperator = true) (before : Tells holds left) (after : Tells also right) :
    Tells (holds ∧ also) (left ++ op :: right) :=
  before.append (after.operator fixed isOperator)

theorem blank (tells : Tells holds pieces) : Tells holds ("" :: pieces) :=
  fun tokens carries => tells tokens (carries_blank.1 carries)

theorem within (inside : ∀ tokens, Carries tokens pieces → ∀ (squares : List Bool) rest,
      Orderly (false :: squares) (tokens ++ rest) → holds ∧ Orderly (false :: squares) rest) :
    Tells holds (Expr.enclose true pieces) := by
  intro tokens carries squares rest orderly
  obtain ⟨opening, inner, closing, rfl, opens, closes, carriesInner⟩ :=
    @carries_enclosed .leftParen .rightParen _ _ rfl rfl _ _ carries
  simp only [List.cons_append, List.append_assoc, List.nil_append] at orderly
  obtain ⟨-, orderly⟩ := (orderly_leftParen opens).1 orderly
  obtain ⟨told, later⟩ := inside inner carriesInner squares _ orderly
  exact ⟨told, (orderly_closing (.inl closes)).1 later⟩

theorem parens (tells : Tells holds pieces) : Tells holds (Expr.enclose true pieces) :=
  within fun tokens carries _ rest orderly => tells tokens carries _ rest orderly

theorem enclose (tells : Tells holds pieces) (needed : Bool) :
    Tells holds (Expr.enclose needed pieces) := by
  cases needed with
  | false => exact tells
  | true => exact tells.parens

theorem emptyParens : Tells False (Expr.enclose true []) := by
  intro tokens carries squares rest orderly
  obtain ⟨opening, inner, closing, rfl, opens, closes, carriesInner⟩ :=
    @carries_enclosed .leftParen .rightParen _ _ rfl rfl _ _ carries
  rw [carries_nil.1 carriesInner] at orderly
  exact absurd closes (((orderly_leftParen opens).1 orderly).1 closing rfl)

theorem commaInParens (before : Tells holds left) : Tells False (Expr.enclose true (left ++ "," :: right)) := by
  refine within fun tokens carries _ rest orderly => ?_
  obtain ⟨first, second, rfl, carriesLeft, carriesRight⟩ := carries_append.1 carries
  obtain ⟨comma, more, rfl, divides, -, -⟩ := @carries_mark .comma _ rfl _ _ carriesRight
  rw [List.append_assoc] at orderly
  have later := (before first carriesLeft _ _ orderly).2
  cases ((orderly_comma divides).1 later).1

theorem applied {name : String} (isIdent : Kind.identifier.Spells name) :
    Tells False (name :: Expr.enclose true pieces) := by
  intro tokens carries squares rest orderly
  obtain ⟨token, more, rfl, isKind, -, after⟩ := (carries_cons isIdent).1 carries
  obtain ⟨opening, inner, closing, rfl, opens, -, -⟩ :=
    @carries_enclosed .leftParen .rightParen _ _ rfl rfl _ _ after
  exact absurd opens (((orderly_ident isKind).1 orderly).1 opening rfl)

variable {α : Type} {write : α → List String} {property : α → Prop}

theorem commas {items : List α} (each : ∀ item ∈ items, Tells (property item) (write item))
    {tokens rest : List Token} {squares : List Bool}
    (carries : Carries tokens (Expr.commaJoined (items.map write)))
    (orderly : Orderly squares (tokens ++ rest)) :
    (∀ item ∈ items, property item) ∧ Orderly squares rest := by
  induction items generalizing tokens with
  | nil =>
    rw [carries_nil.1 carries] at orderly
    exact ⟨nofun, orderly⟩
  | cons item items ih =>
    obtain ⟨first, others⟩ := List.forall_mem_cons.1 each
    cases items with
    | nil => simpa using first tokens carries squares rest orderly
    | cons next items =>
      obtain ⟨before, after, rfl, carriesLeft, carriesRight⟩ := carries_append.1 carries
      obtain ⟨comma, more, rfl, divides, -, carriesMore⟩ := @carries_mark .comma _ rfl _ _ carriesRight
      rw [List.append_assoc] at orderly
      obtain ⟨here, later⟩ := first before carriesLeft squares _ orderly
      obtain ⟨all, ended⟩ := ih others carriesMore ((orderly_comma divides).1 later).2
      exact ⟨List.forall_mem_cons.2 ⟨here, all⟩, ended⟩

theorem bracketed {items : List α} (each : ∀ item ∈ items, Tells (property item) (write item)) :
    Tells (∀ item ∈ items, property item) (Expr.bracketed (items.map write)) := by
  intro tokens carries squares rest orderly
  obtain ⟨opening, inner, closing, rfl, opens, closes, carriesInner⟩ :=
    @carries_enclosed .leftBracket .rightBracket _ _ rfl rfl _ _ carries
  simp only [List.cons_append, List.append_assoc, List.nil_append] at orderly
  obtain ⟨all, later⟩ := commas each carriesInner ((orderly_leftBracket opens).1 orderly)
  exact ⟨all, (orderly_closing (.inr closes)).1 later⟩

end Tells

end Grammar

namespace Expr

open Grammar (Tells Orderly)

/-- No matrix, and no command but a quotient or a lone backslash with one argument. -/
def HasLegibleNodes (expr : Expr) : Prop := expr.Everywhere (·.isLegibleNode = true)

instance (expr : Expr) : Decidable expr.HasLegibleNodes := inferInstanceAs (Decidable (Everywhere _ expr))

theorem name_of_plainName {name : String} (isCommand : Kind.command.Spells name)
    (empty : plainName name = "") : name = "\\" := by
  obtain ⟨letters, chars, all⟩ := command_shape isCommand
  cases letters with
  | nil => rw [← String.toList_inj, chars]; rfl
  | cons d more =>
    have notBackslash : d ≠ '\\' := by
      rintro rfl
      cases all _ List.mem_cons_self
    have dropped : name.toList.dropWhile (· == '\\') = d :: more := by simp [chars, notBackslash]
    rw [plainName, dropped, String.ofList_eq_empty_iff] at empty
    cases empty

theorem tells_joint {level : Grammar.Level} {op : String} {left right : List String} {holds also : Prop}
    (joins : op ∈ level.marks) (before : Tells holds left) (after : Tells also right) :
    Tells (holds ∧ also) (left ++ op :: right) := by
  obtain ⟨kind, fixed, operates⟩ := Grammar.Level.kind_of_mark joins
  exact before.joined fixed (Grammar.Level.isOperator operates) after

theorem tells_call {name : String} {args : List Expr} (isCommand : Kind.command.Spells name)
    (each : ∀ arg ∈ args, Tells arg.HasLegibleNodes arg.pieces) :
    Tells (call name args).HasLegibleNodes (callPieces name (args.map pieces)) := by
  have plain : Tells (call name args).HasLegibleNodes
      (plainName name :: enclose true (commaJoined (args.map pieces))) := by
    rcases plainName_spells isCommand with empty | isIdent
    · obtain rfl := name_of_plainName isCommand empty
      rw [empty]
      apply Tells.blank
      -- Only one argument leaves neither empty parentheses nor a comma in them.
      rcases args with _ | ⟨arg, _ | ⟨other, args⟩⟩
      · exact Tells.emptyParens.imp False.elim
      · have single := (each arg (by simp)).parens
        exact single.imp fun inside => Everywhere.call_iff.2 ⟨rfl, List.forall_mem_singleton.2 inside⟩
      · exact (each arg (by simp)).commaInParens.imp False.elim
    · exact (Tells.applied isIdent).imp False.elim
  rcases args with _ | ⟨above, _ | ⟨below, _ | ⟨other, args⟩⟩⟩
  · exact plain
  · exact plain
  · by_cases isFraction : name = fraction
    next =>
      subst isFraction
      obtain ⟨first, second⟩ := List.forall_mem_cons.1 each
      have both := @tells_joint .product "/" _ _ _ _ (by decide) first.parens
        (List.forall_mem_singleton.1 second).parens
      exact both.imp fun sides =>
        Everywhere.call_iff.2 ⟨rfl, List.forall_mem_cons.2 ⟨sides.1, List.forall_mem_singleton.2 sides.2⟩⟩
    next => simpa [callPieces, isFraction] using plain
  · exact plain

theorem Regular.tells {expr : Expr} (regular : expr.Regular Kind.Spells) :
    Tells expr.HasLegibleNodes expr.pieces := by
  have leaf (expr : Expr) (single : expr.nodes = [expr]) (legible : expr.isLegibleNode = true) :
      expr.HasLegibleNodes := by
    intro node inside
    rw [single] at inside
    rwa [List.mem_singleton.1 inside]
  induction regular with
  | number spells => exact (Tells.operand spells (.inl rfl)).imp fun _ => leaf _ rfl rfl
  | ident spells =>
    rw [pieces, glyphPieces_eq spells]
    exact (Tells.operand (spells_writtenName spells) (.inr rfl)).imp fun _ => leaf _ rfl rfl
  | @sign op operand isSign _ ih =>
    obtain ⟨kind, fixed, operates⟩ := @Grammar.Level.kind_of_mark .sum _ isSign
    have signed := (ih.enclose operand.isJoined).operator fixed
      (@Grammar.Level.isOperator .sum _ operates)
    exact signed.imp fun inside => Everywhere.sign_iff.2 ⟨rfl, inside⟩
  | @arith op lhs rhs joins _ _ left right =>
    have before := left.enclose (needsParens (.arith op) .left lhs)
    have after := right.enclose (needsParens (.arith op) .right rhs)
    obtain ⟨kind, fixed, isOperator, -⟩ := kind_of_arith joins
    exact (before.joined fixed isOperator after).imp fun sides => Everywhere.arith_iff.2 ⟨rfl, sides⟩
  | @compare rel lhs rhs relates _ _ left right =>
    have both := @tells_joint .relation _ _ _ _ _ relates
      (left.enclose (needsParens (.compare rel) .left lhs))
      (right.enclose (needsParens (.compare rel) .right rhs))
    exact both.imp fun sides => Everywhere.compare_iff.2 ⟨rfl, sides⟩
  | @assign lhs rhs _ _ left right =>
    have both := @tells_joint .relation "=" _ _ _ _ (by decide)
      (left.enclose (needsParens .assign .left lhs)) (right.enclose (needsParens .assign .right rhs))
    exact both.imp fun sides => Everywhere.assign_iff.2 ⟨rfl, sides⟩
  | call isCommand _ ih =>
    rw [pieces, piecesAll_eq_map]
    exact tells_call isCommand ih
  | array _ ih =>
    rw [pieces, piecesAll_eq_map]
    exact (Tells.bracketed ih).imp fun inside => Everywhere.array_iff.2 ⟨rfl, inside⟩
  | matrix => exact (Tells.applied (by decide)).imp False.elim
  | paren _ ih => exact ih.parens.imp fun inside => Everywhere.paren_iff.2 ⟨rfl, inside⟩

theorem Regular.hasLegibleNodes {expr back : Expr} (regular : expr.Regular Kind.Spells)
    (derived : Grammar.Derives (Token.scan expr.flatText) [] (.expression back)) :
    expr.HasLegibleNodes := by
  have orderly : Orderly [] (Token.scan expr.flatText ++ []) := by
    rw [List.append_nil]
    exact derived.orderly regular.bare_token nofun trivial trivial
  exact (regular.tells _ regular.carries_scan_flatText [] [] orderly).1

end Expr

namespace Grammar

theorem flat_text_accepted_iff [Stack] {text : String} {expr : Expr} (parsed : parseText text = .ok expr)
    (low : expr.isTall = false) (unbroken : ¬ BreaksOff Stack.nesting (Token.scan expr.flatText)) :
    ∃ flat, expr.flat = .ok flat ∧
      ((∃ back, parseText flat = .ok back) ↔ expr.HasLegibleNodes) ∧
      (¬ expr.HasLegibleNodes → ∃ noted, parseText flat = .error noted) := by
  have wellFormed := wellFormed_of_parseText parsed
  have accepted : (∃ back, parseText expr.flatText = .ok back) ↔ expr.HasLegibleNodes := by
    constructor
    case mp =>
      rintro ⟨back, again⟩
      exact wellFormed.regular.hasLegibleNodes (derives_of_parseWithin again)
    case mpr =>
      intro nodes
      exact ⟨expr.back, (wellFormed.legible nodes).parseText_flatText (wellFormed.kept nofun) unbroken⟩
  refine ⟨expr.flatText, wellFormed.regular.flat_ok low, accepted, fun other => ?_⟩
  cases answer : parseText expr.flatText with
  | error noted => exact ⟨noted, rfl⟩
  | ok back => exact absurd (accepted.1 ⟨back, answer⟩) other

theorem applied_root_rejected :
    parseText "\\sqrt x" = .ok (.call "\\sqrt" [.ident "x"]) ∧
      ¬ (Expr.call "\\sqrt" [.ident "x"]).HasLegibleNodes ∧
      (Expr.call "\\sqrt" [.ident "x"]).flat = .ok "sqrt(x)" ∧
      (¬ ∃ back, parseText "sqrt(x)" = .ok back) ∧ ∃ noted, parseText "sqrt(x)" = .error noted := by
  have parsed : parseText "\\sqrt x" = .ok (.call "\\sqrt" [.ident "x"]) := rfl
  have illegible : ¬ (Expr.call "\\sqrt" [.ident "x"]).HasLegibleNodes := by decide
  obtain ⟨flat, written, accepted, rejected⟩ := flat_text_accepted_iff parsed rfl (by decide +kernel)
  obtain rfl : "sqrt(x)" = flat := Except.ok.inj written
  exact ⟨parsed, illegible, written, fun read => illegible (accepted.1 read), rejected illegible⟩

end Grammar

end FormulaCalculator
