import FormulaCalculator.Proofs.Expr.FlatNormal
import FormulaCalculator.Proofs.Grammar.Sides
import FormulaCalculator.Proofs.Grammar.Wording

set_option autoImplicit false

namespace FormulaCalculator

open Nesting

namespace Expr

/-- The pieces without one of the pairs that writing puts in. Pairs of the tree itself stay, and so do those
around a power under a sign or on the right of a power. -/
inductive Stripped : Expr → List String → Prop where
  | operand {op : String} {operand : Expr} (needed : operand.isJoined = true)
      (notPower : operand.isPower = false) : Stripped (sign op operand) (op :: operand.pieces)
  | left {joint : Joint} {lhs rhs : Expr} (needed : needsParens joint .left lhs = true) :
      Stripped (joint.node lhs rhs)
        (lhs.pieces ++ joint.text :: enclose (needsParens joint .right rhs) rhs.pieces)
  | right {joint : Joint} {lhs rhs : Expr} (needed : needsParens joint .right rhs = true)
      (notPower : ¬ (joint.isPower = true ∧ rhs.isPower = true)) :
      Stripped (joint.node lhs rhs)
        (enclose (needsParens joint .left lhs) lhs.pieces ++ joint.text :: rhs.pieces)
  -- Or the pair is one of a tree further in.
  | inOperand {op : String} {operand : Expr} {written : List String} (inside : Stripped operand written) :
      Stripped (sign op operand) (op :: enclose operand.isJoined written)
  | inLeft {joint : Joint} {lhs rhs : Expr} {written : List String} (inside : Stripped lhs written) :
      Stripped (joint.node lhs rhs) (joinedPieces joint lhs rhs written rhs.pieces)
  | inRight {joint : Joint} {lhs rhs : Expr} {written : List String} (inside : Stripped rhs written) :
      Stripped (joint.node lhs rhs) (joinedPieces joint lhs rhs lhs.pieces written)
  | inItem {before after : List Expr} {item : Expr} {written : List String} (inside : Stripped item written) :
      Stripped (array (before ++ item :: after))
        (bracketed (before.map pieces ++ written :: after.map pieces))
  | inParen {inner : Expr} {written : List String} (inside : Stripped inner written) :
      Stripped (paren inner) (enclose true written)

namespace Regular

variable {expr : Expr}

theorem closed_pieces (regular : expr.Regular Kind.Spells) : Closed expr.pieces :=
  closed_of_laid regular.laid

theorem words_node {joint : Joint} {lhs rhs : Expr} (isMark : ¬ IsParen joint.text)
    (left : words lhs.pieces = words lhs.bare.renamed.source)
    (right : words rhs.pieces = words rhs.bare.renamed.source) :
    words (joint.node lhs rhs).pieces = words (joint.node lhs rhs).bare.renamed.source := by
  rw [pieces_node, joinedPieces, words_append, words_cons isMark, words_enclose, words_enclose, left, right,
    bare_node, renamed_node, source_node, words_append, words_cons isMark]

theorem words_pieces (regular : expr.Regular Kind.Spells) (plain : expr.IsPlain) :
    words expr.pieces = words expr.bare.renamed.source := by
  induction regular with
  | number => rfl
  | ident spells => rw [pieces, glyphPieces_eq spells, bare, renamed, source]
  | sign isSign _ ih =>
    have notParen := plain_sign isSign
    rw [pieces, bare, renamed, source, words_cons notParen, words_cons notParen, words_enclose, ih plain.sign]
  | arith joins _ _ left right =>
    exact @words_node (.arith _) _ _ (plain_arith joins) (left plain.arith.1) (right plain.arith.2)
  | compare relates _ _ left right =>
    exact @words_node (.compare _) _ _ (plain_relation relates) (left plain.compare.1) (right plain.compare.2)
  | assign _ _ left right => exact @words_node .assign _ _ (by decide) (left plain.assign.1) (right plain.assign.2)
  | call => exact absurd rfl plain.here.1
  | matrix => exact absurd rfl plain.here.2
  | @array items _ ih =>
    have each : ∀ item ∈ items, words item.pieces = words item.bare.renamed.source :=
      fun item isItem => ih item isItem (plain.array item isItem)
    rw [pieces, bare, renamed, source, piecesAll_eq_map, bareAll_eq_map, renamedAll_eq_map, sourceAll_eq_map,
      ← Grammar.commaJoined_eq_listed]
    refine (words_bracketed _).trans (Eq.trans ?_ (words_bracketed _).symm)
    simp only [List.map_map]
    exact congrArg bracketed (List.map_congr_left each)
  | paren _ ih =>
    rw [pieces, words_enclose, bare]
    exact ih plain.paren

end Regular

namespace Stripped

variable {expr : Expr} {written : List String}

theorem omits (stripped : Stripped expr written) (regular : expr.Regular Kind.Spells) :
    Omits expr.pieces written := by
  induction stripped with
  | @operand op operand needed =>
    cases regular with
    | sign _ inside =>
      rw [pieces, needed]
      exact ⟨[op], operand.pieces, [], inside.closed_pieces, by simp [enclose], by simp⟩
  | @left joint lhs rhs needed =>
    obtain ⟨left, -⟩ := regular.node
    rw [pieces_node, joinedPieces, needed]
    exact ⟨[], lhs.pieces, joint.text :: enclose (needsParens joint .right rhs) rhs.pieces,
      left.closed_pieces, by simp [enclose], by simp⟩
  | @right joint lhs rhs needed =>
    obtain ⟨-, right, -⟩ := regular.node
    rw [pieces_node, joinedPieces, needed]
    exact ⟨enclose (needsParens joint .left lhs) lhs.pieces ++ [joint.text], rhs.pieces, [],
      right.closed_pieces, by simp [enclose], by simp⟩
  | @inOperand op operand written _ ih =>
    cases regular with
    | sign _ inside =>
      have omits := ((ih inside).enclose operand.isJoined).within [op] []
      simpa [pieces] using omits
  | @inLeft joint lhs rhs written _ ih =>
    obtain ⟨left, -⟩ := regular.node
    have omits := ((ih left).enclose (needsParens joint .left lhs)).within []
      (joint.text :: enclose (needsParens joint .right rhs) rhs.pieces)
    rw [pieces_node]
    simpa [joinedPieces] using omits
  | @inRight joint lhs rhs written _ ih =>
    obtain ⟨-, right, -⟩ := regular.node
    have omits := ((ih right).enclose (needsParens joint .right rhs)).within
      (enclose (needsParens joint .left lhs) lhs.pieces ++ [joint.text]) []
    rw [pieces_node]
    simpa [joinedPieces] using omits
  | @inItem before after item written _ ih =>
    cases regular with
    | array inside =>
      rw [pieces, piecesAll_eq_map, List.map_append, List.map_cons]
      exact (ih (inside item (by simp))).bracketed _ _
  | inParen _ ih =>
    cases regular with
    | paren inside => exact (ih inside).enclose true

theorem laid (stripped : Stripped expr written) (regular : expr.Regular Kind.Spells) :
    Token.Laid written := by
  induction stripped with
  | operand =>
    cases regular with
    | sign isSign inside =>
      obtain ⟨kind, fixed, isSign⟩ := @Grammar.Level.kind_of_mark .sum _ isSign
      exact .sign fixed isSign inside.laid
  | left =>
    obtain ⟨left, right, kind, fixed, isOperator⟩ := regular.node
    exact .joined fixed isOperator left.laid (right.laid.enclose _)
  | right =>
    obtain ⟨left, right, kind, fixed, isOperator⟩ := regular.node
    exact .joined fixed isOperator (left.laid.enclose _) right.laid
  | inOperand _ ih =>
    cases regular with
    | sign isSign inside =>
      obtain ⟨kind, fixed, isSign⟩ := @Grammar.Level.kind_of_mark .sum _ isSign
      exact .sign fixed isSign ((ih inside).enclose _)
  | inLeft _ ih =>
    obtain ⟨left, right, kind, fixed, isOperator⟩ := regular.node
    exact .joined fixed isOperator ((ih left).enclose _) (right.laid.enclose _)
  | inRight _ ih =>
    obtain ⟨left, right, kind, fixed, isOperator⟩ := regular.node
    exact .joined fixed isOperator (left.laid.enclose _) ((ih right).enclose _)
  | @inItem before after item _ _ ih =>
    cases regular with
    | array inside =>
      simp only [List.mem_append, List.mem_cons] at inside
      refine .bracketed ?_
      simp only [List.mem_append, List.mem_map, List.mem_cons]
      rintro own (⟨other, isOther, rfl⟩ | rfl | ⟨other, isOther, rfl⟩)
      · exact (inside other (.inl isOther)).laid
      · exact ih (inside item (.inr (.inl rfl)))
      · exact (inside other (.inr (.inr isOther))).laid
  | inParen _ ih =>
    cases regular with
    | paren inside => exact .parens (ih inside)

end Stripped

structure SameRoot (child other : Expr) : Prop where
  needs : ∀ joint side, needsParens joint side other = needsParens joint side child
  joined : other.isJoined = child.isJoined
  power : other.isPower = child.isPower
  notCall : other.class? ≠ some .call

section Loose

variable {child : Expr}

theorem joint_of_joined (joined : child.isJoined = true) :
    ∃ joint lhs rhs, child = Joint.node joint lhs rhs := by
  cases child with
  | arith op lhs rhs => exact ⟨.arith op, lhs, rhs, rfl⟩
  | compare rel lhs rhs => exact ⟨.compare rel, lhs, rhs, rfl⟩
  | assign lhs rhs => exact ⟨.assign, lhs, rhs, rfl⟩
  | _ => cases joined

theorem loose_of_needed {joint : Joint} {side : Side} (regular : child.Regular Kind.Spells)
    (plain : child.IsPlain) (needed : needsParens joint side child = true) :
    child.isJoined = true ∨ child.isSign = true := by
  cases regular with
  | arith | compare | assign => exact .inl rfl
  | sign => exact .inr rfl
  | ident isIdent => simp [needsParens, binding?_ident isIdent, isSign] at needed
  | call => exact absurd rfl plain.here.1
  | _ => simp [needsParens, binding?, isSign] at needed

theorem exposed_pieces (loose : child.isJoined = true ∨ child.isSign = true)
    (regular : child.Regular Kind.Spells) : Exposed child.pieces := by
  rcases loose with joined | isSign
  next =>
    obtain ⟨joint, lhs, rhs, rfl⟩ := joint_of_joined joined
    obtain ⟨left, -⟩ := regular.node
    rw [pieces_node]
    exact regular.exposed_node (left.closed_pieces.enclose _)
  next =>
    cases regular with
    | sign isMark => exact exposed_cons (Regular.plain_sign isMark) _
    | _ => cases isSign

theorem same_root {other : Expr} (loose : child.isJoined = true ∨ child.isSign = true)
    (unwrapped : ∀ inner, other ≠ paren inner) (same : other.bare = child.bare.renamed) :
    SameRoot child other := by
  rcases loose with joined | isSign
  next =>
    obtain ⟨joint, lhs, rhs, rfl⟩ := joint_of_joined joined
    rw [bare_node, renamed_node] at same
    obtain ⟨left, right, rfl, -, -⟩ := node_of_bare unwrapped same
    cases joint <;> exact ⟨fun _ _ => rfl, rfl, rfl, nofun⟩
  next =>
    cases child <;> cases isSign
    cases other with
    | paren inner => exact absurd rfl (unwrapped inner)
    | sign => exact ⟨fun _ _ => rfl, rfl, rfl, nofun⟩
    | _ => cases same

end Loose

theorem same_side {child other : Expr} (loose : child.isJoined = true ∨ child.isSign = true)
    (regular : child.Regular Kind.Spells) (formed : other.Regular Kind.Spells)
    (sameSource : other.source = child.pieces) (same : other.bare = child.bare.renamed) :
    SameRoot child other := by
  apply same_root loose (formed.not_paren ?_) same
  rw [sameSource]
  exact exposed_pieces loose regular

end Expr

namespace Grammar.WellFormed

open FormulaCalculator.Expr

variable {place : Place} {expr : Expr} {left right written : List String}

theorem unenclosed {needed : Bool} (wellFormed : WellFormed place expr) (closed : Closed written)
    (same : expr.source = enclose needed written) :
    ∃ within inner, WellFormed within inner ∧ inner.source = written ∧ inner.bare = expr.bare := by
  cases needed with
  | false => exact ⟨place, expr, wellFormed, same, rfl⟩
  | true =>
    have regular := wellFormed.regular
    cases expr with
    | paren inner =>
      have sameInner : inner.source ++ [")"] = written ++ [")"] := (List.cons.inj same).2
      cases wellFormed.primary rfl with
      | paren inside => exact ⟨.slot, inner, inside, List.append_cancel_right sameInner, rfl⟩
    | _ => exact absurd same ((regular.exposed_source nofun).ne_parens closed)

theorem signed {op : String} {operand : Expr} (wellFormed : WellFormed place expr)
    (regular : (Expr.sign op operand).Regular Kind.Spells) (sameSource : expr.source = op :: written)
    (same : expr.bare = (Expr.sign op operand).bare.renamed) :
    ∃ inner, WellFormed .exponent inner ∧ inner.source = written ∧ inner.bare = operand.bare.renamed := by
  have unwrapped : ∀ inner, expr ≠ .paren inner := by
    cases regular with
    | sign isSign =>
      have exposed := exposed_cons (Regular.plain_sign isSign) written
      exact wellFormed.regular.not_paren (sameSource ▸ exposed)
  cases expr with
  | paren inner => exact absurd rfl (unwrapped inner)
  | sign mark inner =>
    cases wellFormed.primary rfl with
    | sign _ inside => exact ⟨inner, inside, (List.cons.inj sameSource).2, (Expr.sign.inj same).2⟩
  | _ => cases same

theorem joined {joint : Joint} {lhs rhs : Expr} (wellFormed : WellFormed place expr)
    (regular : (joint.node lhs rhs).Regular Kind.Spells) (closed : Closed left)
    (sameWords : words left = words lhs.bare.renamed.source)
    (sameSource : expr.source = left ++ joint.text :: right)
    (same : expr.bare = (joint.node lhs rhs).bare.renamed) :
    ∃ first second, expr = joint.node first second ∧ first.source = left ∧ second.source = right ∧
      first.bare = lhs.bare.renamed ∧ second.bare = rhs.bare.renamed := by
  obtain ⟨-, -, kind, fixed, isOperator⟩ := regular.node
  have isMark := plain_mark fixed isOperator
  have exposed : Exposed expr.source := sameSource ▸ regular.exposed_node closed
  rw [bare_node, renamed_node] at same
  obtain ⟨first, second, rfl, sameFirst, sameSecond⟩ :=
    node_of_bare (wellFormed.regular.not_paren exposed) same
  obtain ⟨formed, -, -⟩ := wellFormed.regular.node
  -- The joint is found by the words before it.
  have front : words first.source = words left := by rw [formed.words_source, sameFirst, sameWords]
  rw [source_node] at sameSource
  obtain ⟨sameLeft, -, sameRight⟩ := split_unique isMark isMark sameSource front
  exact ⟨first, second, rfl, sameLeft, sameRight, sameFirst, sameSecond⟩

theorem listed {lists : List (List String)} {items : List Expr} (wellFormed : WellFormed place expr)
    (same : expr.source = bracketed lists) (shape : expr.bare = .array items)
    (sameWords : lists.map words = (items.map source).map words) :
    ∃ others : List Expr, (∀ other ∈ others, WellFormed .slot other) ∧ others.map source = lists ∧
      others.map bare = items := by
  have exposed : Exposed expr.source := same ▸ exposed_cons (by decide) _
  have unwrapped := wellFormed.regular.not_paren exposed
  cases expr with
  | paren inner => exact absurd rfl (unwrapped inner)
  | array others =>
    obtain rfl : others.map bare = items := by
      rw [← bareAll_eq_map]
      exact Expr.array.inj shape
    cases wellFormed.primary rfl with
    | array inside =>
      have each := Regular.words_all fun other isOther => (inside other isOther).regular.words_source
      have sameLists : commaJoined (others.map source) ++ ["]"] = commaJoined lists ++ ["]"] := by
        rw [source, sourceAll_eq_map, ← commaJoined_eq_listed] at same
        exact (List.cons.inj same).2
      have sameItems := commaJoined_inj (each.trans sameWords.symm) (List.append_cancel_right sameLists)
      exact ⟨others, inside, sameItems, rfl⟩
  | _ => cases shape

end Grammar.WellFormed

namespace Expr

theorem mem_at {α β : Type} {items : List Expr} {read : Expr → α} {write : Expr → β} {before after : List α}
    {front back : List β} {first : α} {second : β} (reads : items.map read = before ++ first :: after)
    (writes : items.map write = front ++ second :: back) (same : before.length = front.length) :
    ∃ item ∈ items, read item = first ∧ write item = second := by
  have isFirst : (items.map read)[before.length]? = some first := by simp [reads]
  have isSecond : (items.map write)[before.length]? = some second := by simp [writes, same]
  rw [List.getElem?_map, Option.map_eq_some_iff] at isFirst isSecond
  obtain ⟨item, isAt, isFirst⟩ := isFirst
  obtain ⟨other, alsoAt, isSecond⟩ := isSecond
  obtain rfl : item = other := Option.some.inj (isAt.symm.trans alsoAt)
  exact ⟨item, List.mem_of_getElem? isAt, isFirst, isSecond⟩

namespace Stripped

theorem words_eq {expr : Expr} {written : List String} (stripped : Stripped expr written)
    (regular : expr.Regular Kind.Spells) (plain : expr.IsPlain) :
    words written = words expr.bare.renamed.source :=
  (stripped.omits regular).words_eq.trans (regular.words_pieces plain)

theorem closed {expr : Expr} {written : List String} (stripped : Stripped expr written)
    (regular : expr.Regular Kind.Spells) : Closed written :=
  closed_of_laid (stripped.laid regular)

theorem unread {expr : Expr} {written : List String} (stripped : Stripped expr written)
    (regular : expr.Regular Kind.Spells) (plain : expr.IsPlain) {place : Grammar.Place} {other : Expr}
    (wellFormed : Grammar.WellFormed place other) (sameSource : other.source = written) :
    other.bare ≠ expr.bare.renamed := by
  intro same
  -- Induction on where the pair is left out. Another tree with this text and these nodes is built alike
  -- from there outwards, so it has no parentheses there either, and no such tree is read.
  induction stripped generalizing place other with
  | operand needed notPower =>
    obtain ⟨inner, formed, sourceInner, bareInner⟩ := wellFormed.signed regular sameSource same
    cases regular with
    | sign _ operand =>
      have root := same_side (.inl needed) operand formed.regular sourceInner bareInner
      have power := formed.power_of_joined (root.joined.trans needed)
      rw [root.power, notPower] at power
      cases power
  | @left joint lhs rhs needed =>
    obtain ⟨left, -⟩ := regular.node
    obtain ⟨plainLeft, -⟩ := plain_node plain
    obtain ⟨first, second, rfl, sourceFirst, -, bareFirst, -⟩ := wellFormed.joined regular left.closed_pieces
      (left.words_pieces plainLeft) sameSource same
    obtain ⟨within, formed, unneeded⟩ := wellFormed.left_side
    have root := same_side (loose_of_needed left plainLeft needed) left formed.regular sourceFirst bareFirst
    have also := unneeded root.notCall
    rw [root.needs, needed] at also
    cases also
  | @right joint lhs rhs needed notPower =>
    obtain ⟨left, right, -⟩ := regular.node
    obtain ⟨plainLeft, plainRight⟩ := plain_node plain
    obtain ⟨first, second, rfl, -, sourceSecond, -, bareSecond⟩ := wellFormed.joined regular
      (left.closed_pieces.enclose _) ((words_enclose _ _).trans (left.words_pieces plainLeft)) sameSource same
    obtain ⟨within, formed, powers⟩ := wellFormed.right_side
    have root := same_side (loose_of_needed right plainRight needed) right formed.regular sourceSecond bareSecond
    have both := powers root.notCall ((root.needs joint .right).trans needed)
    rw [root.power] at both
    exact notPower both
  | inOperand inside ih =>
    obtain ⟨inner, formed, sourceInner, bareInner⟩ := wellFormed.signed regular sameSource same
    cases regular with
    | sign _ operand =>
      obtain ⟨within, own, formedOwn, sourceOwn, bareOwn⟩ := formed.unenclosed (inside.closed operand) sourceInner
      exact ih operand plain.sign formedOwn sourceOwn (bareOwn.trans bareInner)
  | inLeft inside ih =>
    obtain ⟨left, -⟩ := regular.node
    obtain ⟨plainLeft, -⟩ := plain_node plain
    obtain ⟨first, second, rfl, sourceFirst, -, bareFirst, -⟩ := wellFormed.joined regular
      ((inside.closed left).enclose _) ((words_enclose _ _).trans (inside.words_eq left plainLeft)) sameSource same
    obtain ⟨within, formed, -⟩ := wellFormed.left_side
    obtain ⟨_, own, formedOwn, sourceOwn, bareOwn⟩ := formed.unenclosed (inside.closed left) sourceFirst
    exact ih left plainLeft formedOwn sourceOwn (bareOwn.trans bareFirst)
  | inRight inside ih =>
    obtain ⟨left, right, -⟩ := regular.node
    obtain ⟨plainLeft, plainRight⟩ := plain_node plain
    obtain ⟨first, second, rfl, -, sourceSecond, -, bareSecond⟩ := wellFormed.joined regular
      (left.closed_pieces.enclose _) ((words_enclose _ _).trans (left.words_pieces plainLeft)) sameSource same
    obtain ⟨within, formed, -⟩ := wellFormed.right_side
    obtain ⟨_, own, formedOwn, sourceOwn, bareOwn⟩ := formed.unenclosed (inside.closed right) sourceSecond
    exact ih right plainRight formedOwn sourceOwn (bareOwn.trans bareSecond)
  | @inItem before after item written inside ih =>
    cases regular with
    | array each =>
      have isItem : item ∈ before ++ item :: after := by simp
      have sameItem : words written = words item.pieces := (inside.omits (each item isItem)).words_eq
      have own : ∀ other ∈ before ++ item :: after, words other.pieces = words other.bare.renamed.source :=
        fun other isOther => (each other isOther).words_pieces (plain.array other isOther)
      have sameWords := calc
        (before.map pieces ++ written :: after.map pieces).map words =
            ((before ++ item :: after).map pieces).map words := by simp [sameItem]
        _ = (((before ++ item :: after).map (renamed ∘ bare)).map source).map words := by
          simp only [List.map_map]
          exact List.map_congr_left own
      rw [bare, renamed, bareAll_eq_map, renamedAll_eq_map, List.map_map] at same
      obtain ⟨others, formed, sources, bares⟩ := wellFormed.listed sameSource same sameWords
      rw [List.map_append, List.map_cons] at bares
      obtain ⟨own, isOwn, sourceOwn, bareOwn⟩ := mem_at sources bares (by simp)
      exact ih (each item isItem) (plain.array item isItem) (formed own isOwn) sourceOwn bareOwn
  | inParen inside ih =>
    cases regular with
    | paren inner =>
      obtain ⟨_, own, formedOwn, sourceOwn, bareOwn⟩ :=
        @Grammar.WellFormed.unenclosed _ _ _ true wellFormed (inside.closed inner) sameSource
      exact ih inner plain.paren formedOwn sourceOwn (bareOwn.trans same)

end Stripped

end Expr

namespace Grammar

open FormulaCalculator.Expr

theorem parens_minimal [Stack] {expr : Expr} {written : List String} (regular : expr.Regular Kind.Spells)
    (plain : expr.IsPlain) (stripped : Stripped expr written) :
    Omits expr.pieces written ∧
      ∀ other, parseText (String.join written) = .ok other → other.bare ≠ expr.bare.renamed := by
  refine ⟨stripped.omits regular, fun other parsed same => ?_⟩
  have laid := stripped.laid regular
  have carries := (laid.stands.cuts [] nofun).scan
  have wellFormed := wellFormed_of_parseText parsed
  have spelled : Spelled (Token.scan (String.join written)) := fun _ => Token.spells_of_mem_scan
  have worded := (derives_of_parseWithin parsed).worded spelled (laid.bare_token carries)
  -- The words are those of the tree that was read, so no piece is empty and each one is a token.
  have sameWords : words written = words other.source := by
    rw [stripped.words_eq regular plain, ← same, wellFormed.regular.words_source]
  have filled : "" ∉ written := by
    intro isBlank
    have isWord : "" ∈ words written := List.mem_filter.2 ⟨isBlank, by decide⟩
    rw [sameWords] at isWord
    obtain ⟨kind, spells⟩ := lexemes_source wellFormed.regular "" (List.mem_filter.1 isWord).1
    exact spells.ne_empty rfl
  have sameSource : other.source = written := by
    rw [← carries.texts filled]
    simpa [Phrase.Worded] using worded.symm
  exact stripped.unread regular plain wellFormed sameSource same

theorem difference_parens_minimal :
    Omits ["a", "-", "(", "b", "-", "c", ")"] ["a", "-", "b", "-", "c"] ∧
      ∀ other, parseText "a-b-c" = .ok other →
        other.bare ≠ .arith "-" (.ident "a") (.arith "-" (.ident "b") (.ident "c")) :=
  @parens_minimal _ (.arith "-" (.ident "a") (.arith "-" (.ident "b") (.ident "c"))) ["a", "-", "b", "-", "c"]
    (.arith (by decide) (.ident rfl) (.arith (by decide) (.ident rfl) (.ident rfl))) (by decide)
    (@Stripped.right (.arith "-") (.ident "a") (.arith "-" (.ident "b") (.ident "c")) rfl (by decide))

-- A power under a sign is read alike with and without parentheses.
example : (Expr.sign "-" (.arith "^" (.ident "x") (.number "2"))).flatText = "-(x^2)" ∧
    parseText "-x^2" = .ok (.sign "-" (.arith "^" (.ident "x") (.number "2"))) := ⟨rfl, rfl⟩

end Grammar

end FormulaCalculator
