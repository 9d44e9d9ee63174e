import FormulaCalculator.Proofs.Expr.PlanReading
import FormulaCalculator.Proofs.Expr.Readable

set_option autoImplicit false

namespace FormulaCalculator

namespace Expr

def flatChars (expr : Expr) : List Char := Token.chars expr.pieces

theorem toList_flatText (expr : Expr) : expr.flatText.toList = expr.flatChars := by
  rw [flatText, String.toList_join]
  rfl

def sideChars (joint : Joint) (side : Side) (child : Expr) : List Char :=
  Token.chars (enclose (needsParens joint side child) child.pieces)

theorem sideChars_bare {joint : Joint} {side : Side} {child : Expr}
    (bare : needsParens joint side child = false) : child.sideChars joint side = child.flatChars := by
  rw [sideChars, bare]
  rfl

theorem flatChars_paren (inner : Expr) : (paren inner).flatChars = '(' :: inner.flatChars ++ [')'] := by
  simp [flatChars, pieces, enclose]

theorem flatChars_arith (op : String) (lhs rhs : Expr) :
    (arith op lhs rhs).flatChars =
      lhs.sideChars (.arith op) .left ++ (op.toList ++ rhs.sideChars (.arith op) .right) := by
  simp [flatChars, sideChars, pieces, joinedPieces, Joint.text]

theorem flatChars_compare (rel : String) (lhs rhs : Expr) :
    (compare rel lhs rhs).flatChars =
      lhs.sideChars (.compare rel) .left ++ (rel.toList ++ rhs.sideChars (.compare rel) .right) := by
  simp [flatChars, sideChars, pieces, joinedPieces, Joint.text]

theorem flatChars_assign (lhs rhs : Expr) :
    (assign lhs rhs).flatChars = lhs.sideChars .assign .left ++ ('=' :: rhs.sideChars .assign .right) := by
  simp [flatChars, sideChars, pieces, joinedPieces, Joint.text]

theorem needsParens_congr {child other : Expr} (binding : child.binding? = other.binding?)
    (sign : child.isSign = other.isSign) (joint : Joint) (side : Side) :
    needsParens joint side child = needsParens joint side other := by
  simp only [needsParens, binding, sign]

theorem needsParens_right {child other : Expr} (binding : child.binding? = other.binding?)
    (joint : Joint) : needsParens joint .right child = needsParens joint .right other := by
  unfold needsParens
  rw [binding]
  cases other.binding? <;> rfl

theorem needsParens_right_of_none {child : Expr} (alone : child.binding? = none) (joint : Joint) :
    needsParens joint .right child = false := by
  simp [needsParens, alone]

theorem needsParens_paren (inner : Expr) (joint : Joint) (side : Side) :
    needsParens joint side (paren inner) = false := by
  simp [needsParens, binding?, isSign]

end Expr

namespace Rereading

open FormulaCalculator.Expr (needsParens)

def chars (read : Rereading) : List Char :=
  match read.divisor? with
  | none => read.head.flatChars
  | some divisor => read.head.flatChars ++ '/' :: divisor.flatChars

-- The divisor can be put behind the head without parentheses.
structure Loose (read : Rereading) : Prop where
  head : read.divisor? ≠ none → needsParens (.arith "/") .left read.head = false
  divisor : ∀ divisor ∈ read.divisor?, divisor.binding? = none

theorem loose_closed (expr : Expr) : (closed expr).Loose := ⟨by simp [closed], nofun⟩

theorem flatChars_whole {read : Rereading} (loose : read.Loose) : read.whole.flatChars = read.chars := by
  rcases read with ⟨head, _ | divisor⟩
  · rfl
  · have alone := Expr.needsParens_right_of_none (loose.divisor divisor rfl) (.arith "/")
    rw [whole, chars, Expr.flatChars_arith, Expr.sideChars_bare (loose.head (by simp)), Expr.sideChars_bare alone]
    rfl

end Rereading

namespace Expr

-- The reading is written as the tree is, and needs parentheses where the tree does.
structure Mirrored (expr : Expr) (read : Rereading) : Prop where
  chars : read.chars = expr.flatChars
  loose : read.Loose
  bound : read.head.binding? = expr.binding? ∨ read.head.binding? = none
  closed : read.divisor? = none → read.head.binding? = expr.binding? ∧ read.head.isSign = expr.isSign
  apart : read.divisor? ≠ none → ∀ inner ∈ expr.binding?, 4 ≤ inner
  unjoined : expr.isJoined = false → read.head.isJoined = false

namespace Mirrored

variable {child : Expr} {read : Rereading} {joint : Joint} {side : Side}

theorem enclosed (mirrored : child.Mirrored read) :
    (paren read.whole).flatChars = Token.chars (enclose true child.pieces) := by
  rw [flatChars_paren, Rereading.flatChars_whole mirrored.loose, mirrored.chars]
  simp [enclose, flatChars]

theorem whole_side (mirrored : child.Mirrored read)
    (quotients : ∀ quotient : Expr, quotient.binding? = some 4 → needsParens joint side quotient = false) :
    (read.sided (needsParens joint side child)).whole.sideChars joint side = child.sideChars joint side := by
  cases needed : needsParens joint side child with
  | true =>
    have same : child.sideChars joint side = (paren read.whole).flatChars := by
      rw [sideChars, needed, mirrored.enclosed]
    rw [same]
    exact sideChars_bare (needsParens_paren _ joint side)
  | false =>
    have bare : needsParens joint side read.whole = false := by
      rcases read with ⟨head, _ | divisor⟩
      · obtain ⟨binding, sign⟩ := mirrored.closed rfl
        exact (needsParens_congr binding sign joint side).trans needed
      · exact quotients _ rfl
    rw [sideChars_bare needed, ← mirrored.chars, ← Rereading.flatChars_whole mirrored.loose]
    exact sideChars_bare bare

theorem head_right (mirrored : child.Mirrored read) (joint : Joint) :
    needsParens joint .right (read.sided (needsParens joint .right child)).head = false ∧
      (read.sided (needsParens joint .right child)).chars = child.sideChars joint .right := by
  cases needed : needsParens joint .right child with
  | true =>
    rw [sideChars, needed, ← mirrored.enclosed]
    exact ⟨needsParens_paren _ joint .right, rfl⟩
  | false =>
    rw [sideChars_bare needed]
    refine ⟨?_, mirrored.chars⟩
    rcases mirrored.bound with same | alone
    · exact (needsParens_right same joint).trans needed
    · exact needsParens_right_of_none alone joint

theorem loose_side (mirrored : child.Mirrored read) (needed : Bool) : (read.sided needed).Loose := by
  cases needed with
  | true => exact Rereading.loose_closed _
  | false => exact mirrored.loose

theorem of_closed {expr head : Expr} (chars : head.flatChars = expr.flatChars)
    (binding : head.binding? = expr.binding?) (sign : head.isSign = expr.isSign)
    (unjoined : expr.isJoined = false → head.isJoined = false) : expr.Mirrored (.closed head) where
  chars := chars
  loose := Rereading.loose_closed head
  bound := .inl binding
  closed _ := ⟨binding, sign⟩
  apart loose := absurd rfl loose
  unjoined := unjoined

end Mirrored

theorem quotients_of_le {joint : Joint} {outer : Nat} (bound : joint.binding? = some outer)
    (weak : outer < 4) (side : Side) (quotient : Expr) (binding : quotient.binding? = some 4) :
    needsParens joint side quotient = false := by
  simp only [needsParens, binding, bound]
  have apart : ¬ 4 < outer ∧ (4 == outer) = false := by
    constructor
    next => omega
    next => simp; omega
  simp [apart]

theorem mirrored_ident {name : String} (isIdent : Kind.identifier.Spells name) :
    (ident name).Mirrored (ident name).rereading := by
  have spells := spells_writtenName isIdent
  have twice : writtenName (writtenName name) = writtenName name := by
    unfold writtenName
    split <;> simp_all
  refine .of_closed ?_ ?_ rfl fun _ => rfl
  · simp [flatChars, pieces, glyphPieces_eq isIdent, glyphPieces_eq spells, twice]
  · rw [binding?_ident isIdent, binding?_ident spells]

theorem mirrored_sign {op : String} {operand : Expr} (mirrored : operand.Mirrored operand.rereading) :
    (sign op operand).Mirrored (sign op operand).rereading := by
  have inside : ((rereading operand).sided operand.isJoined).head.isJoined = false := by
    cases joined : operand.isJoined with
    | true => rfl
    | false => exact mirrored.unjoined joined
  have written : ((rereading operand).sided operand.isJoined).chars =
      Token.chars (enclose operand.isJoined operand.pieces) := by
    cases joined : operand.isJoined with
    | true => exact mirrored.enclosed
    | false => exact mirrored.chars
  have text (head : Expr) (bare : head.isJoined = false) :
      (sign op head).flatChars = op.toList ++ head.flatChars := by
    simp [flatChars, pieces, bare, enclose]
  have loose := mirrored.loose_side operand.isJoined
  constructor
  case chars =>
    rw [rereading, flatChars, pieces, Token.chars_cons, ← written]
    cases divisor : ((rereading operand).sided operand.isJoined).divisor? <;>
      simp [Rereading.chars, divisor, text _ inside]
  case loose => exact ⟨fun _ => rfl, loose.divisor⟩
  case bound => exact .inl rfl
  case closed => exact fun _ => ⟨rfl, rfl⟩
  case apart =>
    intro _ inner isInner
    cases isInner
  case unjoined => exact fun _ => rfl

theorem mirrored_sum {op : String} {lhs rhs : Expr} (isSign : op ∈ signs)
    (left : lhs.Mirrored lhs.rereading) (right : rhs.Mirrored rhs.rereading) :
    (arith op lhs rhs).Mirrored (arith op lhs rhs).rereading := by
  have bound : (Joint.arith op).binding? = some 3 := by
    simp only [signs, List.mem_cons, List.not_mem_nil, or_false] at isSign
    rcases isSign with rfl | rfl <;> rfl
  have same : (arith op lhs rhs).rereading = .closed (arith op
      ((rereading lhs).sided (needsParens (.arith op) .left lhs)).whole
      ((rereading rhs).sided (needsParens (.arith op) .right rhs)).whole) := by
    simp only [signs, List.mem_cons, List.not_mem_nil, or_false] at isSign
    rcases isSign with rfl | rfl <;> rfl
  rw [same]
  refine .of_closed ?_ rfl rfl (by simp [isJoined])
  rw [flatChars_arith, flatChars_arith, left.whole_side (quotients_of_le bound (by decide) .left),
    right.whole_side (quotients_of_le bound (by decide) .right)]

theorem mirrored_compare {rel : String} {lhs rhs : Expr} (left : lhs.Mirrored lhs.rereading)
    (right : rhs.Mirrored rhs.rereading) : (compare rel lhs rhs).Mirrored (compare rel lhs rhs).rereading := by
  refine .of_closed ?_ rfl rfl (by simp [isJoined])
  rw [flatChars_compare, flatChars_compare, left.whole_side (quotients_of_le rfl (by decide) .left),
    right.whole_side (quotients_of_le rfl (by decide) .right)]

theorem mirrored_assign {lhs rhs : Expr} (left : lhs.Mirrored lhs.rereading)
    (right : rhs.Mirrored rhs.rereading) : (assign lhs rhs).Mirrored (assign lhs rhs).rereading := by
  refine .of_closed ?_ rfl rfl (by simp [isJoined])
  rw [flatChars_assign, flatChars_assign, left.whole_side (quotients_of_le rfl (by decide) .left),
    right.whole_side (quotients_of_le rfl (by decide) .right)]

theorem chars_joint {op : String} {lhs rhs first : Expr} {second : Rereading}
    (left : first.sideChars (.arith op) .left = lhs.sideChars (.arith op) .left)
    (right : needsParens (.arith op) .right second.head = false ∧
      second.chars = rhs.sideChars (.arith op) .right) :
    Rereading.chars ⟨arith op first second.head, second.divisor?⟩ = (arith op lhs rhs).flatChars := by
  obtain ⟨bare, same⟩ := right
  rw [flatChars_arith, ← left, ← same]
  rcases second with ⟨head, _ | divisor⟩ <;>
    simp [Rereading.chars, flatChars_arith, sideChars_bare bare]

theorem mirrored_product {op : String} {lhs rhs : Expr} (isFactor : op ∈ factors)
    (left : lhs.Mirrored lhs.rereading) (right : rhs.Mirrored rhs.rereading) :
    (arith op lhs rhs).Mirrored (arith op lhs rhs).rereading := by
  simp only [factors, List.mem_cons, List.not_mem_nil, or_false] at isFactor
  have quotients (quotient : Expr) (binding : quotient.binding? = some 4) :
      needsParens (.arith op) .left quotient = false := by
    rcases isFactor with rfl | rfl <;> (simp only [needsParens, binding]; rfl)
  have divides (first second : Expr) : needsParens (.arith "/") .left (arith op first second) = false := by
    rcases isFactor with rfl | rfl <;> rfl
  have held (first second : Expr) (divisor? : Option Expr) :
      (Rereading.whole ⟨arith op first second, divisor?⟩).binding? = (arith op lhs rhs).binding? ∧
        (Rereading.whole ⟨arith op first second, divisor?⟩).isSign = false := by
    rcases isFactor with rfl | rfl <;> cases divisor? <;> exact ⟨rfl, rfl⟩
  have same : (arith op lhs rhs).rereading = .closed (Rereading.whole ⟨arith op
      ((rereading lhs).sided (needsParens (.arith op) .left lhs)).whole
      ((rereading rhs).sided (needsParens (.arith op) .right rhs)).head,
      ((rereading rhs).sided (needsParens (.arith op) .right rhs)).divisor?⟩) := by
    rcases isFactor with rfl | rfl <;> rfl
  have loose : Rereading.Loose ⟨arith op
      ((rereading lhs).sided (needsParens (.arith op) .left lhs)).whole
      ((rereading rhs).sided (needsParens (.arith op) .right rhs)).head,
      ((rereading rhs).sided (needsParens (.arith op) .right rhs)).divisor?⟩ :=
    ⟨fun _ => divides _ _, (right.loose_side _).divisor⟩
  rw [same]
  refine .of_closed ?_ (held _ _ _).1 (held _ _ _).2 (by simp [isJoined])
  rw [Rereading.flatChars_whole loose]
  exact chars_joint (left.whole_side quotients) (right.head_right _)

theorem Legible.base_closed {lhs : Expr} (legible : Legible lhs) :
    ((rereading lhs).sided (needsParens (.arith "^") .left lhs)).divisor? = none := by
  cases needed : needsParens (.arith "^") .left lhs with
  | true => rfl
  | false => exact (legible.written.atom (legible.isAtom_of_base needed)).1

theorem mirrored_power {lhs rhs : Expr} (legible : Legible lhs) (left : lhs.Mirrored lhs.rereading)
    (right : rhs.Mirrored rhs.rereading) :
    (arith "^" lhs rhs).Mirrored (arith "^" lhs rhs).rereading := by
  have base : ((rereading lhs).sided (needsParens (.arith "^") .left lhs)).head.sideChars (.arith "^") .left =
      lhs.sideChars (.arith "^") .left := by
    cases needed : needsParens (.arith "^") .left lhs with
    | true =>
      have same : lhs.sideChars (.arith "^") .left = (paren lhs.rereading.whole).flatChars := by
        rw [sideChars, needed, left.enclosed]
      rw [same]
      exact sideChars_bare (needsParens_paren _ _ _)
    | false =>
      have closed := legible.base_closed
      rw [needed] at closed
      have closed : lhs.rereading.divisor? = none := closed
      obtain ⟨binding, sign⟩ := left.closed closed
      have same : lhs.rereading.chars = lhs.rereading.head.flatChars := by
        rw [Rereading.chars, closed]
      rw [sideChars_bare needed, ← left.chars, same]
      exact sideChars_bare ((needsParens_congr binding sign _ _).trans needed)
  have loose := right.loose_side (needsParens (.arith "^") .right rhs)
  constructor
  case chars => exact chars_joint base (right.head_right _)
  case loose => exact ⟨fun _ => rfl, loose.divisor⟩
  case bound => exact .inl rfl
  case closed => exact fun _ => ⟨rfl, rfl⟩
  case apart => exact fun _ inner isInner => by cases isInner; decide
  case unjoined => simp [isJoined]

theorem mirrored_fraction {numerator denominator : Expr} (above : numerator.Mirrored numerator.rereading)
    (below : denominator.Mirrored denominator.rereading) :
    (call fraction [numerator, denominator]).Mirrored (call fraction [numerator, denominator]).rereading := by
  have written : (call fraction [numerator, denominator]).flatChars =
      (paren numerator.rereading.whole).flatChars ++ '/' :: (paren denominator.rereading.whole).flatChars := by
    rw [above.enclosed, below.enclosed]
    simp [flatChars, pieces, piecesAll, callPieces]
  constructor
  case chars => exact written.symm
  case loose =>
    refine ⟨fun _ => rfl, fun divisor isDivisor => ?_⟩
    cases isDivisor
    rfl
  case bound => exact .inr rfl
  case closed =>
    intro undivided
    cases undivided
  case apart =>
    intro _ inner isInner
    have isFour : 4 = inner := by simpa [binding?] using isInner
    omega
  case unjoined => exact fun _ => rfl

theorem chars_commaJoined {lists others : List (List String)}
    (same : lists.map Token.chars = others.map Token.chars) :
    Token.chars (commaJoined lists) = Token.chars (commaJoined others) := by
  induction lists generalizing others with
  | nil => cases others <;> simp_all
  | cons pieces lists ih =>
    cases others with
    | nil => simp at same
    | cons other others =>
      obtain ⟨here, later⟩ := List.cons.inj same
      have rest := ih later
      cases lists <;> cases others <;> simp_all [commaJoined]

theorem mirrored_array {items : List Expr} (each : ∀ item ∈ items, item.Mirrored item.rereading) :
    (array items).Mirrored (array items).rereading := by
  have same : (array items).rereading = .closed (array (items.map back)) := by
    rw [rereading, rereadingAll_eq_map, List.map_map]
    rfl
  have lists : ((items.map back).map pieces).map Token.chars = (items.map pieces).map Token.chars := by
    simp only [List.map_map]
    refine List.map_congr_left fun item inside => ?_
    have mirrored := each item inside
    exact (Rereading.flatChars_whole mirrored.loose).trans mirrored.chars
  rw [same]
  refine .of_closed ?_ rfl rfl fun _ => rfl
  simp only [flatChars, pieces, piecesAll_eq_map, bracketed, List.cons_append, Token.chars_cons,
    Token.chars_append, chars_commaJoined lists]

theorem Legible.mirrored {expr : Expr} (legible : Legible expr) : expr.Mirrored expr.rereading := by
  induction legible with
  | number => exact .of_closed rfl rfl rfl fun _ => rfl
  | ident isIdent => exact mirrored_ident isIdent
  | sign _ _ _ ih => exact mirrored_sign ih
  | arith joins left _ _ _ ihLeft ihRight =>
    simp only [List.mem_append, List.mem_singleton] at joins
    rcases joins with (isSign | isFactor) | rfl
    · exact mirrored_sum isSign ihLeft ihRight
    · exact mirrored_product isFactor ihLeft ihRight
    · exact mirrored_power left ihLeft ihRight
  | compare _ _ _ _ ihLeft ihRight => exact mirrored_compare ihLeft ihRight
  | assign isIdent _ _ ih => exact mirrored_assign (mirrored_ident isIdent) ih
  | fraction _ _ _ _ above below => exact mirrored_fraction above below
  | nameless _ _ ih | paren _ _ ih => exact .of_closed ih.enclosed rfl rfl fun _ => rfl
  | array _ _ ih => exact mirrored_array ih

theorem Legible.flatText_back {expr : Expr} (legible : Legible expr) : expr.back.flatText = expr.flatText := by
  have mirrored := legible.mirrored
  rw [← String.toList_inj, toList_flatText, toList_flatText, back,
    Rereading.flatChars_whole mirrored.loose, mirrored.chars]

end Expr

namespace Rereading

def names (read : Rereading) : List String :=
  match read.divisor? with
  | none => read.head.freeNames
  | some divisor => read.head.freeNames ++ divisor.freeNames

theorem freeNames_whole (read : Rereading) : read.whole.freeNames = read.names := by
  rcases read with ⟨head, _ | divisor⟩ <;> rfl

theorem names_sided (read : Rereading) (needed : Bool) : (read.sided needed).names = read.names := by
  cases needed with
  | false => rfl
  | true => exact read.freeNames_whole

theorem names_joint (op : String) (first : Expr) (second : Rereading) :
    names ⟨.arith op first second.head, second.divisor?⟩ = first.freeNames ++ second.names := by
  rcases second with ⟨head, _ | divisor⟩ <;> simp [names, Expr.freeNames]

end Rereading

namespace Expr

theorem freeNames_writtenName (name : String) :
    (ident (writtenName name)).freeNames = (ident name).freeNames := by
  unfold writtenName
  split
  next isPi =>
    subst isPi
    rfl
  next => rfl

theorem names_joined {op : String} {left right : Rereading} (closed : op = "^" → left.divisor? = none) :
    (Rereading.joined op left right).names = left.names ++ right.names := by
  unfold Rereading.joined
  split
  next isPower =>
    have alone : left.names = left.head.freeNames := by rw [Rereading.names, closed isPower]
    rw [Rereading.names_joint, alone]
  next =>
    split
    next => 
      change (Rereading.whole _).freeNames = _
      rw [Rereading.freeNames_whole, Rereading.names_joint, Rereading.freeNames_whole]
    next =>
      change freeNames _ ++ freeNames _ = _
      rw [Rereading.freeNames_whole, Rereading.freeNames_whole]

theorem Legible.names_rereading {expr : Expr} (legible : Legible expr) :
    expr.rereading.names = expr.freeNames := by
  induction legible with
  | number => rfl
  | @ident name => exact freeNames_writtenName name
  | @sign op operand _ _ _ ih =>
    have inside := (Rereading.names_sided operand.rereading operand.isJoined).trans ih
    rw [rereading, freeNames, ← inside]
    rcases (rereading operand).sided operand.isJoined with ⟨head, _ | divisor⟩ <;> rfl
  | @arith op lhs rhs joins left _ _ _ ihLeft ihRight =>
    rw [rereading, names_joined, Rereading.names_sided, Rereading.names_sided, ihLeft, ihRight, freeNames]
    rintro rfl
    exact left.base_closed
  | compare _ _ _ _ ihLeft ihRight =>
    change freeNames _ ++ freeNames _ = freeNames _ ++ freeNames _
    rw [Rereading.freeNames_whole, Rereading.freeNames_whole, Rereading.names_sided,
      Rereading.names_sided, ihLeft, ihRight]
  | @assign name rhs _ _ _ ih =>
    change freeNames _ ++ freeNames _ = freeNames _ ++ freeNames _
    rw [Rereading.freeNames_whole, Rereading.freeNames_whole, Rereading.names_sided,
      Rereading.names_sided, ih]
    exact congrArg (· ++ rhs.freeNames) (freeNames_writtenName name)
  | fraction _ _ _ _ above below =>
    change freeNames (Rereading.whole _) ++ freeNames (Rereading.whole _) = freeNames _ ++ (freeNames _ ++ [])
    rw [Rereading.freeNames_whole, Rereading.freeNames_whole, above, below, List.append_nil]
  | nameless _ _ ih =>
    change freeNames (Rereading.whole _) = freeNames _ ++ []
    rw [Rereading.freeNames_whole, ih, List.append_nil]
  | paren _ _ ih => exact (Rereading.freeNames_whole _).trans ih
  | @array items _ _ ih =>
    change freeNamesAll (List.map Rereading.whole (rereadingAll items)) = freeNamesAll items
    rw [rereadingAll_eq_map, List.map_map, freeNamesAll_eq_flatMap, freeNamesAll_eq_flatMap, List.flatMap_map]
    refine List.flatMap_congr fun item inside => ?_
    exact (Rereading.freeNames_whole _).trans (ih item inside)

theorem Legible.hasVariables_back {expr : Expr} (legible : Legible expr) :
    expr.back.hasVariables = expr.hasVariables := by
  rw [hasVariables, hasVariables, back, Rereading.freeNames_whole, legible.names_rereading]

end Expr

namespace Grammar

theorem flat_of_ofText [Stack] {text : String} {formula : Formula}
    (translated : Formula.ofText text = .ok formula) :
    formula.flat = formula.expr.flatText ∧ formula.hasVariables = formula.expr.hasVariables := by
  obtain ⟨parsed, low⟩ := parseText_of_ofText translated
  have written := (wellFormed_of_parseText parsed).regular.flat_ok low
  unfold Formula.ofText at translated
  split at translated <;> try cases translated
  split at translated <;> cases translated
  next isFlat =>
    exact ⟨Except.ok.inj (isFlat.symm.trans written), rfl⟩

theorem translation_stable [Stack] {text : String} {formula : Formula}
    (translated : Formula.ofText text = .ok formula) :
    normalize formula.flat = formula.flat ∧
      ∀ again, Formula.ofText formula.flat = .ok again →
        again.flat = formula.flat ∧ again.hasVariables = formula.hasVariables := by
  obtain ⟨parsed, -⟩ := parseText_of_ofText translated
  obtain ⟨isFlat, hasVariables⟩ := flat_of_ofText translated
  have wellFormed := wellFormed_of_parseText parsed
  have normal : normalize formula.flat = formula.flat := by
    rw [isFlat]
    exact wellFormed.regular.normalize_flatText
  refine ⟨normal, fun again reread => ?_⟩
  obtain ⟨parsedAgain, -⟩ := parseText_of_ofText reread
  obtain ⟨isFlatAgain, hasVariablesAgain⟩ := flat_of_ofText reread
  rw [normal, isFlat] at parsedAgain
  have derived := derives_of_parseWithin parsedAgain
  have legible := wellFormed.legible (wellFormed.regular.hasLegibleNodes derived)
  have same : again.expr = formula.expr.back :=
    derived.unique (legible.derives_flatText (wellFormed.kept nofun))
  rw [isFlatAgain, hasVariablesAgain, isFlat, hasVariables, same]
  exact ⟨legible.flatText_back, legible.hasVariables_back⟩

theorem scaled_constant_stable :
    ∃ first again : Formula,
      Formula.ofText "2\\pi-\\frac\x7bx\x7d\x7b2\x7d" = .ok first ∧
      Formula.ofText "2*pi-(x)/(2)" = .ok again ∧
      again.expr = .arith "-" (.arith "*" (.number "2") (.ident "pi"))
        (.arith "/" (.paren (.ident "x")) (.paren (.number "2"))) ∧
      first.flat = "2*pi-(x)/(2)" ∧ normalize first.flat = first.flat ∧
      again.flat = first.flat ∧ again.hasVariables = first.hasVariables := by
  have translated : Formula.ofText "2\\pi-\\frac\x7bx\x7d\x7b2\x7d" =
      .ok ⟨.arith "-" (.arith "*" (.number "2") (.ident "π")) (.call "\\frac" [.ident "x", .number "2"]),
        "2*pi-(x)/(2)", true⟩ := rfl
  have reread : Formula.ofText "2*pi-(x)/(2)" =
      .ok ⟨.arith "-" (.arith "*" (.number "2") (.ident "pi"))
        (.arith "/" (.paren (.ident "x")) (.paren (.number "2"))), "2*pi-(x)/(2)", true⟩ := rfl
  obtain ⟨normal, stable⟩ := translation_stable translated
  exact ⟨_, _, translated, reread, rfl, rfl, normal, stable _ reread⟩

end Grammar

end FormulaCalculator
