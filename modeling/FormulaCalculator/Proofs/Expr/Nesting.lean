import FormulaCalculator.Proofs.Expr.FlatTokens

set_option autoImplicit false

namespace FormulaCalculator.Nesting

def IsParen (piece : String) : Prop := piece = "(" ∨ piece = ")"

instance (piece : String) : Decidable (IsParen piece) := inferInstanceAs (Decidable (_ ∨ _))

def depth (pieces : List String) : Int := pieces.count "(" - pieces.count ")"

@[simp] theorem depth_nil : depth [] = 0 := rfl

@[simp] theorem depth_append (first second : List String) :
    depth (first ++ second) = depth first + depth second := by
  simp only [depth, List.count_append]
  omega

theorem depth_cons (piece : String) (pieces : List String) :
    depth (piece :: pieces) = depth [piece] + depth pieces :=
  depth_append [piece] pieces

theorem depth_opening : depth ["("] = 1 := by decide

theorem depth_closing : depth [")"] = -1 := by decide

theorem depth_plain {piece : String} (plain : ¬ IsParen piece) : depth [piece] = 0 := by
  obtain ⟨notOpening, notClosing⟩ := not_or.1 plain
  simp [depth, notOpening, notClosing]

structure Closed (pieces : List String) : Prop where
  -- None is closed that is not open.
  held : ∀ front, front <+: pieces → 0 ≤ depth front
  settled : depth pieces = 0

namespace Closed

variable {left right pieces : List String}

theorem nil : Closed [] := by
  refine ⟨fun front isFront => ?_, rfl⟩
  obtain rfl := List.prefix_nil.1 isFront
  exact Int.le_refl 0

theorem append (before : Closed left) (after : Closed right) : Closed (left ++ right) := by
  constructor
  case settled =>
    rw [depth_append, before.settled, after.settled]
    rfl
  case held =>
    intro front isFront
    rcases List.prefix_or_prefix_of_prefix isFront (List.prefix_append left right) with inLeft | ⟨more, rfl⟩
    next => exact before.held front inLeft
    next =>
      have held := after.held more ((List.prefix_append_right_inj left).1 isFront)
      have settled := before.settled
      rw [depth_append]
      omega

theorem single {piece : String} (plain : ¬ IsParen piece) : Closed [piece] := by
  refine ⟨fun front isFront => ?_, depth_plain plain⟩
  rcases List.prefix_cons_iff.1 isFront with rfl | ⟨more, rfl, isMore⟩
  next => exact Int.le_refl 0
  next =>
    obtain rfl := List.prefix_nil.1 isMore
    exact Int.le_of_eq (depth_plain plain).symm

theorem cons {piece : String} (plain : ¬ IsParen piece) (inside : Closed pieces) : Closed (piece :: pieces) :=
  (single plain).append inside

theorem joined {op : String} (plain : ¬ IsParen op) (before : Closed left) (after : Closed right) :
    Closed (left ++ op :: right) :=
  before.append (after.cons plain)

theorem parens (inside : Closed pieces) : Closed (Expr.enclose true pieces) := by
  have settled := inside.settled
  constructor
  case settled =>
    rw [Expr.enclose, if_pos rfl, depth_append, depth_cons, depth_opening, depth_closing]
    omega
  case held =>
    intro front isFront
    -- What has begun and has not ended is at least one deep.
    rcases List.prefix_concat_iff.1 isFront with rfl | within
    next =>
      rw [depth_append, depth_cons, depth_opening, depth_closing]
      omega
    next =>
      rcases List.prefix_cons_iff.1 within with rfl | ⟨more, rfl, isMore⟩
      next => exact Int.le_refl 0
      next =>
        have held := inside.held more isMore
        rw [depth_cons, depth_opening]
        omega

theorem enclose (inside : Closed pieces) (needed : Bool) : Closed (Expr.enclose needed pieces) := by
  cases needed with
  | false => exact inside
  | true => exact inside.parens

theorem flatMap {α : Type} {write : α → List String} {items : List α}
    (each : ∀ item ∈ items, Closed (write item)) : Closed (items.flatMap write) := by
  induction items with
  | nil => exact nil
  | cons item items ih =>
    obtain ⟨first, others⟩ := List.forall_mem_cons.1 each
    rw [List.flatMap_cons]
    exact first.append (ih others)

theorem listed {mark : String} (plain : ¬ IsParen mark) {lists : List (List String)}
    (each : ∀ pieces ∈ lists, Closed pieces) : Closed (Grammar.listed mark lists) := by
  cases lists with
  | nil => exact nil
  | cons first more =>
    obtain ⟨here, others⟩ := List.forall_mem_cons.1 each
    exact here.append (flatMap fun pieces inside => (others pieces inside).cons plain)

theorem bracketed {lists : List (List String)} (each : ∀ pieces ∈ lists, Closed pieces) :
    Closed (Expr.bracketed lists) := by
  rw [Expr.bracketed, Grammar.commaJoined_eq_listed]
  exact ((listed (by decide) each).append (single (by decide))).cons (by decide)

end Closed

theorem plain_mark {kind : Kind} {mark : String} (fixed : kind.spelling? = some mark)
    (isOperator : kind.isOperator = true) : ¬ IsParen mark := by
  cases kind <;> cases isOperator <;> cases fixed <;> decide

theorem plain_spelled {kind : Kind} {piece : String} (spells : kind.Spells piece)
    (other : kind ≠ .leftParen ∧ kind ≠ .rightParen) : ¬ IsParen piece := by
  rintro (rfl | rfl)
  · exact other.1 (spells.unique (by decide))
  · exact other.2 (spells.unique (by decide))

theorem plain_operand {kind : Kind} {text : String} (spells : kind.Spells text)
    (isOperand : kind = .number ∨ kind = .identifier) : ¬ IsParen text := by
  apply plain_spelled spells
  rcases isOperand with rfl | rfl <;> decide

theorem closed_of_laid {pieces : List String} (laid : Token.Laid pieces) : Closed pieces := by
  have commas {lists : List (List String)} (each : ∀ pieces ∈ lists, Closed pieces) :
      Closed (Expr.commaJoined lists) := by
    rw [Grammar.commaJoined_eq_listed]
    exact .listed (by decide) each
  induction laid with
  | operand spells isOperand => exact .single (plain_operand spells isOperand)
  | sign fixed isSign _ ih => exact ih.cons (plain_mark fixed (by simp [Kind.isOperator, isSign]))
  | joined fixed isOperator _ _ before after => exact before.joined (plain_mark fixed isOperator) after
  | parens _ ih => exact ih.parens
  | bracketed _ ih => exact .bracketed ih
  | applied isIdent _ ih => exact (commas ih).parens.cons (plain_operand isIdent (.inr rfl))
  | nameless _ ih => exact (commas ih).parens.cons (by decide)

/-- One opening parenthesis is left out, and its partner with it. -/
def Omits (pieces written : List String) : Prop :=
  ∃ before inside after, Closed inside ∧ pieces = before ++ "(" :: inside ++ ")" :: after ∧
    written = before ++ inside ++ after

namespace Omits

variable {pieces written : List String}

theorem within (omits : Omits pieces written) (front back : List String) :
    Omits (front ++ pieces ++ back) (front ++ written ++ back) := by
  obtain ⟨before, inside, after, closed, rfl, rfl⟩ := omits
  exact ⟨front ++ before, inside, after ++ back, closed, by simp, by simp⟩

theorem enclose (omits : Omits pieces written) (needed : Bool) :
    Omits (Expr.enclose needed pieces) (Expr.enclose needed written) := by
  cases needed with
  | false => exact omits
  | true => exact omits.within ["("] [")"]

theorem bracketed (omits : Omits pieces written) (before after : List (List String)) :
    Omits (Expr.bracketed (before ++ pieces :: after)) (Expr.bracketed (before ++ written :: after)) := by
  have around : ∃ front back, ∀ own, Expr.bracketed (before ++ own :: after) = front ++ own ++ back := by
    cases before with
    | nil => exact ⟨["["], after.flatMap ("," :: ·) ++ ["]"], by
        simp [Expr.bracketed, Grammar.commaJoined_eq_listed, Grammar.listed]⟩
    | cons first more =>
      exact ⟨"[" :: first ++ more.flatMap ("," :: ·) ++ [","], after.flatMap ("," :: ·) ++ ["]"], by
        simp [Expr.bracketed, Grammar.commaJoined_eq_listed, Grammar.listed]⟩
  obtain ⟨front, back, around⟩ := around
  rw [around, around]
  exact omits.within front back

end Omits

def Exposed (pieces : List String) : Prop :=
  ∃ front piece rest, pieces = front ++ piece :: rest ∧ depth front = 0 ∧ piece ≠ "("

theorem exposed_joined {left : List String} {op : String} (closed : Closed left) (plain : ¬ IsParen op)
    (right : List String) : Exposed (left ++ op :: right) :=
  ⟨left, op, right, rfl, closed.settled, fun isOpening => plain (.inl isOpening)⟩

theorem exposed_cons {piece : String} (plain : ¬ IsParen piece) (rest : List String) :
    Exposed (piece :: rest) :=
  exposed_joined .nil plain rest

theorem Exposed.ne_parens {pieces inside : List String} (exposed : Exposed pieces) (closed : Closed inside) :
    pieces ≠ Expr.enclose true inside := by
  rintro rfl
  obtain ⟨front, piece, rest, same, flat, other⟩ := exposed
  cases front with
  | nil => exact other (List.cons.inj same).1.symm
  | cons first front =>
    obtain ⟨rfl, behind⟩ : first = "(" ∧ inside ++ [")"] = front ++ piece :: rest := by
      simpa [Expr.enclose, eq_comm] using same
    -- What comes before the piece ends in front of the last parenthesis.
    have isFront : front <+: inside := by
      rcases List.prefix_concat_iff.1 ⟨piece :: rest, behind.symm⟩ with rfl | within
      next => simp at behind
      next => exact within
    have held := closed.held front isFront
    rw [depth_cons, depth_opening] at flat
    omega

def words (pieces : List String) : List String := pieces.filter fun piece => ¬ IsParen piece

@[simp] theorem words_nil : words [] = [] := rfl

@[simp] theorem words_append (first second : List String) : words (first ++ second) = words first ++ words second :=
  List.filter_append first second

theorem words_cons {piece : String} (plain : ¬ IsParen piece) (pieces : List String) :
    words (piece :: pieces) = piece :: words pieces := by
  simp [words, plain]

theorem words_flatMap {α : Type} (write : α → List String) (items : List α) :
    words (items.flatMap write) = items.flatMap fun item => words (write item) :=
  List.filter_flatMap

theorem words_listed {mark : String} (plain : ¬ IsParen mark) (lists : List (List String)) :
    words (Grammar.listed mark lists) = Grammar.listed mark (lists.map words) := by
  cases lists with
  | nil => rfl
  | cons first more => simp [Grammar.listed, words_flatMap, words_cons plain, List.flatMap_map]

theorem words_between {first last : String} (opening : ¬ IsParen first) (closing : ¬ IsParen last)
    (pieces : List String) : words (first :: pieces ++ [last]) = first :: words pieces ++ [last] := by
  rw [words_append, words_cons opening, words_cons closing, words_nil]

theorem words_bracketed (lists : List (List String)) :
    words (Expr.bracketed lists) = Expr.bracketed (lists.map words) := by
  rw [Expr.bracketed, Expr.bracketed, words_between (by decide) (by decide), Grammar.commaJoined_eq_listed,
    Grammar.commaJoined_eq_listed, words_listed (by decide)]

@[simp] theorem words_enclose (needed : Bool) (pieces : List String) :
    words (Expr.enclose needed pieces) = words pieces := by
  cases needed <;> simp [Expr.enclose, words, IsParen]

theorem Omits.words_eq {pieces written : List String} (omits : Omits pieces written) :
    words written = words pieces := by
  obtain ⟨before, inside, after, -, rfl, rfl⟩ := omits
  simp [words, IsParen]

theorem split_unique {left left' right right' : List String} {piece piece' : String}
    (plain : ¬ IsParen piece) (plain' : ¬ IsParen piece') (same : left ++ piece :: right = left' ++ piece' :: right')
    (before : words left = words left') : left = left' ∧ piece = piece' ∧ right = right' := by
  induction left generalizing left' with
  | nil =>
    cases left' with
    | nil => exact ⟨rfl, List.cons.inj same⟩
    | cons first left' =>
      obtain ⟨rfl, -⟩ := List.cons.inj same
      rw [words_cons plain] at before
      cases before
  | cons first left ih =>
    cases left' with
    | nil =>
      obtain ⟨rfl, -⟩ := List.cons.inj same
      rw [words_cons plain'] at before
      cases before
    | cons first' left' =>
      obtain ⟨rfl, rest⟩ : first = first' ∧ left ++ piece :: right = left' ++ piece' :: right' := by
        simpa using same
      have later : words left = words left' := by
        by_cases isParen : IsParen first
        next => simpa [words, isParen] using before
        next =>
          rw [words_cons isParen, words_cons isParen] at before
          exact (List.cons.inj before).2
      obtain ⟨rfl, others⟩ := ih rest later
      exact ⟨rfl, others⟩

theorem commaJoined_inj {lists others : List (List String)} (sameWords : lists.map words = others.map words)
    (same : Expr.commaJoined lists = Expr.commaJoined others) : lists = others := by
  induction lists generalizing others with
  | nil =>
    cases others with
    | nil => rfl
    | cons => cases sameWords
  | cons first more ih =>
    cases others with
    | nil => cases sameWords
    | cons first' more' =>
      obtain ⟨sameFirst, sameMore⟩ := List.cons.inj sameWords
      -- Either list ends here exactly if the other one does.
      cases more with
      | nil =>
        cases more' with
        | nil => exact congrArg (fun pieces => [pieces]) same
        | cons => cases sameMore
      | cons second more =>
        cases more' with
        | nil => cases sameMore
        | cons second' more' =>
          have comma : ¬ IsParen "," := by decide
          obtain ⟨rfl, -, later⟩ := split_unique comma comma same sameFirst
          rw [ih sameMore later]

end FormulaCalculator.Nesting
