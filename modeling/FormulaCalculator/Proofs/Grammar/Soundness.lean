import FormulaCalculator.Proofs.Grammar.Derivation
import FormulaCalculator.Proofs.Grammar.Steps

set_option autoImplicit false

namespace FormulaCalculator.Grammar

def Layer.chained (inner : Layer) : Level → Reading Expr
  | .relation => inner.comparison
  | .sum => inner.additive
  | .product => inner.term

def Layer.operand (inner : Layer) : Level → Reading Expr
  | .relation => inner.additive
  | .sum => inner.term
  | .product => inner.exponentFrom

theorem Layer.chained_eq (inner : Layer) (level : Level) :
    inner.chained level = leftGrouped level.operators level.join (inner.operand level) := by
  cases level <;> rfl

theorem assignment_eq {expr : Expr} (kept : expr.isEquation = false) : assignment expr = expr := by
  unfold assignment
  split
  next => simp [Expr.isEquation] at kept
  next => rfl

theorem eq_equation {expr : Expr} (equation : expr.isEquation = true) :
    ∃ name rhs, expr = .compare "=" (.ident name) rhs := by
  unfold Expr.isEquation at equation
  split at equation
  next rel name rhs => exact ⟨name, rhs, by simpa using equation⟩
  next => cases equation

def Unraised (tokens : List Token) : Prop := ∀ token ∈ tokens.head?, token.kind ≠ .power

-- If the end of the primary is loose, the power after it is already part of it.
def ReadsPrimary (tokens : List Token) (expr : Expr) (rest : List Token) : Prop :=
  ∃ loose, Derives tokens rest (.primary loose expr) ∧ (loose = true → Unraised rest)

theorem ReadsPrimary.closed {tokens rest : List Token} {expr : Expr}
    (derived : Derives tokens rest (.primary false expr)) : ReadsPrimary tokens expr rest :=
  ⟨false, derived, nofun⟩

structure SoundLayer (inner : Layer) : Prop where
  expression : Sound inner.expression fun tokens expr rest => Derives tokens rest (.expression expr)
  exponent : Sound inner.exponent fun tokens expr rest =>
    Derives tokens rest (.exponent expr) ∧ Unraised rest
  primary : Sound inner.primary ReadsPrimary

namespace SoundLayer

variable {inner : Layer}

theorem group (sound : SoundLayer inner) :
    Sound inner.group fun tokens expr rest => Derives tokens rest (.group expr) := by
  refine (Sound.require .leftBrace).bind fun _ => ?_
  refine sound.expression.bind fun expr => ?_
  refine (Sound.require .rightBrace).bind fun _ => .pure ?_
  rintro rest before ⟨right, closes, rfl⟩ after inside tokens ⟨left, opens, rfl⟩
  exact .group opens inside closes

theorem groups (sound : SoundLayer inner) (bound : Nat) :
    Sound (inner.groups bound) fun tokens exprs rest => Derives tokens rest (.groups exprs) ∧
      (tokens.head?.any (·.kind == .leftBrace) = true → 0 < bound → exprs ≠ []) := by
  induction bound with
  | zero => exact .pure fun tokens => ⟨.noGroups, by simp⟩
  | succ bound ih =>
    refine (Sound.isNext (· == .leftBrace)).bind fun more => ?_
    cases more with
    | false =>
      refine .pure ?_
      rintro tokens before ⟨unbraced, rfl⟩
      exact ⟨.noGroups, by simp [← unbraced]⟩
    | true =>
      refine sound.group.bind fun expr => ?_
      refine ih.bind fun exprs => .pure ?_
      rintro rest mid ⟨more, -⟩ tokens first before ⟨-, rfl⟩
      exact ⟨.groups first more, by simp⟩

theorem items (sound : SoundLayer inner) (bound : Nat) :
    Sound (inner.afterCommas bound) fun tokens exprs rest => Derives tokens rest (.items exprs) := by
  induction bound with
  | zero => exact .pure fun tokens => .noItems
  | succ bound ih =>
    refine (Sound.takeIf (· == .comma)).bind fun comma => ?_
    cases comma with
    | none =>
      refine .pure ?_
      rintro tokens before ⟨rfl, -⟩
      exact .noItems
    | some comma =>
      refine sound.expression.bind fun expr => ?_
      refine ih.bind fun exprs => .pure ?_
      rintro rest mid more after first tokens ⟨divides, rfl⟩
      exact .items (by simpa using divides) first more

theorem list (sound : SoundLayer inner) :
    Sound inner.list fun tokens exprs rest => Derives tokens rest (.list exprs) := by
  refine sound.expression.bind fun expr => ?_
  refine Sound.remaining.bind fun bound => ?_
  refine (sound.items bound).bind fun exprs => .pure ?_
  rintro rest mid more after ⟨-, rfl⟩ tokens first
  exact .list first more

theorem fraction (sound : SoundLayer inner) (command : Option Token) :
    Sound (inner.fraction command) fun tokens expr rest =>
      ∃ numerator denominator mid, Derives tokens mid (.group numerator) ∧
        Derives mid rest (.group denominator) ∧ expr = .call Expr.fraction [numerator, denominator] := by
  have refused : Sound (pure .missing : Reading Expr) fun _ _ _ => True := .pure fun _ => trivial
  refine (Sound.isNext (· == .leftBrace)).bind fun above => ?_
  cases above with
  | false => exact .noteThen refused
  | true =>
    refine sound.group.bind fun numerator => ?_
    refine (Sound.isNext (· == .leftBrace)).bind fun below => ?_
    cases below with
    | false => exact .noteThen refused
    | true =>
      refine sound.group.bind fun denominator => .pure ?_
      rintro rest mid second between ⟨-, rfl⟩ tokens first before ⟨-, rfl⟩
      exact ⟨numerator, denominator, mid, first, second, rfl⟩

theorem parenthesized (sound : SoundLayer inner) :
    Sound (do
      let args ← if ← isNext (· == .rightParen) then pure [] else inner.list
      require .rightParen
      return args) fun tokens args rest => ∃ right, right.kind = .rightParen ∧
        (args = [] ∧ tokens = right :: rest ∨ Derives tokens (right :: rest) (.list args)) := by
  refine (Sound.isNext (· == .rightParen)).bind fun empty => ?_
  cases empty with
  | true =>
    refine (Sound.require .rightParen).bind fun _ => .pure ?_
    rintro rest tokens ⟨right, closes, rfl⟩ before ⟨-, rfl⟩
    exact ⟨right, closes, .inl ⟨rfl, rfl⟩⟩
  | false =>
    refine sound.list.bind fun args => ?_
    refine (Sound.require .rightParen).bind fun _ => .pure ?_
    rintro rest mid ⟨right, closes, rfl⟩ tokens inside before ⟨-, rfl⟩
    exact ⟨right, closes, .inr inside⟩

theorem arguments (sound : SoundLayer inner) {command : Token}
    (named : command.text ≠ Expr.fraction) :
    Sound inner.arguments fun tokens args rest => command.kind = .command →
      ReadsPrimary (command :: tokens) (.call command.text args) rest := by
  refine (Sound.isNext (· == .leftBrace)).bind fun braced => ?_
  cases braced with
  | true =>
    refine Sound.remaining.bind fun bound => (sound.groups bound).weaken ?_
    rintro tokens args rest ⟨groups, filled⟩ before ⟨rfl, rfl⟩ between ⟨braced, rfl⟩ isCommand
    refine .closed ?_
    cases groups with
    | noGroups =>
      have room : 0 < tokens.length := by cases tokens <;> simp_all
      exact absurd rfl (filled braced.symm room)
    | groups first more => exact .callGroups isCommand named first more
  | false =>
    refine (Sound.takeIf (· == .leftParen)).bind fun left => ?_
    cases left with
    | some left =>
      refine sound.parenthesized.weaken ?_
      rintro tokens args rest ⟨right, closes, inside⟩ between ⟨opens, rfl⟩ before ⟨-, rfl⟩ isCommand
      refine .closed ?_
      have opens : left.kind = .leftParen := by simpa using opens
      rcases inside with ⟨rfl, rfl⟩ | inside
      next => exact .callEmpty isCommand named opens closes
      next => exact .callList isCommand named opens inside closes
    | none =>
      refine sound.primary.bind fun arg => .pure ?_
      rintro rest tokens ⟨loose, primary, unraised⟩ between ⟨rfl, unopened⟩ before ⟨unbraced, rfl⟩
        isCommand
      refine ⟨loose, .callBare isCommand named ?_ primary, unraised⟩
      intro token isFirst
      simp_all

theorem command (sound : SoundLayer inner) :
    Sound inner.command fun tokens expr rest =>
      (∀ token ∈ tokens.head?, token.kind = .command) → ReadsPrimary tokens expr rest := by
  refine (Sound.consume none).bind fun command => ?_
  cases command with
  | none => exact .throw _ _
  | some command =>
    by_cases named : command.text = Expr.fraction
    next =>
      simp only [named, if_true]
      refine (sound.fraction (some command)).weaken ?_
      rintro mid expr rest ⟨numerator, denominator, between, above, below, rfl⟩ tokens
        ⟨_, -, ⟨⟩, rfl⟩ isCommand
      exact .closed (.fraction (isCommand command rfl) named above below)
    next =>
      simp only [named, if_false]
      refine (sound.arguments named).bind fun args => .pure ?_
      rintro rest mid derived tokens ⟨_, -, ⟨⟩, rfl⟩ isCommand
      exact derived (isCommand command rfl)

theorem array (sound : SoundLayer inner) :
    Sound inner.array fun tokens expr rest => Derives tokens rest (.primary false expr) := by
  refine (Sound.require .leftBracket).bind fun _ => ?_
  refine (Sound.takeIf (· == .rightBracket)).bind fun right => ?_
  cases right with
  | some right =>
    refine .pure ?_
    rintro rest mid ⟨closes, rfl⟩ tokens ⟨left, opens, rfl⟩
    exact .emptyArray opens (by simpa using closes)
  | none =>
    refine sound.list.bind fun items => ?_
    refine (Sound.require .rightBracket).bind fun _ => .pure ?_
    rintro rest mid ⟨right, closes, rfl⟩ after inside between ⟨rfl, -⟩ tokens ⟨left, opens, rfl⟩
    exact .array opens inside closes

theorem cells (sound : SoundLayer inner) (bound : Nat) :
    Sound (inner.cells bound) fun tokens cells rest =>
      Derives tokens rest (.cells cells.1 cells.2) := by
  induction bound with
  | zero => exact .pure fun tokens => .noCells
  | succ bound ih =>
    refine Sound.peek.bind fun found => ?_
    cases found with
    | none =>
      refine .pure ?_
      rintro rest tokens ⟨-, rfl⟩
      exact .noCells
    | some token =>
      simp only
      split
      next =>
        refine .pure ?_
        rintro rest tokens ⟨-, rfl⟩
        exact .noCells
      next isComma =>
        refine Sound.advance.bind fun _ => ?_
        refine sound.expression.bind fun cell => ?_
        refine ih.bind fun cells => .pure ?_
        rintro rest mid more after first between tail tokens ⟨found, rfl⟩
        rw [Sound.taken found tail]
        exact .cell isComma first more
      next isSemicolon =>
        refine Sound.advance.bind fun _ => ?_
        refine sound.expression.bind fun cell => ?_
        refine ih.bind fun cells => .pure ?_
        rintro rest mid more after first between tail tokens ⟨found, rfl⟩
        rw [Sound.taken found tail]
        exact .row isSemicolon first more
      next =>
        refine .noteThen ?_
        exact Sound.advance.bind fun _ => ih.weaken fun _ _ _ _ _ _ => trivial

theorem matrix (sound : SoundLayer inner) :
    Sound inner.matrix fun tokens expr rest => Derives tokens rest (.primary false expr) := by
  refine (Sound.require .leftBrace).bind fun _ => ?_
  refine (Sound.takeIf (· == .rightBrace)).bind fun right => ?_
  cases right with
  | some right =>
    refine .pure ?_
    rintro rest mid ⟨closes, rfl⟩ tokens ⟨left, opens, rfl⟩
    exact .emptyMatrix opens (by simpa using closes)
  | none =>
    refine sound.expression.bind fun cell => ?_
    refine Sound.remaining.bind fun bound => ?_
    refine (sound.cells bound).bind fun cells => ?_
    refine (Sound.require .rightBrace).bind fun _ => .pure ?_
    rintro rest after ⟨right, closes, rfl⟩ mid more start ⟨-, rfl⟩ between first before ⟨rfl, -⟩
      tokens ⟨left, opens, rfl⟩
    exact .matrix opens first more closes

theorem primaryFrom (sound : SoundLayer inner) :
    Sound inner.primaryFrom ReadsPrimary := by
  have refused : Sound (pure .missing : Reading Expr) fun _ _ _ => True := .pure fun _ => trivial
  have signed (op : Token) (isSign : op.kind.isSign = true) :
      Sound (advance >>= fun _ => inner.exponent >>= fun operand => pure (.sign op.text operand))
        fun mid expr rest => ∀ tokens, some op = tokens.head? ∧ mid = tokens →
          ReadsPrimary tokens expr rest := by
    refine Sound.advance.bind fun _ => ?_
    refine sound.exponent.bind fun operand => .pure ?_
    rintro rest mid ⟨exponent, unraised⟩ between tail tokens ⟨found, rfl⟩
    rw [Sound.taken found tail]
    exact ⟨true, .sign isSign exponent, fun _ => unraised⟩
  refine Sound.peek.bind fun found => ?_
  cases found with
  | none => exact .noteThen refused
  | some token =>
    simp only
    split
    next isNumber =>
      refine Sound.advance.bind fun _ => .pure ?_
      rintro rest between tail tokens ⟨found, rfl⟩
      rw [Sound.taken found tail]
      exact .closed (.number isNumber)
    next isIdent =>
      refine Sound.advance.bind fun _ => .pure ?_
      rintro rest between tail tokens ⟨found, rfl⟩
      rw [Sound.taken found tail]
      exact .closed (.ident isIdent)
    next isCommand =>
      refine sound.command.weaken ?_
      rintro mid expr rest derived tokens ⟨found, rfl⟩
      exact derived (by simp [← found, isCommand])
    next opens =>
      refine Sound.advance.bind fun _ => ?_
      refine sound.expression.bind fun inner => ?_
      refine (Sound.require .rightParen).bind fun _ => .pure ?_
      rintro rest after ⟨right, closes, rfl⟩ mid inside between tail tokens ⟨found, rfl⟩
      rw [Sound.taken found tail]
      exact .closed (.paren opens inside closes)
    next =>
      refine sound.array.weaken ?_
      rintro mid expr rest derived tokens ⟨-, rfl⟩
      exact .closed derived
    next =>
      refine sound.matrix.weaken ?_
      rintro mid expr rest derived tokens ⟨-, rfl⟩
      exact .closed derived
    next isPlus => exact signed token (by rw [isPlus]; rfl)
    next isMinus => exact signed token (by rw [isMinus]; rfl)
    next =>
      refine .noteThen ?_
      exact Sound.advance.bind fun _ => refused.weaken fun _ _ _ _ _ _ => trivial

theorem exponentFrom (sound : SoundLayer inner) :
    Sound inner.exponentFrom fun tokens expr rest =>
      Derives tokens rest (.exponent expr) ∧ Unraised rest := by
  refine sound.primaryFrom.bind fun base => ?_
  refine (Sound.takeIf (· == .power)).bind fun op => ?_
  cases op with
  | none =>
    refine .pure ?_
    rintro rest mid ⟨rfl, unraised⟩ tokens ⟨loose, primary, -⟩
    refine ⟨.base primary, ?_⟩
    intro token isFirst
    simp_all
  | some op =>
    refine sound.exponent.bind fun expr => .pure ?_
    rintro rest mid ⟨exponent, unraised⟩ between ⟨raises, rfl⟩ tokens ⟨loose, primary, closed⟩
    have raises : op.kind = .power := by simpa using raises
    cases loose with
    | false => exact ⟨.power primary raises exponent, unraised⟩
    | true => exact absurd raises (closed rfl op rfl)

theorem chain (level : Level) {operand : Reading Expr}
    (sound : Sound operand fun tokens expr rest => Derives tokens rest (level.operand expr))
    (bound : Nat) (lhs : Expr) :
    Sound (chain level.operators level.join operand bound lhs) fun tokens expr rest =>
      Derives tokens rest (.links level lhs expr) := by
  induction bound generalizing lhs with
  | zero => exact .pure fun tokens => .unlinked
  | succ bound ih =>
    refine (Sound.takeIf level.operators).bind fun op => ?_
    cases op with
    | none =>
      refine .pure ?_
      rintro tokens before ⟨rfl, -⟩
      exact .unlinked
    | some op =>
      refine sound.bind fun rhs => ?_
      refine (ih (level.join op.text lhs rhs)).weaken ?_
      rintro mid expr rest links tokens operand before ⟨joins, rfl⟩
      exact .link joins operand links

theorem leftGrouped (level : Level) {operand : Reading Expr}
    (sound : Sound operand fun tokens expr rest => Derives tokens rest (level.operand expr)) :
    Sound (leftGrouped level.operators level.join operand) fun tokens expr rest =>
      Derives tokens rest (.chain level expr) := by
  refine sound.bind fun first => ?_
  refine Sound.remaining.bind fun bound => ?_
  refine (chain level sound bound first).weaken ?_
  rintro mid expr rest links before ⟨-, rfl⟩ tokens operand
  exact .chain operand links

theorem chained (sound : SoundLayer inner) (level : Level) :
    Sound (inner.chained level) fun tokens expr rest => Derives tokens rest (.chain level expr) := by
  have product : Sound inner.term fun tokens expr rest => Derives tokens rest (.chain .product expr) :=
    leftGrouped .product (sound.exponentFrom.weaken fun _ _ _ => And.left)
  have sum : Sound inner.additive fun tokens expr rest => Derives tokens rest (.chain .sum expr) :=
    leftGrouped .sum product
  cases level with
  | relation => exact leftGrouped .relation sum
  | sum => exact sum
  | product => exact product

theorem expressionFrom (sound : SoundLayer inner) :
    Sound inner.expressionFrom fun tokens expr rest => Derives tokens rest (.expression expr) := by
  refine (sound.chained .relation).map assignment ?_
  intro tokens expr rest chain
  cases equation : expr.isEquation with
  | false =>
    rw [assignment_eq equation]
    exact .expression chain equation
  | true =>
    obtain ⟨name, rhs, rfl⟩ := eq_equation equation
    exact .assignment chain

theorem outward (sound : SoundLayer inner) : SoundLayer inner.outward :=
  ⟨sound.expressionFrom, sound.exponentFrom, sound.primaryFrom⟩

end SoundLayer

theorem layer_sound (depth : Nat) : SoundLayer (layer depth) := by
  induction depth with
  | zero => exact ⟨.throw _ _, .throw _ _, .throw _ _⟩
  | succ depth ih => exact ih.outward

theorem derives_of_parseWithin {depth : Nat} {tokens : List Token} {expr : Expr}
    (parsed : parseWithin depth tokens = .ok expr) : Derives tokens [] (.expression expr) := by
  have sound := (layer_sound depth).expression
  unfold parseWithin readAll verdict at parsed
  rcases run : (layer depth).expression.run.run ⟨tokens, []⟩ with ⟨stop | given, rest, noted⟩
  next => simp [run] at parsed
  next =>
    cases rest with
    | cons token rest => simp [run] at parsed
    | nil =>
      simp only [run] at parsed
      split at parsed
      next isEmpty =>
        cases parsed
        rw [List.isEmpty_iff.1 isEmpty] at run
        exact sound.means _ _ _ _ run
      next => cases parsed

end FormulaCalculator.Grammar
