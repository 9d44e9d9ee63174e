import FormulaCalculator.Proofs.Grammar.Soundness

set_option autoImplicit false

namespace FormulaCalculator.Grammar

def graspsExponent (kind : Kind) : Bool := kind == .leftBrace || kind == .power

def Level.grasps : Level → Kind → Bool
  | product, kind => graspsExponent kind || kind.isFactor
  | sum, kind => graspsExponent kind || kind.isFactor || kind.isSign
  | relation, kind => graspsExponent kind || kind.isFactor || kind.isSign || kind.isRelation

def Phrase.grasps : Phrase → Kind → Bool
  | expression _, kind => Level.relation.grasps kind
  | chain level _, kind | links level _ _, kind => level.grasps kind
  | exponent _, kind => graspsExponent kind
  | primary loose _, kind => kind == .leftBrace || loose && kind == .power
  | group _, _ => false
  | groups _, kind => kind == .leftBrace
  | list _, kind | items _, kind => kind == .comma || Level.relation.grasps kind
  | cells _ _, kind => kind != .rightBrace

-- Nothing that follows a phrase belongs to it.
def Phrase.Ends (phrase : Phrase) (rest : List Token) : Prop :=
  ∀ token ∈ rest.head?, phrase.grasps token.kind = false

theorem Phrase.Ends.mono {phrase other : Phrase} {rest : List Token} (ends : phrase.Ends rest)
    (less : ∀ kind, phrase.grasps kind = false → other.grasps kind = false) : other.Ends rest :=
  fun token isFirst => less token.kind (ends token isFirst)

theorem Phrase.ends_cons {phrase : Phrase} {token : Token} {rest : List Token}
    (free : phrase.grasps token.kind = false) : phrase.Ends (token :: rest) := by
  intro other isFirst
  cases isFirst
  exact free

theorem operator_not_grasped {level : Level} {kind : Kind} (joins : level.operators kind = true)
    (expr : Expr) : (level.operand expr).grasps kind = false := by
  cases level <;> cases kind <;> first | rfl | cases joins

theorem operand_grasps_less (level : Level) (expr : Expr) {kind : Kind}
    (free : level.grasps kind = false) : (level.operand expr).grasps kind = false := by
  cases level <;> simp_all [Level.grasps, Level.operand, Phrase.grasps]

theorem Derives.suffix {tokens rest : List Token} {phrase : Phrase}
    (derived : Derives tokens rest phrase) : rest <:+ tokens := by
  induction derived with
  | unlinked | noGroups | noItems | noCells => exact List.suffix_refl _
  | expression _ _ ih | assignment _ ih | base _ ih => exact ih
  | number | ident => exact List.suffix_cons _ _
  | emptyArray | emptyMatrix => exact (List.suffix_cons _ _).trans (List.suffix_cons _ _)
  | callEmpty =>
    exact ((List.suffix_cons _ _).trans (List.suffix_cons _ _)).trans (List.suffix_cons _ _)
  | chain _ _ first more | groups _ _ first more | list _ _ first more => exact more.trans first
  | link _ _ _ first more | items _ _ _ first more | cell _ _ _ first more | row _ _ _ first more
    | fraction _ _ _ _ first more | callGroups _ _ _ _ first more =>
    exact (more.trans first).trans (List.suffix_cons _ _)
  | power _ _ _ first more => exact (more.trans (List.suffix_cons _ _)).trans first
  | sign _ _ ih | callBare _ _ _ _ ih => exact ih.trans (List.suffix_cons _ _)
  | paren _ _ _ ih | array _ _ _ ih | group _ _ _ ih =>
    exact ((List.suffix_cons _ _).trans ih).trans (List.suffix_cons _ _)
  | matrix _ _ _ _ first more =>
    exact (((List.suffix_cons _ _).trans more).trans first).trans (List.suffix_cons _ _)
  | callList _ _ _ _ _ ih =>
    exact (((List.suffix_cons _ _).trans ih).trans (List.suffix_cons _ _)).trans (List.suffix_cons _ _)

-- The tree of a phrase has a node, and the links after a tree only make it taller.
def Phrase.Grows : Phrase → Prop
  | expression expr | chain _ expr | exponent expr | primary _ expr => 0 < expr.height
  | links _ lhs expr => lhs.height ≤ expr.height
  | group _ | groups _ | list _ | items _ | cells _ _ => True

theorem Derives.grows {tokens rest : List Token} {phrase : Phrase}
    (derived : Derives tokens rest phrase) : phrase.Grows := by
  induction derived with
  | @chain level _ _ _ first _ _ _ operand links =>
    have pos : 0 < first.height := by cases level <;> exact operand
    exact Nat.lt_of_lt_of_le pos links
  | @link level _ _ _ _ _ _ _ _ _ _ _ links =>
    refine Nat.le_trans ?_ links
    cases level <;> simp only [Level.join, Expr.height] <;> omega
  | unlinked => exact Nat.le_refl _
  | expression _ _ ih | assignment _ ih | base _ ih => exact ih
  | _ => simp [Phrase.Grows, Expr.height]

def startsPrimary : Kind → Bool
  | .number | .identifier | .command | .leftParen | .leftBracket | .leftBrace | .plus | .minus => true
  | _ => false

def Phrase.Opens (tokens : List Token) : Phrase → Prop
  | expression _ | chain _ _ | exponent _ | primary _ _ | list _ =>
    tokens.head?.any (startsPrimary ·.kind) = true
  | group _ => tokens.head?.any (·.kind == .leftBrace) = true
  | links _ _ _ | groups _ | items _ | cells _ _ => True

theorem Derives.opens {tokens rest : List Token} {phrase : Phrase}
    (derived : Derives tokens rest phrase) : phrase.Opens tokens := by
  induction derived with
  | expression _ _ ih | assignment _ ih | base _ ih | power _ _ _ ih | list _ _ ih => exact ih
  | @chain level _ _ _ _ _ _ _ ih => cases level <;> exact ih
  | @sign op _ _ _ isSign =>
    revert isSign
    cases kind : op.kind <;> simp [Kind.isSign, Phrase.Opens, startsPrimary, kind]
  | _ => simp_all [Phrase.Opens, startsPrimary]

theorem head_ne {tokens : List Token} {kind : Kind}
    (opens : tokens.head?.any (startsPrimary ·.kind) = true) (other : startsPrimary kind = false) :
    ∀ token ∈ tokens.head?, token.kind ≠ kind := by
  rintro token isFirst rfl
  rw [Option.mem_def] at isFirst
  simp [isFirst, other] at opens

namespace Meets

variable {excuse : Prop} {inner : Layer} {tokens mid rest : List Token} {left right : Token}

theorem group {expr : Expr} (opens : left.kind = .leftBrace)
    (inside : Meets excuse inner.expression tokens expr (right :: rest))
    (closes : right.kind = .rightBrace) : Meets excuse inner.group (left :: tokens) expr rest := by
  refine (require opens tokens).bind ?_
  refine inside.bind ?_
  exact (require closes rest).bind pure

theorem groups_nil (unbraced : ∀ token ∈ tokens.head?, token.kind ≠ .leftBrace) (bound : Nat) :
    Meets excuse (inner.groups bound) tokens [] tokens := by
  cases bound with
  | zero => exact pure
  | succ bound =>
    refine (isNext (· == .leftBrace) tokens).bind ?_
    have none : tokens.head?.any (·.kind == .leftBrace) = false := by
      cases tokens <;> simp_all
    rw [none]
    exact pure

theorem groups_cons {expr : Expr} {exprs : List Expr} {bound : Nat}
    (braced : tokens.head?.any (·.kind == .leftBrace) = true)
    (first : Meets excuse inner.group tokens expr mid)
    (more : Meets excuse (inner.groups bound) mid exprs rest) :
    Meets excuse (inner.groups (bound + 1)) tokens (expr :: exprs) rest := by
  refine (isNext (· == .leftBrace) tokens).bind ?_
  simp only [braced, if_true]
  exact first.bind (more.bind pure)

theorem items_nil (undivided : ∀ token ∈ tokens.head?, token.kind ≠ .comma) (bound : Nat) :
    Meets excuse (inner.afterCommas bound) tokens [] tokens := by
  cases bound with
  | zero => exact pure
  | succ bound =>
    refine (takeIf_none ?_).bind pure
    intro token isFirst
    simpa using undivided token isFirst

theorem items_cons {comma : Token} {expr : Expr} {exprs : List Expr} {bound : Nat}
    (divides : comma.kind = .comma) (first : Meets excuse inner.expression tokens expr mid)
    (more : Meets excuse (inner.afterCommas bound) mid exprs rest) :
    Meets excuse (inner.afterCommas (bound + 1)) (comma :: tokens) (expr :: exprs) rest := by
  refine (takeIf_some (by simp [divides]) tokens).bind ?_
  exact first.bind (more.bind pure)

theorem list {expr : Expr} {exprs : List Expr} (first : Meets excuse inner.expression tokens expr mid)
    (more : Meets excuse (inner.afterCommas mid.length) mid exprs rest) :
    Meets excuse inner.list tokens (expr :: exprs) rest := by
  refine first.bind ?_
  refine (remaining mid).bind ?_
  exact more.bind pure

theorem cells_nil (ends : ∀ token ∈ tokens.head?, token.kind = .rightBrace) (bound : Nat) :
    Meets excuse (inner.cells bound) tokens ([], []) tokens := by
  cases bound with
  | zero => exact pure
  | succ bound =>
    refine (peek tokens).bind ?_
    cases tokens with
    | nil => exact pure
    | cons token rest =>
      simp only [List.head?_cons, ends token rfl]
      exact pure

theorem cell {comma : Token} {cell : Expr} {row : List Expr} {rows : List (List Expr)} {bound : Nat}
    (divides : comma.kind = .comma) (first : Meets excuse inner.expression tokens cell mid)
    (more : Meets excuse (inner.cells bound) mid (row, rows) rest) :
    Meets excuse (inner.cells (bound + 1)) (comma :: tokens) (cell :: row, rows) rest := by
  refine (peek (comma :: tokens)).bind ?_
  simp only [List.head?_cons, divides]
  refine (advance (comma :: tokens)).bind ?_
  exact first.bind (more.bind pure)

theorem row {semicolon : Token} {cell : Expr} {row : List Expr} {rows : List (List Expr)}
    {bound : Nat} (divides : semicolon.kind = .semicolon)
    (first : Meets excuse inner.expression tokens cell mid)
    (more : Meets excuse (inner.cells bound) mid (row, rows) rest) :
    Meets excuse (inner.cells (bound + 1)) (semicolon :: tokens) ([], (cell :: row) :: rows) rest := by
  refine (peek (semicolon :: tokens)).bind ?_
  simp only [List.head?_cons, divides]
  refine (advance (semicolon :: tokens)).bind ?_
  exact first.bind (more.bind pure)

theorem number {token : Token} (isNumber : token.kind = .number) (rest : List Token) :
    Meets excuse inner.primaryFrom (token :: rest) (.number token.text) rest := by
  refine (peek (token :: rest)).bind ?_
  simp only [List.head?_cons, isNumber]
  exact (advance (token :: rest)).bind pure

theorem ident {token : Token} (isIdent : token.kind = .identifier) (rest : List Token) :
    Meets excuse inner.primaryFrom (token :: rest) (.ident token.text) rest := by
  refine (peek (token :: rest)).bind ?_
  simp only [List.head?_cons, isIdent]
  exact (advance (token :: rest)).bind pure

theorem sign {op : Token} {operand : Expr} (isSign : op.kind.isSign = true)
    (exponent : Meets excuse inner.exponent tokens operand rest) :
    Meets excuse inner.primaryFrom (op :: tokens) (.sign op.text operand) rest := by
  refine (peek (op :: tokens)).bind ?_
  have either : op.kind = .plus ∨ op.kind = .minus := by
    revert isSign
    cases op.kind <;> simp [Kind.isSign]
  rcases either with same | same <;> simp only [List.head?_cons, same] <;>
    exact (advance (op :: tokens)).bind (exponent.bind pure)

theorem paren {expr : Expr} (opens : left.kind = .leftParen)
    (inside : Meets excuse inner.expression tokens expr (right :: rest))
    (closes : right.kind = .rightParen) :
    Meets excuse inner.primaryFrom (left :: tokens) (.paren expr) rest := by
  refine (peek (left :: tokens)).bind ?_
  simp only [List.head?_cons, opens]
  refine (advance (left :: tokens)).bind ?_
  exact inside.bind ((require closes rest).bind pure)

theorem emptyArray (opens : left.kind = .leftBracket) (closes : right.kind = .rightBracket) :
    Meets excuse inner.primaryFrom (left :: right :: rest) (.array []) rest := by
  refine (peek (left :: right :: rest)).bind ?_
  simp only [List.head?_cons, opens]
  refine (require opens (right :: rest)).bind ?_
  exact (takeIf_some (by simp [closes]) rest).bind pure

theorem array {items : List Expr} (opens : left.kind = .leftBracket)
    (filled : ∀ token ∈ tokens.head?, token.kind ≠ .rightBracket)
    (inside : Meets excuse inner.list tokens items (right :: rest))
    (closes : right.kind = .rightBracket) :
    Meets excuse inner.primaryFrom (left :: tokens) (.array items) rest := by
  refine (peek (left :: tokens)).bind ?_
  simp only [List.head?_cons, opens]
  refine (require opens tokens).bind ?_
  refine (takeIf_none (by simpa using filled)).bind ?_
  exact inside.bind ((require closes rest).bind pure)

theorem emptyMatrix (opens : left.kind = .leftBrace) (closes : right.kind = .rightBrace) :
    Meets excuse inner.primaryFrom (left :: right :: rest) (.matrix []) rest := by
  refine (peek (left :: right :: rest)).bind ?_
  simp only [List.head?_cons, opens]
  refine (require opens (right :: rest)).bind ?_
  exact (takeIf_some (by simp [closes]) rest).bind pure

theorem matrix {cell : Expr} {row : List Expr} {rows : List (List Expr)}
    (opens : left.kind = .leftBrace) (filled : ∀ token ∈ tokens.head?, token.kind ≠ .rightBrace)
    (first : Meets excuse inner.expression tokens cell mid)
    (more : Meets excuse (inner.cells mid.length) mid (row, rows) (right :: rest))
    (closes : right.kind = .rightBrace) :
    Meets excuse inner.primaryFrom (left :: tokens) (.matrix ((cell :: row) :: rows)) rest := by
  refine (peek (left :: tokens)).bind ?_
  simp only [List.head?_cons, opens]
  refine (require opens tokens).bind ?_
  refine (takeIf_none (by simpa using filled)).bind ?_
  refine first.bind ?_
  refine (remaining mid).bind ?_
  exact more.bind ((require closes rest).bind pure)

theorem fraction {command : Token} {numerator denominator : Expr} (isCommand : command.kind = .command)
    (named : command.text = Expr.fraction) (above : tokens.head?.any (·.kind == .leftBrace) = true)
    (first : Meets excuse inner.group tokens numerator mid)
    (below : mid.head?.any (·.kind == .leftBrace) = true)
    (second : Meets excuse inner.group mid denominator rest) :
    Meets excuse inner.primaryFrom (command :: tokens) (.call Expr.fraction [numerator, denominator])
      rest := by
  refine (peek (command :: tokens)).bind ?_
  simp only [List.head?_cons, isCommand]
  refine (consume none (by simp) tokens).bind ?_
  simp only [named, if_true]
  refine (isNext (· == .leftBrace) tokens).bind ?_
  simp only [above, if_true]
  refine first.bind ?_
  refine (isNext (· == .leftBrace) mid).bind ?_
  simp only [below, if_true]
  exact second.bind pure

theorem call {command : Token} {args : List Expr} (isCommand : command.kind = .command)
    (named : command.text ≠ Expr.fraction) (arguments : Meets excuse inner.arguments tokens args rest) :
    Meets excuse inner.primaryFrom (command :: tokens) (.call command.text args) rest := by
  refine (peek (command :: tokens)).bind ?_
  simp only [List.head?_cons, isCommand]
  refine (consume none (by simp) tokens).bind ?_
  simp only [named, if_false]
  exact arguments.bind pure

theorem arguments_groups {args : List Expr} (braced : tokens.head?.any (·.kind == .leftBrace) = true)
    (groups : Meets excuse (inner.groups tokens.length) tokens args rest) :
    Meets excuse inner.arguments tokens args rest := by
  refine (isNext (· == .leftBrace) tokens).bind ?_
  simp only [braced, if_true]
  exact (remaining tokens).bind groups

theorem arguments_empty (opens : left.kind = .leftParen) (closes : right.kind = .rightParen) :
    Meets excuse inner.arguments (left :: right :: rest) [] rest := by
  refine (isNext (· == .leftBrace) (left :: right :: rest)).bind ?_
  simp only [List.head?_cons, Option.any_some, opens]
  refine (takeIf_some (by simp [opens]) (right :: rest)).bind ?_
  refine (isNext (· == .rightParen) (right :: rest)).bind ?_
  simp only [List.head?_cons, Option.any_some, closes, beq_self_eq_true, if_true]
  exact (require closes rest).bind pure

theorem arguments_list {args : List Expr} (opens : left.kind = .leftParen)
    (filled : tokens.head?.any (·.kind == .rightParen) = false)
    (inside : Meets excuse inner.list tokens args (right :: rest))
    (closes : right.kind = .rightParen) : Meets excuse inner.arguments (left :: tokens) args rest := by
  refine (isNext (· == .leftBrace) (left :: tokens)).bind ?_
  simp only [List.head?_cons, Option.any_some, opens]
  refine (takeIf_some (by simp [opens]) tokens).bind ?_
  refine (isNext (· == .rightParen) tokens).bind ?_
  simp only [filled]
  exact inside.bind ((require closes rest).bind pure)

theorem arguments_bare {arg : Expr}
    (bare : ∀ token ∈ tokens.head?, token.kind ≠ .leftBrace ∧ token.kind ≠ .leftParen)
    (primary : Meets excuse inner.primary tokens arg rest) :
    Meets excuse inner.arguments tokens [arg] rest := by
  refine (isNext (· == .leftBrace) tokens).bind ?_
  have unbraced : tokens.head?.any (·.kind == .leftBrace) = false := by
    cases tokens <;> simp_all
  simp only [unbraced]
  refine (takeIf_none ?_).bind ?_
  next =>
    intro token isFirst
    simpa using (bare token isFirst).2
  next => exact primary.bind pure

theorem power {op : Token} {base expr : Expr}
    (primary : Meets excuse inner.primaryFrom tokens base (op :: mid)) (raises : op.kind = .power)
    (exponent : Meets excuse inner.exponent mid expr rest) :
    Meets excuse inner.exponentFrom tokens (.arith "^" base expr) rest := by
  refine primary.bind ?_
  refine (takeIf_some (by simp [raises]) mid).bind ?_
  exact exponent.bind pure

theorem base {expr : Expr} (primary : Meets excuse inner.primaryFrom tokens expr rest)
    (unraised : Unraised rest) : Meets excuse inner.exponentFrom tokens expr rest := by
  refine primary.bind ?_
  refine (takeIf_none ?_).bind pure
  intro token isFirst
  simpa using unraised token isFirst

theorem unlinked {level : Level} {operand : Reading Expr} {lhs : Expr}
    (apart : ∀ token ∈ tokens.head?, level.operators token.kind = false) (bound : Nat) :
    Meets excuse (chain level.operators level.join operand bound lhs) tokens lhs tokens := by
  cases bound with
  | zero => exact pure
  | succ bound => exact (takeIf_none apart).bind pure

theorem link {level : Level} {operand : Reading Expr} {op : Token} {lhs rhs expr : Expr} {bound : Nat}
    (joins : level.operators op.kind = true) (second : Meets excuse operand tokens rhs mid)
    (links : Meets excuse
      (chain level.operators level.join operand bound (level.join op.text lhs rhs)) mid expr rest) :
    Meets excuse (chain level.operators level.join operand (bound + 1) lhs) (op :: tokens) expr
      rest := by
  refine (takeIf_some joins tokens).bind ?_
  exact second.bind links

theorem chained {level : Level} {first expr : Expr}
    (operand : Meets excuse (inner.operand level) tokens first mid)
    (links : Meets excuse
      (chain level.operators level.join (inner.operand level) mid.length first) mid expr rest) :
    Meets excuse (inner.chained level) tokens expr rest := by
  rw [inner.chained_eq]
  refine operand.bind ?_
  exact (remaining mid).bind links

end Meets

def Phrase.Met (depth : Nat) (tokens rest : List Token) : Phrase → Prop
  | expression expr => Meets (depth < expr.height) (layer depth).expression tokens expr rest
  | exponent expr => Meets (depth < expr.height) (layer depth).exponent tokens expr rest
  | primary _ expr => Meets (depth < expr.height) (layer depth).primary tokens expr rest
  | chain level expr => Meets (depth + 1 < expr.height) ((layer depth).chained level) tokens expr rest
  | links level lhs expr => ∀ bound, tokens.length ≤ bound →
    Meets (depth + 1 < expr.height)
      (Grammar.chain level.operators level.join ((layer depth).operand level) bound lhs) tokens expr rest
  | group expr => Meets (depth < expr.height) (layer depth).group tokens expr rest
  | groups exprs => ∀ bound, tokens.length ≤ bound →
    Meets (depth < Expr.heights exprs) ((layer depth).groups bound) tokens exprs rest
  | list exprs => Meets (depth < Expr.heights exprs) (layer depth).list tokens exprs rest
  | items exprs => ∀ bound, tokens.length ≤ bound →
    Meets (depth < Expr.heights exprs) ((layer depth).afterCommas bound) tokens exprs rest
  | cells row rows => ∀ bound, tokens.length ≤ bound →
    Meets (depth < max (Expr.heights row) (Expr.rowHeights rows)) ((layer depth).cells bound) tokens
      (row, rows) rest

theorem operand_met {level : Level} {tokens rest : List Token} {expr : Expr}
    (met : ∀ depth, (level.operand expr).Met depth tokens rest) (depth : Nat) :
    Meets (depth + 1 < expr.height) ((layer depth).operand level) tokens expr rest := by
  cases level with
  | relation => exact met depth
  | sum => exact met depth
  | product => exact met (depth + 1)

theorem links_end {level : Level} {tokens rest : List Token} {lhs expr : Expr}
    (links : Derives tokens rest (.links level lhs expr)) (ends : (Phrase.chain level expr).Ends rest)
    (first : Expr) : (level.operand first).Ends tokens := by
  cases links with
  | unlinked => exact ends.mono fun kind free => operand_grasps_less level first free
  | link joins => exact Phrase.ends_cons (operator_not_grasped joins first)

theorem primary_met {depth : Nat} {loose : Bool} {tokens rest : List Token} {expr : Expr}
    (pos : 0 < expr.height)
    (meets : ∀ below, Meets (below + 1 < expr.height) (layer below).primaryFrom tokens expr rest) :
    (Phrase.primary loose expr).Met depth tokens rest := by
  cases depth with
  | zero => exact .throw pos _ _ _ _
  | succ depth => exact meets depth

theorem excuse_up {depth lower upper : Nat} (node : lower + 1 ≤ upper) (excused : depth < lower) :
    depth + 1 < upper := by
  omega

theorem ends_closing {phrase : Phrase} {right : Token} {rest : List Token} {kind : Kind}
    (same : right.kind = kind) (free : phrase.grasps kind = false) : phrase.Ends (right :: rest) :=
  Phrase.ends_cons (same ▸ free)

theorem items_end {tokens rest : List Token} {exprs : List Expr}
    (items : Derives tokens rest (.items exprs)) (ends : (Phrase.items exprs).Ends rest)
    (first : Expr) : (Phrase.expression first).Ends tokens := by
  cases items with
  | noItems => exact ends.mono fun kind free => by simp_all [Phrase.grasps]
  | items divides => exact ends_closing divides rfl

theorem cells_end {tokens rest : List Token} {row : List Expr} {rows : List (List Expr)}
    (cells : Derives tokens rest (.cells row rows)) (ends : (Phrase.cells row rows).Ends rest)
    (first : Expr) : (Phrase.expression first).Ends tokens := by
  cases cells with
  | noCells =>
    refine ends.mono fun kind free => ?_
    have closing : kind = .rightBrace := by simpa [Phrase.grasps] using free
    subst closing
    rfl
  | cell divides => exact ends_closing divides rfl
  | row divides => exact ends_closing divides rfl

theorem group_shorter {tokens rest : List Token} {expr : Expr}
    (group : Derives tokens rest (.group expr)) : rest.length < tokens.length := by
  cases group with
  | group opens inside closes =>
    have shorter := inside.suffix.length_le
    simp only [List.length_cons] at shorter ⊢
    omega

theorem room_after {tokens mid : List Token} {bound : Nat} (shorter : mid.length < tokens.length)
    (room : tokens.length ≤ bound) : ∃ less, bound = less + 1 ∧ mid.length ≤ less :=
  ⟨bound - 1, by omega, by omega⟩

theorem Derives.met {tokens rest : List Token} {phrase : Phrase} (derived : Derives tokens rest phrase)
    (ends : phrase.Ends rest) (depth : Nat) : phrase.Met depth tokens rest := by
  -- Induction on the derivation. The tokens after a phrase keep each loop from taking one too many,
  -- and each descent of the reader leads to a lower tree.
  induction derived generalizing depth with
  | @expression tokens rest expr chain kept ih =>
    have pos : 0 < expr.height := chain.grows
    cases depth with
    | zero => exact .throw pos _ _ _ _
    | succ depth =>
      have meets := (ih ends depth).map Grammar.assignment
      rwa [assignment_eq kept] at meets
  | assignment chain ih =>
    cases depth with
    | zero => exact .throw chain.grows _ _ _ _
    | succ depth => exact (ih ends depth).map Grammar.assignment
  | @chain level tokens mid rest first expr operand links operandMet linksMet =>
    have taller : first.height ≤ expr.height := links.grows
    have first := operand_met (operandMet (links_end links ends first)) depth
    exact .chained (first.weaken fun excused => Nat.lt_of_lt_of_le excused taller)
      (linksMet ends depth mid.length (Nat.le_refl _))
  | @unlinked level tokens expr =>
    intro bound _
    refine (Meets.unlinked ?_ bound)
    intro token isFirst
    have free := ends token isFirst
    cases level <;> simp_all [Phrase.grasps, Level.grasps, Level.operators]
  | @link level op tokens mid rest lhs rhs expr joins operand links operandMet linksMet =>
    intro bound room
    obtain ⟨bound, rfl, fits⟩ := room_after (Nat.lt_succ_of_le operand.suffix.length_le) room
    -- Later links only add height, so the operand is within the bound if the whole chain is.
    have joined : (level.join op.text lhs rhs).height ≤ expr.height := links.grows
    have taller : rhs.height ≤ expr.height := by
      refine Nat.le_trans ?_ joined
      cases level <;> simp only [Level.join, Expr.height] <;> omega
    have second := operand_met (operandMet (links_end links ends rhs)) depth
    exact .link joins (second.weaken fun excused => Nat.lt_of_lt_of_le excused taller)
      (linksMet ends depth bound fits)
  | @base tokens rest loose expr primary ih =>
    have pos : 0 < expr.height := primary.grows
    cases depth with
    | zero => exact .throw pos _ _ _ _
    | succ depth =>
      -- A power that followed would belong to the exponent.
      have unraised : Unraised rest := by
        intro token isFirst
        have free := ends token isFirst
        simp_all [Phrase.grasps, graspsExponent]
      refine Meets.base (ih (ends.mono fun kind free => ?_) (depth + 1)) unraised
      simp_all [Phrase.grasps, graspsExponent]
  | @power op tokens mid rest base expr primary raises exponent primaryMet exponentMet =>
    cases depth with
    | zero => exact .throw (by simp [Expr.height]) _ _ _ _
    | succ depth =>
      have apart : (Phrase.primary false base).Ends (op :: mid) :=
        Phrase.ends_cons (by simp [Phrase.grasps, raises])
      have first : Meets (depth + 1 < base.height) _ _ _ _ := primaryMet apart (depth + 1)
      have second : Meets (depth < expr.height) _ _ _ _ := exponentMet ends depth
      refine Meets.power (first.weaken fun excused => ?_) raises (second.weaken fun excused => ?_) <;>
        simp only [Expr.height] <;> omega
  | number isNumber => exact primary_met (by simp [Expr.height]) fun below => .number isNumber _
  | ident isIdent => exact primary_met (by simp [Expr.height]) fun below => .ident isIdent _
  | @sign op tokens rest operand isSign exponent ih =>
    refine primary_met (by simp [Expr.height]) fun below => .sign isSign ?_
    have inside := ih (ends.mono fun kind free => by simpa [Phrase.grasps, graspsExponent] using free)
    exact (inside below).weaken (excuse_up (by simp [Expr.height]))
  | paren opens inside closes ih =>
    refine primary_met (by simp [Expr.height]) fun below => .paren opens ?_ closes
    exact (ih (ends_closing closes rfl) below).weaken (excuse_up (by simp [Expr.height]))
  | emptyArray opens closes =>
    exact primary_met (by simp [Expr.height]) fun below => .emptyArray opens closes
  | array opens inside closes ih =>
    refine primary_met (by simp [Expr.height]) fun below =>
      .array opens (head_ne inside.opens rfl) ?_ closes
    exact (ih (ends_closing closes rfl) below).weaken (excuse_up (by simp [Expr.height]))
  | emptyMatrix opens closes =>
    exact primary_met (by simp [Expr.height]) fun below => .emptyMatrix opens closes
  | @matrix left right tokens mid rest cell row rows opens first more closes firstMet moreMet =>
    have apart : (Phrase.cells row rows).Ends (right :: rest) := ends_closing closes rfl
    refine primary_met (by simp [Expr.height]) fun below =>
      .matrix opens (head_ne first.opens rfl)
        ((firstMet (cells_end more apart cell) below).weaken (excuse_up ?_))
        ((moreMet apart below mid.length (Nat.le_refl _)).weaken (excuse_up ?_)) closes <;>
      simp only [Expr.height, Expr.rowHeights, Expr.heights] <;> omega
  | fraction isCommand named above below aboveMet belowMet =>
    refine primary_met (by simp [Expr.height]) fun depth =>
      .fraction isCommand named above.opens
        ((aboveMet (by simp [Phrase.Ends, Phrase.grasps]) depth).weaken (excuse_up ?_)) below.opens
        ((belowMet (by simp [Phrase.Ends, Phrase.grasps]) depth).weaken (excuse_up ?_)) <;>
      simp only [Expr.height, Expr.heights] <;> omega
  | @callGroups command tokens mid rest arg args isCommand named first more firstMet moreMet =>
    refine primary_met (by simp [Expr.height]) fun below => .call isCommand named ?_
    obtain ⟨bound, same, room⟩ := room_after (group_shorter first) (Nat.le_refl _)
    refine .arguments_groups first.opens ?_
    rw [same]
    refine .groups_cons first.opens
      ((firstMet (by simp [Phrase.Ends, Phrase.grasps]) below).weaken (excuse_up ?_))
      ((moreMet (ends.mono fun kind free => ?_) below bound room).weaken (excuse_up ?_))
    next => simp only [Expr.height, Expr.heights]; omega
    next => simpa [Phrase.grasps] using free
    next => simp only [Expr.height, Expr.heights]; omega
  | callEmpty isCommand named opens closes =>
    exact primary_met (by simp [Expr.height]) fun below =>
      .call isCommand named (.arguments_empty opens closes)
  | @callList command left right tokens rest args isCommand named opens inside closes ih =>
    refine primary_met (by simp [Expr.height]) fun below => .call isCommand named ?_
    -- A list begins with a primary, which no closing parenthesis does.
    have filled : tokens.head?.any (·.kind == .rightParen) = false := by
      have other : ∀ token ∈ tokens.head?, token.kind ≠ .rightParen := head_ne inside.opens rfl
      cases tokens <;> simp_all
    refine .arguments_list opens filled ?_ closes
    exact (ih (ends_closing closes rfl) below).weaken (excuse_up (by simp [Expr.height]))
  | callBare isCommand named bare primary ih =>
    refine primary_met (by simp [Expr.height]) fun below => .call isCommand named ?_
    refine .arguments_bare bare ?_
    exact (ih ends below).weaken (excuse_up (by simp [Expr.height, Expr.heights]))
  | group opens inside closes ih =>
    exact .group opens (ih (ends_closing closes rfl) depth) closes
  | noGroups =>
    intro bound _
    exact .groups_nil (fun token isFirst => by simpa [Phrase.grasps] using ends token isFirst) bound
  | @groups tokens mid rest expr exprs first more firstMet moreMet =>
    intro bound room
    obtain ⟨bound, rfl, fits⟩ := room_after (group_shorter first) room
    refine .groups_cons first.opens
      ((firstMet (by simp [Phrase.Ends, Phrase.grasps]) depth).weaken fun excused => ?_)
      ((moreMet ends depth bound fits).weaken fun excused => ?_) <;>
      simp only [Expr.heights] <;> omega
  | @list tokens mid rest expr exprs first more firstMet moreMet =>
    refine .list ((firstMet (items_end more ends expr) depth).weaken fun excused => ?_)
      ((moreMet ends depth mid.length (Nat.le_refl _)).weaken fun excused => ?_) <;>
      simp only [Expr.heights] <;> omega
  | noItems =>
    intro bound _
    refine .items_nil (fun token isFirst => ?_) bound
    have free := ends token isFirst
    simp_all [Phrase.grasps]
  | @items comma tokens mid rest expr exprs divides first more firstMet moreMet =>
    intro bound room
    obtain ⟨bound, rfl, fits⟩ := room_after (Nat.lt_succ_of_le first.suffix.length_le) room
    refine .items_cons divides ((firstMet (items_end more ends expr) depth).weaken fun excused => ?_)
      ((moreMet ends depth bound fits).weaken fun excused => ?_) <;>
      simp only [Expr.heights] <;> omega
  | noCells =>
    intro bound _
    exact .cells_nil (fun token isFirst => by simpa [Phrase.grasps] using ends token isFirst) bound
  | @cell comma tokens mid rest cell row rows divides first more firstMet moreMet =>
    intro bound room
    obtain ⟨bound, rfl, fits⟩ := room_after (Nat.lt_succ_of_le first.suffix.length_le) room
    refine .cell divides ((firstMet (cells_end more ends cell) depth).weaken fun excused => ?_)
      ((moreMet ends depth bound fits).weaken fun excused => ?_) <;>
      simp only [Expr.heights] <;> omega
  | @row semicolon tokens mid rest cell row rows divides first more firstMet moreMet =>
    intro bound room
    obtain ⟨bound, rfl, fits⟩ := room_after (Nat.lt_succ_of_le first.suffix.length_le) room
    refine .row divides ((firstMet (cells_end more ends cell) depth).weaken fun excused => ?_)
      ((moreMet ends depth bound fits).weaken fun excused => ?_) <;>
      simp only [Expr.heights, Expr.rowHeights] <;> omega

/-- The bound on nesting cuts the reading off, which is noted. -/
def BreaksOff (depth : Nat) (tokens : List Token) : Prop :=
  ⟨.tooDeep, none⟩ ∈ (readAll depth tokens).2.noted

theorem parseWithin_of_derives {tokens : List Token} {expr : Expr}
    (derived : Derives tokens [] (.expression expr)) (depth : Nat) :
    parseWithin depth tokens = .ok expr ∨ depth < expr.height ∧ BreaksOff depth tokens := by
  have met : Meets (depth < expr.height) (layer depth).expression tokens expr [] :=
    derived.met (by simp [Phrase.Ends]) depth
  rcases met [] with run | ⟨excused, stop, ⟨rest, noted⟩, run⟩
  next =>
    left
    simp [parseWithin, readAll, run, verdict]
  next =>
    right
    refine ⟨excused, ?_⟩
    simp [BreaksOff, readAll, run]

end FormulaCalculator.Grammar
