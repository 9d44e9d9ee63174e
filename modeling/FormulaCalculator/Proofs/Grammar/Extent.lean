import FormulaCalculator.Proofs.Grammar.Completeness

set_option autoImplicit false

namespace FormulaCalculator.Grammar

def IsQuotient (token : Token) : Prop := token.kind = .command ∧ token.text = Expr.fraction

def QuotientsWhole (tokens : List Token) : Prop :=
  ∀ before command after, tokens = before ++ command :: after → IsQuotient command →
    ∃ above below rest numerator denominator, after = above ++ (below ++ rest) ∧
      Derives above [] (.group numerator) ∧ Derives below [] (.group denominator)

namespace QuotientsWhole

variable {first second tokens : List Token} {token : Token}

theorem nil : QuotientsWhole [] := by
  intro before command after split
  simp at split

theorem append (left : QuotientsWhole first) (right : QuotientsWhole second) :
    QuotientsWhole (first ++ second) := by
  intro before command after split isQuotient
  rcases List.append_eq_append_iff.1 split with ⟨between, -, same⟩ | ⟨between, inFirst, same⟩
  next => exact right between command after same isQuotient
  next =>
    cases between with
    | nil => exact right [] command after same.symm isQuotient
    | cons token more =>
      rw [List.cons_append] at same
      obtain ⟨rfl, rfl⟩ := List.cons.inj same
      obtain ⟨above, below, rest, numerator, denominator, rfl, isAbove, isBelow⟩ :=
        left before command more inFirst isQuotient
      exact ⟨above, below, rest ++ second, numerator, denominator, by simp, isAbove, isBelow⟩

theorem single (other : ¬ IsQuotient token) : QuotientsWhole [token] := by
  intro before command after split isQuotient
  cases before with
  | nil =>
    cases split
    exact absurd isQuotient other
  | cons first more => simp at split

theorem cons (other : ¬ IsQuotient token) (whole : QuotientsWhole tokens) :
    QuotientsWhole (token :: tokens) :=
  (single other).append whole

end QuotientsWhole

theorem not_isQuotient {token : Token} {kind : Kind} (same : token.kind = kind)
    (other : kind ≠ .command) : ¬ IsQuotient token :=
  fun isQuotient => other (same ▸ isQuotient.1)

-- These tokens are the phrase, whatever follows them.
structure Makes (tokens : List Token) (phrase : Phrase) : Prop where
  derives : ∀ rest, Derives (tokens ++ rest) rest phrase
  whole : QuotientsWhole tokens

namespace Makes

variable {tokens more : List Token} {left right op command : Token} {level : Level} {loose : Bool}
  {expr lhs rhs first : Expr} {exprs others : List Expr} {rows : List (List Expr)}

theorem alone {phrase : Phrase} (makes : Makes tokens phrase) : Derives tokens [] phrase := by
  have derived := makes.derives []
  rwa [List.append_nil] at derived

theorem ne_nil (makes : Makes tokens (.primary loose expr)) : tokens ≠ [] := by
  rintro rfl
  have opens := makes.alone.opens
  simp [Phrase.Opens] at opens

theorem expression (chain : Makes tokens (.chain .relation expr)) (kept : expr.isEquation = false) :
    Makes tokens (.expression expr) :=
  ⟨fun rest => .expression (chain.derives rest) kept, chain.whole⟩

theorem assignment {name : String}
    (chain : Makes tokens (.chain .relation (.compare "=" (.ident name) rhs))) :
    Makes tokens (.expression (.assign (.ident name) rhs)) :=
  ⟨fun rest => .assignment (chain.derives rest), chain.whole⟩

theorem chain (operand : Makes tokens (level.operand first))
    (links : Makes more (.links level first expr)) : Makes (tokens ++ more) (.chain level expr) := by
  refine ⟨fun rest => ?_, operand.whole.append links.whole⟩
  rw [List.append_assoc]
  exact .chain (operand.derives _) (links.derives rest)

theorem unlinked : Makes [] (.links level expr expr) := ⟨fun _ => .unlinked, .nil⟩

theorem link (joins : level.operators op.kind = true) (operand : Makes tokens (level.operand rhs))
    (links : Makes more (.links level (level.join op.text lhs rhs) expr)) :
    Makes (op :: (tokens ++ more)) (.links level lhs expr) := by
  have other : op.kind ≠ .command := by
    intro same
    rw [same] at joins
    cases level <;> cases joins
  refine ⟨fun rest => ?_, .cons (not_isQuotient rfl other) (operand.whole.append links.whole)⟩
  rw [List.cons_append, List.append_assoc]
  exact .link joins (operand.derives _) (links.derives rest)

theorem base (primary : Makes tokens (.primary loose expr)) : Makes tokens (.exponent expr) :=
  ⟨fun rest => .base (primary.derives rest), primary.whole⟩

theorem power (primary : Makes tokens (.primary false lhs)) (raises : op.kind = .power)
    (exponent : Makes more (.exponent rhs)) :
    Makes (tokens ++ op :: more) (.exponent (.arith "^" lhs rhs)) := by
  refine ⟨fun rest => ?_, primary.whole.append (.cons (not_isQuotient raises nofun) exponent.whole)⟩
  rw [List.append_assoc]
  exact .power (primary.derives _) raises (exponent.derives rest)

theorem number (isNumber : op.kind = .number) : Makes [op] (.primary false (.number op.text)) :=
  ⟨fun _ => .number isNumber, .single (not_isQuotient isNumber nofun)⟩

theorem ident (isIdent : op.kind = .identifier) : Makes [op] (.primary false (.ident op.text)) :=
  ⟨fun _ => .ident isIdent, .single (not_isQuotient isIdent nofun)⟩

theorem sign (isSign : op.kind.isSign = true) (exponent : Makes tokens (.exponent expr)) :
    Makes (op :: tokens) (.primary true (.sign op.text expr)) := by
  have other : op.kind ≠ .command := by
    intro same
    rw [same] at isSign
    cases isSign
  exact ⟨fun rest => .sign isSign (exponent.derives rest),
    .cons (not_isQuotient rfl other) exponent.whole⟩

theorem whole_enclosed {opening closing : Kind} (opens : left.kind = opening)
    (closes : right.kind = closing) (whole : QuotientsWhole tokens) (apart : opening ≠ .command)
    (also : closing ≠ .command) : QuotientsWhole (left :: (tokens ++ [right])) :=
  .cons (not_isQuotient opens apart) (whole.append (.single (not_isQuotient closes also)))

theorem paren (opens : left.kind = .leftParen) (inside : Makes tokens (.expression expr))
    (closes : right.kind = .rightParen) :
    Makes (left :: (tokens ++ [right])) (.primary false (.paren expr)) := by
  refine ⟨fun rest => ?_, whole_enclosed opens closes inside.whole nofun nofun⟩
  rw [List.cons_append, List.append_assoc]
  exact .paren opens (inside.derives _) closes

theorem emptyArray (opens : left.kind = .leftBracket) (closes : right.kind = .rightBracket) :
    Makes [left, right] (.primary false (.array [])) :=
  ⟨fun _ => .emptyArray opens closes, whole_enclosed opens closes .nil nofun nofun⟩

theorem array (opens : left.kind = .leftBracket) (inside : Makes tokens (.list exprs))
    (closes : right.kind = .rightBracket) :
    Makes (left :: (tokens ++ [right])) (.primary false (.array exprs)) := by
  refine ⟨fun rest => ?_, whole_enclosed opens closes inside.whole nofun nofun⟩
  rw [List.cons_append, List.append_assoc]
  exact .array opens (inside.derives _) closes

theorem emptyMatrix (opens : left.kind = .leftBrace) (closes : right.kind = .rightBrace) :
    Makes [left, right] (.primary false (.matrix [])) :=
  ⟨fun _ => .emptyMatrix opens closes, whole_enclosed opens closes .nil nofun nofun⟩

theorem matrix (opens : left.kind = .leftBrace) (cell : Makes tokens (.expression expr))
    (cells : Makes more (.cells others rows)) (closes : right.kind = .rightBrace) :
    Makes (left :: (tokens ++ (more ++ [right])))
      (.primary false (.matrix ((expr :: others) :: rows))) := by
  constructor
  case derives =>
    intro rest
    rw [List.cons_append, List.append_assoc, List.append_assoc]
    exact .matrix opens (cell.derives _) (cells.derives _) closes
  case whole =>
    rw [← List.append_assoc]
    exact whole_enclosed opens closes (cell.whole.append cells.whole) nofun nofun

theorem fraction (isQuotient : IsQuotient command) (above : Makes tokens (.group lhs))
    (below : Makes more (.group rhs)) :
    Makes (command :: (tokens ++ more)) (.primary false (.call Expr.fraction [lhs, rhs])) := by
  constructor
  case derives =>
    intro rest
    rw [List.cons_append, List.append_assoc]
    exact .fraction isQuotient.1 isQuotient.2 (above.derives _) (below.derives rest)
  case whole =>
    intro before other after split also
    cases before with
    | nil =>
      obtain ⟨rfl, rfl⟩ := List.cons.inj split
      exact ⟨tokens, more, [], lhs, rhs, by simp, above.alone, below.alone⟩
    | cons token before =>
      exact (above.whole.append below.whole) before other after (List.cons.inj split).2 also

variable (isCommand : command.kind = .command) (named : command.text ≠ Expr.fraction)

include isCommand named

theorem callGroups (group : Makes tokens (.group expr)) (groups : Makes more (.groups exprs)) :
    Makes (command :: (tokens ++ more)) (.primary false (.call command.text (expr :: exprs))) := by
  refine ⟨fun rest => ?_, .cons (fun isQuotient => named isQuotient.2) (group.whole.append groups.whole)⟩
  rw [List.cons_append, List.append_assoc]
  exact .callGroups isCommand named (group.derives _) (groups.derives rest)

theorem callEmpty (opens : left.kind = .leftParen) (closes : right.kind = .rightParen) :
    Makes [command, left, right] (.primary false (.call command.text [])) :=
  ⟨fun _ => .callEmpty isCommand named opens closes,
    .cons (fun isQuotient => named isQuotient.2) (whole_enclosed opens closes .nil nofun nofun)⟩

theorem callList (opens : left.kind = .leftParen) (inside : Makes tokens (.list exprs))
    (closes : right.kind = .rightParen) :
    Makes (command :: left :: (tokens ++ [right])) (.primary false (.call command.text exprs)) := by
  refine ⟨fun rest => ?_, .cons (fun isQuotient => named isQuotient.2)
    (whole_enclosed opens closes inside.whole nofun nofun)⟩
  rw [List.cons_append, List.cons_append, List.append_assoc]
  exact .callList isCommand named opens (inside.derives _) closes

theorem callBare (bare : ∀ token ∈ tokens.head?, token.kind ≠ .leftBrace ∧ token.kind ≠ .leftParen)
    (primary : Makes tokens (.primary loose expr)) :
    Makes (command :: tokens) (.primary loose (.call command.text [expr])) := by
  refine ⟨fun rest => .callBare isCommand named ?_ (primary.derives rest),
    .cons (fun isQuotient => named isQuotient.2) primary.whole⟩
  -- A primary has a first token, which is none of those that follow.
  cases tokens with
  | nil => exact absurd rfl primary.ne_nil
  | cons first more => exact bare

omit isCommand named

theorem group (opens : left.kind = .leftBrace) (inside : Makes tokens (.expression expr))
    (closes : right.kind = .rightBrace) : Makes (left :: (tokens ++ [right])) (.group expr) := by
  refine ⟨fun rest => ?_, whole_enclosed opens closes inside.whole nofun nofun⟩
  rw [List.cons_append, List.append_assoc]
  exact .group opens (inside.derives _) closes

theorem noGroups : Makes [] (.groups []) := ⟨fun _ => .noGroups, .nil⟩

theorem groups (group : Makes tokens (.group expr)) (groups : Makes more (.groups exprs)) :
    Makes (tokens ++ more) (.groups (expr :: exprs)) := by
  refine ⟨fun rest => ?_, group.whole.append groups.whole⟩
  rw [List.append_assoc]
  exact .groups (group.derives _) (groups.derives rest)

theorem list (item : Makes tokens (.expression expr)) (items : Makes more (.items exprs)) :
    Makes (tokens ++ more) (.list (expr :: exprs)) := by
  refine ⟨fun rest => ?_, item.whole.append items.whole⟩
  rw [List.append_assoc]
  exact .list (item.derives _) (items.derives rest)

theorem noItems : Makes [] (.items []) := ⟨fun _ => .noItems, .nil⟩

theorem items (divides : op.kind = .comma) (item : Makes tokens (.expression expr))
    (items : Makes more (.items exprs)) : Makes (op :: (tokens ++ more)) (.items (expr :: exprs)) := by
  refine ⟨fun rest => ?_, .cons (not_isQuotient divides nofun) (item.whole.append items.whole)⟩
  rw [List.cons_append, List.append_assoc]
  exact .items divides (item.derives _) (items.derives rest)

theorem noCells : Makes [] (.cells [] []) := ⟨fun _ => .noCells, .nil⟩

theorem cell (divides : op.kind = .comma) (cell : Makes tokens (.expression expr))
    (cells : Makes more (.cells others rows)) :
    Makes (op :: (tokens ++ more)) (.cells (expr :: others) rows) := by
  refine ⟨fun rest => ?_, .cons (not_isQuotient divides nofun) (cell.whole.append cells.whole)⟩
  rw [List.cons_append, List.append_assoc]
  exact .cell divides (cell.derives _) (cells.derives rest)

theorem row (divides : op.kind = .semicolon) (cell : Makes tokens (.expression expr))
    (cells : Makes more (.cells others rows)) :
    Makes (op :: (tokens ++ more)) (.cells [] ((expr :: others) :: rows)) := by
  refine ⟨fun rest => ?_, .cons (not_isQuotient divides nofun) (cell.whole.append cells.whole)⟩
  rw [List.cons_append, List.append_assoc]
  exact .row divides (cell.derives _) (cells.derives rest)

end Makes

theorem Derives.extent {tokens rest : List Token} {phrase : Phrase}
    (derived : Derives tokens rest phrase) :
    ∃ used, tokens = used ++ rest ∧ Makes used phrase := by
  -- Each production puts together the tokens of its parts, in the order in which they stand.
  induction derived with
  | expression _ kept ih =>
    obtain ⟨used, rfl, chain⟩ := ih
    exact ⟨used, rfl, chain.expression kept⟩
  | assignment _ ih =>
    obtain ⟨used, rfl, chain⟩ := ih
    exact ⟨used, rfl, chain.assignment⟩
  | chain _ _ first more =>
    obtain ⟨used, rfl, operand⟩ := first
    obtain ⟨after, rfl, links⟩ := more
    exact ⟨used ++ after, by simp, operand.chain links⟩
  | unlinked => exact ⟨[], rfl, .unlinked⟩
  | link joins _ _ first more =>
    obtain ⟨used, rfl, operand⟩ := first
    obtain ⟨after, rfl, links⟩ := more
    exact ⟨_ :: (used ++ after), by simp, .link joins operand links⟩
  | base _ ih =>
    obtain ⟨used, rfl, primary⟩ := ih
    exact ⟨used, rfl, primary.base⟩
  | power _ raises _ first more =>
    obtain ⟨used, rfl, primary⟩ := first
    obtain ⟨after, rfl, exponent⟩ := more
    exact ⟨used ++ _ :: after, by simp, primary.power raises exponent⟩
  | number isNumber => exact ⟨[_], rfl, .number isNumber⟩
  | ident isIdent => exact ⟨[_], rfl, .ident isIdent⟩
  | sign isSign _ ih =>
    obtain ⟨used, rfl, exponent⟩ := ih
    exact ⟨_ :: used, rfl, .sign isSign exponent⟩
  | @paren left right _ _ _ opens _ closes ih =>
    obtain ⟨used, rfl, inside⟩ := ih
    exact ⟨left :: (used ++ [right]), by simp, .paren opens inside closes⟩
  | @emptyArray left right _ opens closes => exact ⟨[left, right], rfl, .emptyArray opens closes⟩
  | @array left right _ _ _ opens _ closes ih =>
    obtain ⟨used, rfl, inside⟩ := ih
    exact ⟨left :: (used ++ [right]), by simp, .array opens inside closes⟩
  | @emptyMatrix left right _ opens closes => exact ⟨[left, right], rfl, .emptyMatrix opens closes⟩
  | @matrix left right _ _ _ _ _ _ opens _ _ closes first more =>
    obtain ⟨used, rfl, cell⟩ := first
    obtain ⟨after, rfl, cells⟩ := more
    exact ⟨left :: (used ++ (after ++ [right])), by simp, .matrix opens cell cells closes⟩
  | fraction isCommand named _ _ first more =>
    obtain ⟨used, rfl, above⟩ := first
    obtain ⟨after, rfl, below⟩ := more
    exact ⟨_ :: (used ++ after), by simp, .fraction ⟨isCommand, named⟩ above below⟩
  | callGroups isCommand named _ _ first more =>
    obtain ⟨used, rfl, group⟩ := first
    obtain ⟨after, rfl, groups⟩ := more
    exact ⟨_ :: (used ++ after), by simp, .callGroups isCommand named group groups⟩
  | @callEmpty command left right _ isCommand named opens closes =>
    exact ⟨[command, left, right], rfl, .callEmpty isCommand named opens closes⟩
  | @callList command left right _ _ _ isCommand named opens _ closes ih =>
    obtain ⟨used, rfl, inside⟩ := ih
    exact ⟨command :: left :: (used ++ [right]), by simp,
      .callList isCommand named opens inside closes⟩
  | callBare isCommand named bare _ ih =>
    obtain ⟨used, rfl, primary⟩ := ih
    refine ⟨_ :: used, rfl, .callBare isCommand named ?_ primary⟩
    cases used with
    | nil => exact nofun
    | cons first more => exact bare
  | @group left right _ _ _ opens _ closes ih =>
    obtain ⟨used, rfl, inside⟩ := ih
    exact ⟨left :: (used ++ [right]), by simp, .group opens inside closes⟩
  | noGroups => exact ⟨[], rfl, .noGroups⟩
  | groups _ _ first more =>
    obtain ⟨used, rfl, group⟩ := first
    obtain ⟨after, rfl, groups⟩ := more
    exact ⟨used ++ after, by simp, group.groups groups⟩
  | list _ _ first more =>
    obtain ⟨used, rfl, item⟩ := first
    obtain ⟨after, rfl, items⟩ := more
    exact ⟨used ++ after, by simp, item.list items⟩
  | noItems => exact ⟨[], rfl, .noItems⟩
  | items divides _ _ first more =>
    obtain ⟨used, rfl, item⟩ := first
    obtain ⟨after, rfl, items⟩ := more
    exact ⟨_ :: (used ++ after), by simp, .items divides item items⟩
  | noCells => exact ⟨[], rfl, .noCells⟩
  | cell divides _ _ first more =>
    obtain ⟨used, rfl, cell⟩ := first
    obtain ⟨after, rfl, cells⟩ := more
    exact ⟨_ :: (used ++ after), by simp, .cell divides cell cells⟩
  | row divides _ _ first more =>
    obtain ⟨used, rfl, cell⟩ := first
    obtain ⟨after, rfl, cells⟩ := more
    exact ⟨_ :: (used ++ after), by simp, .row divides cell cells⟩

theorem Derives.makes {tokens : List Token} {phrase : Phrase} (derived : Derives tokens [] phrase) :
    Makes tokens phrase := by
  obtain ⟨used, rfl, makes⟩ := derived.extent
  rwa [List.append_nil]

theorem Derives.makes_front {used rest : List Token} {phrase : Phrase}
    (derived : Derives (used ++ rest) rest phrase) : Makes used phrase := by
  obtain ⟨also, same, makes⟩ := derived.extent
  rwa [List.append_cancel_right same]

theorem group_unique {tokens rest other : List Token} {expr also : Expr}
    (group : Derives tokens rest (.group expr)) (again : Derives tokens other (.group also)) :
    rest = other := by
  -- Both derivations are what the one rule for groups reads, and nothing behind the closing brace is
  -- looked at.
  have free (rest : List Token) (expr : Expr) : (Phrase.group expr).Ends rest :=
    fun _ _ => rfl
  have first := group.met (free rest expr) (max expr.height also.height) []
  have second := again.met (free other also) (max expr.height also.height) []
  rcases first with run | ⟨excused, -⟩
  next =>
    rcases second with same | ⟨excused, -⟩
    next =>
      rw [run] at same
      exact congrArg (fun result : Except Stop Expr × Cursor => result.2.rest) same
    next => omega
  next => omega

/-- The tokens end in a quotient command that still lacks one of its groups. -/
def AwaitsGroup (command : Token) (tokens : List Token) : Prop :=
  ∃ before groups, tokens = before ++ command :: groups ∧ IsQuotient command ∧
    (groups = [] ∨ ∃ expr, Derives groups [] (.group expr))

namespace AwaitsGroup

variable {command other : Token} {tokens more : List Token}

theorem next (awaits : AwaitsGroup command tokens) (whole : QuotientsWhole (tokens ++ more)) :
    more.head?.any (·.kind == .leftBrace) = true := by
  obtain ⟨before, groups, rfl, isQuotient, present⟩ := awaits
  obtain ⟨above, below, rest, numerator, denominator, same, isAbove, isBelow⟩ :=
    whole before command (groups ++ more) (by simp) isQuotient
  have opens {group : List Token} {expr : Expr} (derived : Derives group [] (.group expr))
      (after : List Token) : (group ++ after).head?.any (·.kind == .leftBrace) = true := by
    have first : group.head?.any (·.kind == .leftBrace) = true := derived.opens
    cases group with
    | nil => simp at first
    | cons token _ => exact first
  rcases present with rfl | ⟨expr, group⟩
  next =>
    rw [List.nil_append] at same
    rw [same]
    exact opens isAbove _
  next =>
    -- The group that is there is the numerator, so the denominator is what comes next.
    have here := isAbove.makes.derives (below ++ rest)
    rw [← same] at here
    rw [group_unique (group.makes.derives more) here]
    exact opens isBelow rest

theorem absurd_whole (awaits : AwaitsGroup command tokens) (whole : QuotientsWhole tokens) : False := by
  have brace := @next command tokens [] awaits (by rwa [List.append_nil])
  cases brace

theorem unique (awaits : AwaitsGroup command tokens) (also : AwaitsGroup other tokens) :
    command = other := by
  -- Where two commands stood apart, the second would be inside a group of the first.
  have apart {first second : Token} {between groups inner : List Token}
      (same : first :: groups = between ++ second :: inner) (isQuotient : IsQuotient second)
      (last : inner = [] ∨ ∃ expr, Derives inner [] (.group expr))
      (present : groups = [] ∨ ∃ expr, Derives groups [] (.group expr)) : first = second := by
    cases between with
    | nil => exact (List.cons.inj same).1
    | cons token between =>
      obtain ⟨rfl, rfl⟩ := List.cons.inj same
      have awaits : AwaitsGroup second (between ++ second :: inner) :=
        ⟨between, inner, rfl, isQuotient, last⟩
      rcases present with absent | ⟨expr, group⟩
      next => simp at absent
      next => exact (awaits.absurd_whole group.makes.whole).elim
  obtain ⟨before, groups, rfl, isQuotient, present⟩ := awaits
  obtain ⟨front, others, same, alsoQuotient, alsoPresent⟩ := also
  rcases List.append_eq_append_iff.1 same with ⟨between, -, rest⟩ | ⟨between, -, rest⟩
  next => exact apart rest alsoQuotient alsoPresent present
  next => exact (apart rest isQuotient present alsoPresent).symm

end AwaitsGroup

end FormulaCalculator.Grammar
