import FormulaCalculator.Proofs.Expr.Regular
import FormulaCalculator.Proofs.Grammar.Derivation
import FormulaCalculator.Proofs.Token.Pieces

set_option autoImplicit false

namespace FormulaCalculator

def Kind.isOperator (kind : Kind) : Bool :=
  kind.isSign || kind.isFactor || kind.isRelation || kind == .power

namespace Grammar

theorem Level.isOperator {level : Level} {kind : Kind} (operates : level.operators kind = true) :
    kind.isOperator = true := by
  cases level <;> simp_all [operators, Kind.isOperator]

open Token (Carries carries_nil carries_blank carries_cons carries_append)

def Level.marks : Level → List String
  | relation => Expr.relations
  | sum => Expr.signs
  | product => Expr.factors

theorem Level.kind_of_mark {level : Level} {op : String} (joins : op ∈ level.marks) :
    ∃ kind : Kind, kind.spelling? = some op ∧ level.operators kind = true := by
  cases level with
  | relation =>
    simp only [marks, Expr.relations, List.mem_cons, List.not_mem_nil, or_false] at joins
    rcases joins with rfl | rfl | rfl | rfl | rfl | rfl
    · exact ⟨.equals, rfl, rfl⟩
    · exact ⟨.lessThan, rfl, rfl⟩
    · exact ⟨.greaterThan, rfl, rfl⟩
    · exact ⟨.lessEqual, rfl, rfl⟩
    · exact ⟨.greaterEqual, rfl, rfl⟩
    · exact ⟨.notEqual, rfl, rfl⟩
  | sum =>
    simp only [marks, Expr.signs, List.mem_cons, List.not_mem_nil, or_false] at joins
    rcases joins with rfl | rfl
    · exact ⟨.plus, rfl, rfl⟩
    · exact ⟨.minus, rfl, rfl⟩
  | product =>
    simp only [marks, Expr.factors, List.mem_cons, List.not_mem_nil, or_false] at joins
    rcases joins with rfl | rfl
    · exact ⟨.multiply, rfl, rfl⟩
    · exact ⟨.divide, rfl, rfl⟩

theorem Level.mark_of_kind {level : Level} {kind : Kind} {op : String} (spells : kind.Spells op)
    (joins : level.operators kind = true) : op ∈ level.marks := by
  cases level <;> cases kind <;> cases joins <;>
    (cases (Kind.spells_iff_of_spelling rfl op).1 spells; decide)

def Spans (pieces : List String) (phrase : Phrase) : Prop :=
  ∀ tokens rest, Carries tokens pieces → Derives (tokens ++ rest) rest phrase

theorem carries_mark {kind : Kind} {mark : String} (fixed : kind.spelling? = some mark)
    {tokens : List Token} {pieces : List String} (carries : Carries tokens (mark :: pieces)) :
    ∃ token more, tokens = token :: more ∧ token.kind = kind ∧ token.text = mark ∧
      Carries more pieces :=
  (carries_cons ((Kind.spells_iff_of_spelling fixed mark).2 rfl)).1 carries

theorem carries_enclosed {opening closing : Kind} {first last : String}
    (opens : opening.spelling? = some first) (closes : closing.spelling? = some last)
    {tokens : List Token} {pieces : List String} (carries : Carries tokens (first :: pieces ++ [last])) :
    ∃ left inner right, tokens = left :: (inner ++ [right]) ∧ left.kind = opening ∧
      right.kind = closing ∧ Carries inner pieces := by
  obtain ⟨left, more, rfl, isOpening, -, after⟩ := carries_mark opens carries
  obtain ⟨inner, ended, rfl, carriesInner, carriesEnded⟩ := carries_append.1 after
  obtain ⟨right, nothing, rfl, isClosing, -, empty⟩ := carries_mark closes carriesEnded
  rw [carries_nil.1 empty]
  exact ⟨left, inner, right, rfl, isOpening, isClosing, carriesInner⟩

theorem Derives.linked {level : Level} {op : Token} {tokens mid rest : List Token}
    {lhs rhs first : Expr} (links : Derives tokens (op :: mid) (.links level first lhs))
    (joins : level.operators op.kind = true) (operand : Derives mid rest (level.operand rhs)) :
    Derives tokens rest (.links level first (level.join op.text lhs rhs)) := by
  generalize after : op :: mid = right at links
  generalize same : Phrase.links level first lhs = phrase at links
  induction links generalizing first with
  | unlinked =>
    cases same
    subst after
    exact .link joins operand .unlinked
  | link joinsFirst operandFirst _ _ ih =>
    cases same
    exact .link joinsFirst operandFirst (ih after rfl)
  | _ => cases same

theorem Derives.extended {level : Level} {op : Token} {tokens mid rest : List Token} {lhs rhs : Expr}
    (chain : Derives tokens (op :: mid) (.chain level lhs)) (joins : level.operators op.kind = true)
    (operand : Derives mid rest (level.operand rhs)) :
    Derives tokens rest (.chain level (level.join op.text lhs rhs)) := by
  cases chain with
  | chain first links => exact .chain first (links.linked joins operand)

namespace Spans

variable {left right pieces : List String} {lhs rhs expr : Expr}

theorem blank {phrase : Phrase} (inside : Spans pieces phrase) : Spans ("" :: pieces) phrase :=
  fun tokens rest carries => inside tokens rest (carries_blank.1 carries)

theorem number {text : String} (spells : Kind.number.Spells text) :
    Spans [text] (.primary false (.number text)) := by
  intro tokens rest carries
  obtain ⟨token, more, rfl, isNumber, rfl, ended⟩ := (carries_cons spells).1 carries
  rw [carries_nil.1 ended]
  exact .number isNumber

theorem ident {name : String} (spells : Kind.identifier.Spells name) :
    Spans [name] (.primary false (.ident name)) := by
  intro tokens rest carries
  obtain ⟨token, more, rfl, isIdent, rfl, ended⟩ := (carries_cons spells).1 carries
  rw [carries_nil.1 ended]
  exact .ident isIdent

theorem sign {op : String} (isSign : op ∈ Expr.signs) (operand : Spans pieces (.exponent expr)) :
    Spans (op :: pieces) (.primary true (.sign op expr)) := by
  intro tokens rest carries
  obtain ⟨kind, fixed, signed⟩ := @Level.kind_of_mark .sum op isSign
  obtain ⟨token, more, rfl, rfl, rfl, after⟩ := carries_mark fixed carries
  exact .sign signed (operand more rest after)

theorem first {level : Level} (operand : Spans pieces (level.operand expr)) :
    Spans pieces (.chain level expr) :=
  fun tokens rest carries => .chain (operand tokens rest carries) .unlinked

theorem link {level : Level} {op : String} (joins : op ∈ level.marks)
    (chain : Spans left (.chain level lhs)) (operand : Spans right (level.operand rhs)) :
    Spans (left ++ op :: right) (.chain level (level.join op lhs rhs)) := by
  intro tokens rest carries
  obtain ⟨before, after, rfl, carriesLeft, carriesAfter⟩ := carries_append.1 carries
  obtain ⟨kind, fixed, isOperator⟩ := Level.kind_of_mark joins
  obtain ⟨token, more, rfl, rfl, rfl, carriesRight⟩ := carries_mark fixed carriesAfter
  rw [List.append_assoc]
  exact (chain before _ carriesLeft).extended isOperator (operand more rest carriesRight)

theorem base {loose : Bool} (primary : Spans pieces (.primary loose expr)) :
    Spans pieces (.exponent expr) :=
  fun tokens rest carries => .base (primary tokens rest carries)

theorem power (primary : Spans left (.primary false lhs)) (exponent : Spans right (.exponent rhs)) :
    Spans (left ++ "^" :: right) (.exponent (.arith "^" lhs rhs)) := by
  intro tokens rest carries
  obtain ⟨before, after, rfl, carriesLeft, carriesAfter⟩ := carries_append.1 carries
  obtain ⟨token, more, rfl, raises, -, carriesRight⟩ := @carries_mark .power _ rfl _ _ carriesAfter
  rw [List.append_assoc]
  exact .power (primary before _ carriesLeft) raises (exponent more rest carriesRight)

theorem expression (chain : Spans pieces (.chain .relation expr)) (kept : expr.isEquation = false) :
    Spans pieces (.expression expr) :=
  fun tokens rest carries => .expression (chain tokens rest carries) kept

theorem assignment {name : String} (spells : Kind.identifier.Spells name)
    (sum : Spans right (.chain .sum rhs)) :
    Spans (name :: "=" :: right) (.expression (.assign (.ident name) rhs)) := by
  have product : Spans [name] (.chain .product (.ident name)) := first (base (ident spells))
  have left : Spans [name] (.chain .relation (.ident name)) := first (first product)
  have whole := link (by decide : "=" ∈ Level.relation.marks) left sum
  exact fun tokens rest carries => .assignment (whole tokens rest carries)

theorem paren (inside : Spans pieces (.expression expr)) :
    Spans ("(" :: pieces ++ [")"]) (.primary false (.paren expr)) := by
  intro tokens rest carries
  obtain ⟨left, inner, right, rfl, opens, closes, carriesInner⟩ :=
    @carries_enclosed .leftParen .rightParen _ _ rfl rfl _ _ carries
  rw [List.cons_append, List.append_assoc]
  exact .paren opens (inside inner _ carriesInner) closes

theorem group (inside : Spans pieces (.expression expr)) :
    Spans ("\x7b" :: pieces ++ ["\x7d"]) (.group expr) := by
  intro tokens rest carries
  obtain ⟨left, inner, right, rfl, opens, closes, carriesInner⟩ :=
    @carries_enclosed .leftBrace .rightBrace _ _ rfl rfl _ _ carries
  rw [List.cons_append, List.append_assoc]
  exact .group opens (inside inner _ carriesInner) closes

theorem fraction (above : Spans left (.group lhs)) (below : Spans right (.group rhs)) :
    Spans (Expr.fraction :: (left ++ right)) (.primary false (.call Expr.fraction [lhs, rhs])) := by
  intro tokens rest carries
  have spells : Kind.command.Spells Expr.fraction := by decide
  obtain ⟨command, more, rfl, isCommand, named, after⟩ := (carries_cons spells).1 carries
  obtain ⟨first, second, rfl, carriesAbove, carriesBelow⟩ := carries_append.1 after
  rw [List.cons_append, List.append_assoc]
  exact .fraction isCommand named (above first _ carriesAbove) (below second rest carriesBelow)

end Spans

def listed (mark : String) : List (List String) → List String
  | [] => []
  | first :: more => first ++ more.flatMap (mark :: ·)

theorem commaJoined_eq_listed (lists : List (List String)) :
    Expr.commaJoined lists = listed "," lists := by
  induction lists with
  | nil => rfl
  | cons first more ih =>
    cases more with
    | nil => simp [Expr.commaJoined, listed]
    | cons second more => simp [Expr.commaJoined, listed, ih]

namespace Spans

variable {α : Type} {write : α → List String} {read : α → Expr} {item : α} {items : List α}

theorem afterCommas (each : ∀ item ∈ items, Spans (write item) (.expression (read item))) :
    Spans (items.flatMap fun item => "," :: write item) (.items (items.map read)) := by
  induction items with
  | nil =>
    intro tokens rest carries
    rw [carries_nil.1 carries]
    exact .noItems
  | cons item items ih =>
    intro tokens rest carries
    rw [List.flatMap_cons] at carries
    obtain ⟨comma, more, rfl, divides, -, after⟩ := @carries_mark .comma _ rfl _ _ carries
    obtain ⟨first, others, rfl, carriesFirst, carriesOthers⟩ := carries_append.1 after
    rw [List.cons_append, List.append_assoc]
    exact .items divides (each item (by simp) first _ carriesFirst)
      (ih (fun item inside => each item (by simp [inside])) others rest carriesOthers)

theorem list (each : ∀ other ∈ item :: items, Spans (write other) (.expression (read other))) :
    Spans (listed "," ((item :: items).map write)) (.list ((item :: items).map read)) := by
  intro tokens rest carries
  rw [List.map_cons, listed, List.flatMap_map] at carries
  obtain ⟨first, others, rfl, carriesFirst, carriesOthers⟩ := carries_append.1 carries
  rw [List.append_assoc]
  exact .list (each item (by simp) first _ carriesFirst)
    (afterCommas (fun other inside => each other (by simp [inside])) others rest carriesOthers)

theorem array (each : ∀ item ∈ items, Spans (write item) (.expression (read item))) :
    Spans ("[" :: listed "," (items.map write) ++ ["]"])
      (.primary false (.array (items.map read))) := by
  intro tokens rest carries
  obtain ⟨left, inner, right, rfl, opens, closes, carriesInner⟩ :=
    @carries_enclosed .leftBracket .rightBracket _ _ rfl rfl _ _ carries
  rw [List.cons_append, List.append_assoc]
  cases items with
  | nil =>
    rw [carries_nil.1 carriesInner]
    exact .emptyArray opens closes
  | cons item items => exact .array opens (list each inner _ carriesInner) closes

theorem call {name : String} (spells : Kind.command.Spells name) (named : name ≠ Expr.fraction)
    (each : ∀ item ∈ items, Spans (write item) (.expression (read item))) :
    Spans (name :: ("(" :: listed "," (items.map write) ++ [")"]))
      (.primary false (.call name (items.map read))) := by
  intro tokens rest carries
  obtain ⟨command, after, rfl, isCommand, rfl, carriesAfter⟩ := (carries_cons spells).1 carries
  obtain ⟨left, inner, right, rfl, opens, closes, carriesInner⟩ :=
    @carries_enclosed .leftParen .rightParen _ _ rfl rfl _ _ carriesAfter
  rw [List.cons_append, List.cons_append, List.append_assoc]
  cases items with
  | nil =>
    rw [carries_nil.1 carriesInner]
    exact .callEmpty isCommand named opens closes
  | cons item items => exact .callList isCommand named opens (list each inner _ carriesInner) closes

theorem row {after : List String} {grid : List (List Expr)}
    (each : ∀ item ∈ items, Spans (write item) (.expression (read item)))
    (more : Spans after (.cells [] grid)) :
    Spans ((items.flatMap fun item => "," :: write item) ++ after) (.cells (items.map read) grid) := by
  induction items with
  | nil => exact more
  | cons item items ih =>
    intro tokens rest carries
    rw [List.flatMap_cons, List.append_assoc] at carries
    obtain ⟨comma, next, rfl, divides, -, carriesNext⟩ := @carries_mark .comma _ rfl _ _ carries
    obtain ⟨first, others, rfl, carriesFirst, carriesOthers⟩ := carries_append.1 carriesNext
    rw [List.cons_append, List.append_assoc]
    exact .cell divides (each item (by simp) first _ carriesFirst)
      (ih (fun item inside => each item (by simp [inside])) others rest carriesOthers)

theorem rows {grid : List (List α)} (filled : ∀ row ∈ grid, row ≠ [])
    (each : ∀ row ∈ grid, ∀ item ∈ row, Spans (write item) (.expression (read item))) :
    Spans (grid.flatMap fun row => ";" :: listed "," (row.map write))
      (.cells [] (grid.map (·.map read))) := by
  induction grid with
  | nil =>
    intro tokens rest carries
    rw [carries_nil.1 carries]
    exact .noCells
  | cons cells grid ih =>
    obtain ⟨filledFirst, filledOthers⟩ := List.forall_mem_cons.1 filled
    obtain ⟨eachFirst, eachOther⟩ := List.forall_mem_cons.1 each
    cases cells with
    | nil => exact absurd rfl filledFirst
    | cons cell cells =>
      obtain ⟨firstCell, otherCells⟩ := List.forall_mem_cons.1 eachFirst
      have more := row otherCells (ih filledOthers eachOther)
      intro tokens rest carries
      rw [List.flatMap_cons, List.map_cons, listed, List.flatMap_map, List.cons_append,
        List.append_assoc] at carries
      obtain ⟨semicolon, after, rfl, divides, -, carriesAfter⟩ :=
        @carries_mark .semicolon _ rfl _ _ carries
      obtain ⟨first, last, rfl, carriesFirst, carriesLast⟩ := carries_append.1 carriesAfter
      rw [List.cons_append, List.append_assoc]
      exact .row divides (firstCell first _ carriesFirst) (more last rest carriesLast)

theorem matrix {grid : List (List α)} (filled : ∀ row ∈ grid, row ≠ [])
    (each : ∀ row ∈ grid, ∀ item ∈ row, Spans (write item) (.expression (read item))) :
    Spans ("\x7b" :: listed ";" (grid.map fun row => listed "," (row.map write)) ++ ["\x7d"])
      (.primary false (.matrix (grid.map (·.map read)))) := by
  intro tokens rest carries
  obtain ⟨left, inner, right, rfl, opens, closes, carriesInner⟩ :=
    @carries_enclosed .leftBrace .rightBrace _ _ rfl rfl _ _ carries
  rw [List.cons_append, List.append_assoc]
  cases grid with
  | nil =>
    rw [carries_nil.1 carriesInner]
    exact .emptyMatrix opens closes
  | cons cells grid =>
    obtain ⟨filledFirst, filledOthers⟩ := List.forall_mem_cons.1 filled
    obtain ⟨eachFirst, eachOther⟩ := List.forall_mem_cons.1 each
    cases cells with
    | nil => exact absurd rfl filledFirst
    | cons cell cells =>
      obtain ⟨firstCell, otherCells⟩ := List.forall_mem_cons.1 eachFirst
      have more := row otherCells (rows filledOthers eachOther)
      rw [List.map_cons, listed, List.map_cons, listed, List.flatMap_map, List.flatMap_map,
        List.append_assoc] at carriesInner
      obtain ⟨first, last, rfl, carriesFirst, carriesLast⟩ := carries_append.1 carriesInner
      rw [List.append_assoc]
      exact .matrix opens (firstCell first _ carriesFirst) (more last _ carriesLast) closes

end Spans

end Grammar

end FormulaCalculator
