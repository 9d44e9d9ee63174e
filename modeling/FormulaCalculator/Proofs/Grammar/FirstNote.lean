import FormulaCalculator.Proofs.Grammar.Lookahead

set_option autoImplicit false

namespace FormulaCalculator.Grammar

variable {α β : Type}

def samples : List Token := [Tracks.sample .leftBrace, Tracks.sample .number, Tracks.sample .rightBrace]

-- A note stands for the place after `used` that `better` would do for. It carries the token that is there,
-- except that a command carries the note for the brace of its group.
inductive Marks (first : Diagnostic) (used : List Token) (next : Option Token) (better : Token) :
    Prop where
  | here (carries : first.token = next) (bare : better.kind ≠ .leftBrace ∧ better.kind ≠ .leftParen)
  | group {command : Token} (awaits : AwaitsGroup command used) (carries : first.token = some command)

-- With other tokens from the marked place on, `used` would have become a `whole`.
def Broken (whole : List Token → Prop) (first : Diagnostic) (used mid : List Token) : Prop :=
  ∃ better more, whole (used ++ better :: more) ∧ Marks first used mid.head? better

theorem AwaitsGroup.after {command : Token} {tokens : List Token} (front : List Token)
    (awaits : AwaitsGroup command tokens) : AwaitsGroup command (front ++ tokens) := by
  obtain ⟨before, groups, rfl, isQuotient, present⟩ := awaits
  exact ⟨front ++ before, groups, by simp, isQuotient, present⟩

namespace Broken

variable {whole outer : List Token → Prop} {first : Diagnostic} {used mid : List Token}

theorem mono (broken : Broken whole first used mid) (wider : ∀ tokens, whole tokens → outer tokens) :
    Broken outer first used mid := by
  obtain ⟨better, more, completed, marks⟩ := broken
  exact ⟨better, more, wider _ completed, marks⟩

theorem within (broken : Broken whole first used mid)
    (closes : ∀ tokens, whole tokens → ∃ back, outer (tokens ++ back)) :
    Broken outer first used mid := by
  obtain ⟨better, more, completed, marks⟩ := broken
  obtain ⟨back, closed⟩ := closes _ completed
  exact ⟨better, more ++ back, by simpa using closed, marks⟩

theorem after (front : List Token)
    (broken : Broken (fun tokens => whole (front ++ tokens)) first used mid) :
    Broken whole first (front ++ used) mid := by
  obtain ⟨better, more, completed, marks⟩ := broken
  refine ⟨better, more, by simpa using completed, ?_⟩
  cases marks with
  | here carries bare => exact .here carries bare
  | group awaits carries => exact .group (awaits.after front) carries

theorem here {problem : Problem} {kind : Kind} {more tokens : List Token}
    (completed : whole (Tracks.sample kind :: more)) (bare : kind ≠ .leftBrace ∧ kind ≠ .leftParen) :
    Broken whole ⟨problem, tokens.head?⟩ [] tokens :=
  ⟨Tracks.sample kind, more, completed, .here rfl bare⟩

theorem awaiting {problem : Problem} {command : Token} (more : List Token)
    (awaits : AwaitsGroup command used) (completed : whole (used ++ (samples ++ more))) :
    Broken whole ⟨problem, some command⟩ used mid :=
  ⟨Tracks.sample .leftBrace, _, completed, .group awaits rfl⟩

end Broken

namespace Tracks

variable {size : Nat} {starts : Option Token → Prop} {whole inner : List Token → Prop}

theorem mono {step deeper : Reading α} (tracks : Tracks size starts step deeper (Broken inner))
    (wider : ∀ tokens, inner tokens → whole tokens) : Tracks size starts step deeper (Broken whole) :=
  tracks.weaken fun _ _ _ broken => broken.mono wider

theorem bindWhole {step deeper : Reading α} {next follow : α → Reading β}
    {meaning : List Token → α → List Token → Prop}
    (first : Tracks size starts step deeper (Broken inner)) (sound : Sound step meaning)
    (closes : ∀ tokens, inner tokens → ∃ back, whole (tokens ++ back))
    (after : ∀ given, Tracks size Anything (next given) (follow given)
      (Broken fun tokens =>
        ∀ front rest, meaning (front ++ rest) given rest → whole (front ++ tokens))) :
    Tracks size starts (step >>= next) (deeper >>= follow) (Broken whole) := by
  refine first.bind sound (fun _ _ _ _ broken => broken.within closes) fun given => ?_
  refine (after given).weaken fun diagnostic used mid broken front _ means => ?_
  exact (broken.mono fun tokens completes => completes front _ means).after front

theorem lastWhole {step deeper : Reading α} {change : α → β}
    (tracks : Tracks size starts step deeper (Broken inner))
    (closes : ∀ tokens, inner tokens → ∃ back, whole (tokens ++ back)) :
    Tracks size starts (step >>= fun value => Pure.pure (change value))
      (deeper >>= fun value => Pure.pure (change value)) (Broken whole) :=
  tracks.bind tracks.steady (fun _ _ _ _ broken => broken.within closes) fun _ => .pure _

theorem advanceWhole {token : Token} {next follow : Reading β}
    (first : ∀ next, starts next → next = some token)
    (after : Tracks size Anything next follow (Broken fun tokens => whole (token :: tokens))) :
    Tracks size starts (Grammar.advance >>= fun _ => next) (Grammar.advance >>= fun _ => follow)
      (Broken whole) :=
  bindAdvance first (after.weaken fun _ _ _ broken => broken.after [token])

theorem takeIfWhole {kinds : Kind → Bool} {next follow : Option Token → Reading β}
    (taken : ∀ token, kinds token.kind = true → Tracks size Anything (next (some token))
      (follow (some token)) (Broken fun tokens => whole (token :: tokens)))
    (left : Tracks size (fun next => next.all (!kinds ·.kind) = true ∧ starts next) (next none)
      (follow none) (Broken whole)) :
    Tracks size starts (Grammar.takeIf kinds >>= next) (Grammar.takeIf kinds >>= follow)
      (Broken whole) := by
  refine bindTakeIf (fun token wanted => ?_) left
  exact (taken token wanted).weaken fun _ _ _ broken => broken.after [token]

theorem requireWhole {kind : Kind} {next follow : Reading β} (more : List Token)
    (completed : whole (sample kind :: more)) (bare : kind ≠ .leftBrace ∧ kind ≠ .leftParen)
    (after : ∀ token : Token, token.kind = kind →
      Tracks size Anything next follow (Broken fun tokens => whole (token :: tokens))) :
    Tracks size starts (Grammar.require kind >>= fun _ => next)
      (Grammar.require kind >>= fun _ => follow) (Broken whole) :=
  bindRequire (fun _ _ _ _ => .here completed bare) fun token same =>
    (after token same).weaken fun _ _ _ broken => broken.after [token]

theorem requirePresent {kind : Kind} {next follow : Reading β}
    (present : ∀ next, starts next → next.any (·.kind == kind) = true)
    (after : ∀ token : Token, token.kind = kind →
      Tracks size Anything next follow (Broken fun tokens => whole (token :: tokens))) :
    Tracks size starts (Grammar.require kind >>= fun _ => next)
      (Grammar.require kind >>= fun _ => follow) (Broken whole) := by
  refine bindRequire (fun problem tokens start others => ?_) fun token same =>
    (after token same).weaken fun _ _ _ broken => broken.after [token]
  -- Nothing is noted here: the token is known to be there.
  have there := present _ start
  cases tokens with
  | nil => cases there
  | cons token tokens => exact absurd (by simpa using there) (others token rfl)

end Tracks

def IsExpression (tokens : List Token) : Prop := ∃ expr, Makes tokens (.expression expr)
def IsExponent (tokens : List Token) : Prop := ∃ expr, Makes tokens (.exponent expr)
def IsPrimary (tokens : List Token) : Prop := ∃ loose expr, Makes tokens (.primary loose expr)
def IsGroup (tokens : List Token) : Prop := ∃ expr, Makes tokens (.group expr)

theorem Makes.related {tokens : List Token} {expr : Expr}
    (chain : Makes tokens (.chain .relation expr)) :
    Makes tokens (.expression (Grammar.assignment expr)) := by
  cases equation : expr.isEquation with
  | false =>
    rw [assignment_eq equation]
    exact chain.expression equation
  | true =>
    obtain ⟨name, rhs, rfl⟩ := eq_equation equation
    exact chain.assignment

theorem Makes.unjoined {tokens : List Token} {level : Level} {expr : Expr}
    (operand : Makes tokens (level.operand expr)) : Makes tokens (.chain level expr) := by
  have chain := operand.chain .unlinked
  rwa [List.append_nil] at chain

theorem IsExponent.expression {tokens : List Token} (exponent : IsExponent tokens) :
    IsExpression tokens := by
  obtain ⟨expr, makes⟩ := exponent
  have product : Makes tokens (.chain .product expr) := .unjoined makes
  have sum : Makes tokens (.chain .sum expr) := .unjoined product
  exact ⟨_, (Makes.unjoined sum).related⟩

theorem IsPrimary.exponent {tokens : List Token} (primary : IsPrimary tokens) : IsExponent tokens := by
  obtain ⟨loose, expr, makes⟩ := primary
  exact ⟨expr, makes.base⟩

theorem isPrimary_sample : IsPrimary [Tracks.sample .number] := ⟨_, _, .number rfl⟩

theorem isExpression_sample : IsExpression [Tracks.sample .number] :=
  isPrimary_sample.exponent.expression

theorem isGroup_samples : IsGroup samples := by
  obtain ⟨expr, makes⟩ := isExpression_sample
  exact ⟨expr, makes.group rfl rfl⟩

theorem chain_settled {kinds : Kind → Bool} {join : String → Expr → Expr → Expr} {operand : Reading Expr}
    (steady : Steady operand) (lhs : Expr) :
    Settled fun bound => chain kinds join operand bound lhs := by
  intro bound
  induction bound generalizing lhs with
  | zero => exact .zero fun _ => rfl
  | succ bound ih => exact .takeIf (fun op => .bind steady fun rhs => ih _) (.refl _)

theorem afterCommas_settled {inner : Layer} (steady : Steady inner.expression) :
    Settled inner.afterCommas := by
  intro bound
  induction bound with
  | zero => exact .zero fun _ => rfl
  | succ bound ih =>
    exact .takeIf (fun _ => .bind steady fun expr => ih.first _) (.refl _)

theorem cells_settled {inner : Layer} (steady : Steady inner.expression) : Settled inner.cells := by
  intro bound
  induction bound with
  | zero => exact .zero fun _ => rfl
  | succ bound ih =>
    refine .bind Sound.peek.steady fun found => ?_
    cases found with
    | none => exact .refl _
    | some token =>
      simp only
      split
      next => exact .refl _
      next => exact .advance (.bind steady fun cell => ih.first _)
      next => exact .advance (.bind steady fun cell => ih.first _)
      next =>
        exact .bind (Sound.note _ _ fun _ _ _ => True) fun _ => .advance ih

theorem group_takes_brace {inner : Layer} (steady : Steady inner.expression) {left : Token}
    (opens : left.kind = .leftBrace) (tokens : List Token) (noted : List Diagnostic) :
    (inner.group.run.run ⟨left :: tokens, noted⟩).2.rest.length ≤ tokens.length := by
  have taken : (require .leftBrace).run.run ⟨left :: tokens, noted⟩ = (.ok (), ⟨tokens, noted⟩) :=
    (@Meets.require False left .leftBrace opens tokens noted).resolve_right fun excused => excused.1
  have passes : Steady (inner.expression >>= fun expr => require .rightBrace >>= fun _ => pure expr) :=
    steady.bind fun expr => (Sound.require .rightBrace).steady.bind fun _ => .pure fun _ => trivial
  have run : inner.group.run.run ⟨left :: tokens, noted⟩ =
      (inner.expression >>= fun expr => require .rightBrace >>= fun _ => pure expr).run.run
        ⟨tokens, noted⟩ := run_bind_ok taken
  rw [run]
  exact (passes.passes ⟨tokens, noted⟩).length_le

theorem groups_settled {inner : Layer} (steady : Steady inner.expression) : Settled inner.groups := by
  intro bound
  induction bound with
  | zero => exact .zero fun _ => rfl
  | succ bound ih =>
    rintro ⟨tokens, noted⟩ room
    have look : (isNext (· == .leftBrace)).run.run ⟨tokens, noted⟩ =
        (.ok (tokens.head?.any (·.kind == .leftBrace)), ⟨tokens, noted⟩) := rfl
    unfold Layer.groups
    rw [run_bind_ok look, run_bind_ok look]
    cases tokens with
    | nil => rfl
    | cons token tokens =>
      by_cases opens : token.kind = .leftBrace
      -- The brace at least is taken, whatever comes of the group behind it, so a turn is used up.
      · have shorter := group_takes_brace steady opens tokens noted
        simp only [List.head?_cons, Option.any_some, opens, beq_self_eq_true, if_true]
        rcases run : inner.group.run.run ⟨token :: tokens, noted⟩ with ⟨stop | expr, mid⟩ <;>
          rw [run] at shorter
        · rw [run_bind_error run, run_bind_error run]
        · rw [run_bind_ok run, run_bind_ok run]
          refine ih.first _ mid (Nat.le_trans shorter ?_)
          simpa using room
      · simp [opens]

structure Deepens (size : Nat) (inner deeper : Layer) : Prop where
  sound : SoundLayer inner
  also : SoundLayer deeper
  expression : Tracks size Anything inner.expression deeper.expression (Broken IsExpression)
  exponent : Tracks size Anything inner.exponent deeper.exponent (Broken IsExponent)
  primary : Tracks size Anything inner.primary deeper.primary (Broken IsPrimary)

def Braced (next : Option Token) : Prop := next.any (·.kind == .leftBrace) = true

def AreGroups (tokens : List Token) : Prop :=
  ∃ first more expr exprs, tokens = first ++ more ∧ Makes first (.group expr) ∧
    Makes more (.groups exprs)

def IsItems (tokens : List Token) : Prop := ∃ exprs, Makes tokens (.items exprs)
def IsList (tokens : List Token) : Prop := ∃ exprs, Makes tokens (.list exprs)
def IsCells (tokens : List Token) : Prop := ∃ row rows, Makes tokens (.cells row rows)

namespace Deepens

variable {size : Nat} {inner deeper : Layer}

theorem group (deepens : Deepens size inner deeper) :
    Tracks size Braced inner.group deeper.group (Broken IsGroup) := by
  have closing : (Tracks.sample .rightBrace).kind = .rightBrace := rfl
  refine .requirePresent (fun _ start => start) fun left opens => ?_
  refine .bindWhole deepens.expression deepens.sound.expression ?_ fun expr => ?_
  · rintro tokens ⟨expr, inside⟩
    exact ⟨[_], expr, .group opens inside closing⟩
  · refine .requireWhole [] (fun front rest inside => ?_) (by decide) fun right closes => .pure _
    exact ⟨expr, .group opens inside.makes_front closing⟩

theorem groups (deepens : Deepens size inner deeper) (bound : Nat) :
    Tracks size Anything (inner.groups bound) (deeper.groups bound) (Broken AreGroups) := by
  induction bound with
  | zero => exact .pure _
  | succ bound ih =>
    refine .bindIsNext fun braced => ?_
    cases braced with
    | false => exact .pure _
    | true =>
      refine .bindWhole (deepens.group.narrow fun _ start => start.1) deepens.sound.group ?_
        fun expr => ?_
      · rintro tokens ⟨expr, makes⟩
        exact ⟨[], tokens, [], expr, [], rfl, makes, .noGroups⟩
      · refine .lastWhole ih ?_
        rintro tokens ⟨first, more, other, exprs, rfl, isGroup, areGroups⟩
        refine ⟨[], fun front rest before => ?_⟩
        exact ⟨front, _, expr, _, rfl, before.makes_front, by simpa using isGroup.groups areGroups⟩

theorem items (deepens : Deepens size inner deeper) (bound : Nat) :
    Tracks size Anything (inner.afterCommas bound) (deeper.afterCommas bound) (Broken IsItems) := by
  induction bound with
  | zero => exact .pure _
  | succ bound ih =>
    refine .takeIfWhole (fun comma divides => ?_) (.pure _)
    have divides : comma.kind = .comma := by simpa using divides
    refine .bindWhole deepens.expression deepens.sound.expression ?_ fun expr => ?_
    · rintro tokens ⟨expr, item⟩
      exact ⟨[], [expr], .items divides item .noItems⟩
    · refine .lastWhole ih ?_
      rintro tokens ⟨exprs, items⟩
      refine ⟨[], fun front rest item => ?_⟩
      rw [List.append_nil]
      exact ⟨expr :: exprs, .items divides item.makes_front items⟩

theorem list (deepens : Deepens size inner deeper) :
    Tracks size Anything inner.list deeper.list (Broken IsList) := by
  refine .bindWhole deepens.expression deepens.sound.expression ?_ fun expr => ?_
  · rintro tokens ⟨expr, item⟩
    exact ⟨[], [expr], item.list .noItems⟩
  · refine .bindRemaining ((afterCommas_settled deepens.expression.steady).first _)
      ((afterCommas_settled deepens.expression.also).first _) fun bound => ?_
    refine .lastWhole (deepens.items bound) ?_
    rintro tokens ⟨exprs, items⟩
    refine ⟨[], fun front rest item => ?_⟩
    rw [List.append_nil]
    exact ⟨expr :: exprs, item.makes_front.list items⟩

theorem fraction (deepens : Deepens size inner deeper) {command : Token}
    (isQuotient : IsQuotient command) :
    Tracks size Anything (inner.fraction (some command)) (deeper.fraction (some command))
      fun diagnostic used mid => Broken IsPrimary diagnostic (command :: used) mid := by
  obtain ⟨inserted, isGroup⟩ := isGroup_samples
  have finish (front : List Token) (numerator : Expr) (above : Makes front (.group numerator)) :
      IsPrimary (command :: front ++ samples) := ⟨false, _, .fraction isQuotient above isGroup⟩
  refine .bindIsNext fun above => ?_
  cases above with
  | false =>
    -- No group at all: two of them would do, and the command carries the note.
    refine .noteThen (.pure fun _ => trivial) (.pure fun _ => trivial) fun tokens _ => ?_
    exact .awaiting samples ⟨[], [], rfl, isQuotient, .inl rfl⟩ (finish samples inserted isGroup)
  | true =>
    refine .bind (deepens.group.narrow fun _ start => start.1) deepens.sound.group ?_ fun numerator => ?_
    · intro diagnostic used mid start broken
      have completed : Broken (fun tokens => IsPrimary (command :: tokens)) diagnostic used mid := by
        refine broken.within ?_
        rintro tokens ⟨expr, group⟩
        exact ⟨samples, finish tokens expr group⟩
      exact completed.after [command]
    · refine .bindIsNext fun below => ?_
      cases below with
      | false =>
        refine .noteThen (.pure fun _ => trivial) (.pure fun _ => trivial)
          fun tokens _ front _ means => ?_
        -- The numerator is there, and its group stands between the command and the place.
        have above := means.makes_front
        rw [List.append_nil]
        refine .awaiting [] ⟨[], front, rfl, isQuotient, .inr ⟨_, above.alone⟩⟩ ?_
        exact finish front numerator above
      | true =>
        refine .bind (deepens.group.narrow fun _ start => start.1) deepens.sound.group ?_
          fun denominator => .pure _
        intro diagnostic used mid start broken front _ means
        have completed :
            Broken (fun tokens => IsPrimary (command :: front ++ tokens)) diagnostic used mid := by
          refine broken.mono ?_
          rintro tokens ⟨expr, below⟩
          exact ⟨false, _, .fraction isQuotient means.makes_front below⟩
        exact completed.after (command :: front)

theorem arguments (deepens : Deepens size inner deeper) {command : Token}
    (isCommand : command.kind = .command) (named : command.text ≠ Expr.fraction) :
    Tracks size Anything inner.arguments deeper.arguments
      (Broken fun tokens => IsPrimary (command :: tokens)) := by
  have closing : (Tracks.sample .rightParen).kind = .rightParen := rfl
  refine .bindIsNext fun braced => ?_
  cases braced with
  | true =>
    refine .bindRemaining (groups_settled deepens.expression.steady)
      (groups_settled deepens.expression.also) fun bound => ?_
    refine ((deepens.groups bound).narrow fun _ _ => trivial).mono ?_
    rintro tokens ⟨first, more, expr, exprs, rfl, isGroup, areGroups⟩
    exact ⟨false, _, .callGroups isCommand named isGroup areGroups⟩
  | false =>
    refine .takeIfWhole (fun left opens => ?_) ?_
    · have opens : left.kind = .leftParen := by simpa using opens
      refine .bindIsNext fun empty => ?_
      cases empty with
      | true =>
        have completed := Makes.callEmpty isCommand named opens closing
        exact .requireWhole [] ⟨false, _, completed⟩ (by decide) fun right closes => .pure _
      | false =>
        refine .bindWhole (deepens.list.narrow fun _ _ => trivial) deepens.sound.list ?_ fun args => ?_
        · rintro tokens ⟨exprs, list⟩
          exact ⟨[_], false, _, .callList isCommand named opens list closing⟩
        · refine .requireWhole [] (fun front rest list => ?_) (by decide) fun right closes => .pure _
          exact ⟨false, _, .callList isCommand named opens list.makes_front closing⟩
    · refine .bind (deepens.primary.narrow fun _ _ => trivial) deepens.primary.steady ?_
        fun arg => .pure _
      rintro diagnostic used mid ⟨unopened, unbraced, -⟩ ⟨better, more, ⟨loose, expr, primary⟩, marks⟩
      refine ⟨better, more, ⟨loose, _, .callBare isCommand named ?_ primary⟩, marks⟩
      -- A bracket behind the command would be read as its arguments. What is next is none, and what is put
      -- in its place is none either.
      intro token isFirst
      cases used with
      | nil =>
        cases isFirst
        cases marks with
        | here carries bare => exact bare
        | group awaits carries =>
          obtain ⟨before, groups, same, -⟩ := awaits
          simp at same
      | cons first used =>
        cases isFirst
        exact ⟨by simpa using unbraced, by simpa using unopened⟩

theorem command (deepens : Deepens size inner deeper) {command : Token}
    (isCommand : command.kind = .command) :
    Tracks size (· = some command) inner.command deeper.command (Broken IsPrimary) := by
  have steady {layer : Layer} (sound : SoundLayer layer) (token : Token) :
      Steady (advance >>= fun _ =>
        if token.text = Expr.fraction then layer.fraction (some token)
        else layer.arguments >>= fun args => pure (.call token.text args)) := by
    refine .bind Sound.advance.steady fun _ => ?_
    split
    next => exact (sound.fraction (some token)).steady
    next named => exact .bind (sound.arguments named).steady fun _ => .pure fun _ => trivial
  unfold Layer.command consume
  simp only [bind_assoc]
  refine .bindPeek fun found => ?_
  cases found with
  | none =>
    simp only [bind_assoc, pure_bind]
    refine .noteThen (.throw _ _) (.throw _ _) ?_
    rintro tokens ⟨ended, start⟩
    rw [ended] at start
    cases start
  | some token =>
    simp only [bind_assoc, pure_bind]
    by_cases same : token = command
    · subst same
      refine .bindAdvance (fun _ start => start.1) ?_
      by_cases named : token.text = Expr.fraction
      · simp only [named, if_true]
        exact deepens.fraction ⟨isCommand, named⟩
      · simp only [named, if_false]
        refine ((deepens.arguments isCommand named).lastWhole fun tokens primary => ⟨[], ?_⟩).weaken
          fun _ _ _ broken => broken.after [token]
        rwa [List.append_nil]
    -- The rule begins at the command only, so no other token is looked at here.
    · refine .unstarted (steady deepens.sound token) (steady deepens.also token) ?_
      rintro next ⟨rfl, start⟩
      exact same (Option.some.inj start)

theorem array (deepens : Deepens size inner deeper) :
    Tracks size (·.any (·.kind == .leftBracket) = true) inner.array deeper.array (Broken IsPrimary) := by
  have closing : (Tracks.sample .rightBracket).kind = .rightBracket := rfl
  refine .requirePresent (fun _ start => start) fun left opens => ?_
  refine .takeIfWhole (fun right closes => .pure _) ?_
  refine .bindWhole (deepens.list.narrow fun _ _ => trivial) deepens.sound.list ?_ fun items => ?_
  · rintro tokens ⟨exprs, list⟩
    exact ⟨[_], false, _, .array opens list closing⟩
  · refine .requireWhole [] (fun front rest list => ?_) (by decide) fun right closes => .pure _
    exact ⟨false, _, .array opens list.makes_front closing⟩

theorem cells (deepens : Deepens size inner deeper) (bound : Nat) :
    Tracks size Anything (inner.cells bound) (deeper.cells bound) (Broken IsCells) := by
  induction bound with
  | zero => exact .pure _
  | succ bound ih =>
    refine .bindPeek fun found => ?_
    cases found with
    | none => exact .pure _
    | some token =>
      simp only
      split
      next => exact .pure _
      next divides =>
        refine .advanceWhole (fun _ start => start.1) ?_
        refine .bindWhole deepens.expression deepens.sound.expression ?_ fun expr => ?_
        · rintro tokens ⟨expr, cell⟩
          exact ⟨[], _, _, .cell divides cell .noCells⟩
        · refine .lastWhole ih ?_
          rintro tokens ⟨row, rows, cells⟩
          refine ⟨[], fun front rest cell => ?_⟩
          rw [List.append_nil]
          exact ⟨_, _, .cell divides cell.makes_front cells⟩
      next divides =>
        refine .advanceWhole (fun _ start => start.1) ?_
        refine .bindWhole deepens.expression deepens.sound.expression ?_ fun expr => ?_
        · rintro tokens ⟨expr, cell⟩
          exact ⟨[], _, _, .row divides cell .noCells⟩
        · refine .lastWhole ih ?_
          rintro tokens ⟨row, rows, cells⟩
          refine ⟨[], fun front rest cell => ?_⟩
          rw [List.append_nil]
          exact ⟨_, _, .row divides cell.makes_front cells⟩
      next =>
        -- A stray token is noted. A comma with a cell could have stood there.
        refine .noteThen (Sound.advance.steady.bind fun _ => ih.steady)
          (Sound.advance.steady.bind fun _ => ih.also) fun tokens start => ?_
        obtain ⟨expr, cell⟩ := isExpression_sample
        rw [← start.1]
        exact .here ⟨_, _, .cell rfl cell .noCells⟩ (by decide)

theorem matrix (deepens : Deepens size inner deeper) :
    Tracks size Braced inner.matrix deeper.matrix (Broken IsPrimary) := by
  have closing : (Tracks.sample .rightBrace).kind = .rightBrace := rfl
  refine .requirePresent (fun _ start => start) fun left opens => ?_
  refine .takeIfWhole (fun right closes => .pure _) ?_
  refine .bindWhole (deepens.expression.narrow fun _ _ => trivial) deepens.sound.expression ?_
    fun cell => ?_
  · rintro tokens ⟨expr, cell⟩
    exact ⟨[_], false, _, .matrix opens cell .noCells closing⟩
  · refine .bindRemaining ((cells_settled deepens.expression.steady).first _)
      ((cells_settled deepens.expression.also).first _) fun bound => ?_
    refine .bindWhole (deepens.cells bound) (deepens.sound.cells bound) ?_ fun others => ?_
    · rintro tokens ⟨row, rows, cells⟩
      refine ⟨[Tracks.sample .rightBrace], fun front rest cell => ?_⟩
      have matrix := Makes.matrix opens cell.makes_front cells closing
      exact ⟨false, _, matrix⟩
    · refine .requireWhole [] (fun front rest cells before after cell => ?_) (by decide)
        fun right closes => .pure _
      have matrix := Makes.matrix opens cell.makes_front cells.makes_front closing
      exact ⟨false, _, matrix⟩

theorem primaryFrom (deepens : Deepens size inner deeper) :
    Tracks size Anything inner.primaryFrom deeper.primaryFrom (Broken IsPrimary) := by
  have signed (op : Token) (isSign : op.kind.isSign = true) :
      Tracks size (fun next => next = some op ∧ Anything next)
        (advance >>= fun _ => inner.exponent >>= fun operand => pure (Expr.sign op.text operand))
        (advance >>= fun _ => deeper.exponent >>= fun operand => pure (Expr.sign op.text operand))
        (Broken IsPrimary) := by
    refine .advanceWhole (fun _ start => start.1) (.lastWhole deepens.exponent ?_)
    rintro tokens ⟨expr, exponent⟩
    exact ⟨[], true, _, by simpa using exponent.sign isSign⟩
  refine .bindPeek fun found => ?_
  cases found with
  | none =>
    refine .noteThen (.pure fun _ => trivial) (.pure fun _ => trivial) fun tokens start => ?_
    rw [← start.1]
    exact .here isPrimary_sample (by decide)
  | some token =>
    simp only
    split
    next => exact .advanceWhole (fun _ start => start.1) (.pure _)
    next => exact .advanceWhole (fun _ start => start.1) (.pure _)
    next isCommand => exact (deepens.command isCommand).narrow fun _ start => start.1
    next opens =>
      have closing : (Tracks.sample .rightParen).kind = .rightParen := rfl
      refine .advanceWhole (fun _ start => start.1) ?_
      refine .bindWhole deepens.expression deepens.sound.expression ?_ fun expr => ?_
      · rintro tokens ⟨expr, inside⟩
        exact ⟨[_], false, _, .paren opens inside closing⟩
      · refine .requireWhole [] (fun front rest inside => ?_) (by decide) fun right closes => .pure _
        exact ⟨false, _, .paren opens inside.makes_front closing⟩
    next opens => exact deepens.array.narrow fun _ start => by simp [start.1, opens]
    next opens => exact deepens.matrix.narrow fun _ start => by simp [Braced, start.1, opens]
    next isPlus => exact signed token (by rw [isPlus]; rfl)
    next isMinus => exact signed token (by rw [isMinus]; rfl)
    next =>
      refine .noteThen (Sound.advance.steady.bind fun _ => .pure fun _ => trivial)
        (Sound.advance.steady.bind fun _ => .pure fun _ => trivial) fun tokens start => ?_
      rw [← start.1]
      exact .here isPrimary_sample (by decide)

theorem exponentFrom (deepens : Deepens size inner deeper) :
    Tracks size Anything inner.exponentFrom deeper.exponentFrom (Broken IsExponent) := by
  refine .bind deepens.primaryFrom deepens.sound.primaryFrom
    (fun _ _ _ _ broken => broken.mono fun _ => IsPrimary.exponent) fun base => ?_
  refine .bindTakeIf (fun op raises => ?_) (.pure _)
  have raises : op.kind = .power := by simpa using raises
  refine .bind deepens.exponent deepens.exponent.steady ?_ fun _ => .pure _
  rintro diagnostic used mid - broken front - ⟨loose, primary, closed⟩
  cases loose with
  -- A sign takes the power that comes after it into its operand, so none is left behind it.
  | true => exact absurd raises (closed rfl op rfl)
  | false =>
    have completed :
        Broken (fun tokens => IsExponent (front ++ [op] ++ tokens)) diagnostic used mid := by
      refine broken.mono ?_
      rintro tokens ⟨expr, exponent⟩
      rw [List.append_assoc]
      exact ⟨_, primary.makes_front.power raises exponent⟩
    have after := completed.after (front ++ [op])
    rwa [List.append_assoc] at after

variable {operand deep : Reading Expr} (level : Level)

theorem links
    (tracks : Tracks size Anything operand deep
      (Broken fun tokens => ∃ expr, Makes tokens (level.operand expr)))
    (sound : Sound operand fun tokens expr rest => Derives tokens rest (level.operand expr))
    (bound : Nat) (lhs : Expr) :
    Tracks size Anything (chain level.operators level.join operand bound lhs)
      (chain level.operators level.join deep bound lhs)
      (Broken fun tokens => ∃ expr, Makes tokens (.links level lhs expr)) := by
  induction bound generalizing lhs with
  | zero => exact .pure _
  | succ bound ih =>
    refine .takeIfWhole (fun op joins => ?_) (.pure _)
    refine .bindWhole tracks sound ?_ fun rhs => ?_
    · rintro tokens ⟨expr, makes⟩
      exact ⟨[], _, .link joins makes .unlinked⟩
    · refine (ih _).mono ?_
      rintro tokens ⟨expr, links⟩ front rest makes
      exact ⟨expr, .link joins makes.makes_front links⟩

theorem leftGrouped
    (tracks : Tracks size Anything operand deep
      (Broken fun tokens => ∃ expr, Makes tokens (level.operand expr)))
    (sound : Sound operand fun tokens expr rest => Derives tokens rest (level.operand expr)) :
    Tracks size Anything (leftGrouped level.operators level.join operand)
      (leftGrouped level.operators level.join deep)
      (Broken fun tokens => ∃ expr, Makes tokens (.chain level expr)) := by
  refine .bindWhole tracks sound ?_ fun first => ?_
  · rintro tokens ⟨expr, makes⟩
    exact ⟨[], expr, makes.chain .unlinked⟩
  · refine .bindRemaining (chain_settled tracks.steady first) (chain_settled tracks.also first)
      fun bound => ?_
    refine (links level tracks sound bound first).mono ?_
    rintro tokens ⟨expr, makes⟩ front rest before
    exact ⟨expr, before.makes_front.chain makes⟩

theorem expressionFrom (deepens : Deepens size inner deeper) :
    Tracks size Anything inner.expressionFrom deeper.expressionFrom (Broken IsExpression) := by
  have product : Tracks size Anything inner.term deeper.term
      (Broken fun tokens => ∃ expr, Makes tokens (.chain .product expr)) :=
    leftGrouped .product deepens.exponentFrom (deepens.sound.exponentFrom.weaken fun _ _ _ => And.left)
  have sum : Tracks size Anything inner.additive deeper.additive
      (Broken fun tokens => ∃ expr, Makes tokens (.chain .sum expr)) :=
    leftGrouped .sum product (deepens.sound.chained .product)
  have relation : Tracks size Anything inner.comparison deeper.comparison
      (Broken fun tokens => ∃ expr, Makes tokens (.chain .relation expr)) :=
    leftGrouped .relation sum (deepens.sound.chained .sum)
  refine (relation.map assignment).mono ?_
  rintro tokens ⟨expr, makes⟩
  exact ⟨_, makes.related⟩

theorem outward (deepens : Deepens size inner deeper) : Deepens size inner.outward deeper.outward :=
  ⟨deepens.sound.outward, deepens.also.outward, deepens.expressionFrom, deepens.exponentFrom,
    deepens.primaryFrom⟩

end Deepens

theorem layer_deepens (size : Nat) {depth deep : Nat} (room : depth ≤ deep) :
    Deepens size (layer depth) (layer deep) := by
  -- By the depth of the first layer. At no depth it reads nothing, whatever the second does.
  induction depth generalizing deep with
  | zero =>
    have also := layer_sound deep
    exact ⟨layer_sound 0, also, .throw _ also.expression.steady, .throw _ also.exponent.steady,
      .throw _ also.primary.steady⟩
  | succ depth ih =>
    cases deep with
    | zero => omega
    | succ deep => exact (ih (by omega)).outward

end FormulaCalculator.Grammar
