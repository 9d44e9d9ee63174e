import FormulaCalculator.Proofs.Grammar.Lookahead
import FormulaCalculator.Proofs.Grammar.Verdict

set_option autoImplicit false

namespace FormulaCalculator.Grammar

variable {α β : Type}

def Takes (starts : Token → Prop) (step : Reading α) : Prop :=
  ∀ token rest noted value after, starts token →
    step.run.run ⟨token :: rest, noted⟩ = (.ok value, after) → after.rest <:+ rest

abbrev TakesAny (step : Reading α) : Prop := Takes (fun _ => True) step

namespace Takes

variable {starts : Token → Prop}

theorem bind {step : Reading α} {next : α → Reading β} (takes : Takes starts step)
    (passes : ∀ given, Steady (next given)) : Takes starts (step >>= next) := by
  intro token rest noted value after isStart run
  rcases first : step.run.run ⟨token :: rest, noted⟩ with ⟨stop | given, mid⟩
  next =>
    rw [run_bind_error first] at run
    cases run
  next =>
    rw [run_bind_ok first] at run
    have onward := (passes given).passes mid
    rw [run] at onward
    exact onward.trans (takes token rest noted given mid isStart first)

theorem map {step : Reading α} (change : α → β) (takes : Takes starts step) :
    Takes starts (change <$> step) := by
  rw [map_eq_pure_bind]
  exact takes.bind fun _ => .pure fun _ => trivial

theorem look {next : Option Token → Reading β}
    (each : ∀ token, starts token → Takes (· = token) (next (some token))) : Takes starts (peek >>= next) := by
  intro token rest noted value after isStart run
  exact each token isStart token rest noted value after rfl run

theorem narrow {step : Reading α} {narrower : Token → Prop} (takes : Takes starts step)
    (within : ∀ token, narrower token → starts token) : Takes narrower step :=
  fun token rest noted value after isStart => takes token rest noted value after (within token isStart)

theorem advance : Takes starts advance := by
  intro token rest noted value after _ run
  cases run
  exact List.suffix_refl rest

theorem consume : Takes starts (consume none) := by
  intro token rest noted value after _ run
  cases run
  exact List.suffix_refl rest

theorem require (kind : Kind) : Takes (·.kind = kind) (require kind) := by
  intro token rest noted value after isKind run
  rcases Meets.require isKind rest noted with met | ⟨never, -⟩
  next =>
    rw [met] at run
    cases run
    exact List.suffix_refl rest
  next => exact False.elim never

theorem noteThen {problem : Problem} {pointed : Option Token} {next : Reading β} (takes : Takes starts next) :
    Takes starts (note problem pointed >>= fun _ => next) := by
  intro token rest noted value after isStart run
  have noted_run : (note problem pointed).run.run ⟨token :: rest, noted⟩ =
      (.ok (), ⟨token :: rest, noted ++ [⟨problem, pointed⟩]⟩) := rfl
  rw [run_bind_ok noted_run] at run
  exact takes token rest _ value after isStart run

end Takes

namespace SoundLayer

variable {inner : Layer} (sound : SoundLayer inner)

include sound

theorem arguments_filled : Sound inner.arguments fun _ args _ => ∀ arg ∈ args, arg.HasNoGap := by
  have named : (Token.mk .command "" none).text ≠ Expr.fraction := by decide
  apply (sound.arguments named).weaken
  intro tokens args rest reads
  obtain ⟨loose, derived, -⟩ := reads rfl
  exact (Expr.Everywhere.call_iff.1 derived.hasNoGap).2

theorem takes_command : TakesAny inner.command := by
  apply Takes.consume.bind
  intro command
  cases command with
  | none => exact .throw _ _
  | some token =>
    dsimp only
    split
    next => exact (sound.fraction (some token)).steady
    next => exact sound.arguments_filled.steady.bind fun _ => .pure fun _ => trivial

theorem takes_array : Takes (·.kind = .leftBracket) inner.array := by
  apply (Takes.require .leftBracket).bind
  intro _
  apply (Sound.takeIf _).steady.bind
  intro right
  cases right with
  | some _ => exact .pure fun _ => trivial
  | none =>
    exact sound.list.steady.bind fun _ => (Sound.require _).steady.bind fun _ => .pure fun _ => trivial

theorem takes_matrix : Takes (·.kind = .leftBrace) inner.matrix := by
  apply (Takes.require .leftBrace).bind
  intro _
  apply (Sound.takeIf _).steady.bind
  intro right
  cases right with
  | some _ => exact .pure fun _ => trivial
  | none =>
    exact sound.expression.steady.bind fun _ => Sound.remaining.steady.bind fun bound =>
      (sound.cells bound).steady.bind fun _ => (Sound.require _).steady.bind fun _ => .pure fun _ => trivial

theorem takes_primary : TakesAny inner.primaryFrom := by
  have signed (op : String) : TakesAny (advance >>= fun _ => inner.exponent >>= fun operand =>
      (pure (.sign op operand) : Reading Expr)) :=
    Takes.advance.bind fun _ => sound.exponent.steady.bind fun _ => .pure fun _ => trivial
  apply Takes.look
  intro token _
  have anyway (other : Token) (_ : other = token) : True := trivial
  dsimp only
  split
  next => exact Takes.advance.bind fun _ => .pure fun _ => trivial
  next => exact Takes.advance.bind fun _ => .pure fun _ => trivial
  next => exact sound.takes_command.narrow anyway
  next =>
    exact Takes.advance.bind fun _ => sound.expression.steady.bind fun _ =>
      (Sound.require _).steady.bind fun _ => .pure fun _ => trivial
  next opens => exact sound.takes_array.narrow fun other same => same ▸ opens
  next opens => exact sound.takes_matrix.narrow fun other same => same ▸ opens
  next => exact (signed token.text).narrow anyway
  next => exact (signed token.text).narrow anyway
  next => exact Takes.noteThen (Takes.advance.bind fun _ => .pure fun _ => trivial)

theorem takes_exponent : TakesAny inner.exponentFrom := by
  apply sound.takes_primary.bind
  intro base
  apply (Sound.takeIf _).steady.bind
  intro op
  cases op with
  | none => exact .pure fun _ => trivial
  | some op => exact sound.exponent.steady.bind fun _ => .pure fun _ => trivial

omit sound in
theorem takes_leftGrouped (level : Level) {operand : Reading Expr} (takes : TakesAny operand)
    (means : Sound operand fun tokens expr rest => Derives tokens rest (level.operand expr)) :
    TakesAny (Grammar.leftGrouped level.operators level.join operand) :=
  takes.bind fun first => Sound.remaining.steady.bind fun bound => (chain level means bound first).steady

theorem takes_chained (level : Level) : TakesAny (inner.chained level) := by
  have product : TakesAny inner.term :=
    takes_leftGrouped .product sound.takes_exponent (sound.exponentFrom.weaken fun _ _ _ => And.left)
  have sum : TakesAny inner.additive := takes_leftGrouped .sum product (sound.chained .product)
  cases level with
  | relation => exact takes_leftGrouped .relation sum (sound.chained .sum)
  | sum => exact sum
  | product => exact product

theorem takes_expression : TakesAny inner.expressionFrom := (sound.takes_chained .relation).map assignment

theorem primary_filled : Sound inner.primaryFrom fun _ expr _ => expr.HasNoGap := by
  apply sound.primaryFrom.weaken
  intro tokens expr rest reads
  obtain ⟨loose, derived, -⟩ := reads
  exact derived.hasNoGap

theorem fraction_filled (command : Option Token) : Sound (inner.fraction command) fun _ expr _ => expr.HasNoGap := by
  apply (sound.fraction command).weaken
  intro tokens expr rest reads
  obtain ⟨numerator, denominator, mid, above, below, rfl⟩ := reads
  have args : ∀ arg ∈ [numerator, denominator], arg.HasNoGap :=
    List.forall_mem_cons.2 ⟨above.hasNoGap, List.forall_mem_singleton.2 below.hasNoGap⟩
  exact Expr.Everywhere.call_iff.2 ⟨rfl, args⟩

theorem command_filled : Sound inner.command fun _ expr _ => expr.HasNoGap := by
  apply (Sound.consume none).bind
  intro command
  cases command with
  | none => exact .throw _ _
  | some token =>
    dsimp only
    split
    next => exact (sound.fraction_filled (some token)).weaken fun _ _ _ filled _ _ => filled
    next =>
      apply sound.arguments_filled.bind
      intro args
      apply Sound.pure
      intro rest tokens filled before _
      exact Expr.Everywhere.call_iff.2 ⟨rfl, filled⟩

end SoundLayer

end FormulaCalculator.Grammar
