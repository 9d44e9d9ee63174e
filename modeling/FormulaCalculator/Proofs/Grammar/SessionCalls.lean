import FormulaCalculator.Proofs.Grammar.Progress

set_option autoImplicit false

namespace FormulaCalculator.Grammar

/-- The rule for fractions may be called with any token for its command. -/
inductive Call where
  | step (step : Step)
  | fraction (command : Option Token)
deriving DecidableEq, Repr

-- The calls that read an operand at least.
def Call.isOperand : Call → Bool
  | .step .expression | .step .assignment | .step .comparison | .step .additive | .step .term
  | .step .exponent | .step .primary => true
  | _ => false

namespace Session

/-- Further on over the same tokens, or where it was, with as many notes or more. -/
structure GoesOn (before later : Session) : Prop where
  tokens : later.tokens = before.tokens
  rest : later.cursor.rest = later.tokens.drop later.index
  onward : before.index ≤ later.index
  within : later.index ≤ later.tokens.length
  noted : before.cursor.noted <+: later.cursor.noted

theorem GoesOn.trans {before mid later : Session} (first : before.GoesOn mid) (second : mid.GoesOn later) :
    before.GoesOn later :=
  ⟨second.tokens.trans first.tokens, second.rest, first.onward.trans second.onward, second.within,
    first.noted.trans second.noted⟩

theorem GoesOn.refl {session : Session} (placed : session.cursor.rest <:+ session.tokens) :
    session.GoesOn session :=
  ⟨rfl, List.suffix_iff_eq_drop.1 placed, le_refl _, Nat.sub_le _ _, List.prefix_refl _⟩

theorem GoesOn.placed {before later : Session} (goesOn : before.GoesOn later) :
    later.cursor.rest <:+ later.tokens := by
  rw [goesOn.rest]
  exact List.drop_suffix _ _

end Session

def Fills (_ : List Token) (answer : Answer) (_ : List Token) : Prop :=
  ∀ expr, answer = .tree expr → expr.HasNoGap

section

variable [Stack]

def Call.reading (session : Session) : Call → Reading Answer
  | .step single => session.reading single
  | .fraction command => Session.atTop (·.fraction command)

namespace Session

def call (session : Session) (call : Call) : Except Stop Answer × Session :=
  let (answer, cursor) := (call.reading session).run.run session.cursor
  (answer, { session with cursor })

def after (session : Session) (calls : List Call) : Session :=
  calls.foldl (fun session call => (session.call call).2) session

theorem getElem?_runAll (session : Session) (earlier : List Step) (step : Step) (later : List Step) :
    (session.runAll (earlier ++ step :: later))[earlier.length]? =
      some ((session.after (earlier.map .step)).call (.step step)) := by
  induction earlier generalizing session with
  | nil => rfl
  | cons first earlier ih => exact ih (session.run first).2

end Session

theorem peek_fills (session : Session) (offset : Int) : Sound (session.reading (.peek offset)) Fills := by
  have run (cursor : Cursor) : (session.reading (.peek offset)).run.run cursor =
      ((session.tokenAt offset).map .token, cursor) := by
    change (do return Answer.token (← (session.tokenAt offset : Except Stop (Option Token))) : Reading Answer).run.run
      cursor = _
    cases session.tokenAt offset <;> rfl
  constructor
  case passes =>
    intro cursor
    rw [run]
  case notes =>
    intro cursor
    rw [run]
  case means =>
    intro tokens noted answer rest read expr isTree
    rw [run, isTree] at read
    cases found : session.tokenAt offset <;> rw [found] at read <;> cases read

theorem atTop_fills {rule : Layer → Reading Expr}
    (filled : ∀ inner, SoundLayer inner → Sound (rule inner) fun _ expr _ => expr.HasNoGap) :
    Sound (Session.atTop rule) Fills := by
  apply (filled _ (layer_sound (Stack.nesting - 1))).map
  intro tokens expr rest hasNoGap other same
  cases same
  exact hasNoGap

theorem atTop_takes {rule : Layer → Reading Expr} (takes : ∀ inner, SoundLayer inner → TakesAny (rule inner)) :
    TakesAny (Session.atTop rule) :=
  (takes _ (layer_sound (Stack.nesting - 1))).map Answer.tree

namespace Call

theorem sound (session : Session) {call : Call} (single : call ≠ .step .parse) :
    Sound (call.reading session) Fills := by
  have derives {rule : Layer → Reading Expr} {phrase : Expr → Phrase}
      (same : ∀ expr, (phrase expr).HasNoGap → expr.HasNoGap)
      (sound : ∀ inner, SoundLayer inner →
        Sound (rule inner) fun tokens expr rest => Derives tokens rest (phrase expr)) :
      Sound (Session.atTop rule) Fills :=
    atTop_fills fun inner layered => (sound inner layered).weaken fun _ _ _ derived => same _ derived.hasNoGap
  have fraction (command : Option Token) : Sound (Session.atTop (·.fraction command)) Fills :=
    atTop_fills fun inner layered => layered.fraction_filled command
  -- An answer that is no tree has no gap.
  have other {α : Type} {step : Reading α} {answer : α → Answer} (steady : Steady step)
      (noTree : ∀ value expr, answer value ≠ .tree expr) :
      Sound (do return answer (← step)) Fills := by
    apply Sound.bind steady
    intro value
    apply Sound.pure
    intro rest tokens _ expr isTree
    exact absurd isTree (noTree value expr)
  cases call with
  | fraction command => exact fraction command
  | step step =>
    cases step with
    | peek offset => exact peek_fills session offset
    | isNext kinds => exact other (Sound.isNext _).steady nofun
    | consume wanted => exact other (Sound.consume wanted).steady nofun
    | note text token => exact other (Sound.note _ _ fun _ _ _ => True) nofun
    | expression | assignment => exact derives (fun _ => id) fun inner layered => layered.expressionFrom
    | comparison => exact derives (fun _ => id) fun inner layered => layered.chained .relation
    | additive => exact derives (fun _ => id) fun inner layered => layered.chained .sum
    | term => exact derives (fun _ => id) fun inner layered => layered.chained .product
    | exponent =>
      exact derives (fun _ => id) fun inner layered => layered.exponentFrom.weaken fun _ _ _ => And.left
    | primary => exact atTop_fills fun inner layered => layered.primary_filled
    | group => exact derives (fun _ => id) fun inner layered => layered.group
    | command => exact atTop_fills fun inner layered => layered.command_filled
    | fraction =>
      exact Sound.peek.bind fun command => (fraction command).weaken fun _ _ _ fills _ _ => fills
    | array => exact derives (fun _ => id) fun inner layered => layered.array
    | matrix => exact derives (fun _ => id) fun inner layered => layered.matrix
    | parse => exact absurd rfl single

theorem takes (session : Session) {call : Call} (operand : call.isOperand = true) :
    TakesAny (call.reading session) := by
  cases call with
  | fraction command => cases operand
  | step step =>
    cases step with
    | expression | assignment => exact atTop_takes fun inner layered => layered.takes_expression
    | comparison => exact atTop_takes fun inner layered => layered.takes_chained .relation
    | additive => exact atTop_takes fun inner layered => layered.takes_chained .sum
    | term => exact atTop_takes fun inner layered => layered.takes_chained .product
    | exponent => exact atTop_takes fun inner layered => layered.takes_exponent
    | primary => exact atTop_takes fun inner layered => layered.takes_primary
    | _ => cases operand

end Call

namespace Session

theorem goesOn_call {before : Session} (placed : before.cursor.rest <:+ before.tokens) {call : Call}
    (single : call ≠ .step .parse) : before.GoesOn (before.call call).2 := by
  have passes : (before.call call).2.cursor.rest <:+ before.cursor.rest :=
    (call.sound before single).passes before.cursor
  have shorter := passes.length_le
  constructor
  case tokens => rfl
  case rest => exact List.suffix_iff_eq_drop.1 (passes.trans placed)
  case onward =>
    have same : (before.call call).2.tokens = before.tokens := rfl
    unfold Session.index
    rw [same]
    omega
  case within => exact Nat.sub_le _ _
  case noted => exact (call.sound before single).notes before.cursor

theorem call_takes {before : Session} (placed : before.cursor.rest <:+ before.tokens) {call : Call}
    (operand : call.isOperand = true) {answer : Answer} (answered : (before.call call).1 = .ok answer)
    (left : before.index < before.tokens.length) : before.index < (before.call call).2.index := by
  obtain ⟨tokens, rest, noted⟩ := before
  have shorter := placed.length_le
  cases rest with
  | nil => simp [Session.index] at left
  | cons token rest =>
    have passes : ((Session.mk tokens ⟨token :: rest, noted⟩).call call).2.cursor.rest <:+ rest :=
      call.takes _ operand token rest noted answer _ trivial (Prod.ext answered rfl)
    have fewer := passes.length_le
    have same : ((Session.mk tokens ⟨token :: rest, noted⟩).call call).2.tokens = tokens := rfl
    unfold Session.index
    rw [same]
    simp only [List.length_cons] at shorter ⊢
    omega

theorem call_notes {before : Session} {call : Call} (single : call ≠ .step .parse) {expr : Expr}
    (answered : (before.call call).1 = .ok (.tree expr)) (gap : .missing ∈ expr.nodes) :
    before.cursor.noted.length < (before.call call).2.cursor.noted.length := by
  have sound := call.sound before single
  have gained : before.cursor.noted <+: (before.call call).2.cursor.noted := sound.notes before.cursor
  apply lt_of_le_of_ne gained.length_le
  intro same
  have kept : before.cursor.noted = (before.call call).2.cursor.noted := gained.eq_of_length same
  -- Without a note, the tree would have to be whole.
  have read : (call.reading before).run.run before.cursor =
      (.ok (.tree expr), ⟨(before.call call).2.cursor.rest, before.cursor.noted⟩) := by
    rw [kept]
    exact Prod.ext answered rfl
  have filled := sound.means _ _ _ _ read expr rfl
  cases filled .missing gap

theorem goesOn_after {session : Session} (placed : session.cursor.rest <:+ session.tokens)
    {calls : List Call} (single : ∀ call ∈ calls, call ≠ .step .parse) :
    session.GoesOn (session.after calls) := by
  induction calls generalizing session with
  | nil => exact .refl placed
  | cons call calls ih =>
    obtain ⟨here, others⟩ := List.forall_mem_cons.1 single
    have first := goesOn_call placed here
    exact first.trans (ih first.placed others)

theorem calls_go_on {tokens : List Token} {index : Nat} (inside : index ≤ tokens.length)
    {earlier : List Call} (allSingle : ∀ call ∈ earlier, call ≠ .step .parse) {call : Call}
    (single : call ≠ .step .parse) :
    let first := start tokens index
    let before := first.after earlier
    let answer := (before.call call).1
    let later := (before.call call).2
    first.index = index ∧ first.GoesOn before ∧ before.GoesOn later ∧
      (call.isOperand = true → before.index < tokens.length → (∃ value, answer = .ok value) →
        before.index < later.index) ∧
      ∀ expr, answer = .ok (.tree expr) → .missing ∈ expr.nodes →
        before.cursor.noted.length < later.cursor.noted.length := by
  intro first before answer later
  have started : first.index = index := by
    simp only [first, start, Session.index, List.length_drop]
    omega
  have reached : first.GoesOn before := goesOn_after (List.drop_suffix index tokens) allSingle
  refine ⟨started, reached, goesOn_call reached.placed single, ?operand, ?gap⟩
  case operand =>
    rintro operand left ⟨value, answered⟩
    apply call_takes reached.placed operand answered
    rwa [reached.tokens]
  case gap =>
    intro expr answered gap
    exact call_notes single answered gap

end Session

end

namespace Session

theorem stray_token_called :
    let tokens : List Token := [⟨.rightParen, ")", some 0⟩, ⟨.number, "1", some 1⟩]
    let before := (start tokens 0).after [.step (.consume (some .number)), .fraction none]
    before.index = 0 ∧ (before.call (.step .term)).1 = .ok (.tree .missing) ∧
      0 < (before.call (.step .term)).2.index ∧
      before.cursor.noted.length < (before.call (.step .term)).2.cursor.noted.length := by
  intro tokens before
  have here : before.index = 0 := by decide +kernel
  have answered : (before.call (.step .term)).1 = .ok (.tree .missing) := rfl
  have single : ∀ call ∈ [Call.step (.consume (some .number)), .fraction none], call ≠ .step .parse := by decide
  obtain ⟨-, -, -, operand, gap⟩ := @calls_go_on _ tokens 0 (by decide) _ single (.step .term) (by decide)
  have onward := operand rfl (by decide +kernel) ⟨_, answered⟩
  refine ⟨here, answered, ?_, gap .missing answered (by simp [Expr.nodes])⟩
  rw [← here]
  exact onward

end Session

end FormulaCalculator.Grammar
