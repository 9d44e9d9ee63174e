import FormulaCalculator.Grammar.Session
import FormulaCalculator.Proofs.Expr.Nodes
import FormulaCalculator.Proofs.Grammar.Located

set_option autoImplicit false

namespace FormulaCalculator

def Expr.HasNoGap (expr : Expr) : Prop := expr.Everywhere (·.class?.isSome)

namespace Grammar

variable {α β : Type}

def Guarded (step : Reading α) : Prop :=
  ∀ cursor stop after, step.run.run cursor = (.error stop, after) → stop = .tooDeep

namespace Guarded

theorem of_ok {step : Reading α}
    (runs : ∀ cursor, ∃ value after, step.run.run cursor = (.ok value, after)) : Guarded step := by
  intro cursor stop after run
  obtain ⟨value, reached, ok⟩ := runs cursor
  rw [ok] at run
  cases run

theorem pure (value : α) : Guarded (pure value : Reading α) := of_ok fun _ => ⟨_, _, rfl⟩

theorem tooDeep : Guarded (throw .tooDeep : Reading α) := by
  intro cursor stop after run
  cases run
  rfl

theorem peek : Guarded peek := of_ok fun _ => ⟨_, _, rfl⟩

theorem advance : Guarded advance := of_ok fun _ => ⟨_, _, rfl⟩

theorem note (problem : Problem) (token : Option Token) : Guarded (note problem token) :=
  of_ok fun _ => ⟨_, _, rfl⟩

theorem remaining : Guarded remaining := of_ok fun _ => ⟨_, _, rfl⟩

theorem isNext (kinds : Kind → Bool) : Guarded (isNext kinds) := of_ok fun _ => ⟨_, _, rfl⟩

theorem bind {step : Reading α} {next : α → Reading β} (first : Guarded step)
    (after : ∀ given, Guarded (next given)) : Guarded (step >>= next) := by
  intro cursor stop reached run
  rcases start : step.run.run cursor with ⟨reason | given, mid⟩
  next =>
    rw [run_bind_error start] at run
    cases run
    exact first cursor stop _ start
  next =>
    rw [run_bind_ok start] at run
    exact after given mid stop reached run

theorem takeIf (kinds : Kind → Bool) : Guarded (takeIf kinds) := by
  refine peek.bind fun found => ?_
  cases found with
  | none => exact pure _
  | some token =>
    dsimp only
    split
    next => exact advance.bind fun _ => pure _
    next => exact pure _

theorem consume (wanted : Option Kind) : Guarded (consume wanted) := by
  refine peek.bind fun found => ?_
  cases found with
  | none => cases wanted <;> exact (note _ _).bind fun _ => pure _
  | some token =>
    cases wanted with
    | none => exact advance.bind fun _ => pure _
    | some kind =>
      dsimp only
      split
      next => exact advance.bind fun _ => pure _
      next => exact (note _ _).bind fun _ => pure _

theorem require (kind : Kind) : Guarded (require kind) := (consume (some kind)).bind fun _ => pure _

theorem chain (kinds : Kind → Bool) (join : String → Expr → Expr → Expr) {operand : Reading Expr}
    (guarded : Guarded operand) (bound : Nat) (lhs : Expr) :
    Guarded (chain kinds join operand bound lhs) := by
  induction bound generalizing lhs with
  | zero => exact pure _
  | succ bound ih =>
    refine (takeIf kinds).bind fun op => ?_
    cases op with
    | none => exact pure _
    | some op => exact guarded.bind fun rhs => ih _

theorem leftGrouped (kinds : Kind → Bool) (join : String → Expr → Expr → Expr) {operand : Reading Expr}
    (guarded : Guarded operand) : Guarded (leftGrouped kinds join operand) :=
  guarded.bind fun first => remaining.bind fun bound => chain kinds join guarded bound first

end Guarded

structure GuardedLayer (inner : Layer) : Prop where
  expression : Guarded inner.expression
  exponent : Guarded inner.exponent
  primary : Guarded inner.primary

namespace GuardedLayer

variable {inner : Layer}

theorem group (guarded : GuardedLayer inner) : Guarded inner.group :=
  (Guarded.require _).bind fun _ => guarded.expression.bind fun _ =>
    (Guarded.require _).bind fun _ => .pure _

theorem groups (guarded : GuardedLayer inner) (bound : Nat) : Guarded (inner.groups bound) := by
  induction bound with
  | zero => exact .pure _
  | succ bound ih =>
    refine (Guarded.isNext _).bind fun more => ?_
    cases more with
    | false => exact .pure _
    | true => exact guarded.group.bind fun _ => ih.bind fun _ => .pure _

theorem afterCommas (guarded : GuardedLayer inner) (bound : Nat) :
    Guarded (inner.afterCommas bound) := by
  induction bound with
  | zero => exact .pure _
  | succ bound ih =>
    refine (Guarded.takeIf _).bind fun comma => ?_
    cases comma with
    | none => exact .pure _
    | some _ => exact guarded.expression.bind fun _ => ih.bind fun _ => .pure _

theorem list (guarded : GuardedLayer inner) : Guarded inner.list :=
  guarded.expression.bind fun _ => Guarded.remaining.bind fun bound =>
    (guarded.afterCommas bound).bind fun _ => .pure _

theorem fraction (guarded : GuardedLayer inner) (command : Option Token) :
    Guarded (inner.fraction command) := by
  refine (Guarded.isNext _).bind fun above => ?_
  cases above with
  | false => exact (Guarded.note _ _).bind fun _ => .pure _
  | true =>
    refine guarded.group.bind fun _ => (Guarded.isNext _).bind fun below => ?_
    cases below with
    | false => exact (Guarded.note _ _).bind fun _ => .pure _
    | true => exact guarded.group.bind fun _ => .pure _

theorem arguments (guarded : GuardedLayer inner) : Guarded inner.arguments := by
  refine (Guarded.isNext _).bind fun braced => ?_
  cases braced with
  | true => exact Guarded.remaining.bind fun bound => guarded.groups bound
  | false =>
    refine (Guarded.takeIf _).bind fun left => ?_
    cases left with
    | none => exact guarded.primary.bind fun _ => .pure _
    | some _ =>
      refine (Guarded.isNext _).bind fun empty => ?_
      cases empty with
      | true => exact (Guarded.require _).bind fun _ => .pure _
      | false => exact guarded.list.bind fun _ => (Guarded.require _).bind fun _ => .pure _

theorem command (guarded : GuardedLayer inner) {cursor after : Cursor} {stop : Stop} {command : Token}
    (present : cursor.rest.head? = some command)
    (run : inner.command.run.run cursor = (.error stop, after)) : stop = .tooDeep := by
  have next (token : Token) : Guarded (if token.text = Expr.fraction then inner.fraction (some token)
      else inner.arguments >>= fun args => pure (.call token.text args)) := by
    split
    next => exact guarded.fraction _
    next => exact guarded.arguments.bind fun _ => .pure _
  -- Without a token the rule would stop for another reason, but the command is known to be next.
  obtain ⟨tokens, noted⟩ := cursor
  cases tokens with
  | nil => cases present
  | cons token tokens =>
    have taken : (consume none).run.run ⟨token :: tokens, noted⟩ =
        (.ok (some token), ⟨tokens, noted⟩) := rfl
    unfold Layer.command at run
    rw [run_bind_ok taken] at run
    exact next token _ _ _ run

theorem array (guarded : GuardedLayer inner) : Guarded inner.array := by
  refine (Guarded.require _).bind fun _ => (Guarded.takeIf _).bind fun right => ?_
  cases right with
  | some _ => exact .pure _
  | none => exact guarded.list.bind fun _ => (Guarded.require _).bind fun _ => .pure _

theorem cells (guarded : GuardedLayer inner) (bound : Nat) : Guarded (inner.cells bound) := by
  induction bound with
  | zero => exact .pure _
  | succ bound ih =>
    -- Both marks between cells lead to a cell, and differ only in the row that it is put into.
    have cell (change : Expr → List Expr × List (List Expr) → List Expr × List (List Expr)) :
        Guarded (advance >>= fun _ => inner.expression >>= fun expr =>
          inner.cells bound >>= fun others => pure (change expr others)) :=
      Guarded.advance.bind fun _ => guarded.expression.bind fun _ => ih.bind fun _ => .pure _
    refine Guarded.peek.bind fun found => ?_
    cases found with
    | none => exact .pure _
    | some token =>
      dsimp only
      split
      next => exact .pure _
      next => exact cell _
      next => exact cell _
      next => exact (Guarded.note _ _).bind fun _ => Guarded.advance.bind fun _ => ih

theorem matrix (guarded : GuardedLayer inner) : Guarded inner.matrix := by
  refine (Guarded.require _).bind fun _ => (Guarded.takeIf _).bind fun right => ?_
  cases right with
  | some _ => exact .pure _
  | none =>
    exact guarded.expression.bind fun _ => Guarded.remaining.bind fun bound =>
      (guarded.cells bound).bind fun _ => (Guarded.require _).bind fun _ => .pure _

theorem primaryFrom (guarded : GuardedLayer inner) : Guarded inner.primaryFrom := by
  -- The rules of each kind of token are looked at for this cursor: that of a command needs its token.
  intro cursor stop after run
  have look : peek.run.run cursor = (.ok cursor.rest.head?, cursor) := rfl
  unfold Layer.primaryFrom at run
  rw [run_bind_ok look] at run
  cases found : cursor.rest.head? with
  | none =>
    rw [found] at run
    exact (Guarded.note _ _).bind (fun _ => Guarded.pure Expr.missing) cursor stop after run
  | some token =>
    rw [found] at run
    dsimp only at run
    split at run
    next => exact Guarded.advance.bind (fun _ => Guarded.pure _) _ _ _ run
    next => exact Guarded.advance.bind (fun _ => Guarded.pure _) _ _ _ run
    next => exact guarded.command found run
    next =>
      have inside : Guarded (inner.expression >>= fun expr => require .rightParen >>= fun _ =>
          pure (Expr.paren expr)) :=
        guarded.expression.bind fun _ => (Guarded.require _).bind fun _ => .pure _
      exact Guarded.advance.bind (fun _ => inside) _ _ _ run
    next => exact guarded.array _ _ _ run
    next => exact guarded.matrix _ _ _ run
    next => exact Guarded.advance.bind (fun _ => guarded.exponent.bind fun _ => .pure _) _ _ _ run
    next => exact Guarded.advance.bind (fun _ => guarded.exponent.bind fun _ => .pure _) _ _ _ run
    next =>
      have skipped := Guarded.advance.bind fun _ => Guarded.pure Expr.missing
      exact (Guarded.note _ _).bind (fun _ => skipped) _ _ _ run

theorem outward (guarded : GuardedLayer inner) : GuardedLayer inner.outward := by
  have exponent : Guarded inner.exponentFrom := by
    refine guarded.primaryFrom.bind fun base => (Guarded.takeIf _).bind fun op => ?_
    cases op with
    | none => exact .pure _
    | some op => exact guarded.exponent.bind fun _ => .pure _
  have comparison : Guarded inner.comparison :=
    .leftGrouped _ _ (.leftGrouped _ _ (.leftGrouped _ _ exponent))
  refine ⟨?_, exponent, guarded.primaryFrom⟩
  change Guarded (assignment <$> inner.comparison)
  rw [map_eq_pure_bind]
  exact comparison.bind fun _ => .pure _

end GuardedLayer

theorem layer_guarded (depth : Nat) : GuardedLayer (layer depth) := by
  induction depth with
  | zero => exact ⟨.tooDeep, .tooDeep, .tooDeep⟩
  | succ depth ih => exact ih.outward

def Phrase.HasNoGap : Phrase → Prop
  | expression expr | chain _ expr | exponent expr | primary _ expr | group expr => expr.HasNoGap
  | links _ lhs expr => lhs.HasNoGap → expr.HasNoGap
  | groups exprs | list exprs | items exprs => ∀ expr ∈ exprs, expr.HasNoGap
  | cells first rows => ∀ row ∈ first :: rows, ∀ cell ∈ row, cell.HasNoGap

theorem filled_rows {first : Expr} {others : List Expr} {rows : List (List Expr)} (filled : first.HasNoGap)
    (more : ∀ row ∈ others :: rows, ∀ cell ∈ row, cell.HasNoGap) :
    ∀ row ∈ (first :: others) :: rows, ∀ cell ∈ row, cell.HasNoGap := by
  obtain ⟨here, below⟩ := List.forall_mem_cons.1 more
  exact List.forall_mem_cons.2 ⟨List.forall_mem_cons.2 ⟨filled, here⟩, below⟩

theorem Derives.hasNoGap {tokens rest : List Token} {phrase : Phrase}
    (derived : Derives tokens rest phrase) : phrase.HasNoGap := by
  induction derived with
  | expression _ _ ih => exact ih
  | assignment _ ih => exact Expr.Everywhere.assign_iff.2 ⟨rfl, ih.compare⟩
  | @chain level _ _ _ _ _ _ _ operand links =>
    refine links ?_
    cases level <;> exact operand
  | unlinked => exact id
  | @link level _ _ _ _ lhs rhs _ _ _ _ operand links =>
    intro before
    refine links ?_
    cases level with
    | relation => exact Expr.Everywhere.compare_iff.2 ⟨rfl, before, operand⟩
    | sum | product => exact Expr.Everywhere.arith_iff.2 ⟨rfl, before, operand⟩
  | base _ ih => exact ih
  | power _ _ _ first more => exact Expr.Everywhere.arith_iff.2 ⟨rfl, first, more⟩
  | number | ident => simp [Phrase.HasNoGap, Expr.HasNoGap, Expr.Everywhere, Expr.nodes, Expr.class?]
  | sign _ _ ih => exact Expr.Everywhere.sign_iff.2 ⟨rfl, ih⟩
  | paren _ _ _ ih => exact Expr.Everywhere.paren_iff.2 ⟨rfl, ih⟩
  | emptyArray => exact Expr.Everywhere.array_iff.2 ⟨rfl, by simp⟩
  | array _ _ _ ih => exact Expr.Everywhere.array_iff.2 ⟨rfl, ih⟩
  | emptyMatrix => exact Expr.Everywhere.matrix_iff.2 ⟨rfl, by simp⟩
  | matrix _ _ _ _ first more => exact Expr.Everywhere.matrix_iff.2 ⟨rfl, filled_rows first more⟩
  | fraction _ _ _ _ above below =>
    have args : ∀ arg ∈ [_, _], Expr.HasNoGap arg :=
      List.forall_mem_cons.2 ⟨above, List.forall_mem_singleton.2 below⟩
    exact Expr.Everywhere.call_iff.2 ⟨rfl, args⟩
  | callGroups _ _ _ _ first more =>
    exact Expr.Everywhere.call_iff.2 ⟨rfl, List.forall_mem_cons.2 ⟨first, more⟩⟩
  | callEmpty => exact Expr.Everywhere.call_iff.2 ⟨rfl, by simp⟩
  | callList _ _ _ _ _ ih => exact Expr.Everywhere.call_iff.2 ⟨rfl, ih⟩
  | callBare _ _ _ _ ih => exact Expr.Everywhere.call_iff.2 ⟨rfl, List.forall_mem_singleton.2 ih⟩
  | group _ _ _ ih => exact ih
  | noGroups | noItems => simp [Phrase.HasNoGap]
  | groups _ _ first more | list _ _ first more | items _ _ _ first more =>
    exact List.forall_mem_cons.2 ⟨first, more⟩
  | noCells => simp [Phrase.HasNoGap]
  | cell _ _ _ first more => exact filled_rows first more
  | row _ _ _ first more =>
    -- What follows a semicolon is a row of its own.
    exact List.forall_mem_cons.2 ⟨by simp, filled_rows first more⟩

theorem Session.run_parse [Stack] (session : Session) :
    session.run .parse = (.ok (.verdict (parse session.tokens)),
      { session with cursor := (readAll Stack.nesting session.tokens).2 }) :=
  rfl

theorem parse_answers [Stack] (session : Session) :
    (∀ stop after, (layer Stack.nesting).expression.run.run ⟨session.tokens, []⟩ = (.error stop, after) →
      stop = .tooDeep) ∧
    ∃ answer after, session.run .parse = (.ok (.verdict answer), after) ∧ parse session.tokens = answer ∧
      match answer with
      | .ok expr => after.cursor.noted = [] ∧ expr.HasNoGap
      | .error diagnostics => after.cursor.noted = diagnostics ∧ diagnostics ≠ [] := by
  constructor
  · intro stop after
    exact (layer_guarded Stack.nesting).expression _ stop after
  · refine ⟨parse session.tokens, _, session.run_parse, rfl, ?_⟩
    cases parsed : parse session.tokens with
    | ok expr =>
      have filled : expr.HasNoGap := (derives_of_parseWithin parsed).hasNoGap
      exact ⟨noted_of_ok parsed, filled⟩
    | error diagnostics =>
      obtain ⟨present, same⟩ := noted_of_error parsed
      exact ⟨same.symm, present⟩

end Grammar

end FormulaCalculator
