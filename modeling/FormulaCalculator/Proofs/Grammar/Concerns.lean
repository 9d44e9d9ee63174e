import FormulaCalculator.Proofs.Grammar.Located

set_option autoImplicit false

namespace FormulaCalculator

variable (known : Token → Prop)

-- The kinds and texts of a problem are those of known tokens, or a kind that the grammar asks for.
def Problem.Concerns : Problem → Prop
  | ended (.token kind) => kind ∈ Kind.named
  | mismatch wanted found => wanted ∈ Kind.named ∧ ∃ token, known token ∧ token.kind = found
  | unexpected found | strayInMatrix found => ∃ token, known token ∧ token.kind = found
  | leftOver texts => ∀ text ∈ texts, ∃ token, known token ∧ token.text = text
  | remark _ => False
  | ended _ | noNumerator | noDenominator | tooDeep => True

structure Diagnostic.Concerns (diagnostic : Diagnostic) : Prop where
  token : ∀ token ∈ diagnostic.token, known token
  problem : diagnostic.problem.Concerns known

namespace Grammar

structure Cursor.Fits (cursor : Cursor) : Prop where
  ahead : ∀ token ∈ cursor.rest, known token
  told : ∀ diagnostic ∈ cursor.noted, diagnostic.Concerns known

variable {α β : Type}

def Keeps (post : α → Prop) (step : Reading α) : Prop :=
  ∀ cursor : Cursor, cursor.Fits known →
    (step.run.run cursor).2.Fits known ∧ ∀ value, (step.run.run cursor).1 = .ok value → post value

abbrev KeepsTo (step : Reading α) : Prop := Keeps known (fun _ => True) step

variable {known}

namespace Keeps

theorem bind {step : Reading α} {next : α → Reading β} {first : α → Prop} {post : β → Prop}
    (keeps : Keeps known first step) (after : ∀ given, first given → Keeps known post (next given)) :
    Keeps known post (step >>= next) := by
  intro cursor fits
  obtain ⟨between, holds⟩ := keeps cursor fits
  rcases run : step.run.run cursor with ⟨stop | given, mid⟩ <;> rw [run] at between holds
  next =>
    rw [run_bind_error run]
    exact ⟨between, nofun⟩
  next =>
    rw [run_bind_ok run]
    exact after given (holds given rfl) mid between

theorem pure {value : α} {post : α → Prop} (holds : post value) : Keeps known post (pure value) := by
  intro cursor fits
  refine ⟨fits, ?_⟩
  intro given same
  cases same
  exact holds

theorem throw (stop : Stop) (post : α → Prop) : Keeps known post (throw stop : Reading α) :=
  fun _ fits => ⟨fits, nofun⟩

theorem peek : Keeps known (fun found => ∀ token ∈ found, known token) peek := by
  intro cursor fits
  refine ⟨fits, ?_⟩
  intro found same token isFirst
  cases same
  exact fits.ahead token (List.mem_of_mem_head? isFirst)

theorem advance : KeepsTo known advance := by
  intro cursor fits
  refine ⟨⟨?_, fits.told⟩, fun _ _ => trivial⟩
  intro token inside
  exact fits.ahead token (List.mem_of_mem_tail inside)

theorem note {problem : Problem} {token : Option Token} (about : problem.Concerns known)
    (pointed : ∀ found ∈ token, known found) : KeepsTo known (note problem token) := by
  intro cursor fits
  refine ⟨⟨fits.ahead, ?_⟩, fun _ _ => trivial⟩
  intro diagnostic told
  rcases List.mem_append.1 told with before | here
  · exact fits.told diagnostic before
  · rw [List.mem_singleton.1 here]
    exact ⟨pointed, about⟩

theorem unpointed : ∀ token ∈ (none : Option Token), known token := by simp

theorem remaining : KeepsTo known remaining := fun _ fits => ⟨fits, fun _ _ => trivial⟩

theorem isNext (kinds : Kind → Bool) : KeepsTo known (isNext kinds) :=
  peek.bind fun _ _ => pure trivial

theorem takeIf (kinds : Kind → Bool) :
    Keeps known (fun found => ∀ token ∈ found, known token) (takeIf kinds) := by
  apply peek.bind
  intro found isKnown
  cases found with
  | none => exact pure nofun
  | some token =>
    dsimp only
    split
    next => exact advance.bind fun _ _ => pure isKnown
    next => exact pure nofun

theorem consume {wanted : Option Kind} (named : ∀ kind ∈ wanted, kind ∈ Kind.named) :
    Keeps known (fun found => ∀ token ∈ found, known token) (consume wanted) := by
  apply peek.bind
  intro found isKnown
  cases found with
  | none =>
    cases wanted with
    | none =>
      have about : (Problem.ended .anyToken).Concerns known := trivial
      exact (note about unpointed).bind fun _ _ => pure nofun
    | some kind =>
      have about : (Problem.ended (.token kind)).Concerns known := named kind rfl
      exact (note about unpointed).bind fun _ _ => pure nofun
  | some token =>
    cases wanted with
    | none => exact advance.bind fun _ _ => pure isKnown
    | some kind =>
      have about : (Problem.mismatch kind token.kind).Concerns known :=
        ⟨named kind rfl, token, isKnown token rfl, rfl⟩
      dsimp only
      split
      next => exact advance.bind fun _ _ => pure isKnown
      next => exact (note about isKnown).bind fun _ _ => pure nofun

theorem require {kind : Kind} (named : kind ∈ Kind.named) : KeepsTo known (require kind) := by
  have only : ∀ wanted ∈ some kind, wanted ∈ Kind.named := by simpa using named
  exact (consume only).bind fun _ _ => pure trivial

theorem chain (kinds : Kind → Bool) (join : String → Expr → Expr → Expr) {operand : Reading Expr}
    (keeps : KeepsTo known operand) (bound : Nat) (lhs : Expr) :
    KeepsTo known (chain kinds join operand bound lhs) := by
  induction bound generalizing lhs with
  | zero => exact pure trivial
  | succ bound ih =>
    apply (takeIf kinds).bind
    intro op _
    cases op with
    | none => exact pure trivial
    | some op => exact keeps.bind fun rhs _ => ih _

theorem leftGrouped (kinds : Kind → Bool) (join : String → Expr → Expr → Expr) {operand : Reading Expr}
    (keeps : KeepsTo known operand) : KeepsTo known (leftGrouped kinds join operand) :=
  keeps.bind fun first _ => remaining.bind fun bound _ => chain kinds join keeps bound first

end Keeps

structure KeepsLayer (known : Token → Prop) (inner : Layer) : Prop where
  expression : KeepsTo known inner.expression
  exponent : KeepsTo known inner.exponent
  primary : KeepsTo known inner.primary

namespace KeepsLayer

variable {inner : Layer}

theorem group (keeps : KeepsLayer known inner) : KeepsTo known inner.group :=
  (Keeps.require (by decide)).bind fun _ _ => keeps.expression.bind fun _ _ =>
    (Keeps.require (by decide)).bind fun _ _ => .pure trivial

theorem groups (keeps : KeepsLayer known inner) (bound : Nat) : KeepsTo known (inner.groups bound) := by
  induction bound with
  | zero => exact .pure trivial
  | succ bound ih =>
    apply (Keeps.isNext _).bind
    intro more _
    cases more with
    | false => exact .pure trivial
    | true => exact keeps.group.bind fun _ _ => ih.bind fun _ _ => .pure trivial

theorem afterCommas (keeps : KeepsLayer known inner) (bound : Nat) :
    KeepsTo known (inner.afterCommas bound) := by
  induction bound with
  | zero => exact .pure trivial
  | succ bound ih =>
    apply (Keeps.takeIf _).bind
    intro comma _
    cases comma with
    | none => exact .pure trivial
    | some _ => exact keeps.expression.bind fun _ _ => ih.bind fun _ _ => .pure trivial

theorem list (keeps : KeepsLayer known inner) : KeepsTo known inner.list :=
  keeps.expression.bind fun _ _ => Keeps.remaining.bind fun bound _ =>
    (keeps.afterCommas bound).bind fun _ _ => .pure trivial

theorem fraction (keeps : KeepsLayer known inner) {command : Option Token}
    (isKnown : ∀ token ∈ command, known token) : KeepsTo known (inner.fraction command) := by
  have refused {problem : Problem} (about : problem.Concerns known) :
      KeepsTo known (note problem command >>= fun _ => (pure .missing : Reading Expr)) :=
    (Keeps.note about isKnown).bind fun _ _ => .pure trivial
  have noNumerator : Problem.noNumerator.Concerns known := trivial
  have noDenominator : Problem.noDenominator.Concerns known := trivial
  apply (Keeps.isNext _).bind
  intro above _
  cases above with
  | false => exact refused noNumerator
  | true =>
    apply keeps.group.bind
    intro _ _
    apply (Keeps.isNext _).bind
    intro below _
    cases below with
    | false => exact refused noDenominator
    | true => exact keeps.group.bind fun _ _ => .pure trivial

theorem arguments (keeps : KeepsLayer known inner) : KeepsTo known inner.arguments := by
  apply (Keeps.isNext _).bind
  intro braced _
  cases braced with
  | true => exact Keeps.remaining.bind fun bound _ => keeps.groups bound
  | false =>
    apply (Keeps.takeIf _).bind
    intro left _
    cases left with
    | none => exact keeps.primary.bind fun _ _ => .pure trivial
    | some _ =>
      apply (Keeps.isNext _).bind
      intro empty _
      have closes (args : List Expr) :
          KeepsTo known (require .rightParen >>= fun _ => (pure args : Reading (List Expr))) :=
        (Keeps.require (by decide)).bind fun _ _ => .pure trivial
      cases empty with
      | true => exact closes []
      | false => exact keeps.list.bind fun args _ => closes args

theorem command (keeps : KeepsLayer known inner) : KeepsTo known inner.command := by
  have anyKind : ∀ kind ∈ (none : Option Kind), kind ∈ Kind.named := nofun
  apply (Keeps.consume anyKind).bind
  intro command isKnown
  cases command with
  | none => exact .throw .noCommand _
  | some token =>
    dsimp only
    split
    next => exact keeps.fraction isKnown
    next => exact keeps.arguments.bind fun _ _ => .pure trivial

theorem array (keeps : KeepsLayer known inner) : KeepsTo known inner.array := by
  apply (Keeps.require (by decide)).bind
  intro _ _
  apply (Keeps.takeIf _).bind
  intro right _
  cases right with
  | some _ => exact .pure trivial
  | none =>
    exact keeps.list.bind fun _ _ => (Keeps.require (by decide)).bind fun _ _ => .pure trivial

theorem cells (keeps : KeepsLayer known inner) (bound : Nat) : KeepsTo known (inner.cells bound) := by
  induction bound with
  | zero => exact .pure trivial
  | succ bound ih =>
    -- Both marks between cells lead to a cell, and differ only in the row that it is put into.
    have cell (change : Expr → List Expr × List (List Expr) → List Expr × List (List Expr)) :
        KeepsTo known (advance >>= fun _ => inner.expression >>= fun expr =>
          inner.cells bound >>= fun others => pure (change expr others)) :=
      Keeps.advance.bind fun _ _ => keeps.expression.bind fun _ _ => ih.bind fun _ _ => .pure trivial
    apply Keeps.peek.bind
    intro found isKnown
    cases found with
    | none => exact .pure trivial
    | some token =>
      have about : (Problem.strayInMatrix token.kind).Concerns known := ⟨token, isKnown token rfl, rfl⟩
      dsimp only
      split
      next => exact .pure trivial
      next => exact cell _
      next => exact cell _
      next => exact (Keeps.note about isKnown).bind fun _ _ => Keeps.advance.bind fun _ _ => ih

theorem matrix (keeps : KeepsLayer known inner) : KeepsTo known inner.matrix := by
  apply (Keeps.require (by decide)).bind
  intro _ _
  apply (Keeps.takeIf _).bind
  intro right _
  cases right with
  | some _ => exact .pure trivial
  | none =>
    exact keeps.expression.bind fun _ _ => Keeps.remaining.bind fun bound _ =>
      (keeps.cells bound).bind fun _ _ => (Keeps.require (by decide)).bind fun _ _ => .pure trivial

theorem primaryFrom (keeps : KeepsLayer known inner) : KeepsTo known inner.primaryFrom := by
  have signed (op : String) : KeepsTo known (advance >>= fun _ => inner.exponent >>= fun operand =>
      (pure (.sign op operand) : Reading Expr)) :=
    Keeps.advance.bind fun _ _ => keeps.exponent.bind fun _ _ => .pure trivial
  apply Keeps.peek.bind
  intro found isKnown
  cases found with
  | none =>
    have about : (Problem.ended .expression).Concerns known := trivial
    exact (Keeps.note about Keeps.unpointed).bind fun _ _ => .pure trivial
  | some token =>
    have about : (Problem.unexpected token.kind).Concerns known := ⟨token, isKnown token rfl, rfl⟩
    dsimp only
    split
    next => exact Keeps.advance.bind fun _ _ => .pure trivial
    next => exact Keeps.advance.bind fun _ _ => .pure trivial
    next => exact keeps.command
    next =>
      exact Keeps.advance.bind fun _ _ => keeps.expression.bind fun _ _ =>
        (Keeps.require (by decide)).bind fun _ _ => .pure trivial
    next => exact keeps.array
    next => exact keeps.matrix
    next => exact signed token.text
    next => exact signed token.text
    next => exact (Keeps.note about isKnown).bind fun _ _ => Keeps.advance.bind fun _ _ => .pure trivial

theorem outward (keeps : KeepsLayer known inner) : KeepsLayer known inner.outward := by
  have exponent : KeepsTo known inner.exponentFrom := by
    apply keeps.primaryFrom.bind
    intro base _
    apply (Keeps.takeIf _).bind
    intro op _
    cases op with
    | none => exact .pure trivial
    | some op => exact keeps.exponent.bind fun _ _ => .pure trivial
  have comparison : KeepsTo known inner.comparison :=
    .leftGrouped _ _ (.leftGrouped _ _ (.leftGrouped _ _ exponent))
  refine ⟨?_, exponent, keeps.primaryFrom⟩
  change KeepsTo known (assignment <$> inner.comparison)
  rw [map_eq_pure_bind]
  exact comparison.bind fun _ _ => .pure trivial

end KeepsLayer

theorem layer_keeps (depth : Nat) : KeepsLayer known (layer depth) := by
  induction depth with
  | zero => exact ⟨.throw _ _, .throw _ _, .throw _ _⟩
  | succ depth ih => exact ih.outward

theorem readAll_keeps (depth : Nat) (tokens : List Token) :
    ∀ diagnostic ∈ (readAll depth tokens).2.noted, diagnostic.Concerns (· ∈ tokens) := by
  have start : (Cursor.mk tokens []).Fits (· ∈ tokens) := ⟨fun _ inside => inside, by simp⟩
  have fits := ((layer_keeps depth).expression ⟨tokens, []⟩ start).1
  rcases run : (layer depth).expression.run.run ⟨tokens, []⟩ with ⟨stop | expr, rest, noted⟩ <;> rw [run] at fits
  next =>
    have read : readAll depth tokens = (.missing, ⟨rest, noted ++ [⟨.tooDeep, none⟩]⟩) := by
      rw [readAll, run]
    have tooDeep : (Diagnostic.mk .tooDeep none).Concerns (· ∈ tokens) := ⟨Keeps.unpointed, trivial⟩
    rw [read]
    exact List.forall_mem_append.2 ⟨fits.told, List.forall_mem_singleton.2 tooDeep⟩
  next =>
    have leftOver : ∀ diagnostic ∈ leftNote rest, diagnostic.Concerns (· ∈ tokens) := by
      cases rest with
      | nil => simp [leftNote]
      | cons token rest =>
        intro diagnostic listed
        rw [List.mem_singleton.1 listed]
        constructor
        · simpa using fits.ahead token (by simp)
        · intro text inside
          obtain ⟨other, isLeft, same⟩ := List.mem_map.1 inside
          exact ⟨other, fits.ahead other isLeft, same⟩
    rw [readAll_of_run run]
    exact List.forall_mem_append.2 ⟨fits.told, leftOver⟩

theorem concerns_of_parse [Stack] {tokens : List Token} {diagnostics : List Diagnostic}
    (rejected : parse tokens = .error diagnostics) :
    ∀ diagnostic ∈ diagnostics, diagnostic.Concerns (· ∈ tokens) := by
  rw [(noted_of_error rejected).2]
  exact readAll_keeps Stack.nesting tokens

end Grammar

end FormulaCalculator
