import FormulaCalculator.Diagnostic
import FormulaCalculator.Expr.Basic

set_option autoImplicit false

namespace FormulaCalculator.Grammar

structure Cursor where
  rest : List Token
  noted : List Diagnostic
deriving DecidableEq, Repr

inductive Stop where
  | tooDeep
  | noCommand
  | outOfRange
deriving DecidableEq, Repr

/-- The cursor survives a stop. -/
abbrev Reading (α : Type) := ExceptT Stop (StateM Cursor) α

theorem run_bind {α β : Type} (step : Reading α) (next : α → Reading β) (cursor : Cursor) :
    (step >>= next).run.run cursor =
      match step.run.run cursor with
      | (.ok value, after) => (next value).run.run after
      | (.error stop, after) => (.error stop, after) := by
  rw [ExceptT.run_bind, StateT.run_bind]
  rcases step.run.run cursor with ⟨value | stop, after⟩ <;> rfl

def peek : Reading (Option Token) := do
  return (← get).rest.head?

def advance : Reading Unit :=
  modify fun cursor => { cursor with rest := cursor.rest.tail }

def note (problem : Problem) (token : Option Token) : Reading Unit :=
  modify fun cursor => { cursor with noted := cursor.noted ++ [⟨problem, token⟩] }

def isNext (kinds : Kind → Bool) : Reading Bool := do
  return (← peek).any (kinds ·.kind)

def takeIf (kinds : Kind → Bool) : Reading (Option Token) := do
  match ← peek with
  | some token =>
    if kinds token.kind then
      advance
      return some token
    else return none
  | none => return none

-- A token of another kind is noted and left where it is.
def consume (wanted : Option Kind) : Reading (Option Token) := do
  match ← peek, wanted with
  | none, some kind =>
    note (.ended (.token kind)) none
    return none
  | none, none =>
    note (.ended .anyToken) none
    return none
  | some token, some kind =>
    if token.kind = kind then
      advance
      return some token
    else
      note (.mismatch kind token.kind) (some token)
      return none
  | some token, none =>
    advance
    return some token

def require (kind : Kind) : Reading Unit :=
  discard (consume (some kind))

-- A bound on how often a loop turns that takes a token each time.
def remaining : Reading Nat := do
  return (← get).rest.length

end FormulaCalculator.Grammar
