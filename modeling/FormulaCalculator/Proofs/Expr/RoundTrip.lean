import FormulaCalculator.Expr.Bare
import FormulaCalculator.Proofs.Expr.Nodes
import FormulaCalculator.Proofs.Expr.Rereading
import FormulaCalculator.Proofs.Grammar.Image

set_option autoImplicit false

namespace FormulaCalculator

namespace Expr

mutual

/-- Each identifier under the name that it is written as. -/
def renamed : Expr → Expr
  | missing => missing
  | number text => number text
  | ident name => ident (writtenName name)
  | sign op operand => sign op (renamed operand)
  | arith op lhs rhs => arith op (renamed lhs) (renamed rhs)
  | compare rel lhs rhs => compare rel (renamed lhs) (renamed rhs)
  | assign lhs rhs => assign (renamed lhs) (renamed rhs)
  | call name args => call name (renamedAll args)
  | array items => array (renamedAll items)
  | matrix rows => matrix (renamedRows rows)
  | paren inner => paren (renamed inner)
  | word text => word text
  | tuple items => tuple (renamedAll items)

def renamedAll : List Expr → List Expr
  | [] => []
  | item :: items => renamed item :: renamedAll items

def renamedRows : List (List Expr) → List (List Expr)
  | [] => []
  | row :: rows => renamedAll row :: renamedRows rows

end

theorem renamedAll_eq_map (items : List Expr) : renamedAll items = items.map renamed := by
  induction items with
  | nil => rfl
  | cons item items ih => simp [renamedAll, ih]

def IsPlain (expr : Expr) : Prop :=
  expr.Everywhere fun node => node.class? ≠ some .call ∧ node.class? ≠ some .matrix

instance (expr : Expr) : Decidable expr.IsPlain := inferInstanceAs (Decidable (Everywhere _ expr))

def isLegibleNode : Expr → Bool
  | matrix _ => false
  | call name args => name == fraction || name == "\\" && args.length == 1
  | _ => true

theorem isLegibleNode_of_plain {node : Expr}
    (plain : node.class? ≠ some .call ∧ node.class? ≠ some .matrix) : node.isLegibleNode = true := by
  cases node <;> simp_all [class?, isLegibleNode]

def Rereads (expr : Expr) (read : Rereading) : Prop :=
  read.divisor? = none ∧ read.head.bare = expr.bare.renamed

theorem Rereads.whole {expr : Expr} {read : Rereading} (rereads : expr.Rereads read) :
    read.whole.bare = expr.bare.renamed := by
  obtain ⟨closed, same⟩ := rereads
  rcases read with ⟨head, divisor?⟩
  cases closed
  exact same

theorem Rereads.sided {expr : Expr} {read : Rereading} (rereads : expr.Rereads read) (needed : Bool) :
    expr.Rereads (read.sided needed) := by
  cases needed with
  | false => exact rereads
  | true => exact ⟨rfl, rereads.whole⟩

theorem Rereads.joined {lhs rhs : Expr} {left right : Rereading} (before : lhs.Rereads left)
    (after : rhs.Rereads right) (op : String) : (arith op lhs rhs).Rereads (.joined op left right) := by
  have leftWhole := before.whole
  have rightWhole := after.whole
  rcases left with ⟨left, left?⟩
  rcases right with ⟨right, right?⟩
  cases before.1
  cases after.1
  have same : Rereading.joined op ⟨left, none⟩ ⟨right, none⟩ = .closed (arith op left right) := by
    unfold Rereading.joined
    split
    next => rfl
    next => split <;> rfl
  rw [same]
  refine ⟨rfl, ?_⟩
  simp only [Rereading.whole] at leftWhole rightWhole
  simp [Rereading.closed, bare, renamed, leftWhole, rightWhole]

theorem Legible.rereads {expr : Expr} (legible : Legible expr) (plain : expr.IsPlain) :
    expr.Rereads expr.rereading := by
  induction legible with
  | number | ident => exact ⟨rfl, rfl⟩
  | @sign op operand _ _ _ ih =>
    obtain ⟨closed, same⟩ := (ih plain.sign).sided operand.isJoined
    refine ⟨by rw [rereading]; exact closed, ?_⟩
    rw [rereading, bare, bare, renamed, same]
  | arith _ _ _ _ _ ihLeft ihRight =>
    rw [rereading]
    exact ((ihLeft plain.arith.1).sided _).joined ((ihRight plain.arith.2).sided _) _
  | compare _ _ _ _ ihLeft ihRight =>
    refine ⟨rfl, ?_⟩
    rw [rereading, Rereading.closed, bare, bare, renamed, ((ihLeft plain.compare.1).sided _).whole,
      ((ihRight plain.compare.2).sided _).whole]
  | @assign name rhs isIdent _ _ ih =>
    have left : (Expr.ident name).Rereads (rereading (Expr.ident name)) := ⟨rfl, rfl⟩
    refine ⟨rfl, ?_⟩
    rw [rereading, Rereading.closed, bare, bare, renamed, (left.sided _).whole,
      ((ih plain.assign.2).sided _).whole]
  | fraction | nameless => exact absurd rfl plain.here.1
  | @array items _ _ ih =>
    refine ⟨rfl, ?_⟩
    have each : ∀ item ∈ items, ((bare ∘ Rereading.whole) ∘ rereading) item = (renamed ∘ bare) item :=
      fun item isItem => (ih item isItem (plain.array item isItem)).whole
    rw [rereading, Rereading.closed, bare, bare, renamed, rereadingAll_eq_map, bareAll_eq_map,
      bareAll_eq_map, renamedAll_eq_map, List.map_map, List.map_map, List.map_map,
      List.map_congr_left each]
  | paren _ _ ih =>
    refine ⟨rfl, ?_⟩
    rw [rereading, Rereading.closed, bare, bare, (ih plain.paren).whole]

end Expr

namespace Grammar

theorem WellFormed.kept {place : Place} {expr : Expr} (wellFormed : WellFormed place expr)
    (inner : place ≠ .comparison) : expr.isEquation = false := by
  induction wellFormed with
  | slot _ kept => exact kept
  | compare | comparison => exact absurd rfl inner
  | additive _ ih | term _ ih | exponent _ ih => exact ih nofun
  | _ => rfl

theorem WellFormed.legible {place : Place} {expr : Expr} (wellFormed : WellFormed place expr)
    (flat : expr.Everywhere (·.isLegibleNode = true)) : expr.Legible := by
  induction wellFormed with
  | assign isIdent right ih => exact .assign isIdent (ih flat.assign.2) (right.kept nofun)
  | slot _ _ ih | comparison _ ih | additive _ ih | term _ ih | exponent _ ih => exact ih flat
  | compare relates _ right ihLeft ihRight =>
    exact .compare relates (ihLeft flat.compare.1) (ihRight flat.compare.2) (right.kept nofun)
  | sum joins left right ihLeft ihRight =>
    exact .arith (by simp [joins]) (ihLeft flat.arith.1) (left.kept nofun) (ihRight flat.arith.2)
      (right.kept nofun)
  | product joins left right ihLeft ihRight =>
    exact .arith (by simp [joins]) (ihLeft flat.arith.1) (left.kept nofun) (ihRight flat.arith.2)
      (right.kept nofun)
  | power left _ right ihLeft ihRight =>
    exact .arith (by simp) (ihLeft flat.arith.1) (left.kept nofun) (ihRight flat.arith.2)
      (right.kept nofun)
  | number isNumber => exact .number isNumber
  | ident isIdent => exact .ident isIdent
  | sign isSign inside ih => exact .sign isSign (ih flat.sign) (inside.kept nofun)
  | paren inside ih => exact .paren (ih flat.paren) (inside.kept nofun)
  | array inside ih =>
    exact .array (fun item isItem => ih item isItem (flat.array item isItem))
      fun item isItem => (inside item isItem).kept nofun
  | matrix => exact absurd flat.here (by simp [Expr.isLegibleNode])
  | fraction above below ihAbove ihBelow =>
    exact .fraction (ihAbove (flat.call _ (by simp))) (above.kept nofun)
      (ihBelow (flat.call _ (by simp))) (below.kept nofun)
  | @call name args _ named inside ih =>
    have here : name = "\\" ∧ args.length = 1 := by simpa [Expr.isLegibleNode, named] using flat.here
    obtain ⟨rfl, single⟩ := here
    obtain ⟨arg, rfl⟩ := List.length_eq_one_iff.1 single
    exact .nameless (ih arg (by simp) (flat.call arg (by simp))) ((inside arg (by simp)).kept nofun)

theorem flat_round_trip [Stack] {expr : Expr} (plain : expr.IsPlain)
    (origin : expr.Legible ∧ expr.isEquation = false ∨ ∃ text, parseText text = .ok expr)
    (low : expr.isTall = false) (unbroken : ¬ BreaksOff Stack.nesting (Token.scan expr.flatText)) :
    ∃ text back, expr.flat = .ok text ∧ parseText text = .ok back ∧ back.bare = expr.bare.renamed := by
  obtain ⟨legible, kept⟩ : expr.Legible ∧ expr.isEquation = false := by
    rcases origin with legible | ⟨text, parsed⟩
    · exact legible
    · have wellFormed := wellFormed_of_parseText parsed
      have legible := wellFormed.legible (plain.mono fun node => Expr.isLegibleNode_of_plain)
      exact ⟨legible, wellFormed.kept nofun⟩
  refine ⟨expr.flatText, expr.back, legible.regular.flat_ok low, ?_, (legible.rereads plain).whole⟩
  exact legible.parseText_flatText kept unbroken

theorem nested_difference_round_trip :
    ∃ text back,
      (Expr.arith "-" (.ident "a") (.arith "-" (.ident "π") (.sign "-" (.number "1")))).flat = .ok text ∧
      parseText text = .ok back ∧
      back.bare = .arith "-" (.ident "a") (.arith "-" (.ident "pi") (.sign "-" (.number "1"))) :=
  flat_round_trip (by decide) (.inl ⟨.arith (by decide) (.ident rfl) rfl
    (.arith (by decide) (.ident rfl) rfl (.sign (by decide) (.number rfl) rfl) rfl) rfl, rfl⟩) rfl
    (by decide +kernel)

end Grammar

end FormulaCalculator
