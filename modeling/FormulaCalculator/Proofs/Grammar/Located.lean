import FormulaCalculator.Proofs.Grammar.Acceptance
import FormulaCalculator.Proofs.Grammar.FirstNote
import Mathlib.Order.Lattice.Nat

set_option autoImplicit false

namespace FormulaCalculator.Grammar

/-- Some list that is accepted, however deeply it nests, begins with these tokens. -/
def Extensible (tokens : List Token) : Prop :=
  ∃ more depth expr, parseWithin depth (tokens ++ more) = .ok expr

theorem extensible_of_makes {tokens more : List Token} {expr : Expr}
    (makes : Makes (tokens ++ more) (.expression expr)) : Extensible tokens :=
  ⟨more, expr.height, expr, (parseWithin_ok_iff (.inl (Nat.le_refl _))).2 makes.alone⟩

/-- The command of a missing group stands for it. -/
def Locates (diagnostic : Diagnostic) (used : List Token) (next : Option Token) : Prop :=
  (∀ command, AwaitsGroup command used → diagnostic.token = some command) ∧
    ((∀ command, ¬ AwaitsGroup command used) → diagnostic.token = next)

theorem Broken.locates {first : Diagnostic} {used mid : List Token}
    (broken : Broken IsExpression first used mid) : Locates first used mid.head? := by
  obtain ⟨better, more, ⟨expr, makes⟩, marks⟩ := broken
  cases marks with
  | here carries bare =>
    -- No command waits for a group here, for no brace was wanted.
    refine ⟨fun command awaits => ?_, fun _ => carries⟩
    have brace := awaits.next makes.whole
    exact absurd (by simpa using brace) bare.1
  | group awaits carries =>
    refine ⟨fun command also => ?_, fun none => absurd awaits (none _)⟩
    rw [carries, awaits.unique also]

theorem Broken.extensible {first : Diagnostic} {used mid : List Token}
    (broken : Broken IsExpression first used mid) : Extensible used := by
  obtain ⟨better, more, ⟨expr, makes⟩, -⟩ := broken
  exact extensible_of_makes makes

theorem Derives.run {tokens : List Token} {expr : Expr} {depth : Nat}
    (derived : Derives tokens [] (.expression expr)) (low : expr.height ≤ depth) :
    (layer depth).expression.run.run ⟨tokens, []⟩ = (.ok expr, ⟨[], []⟩) := by
  have met : Meets (depth < expr.height) (layer depth).expression tokens expr [] :=
    derived.met (by simp [Phrase.Ends]) depth
  exact (met []).resolve_right fun excused => absurd excused.1 (by omega)

def leftNote : List Token → List Diagnostic
  | [] => []
  | token :: rest => [⟨.leftOver ((token :: rest).map Token.text), some token⟩]

theorem readAll_of_run {depth : Nat} {tokens rest : List Token} {gained : List Diagnostic} {expr : Expr}
    (run : (layer depth).expression.run.run ⟨tokens, []⟩ = (.ok expr, ⟨rest, gained⟩)) :
    readAll depth tokens = (expr, ⟨rest, gained ++ leftNote rest⟩) := by
  unfold readAll
  rw [run]
  cases rest <;> simp [leftNote]

theorem noted_of_ok {depth : Nat} {tokens : List Token} {expr : Expr}
    (parsed : parseWithin depth tokens = .ok expr) : (readAll depth tokens).2.noted = [] := by
  rcases read : readAll depth tokens with ⟨given, cursor⟩
  simp only [parseWithin, verdict, read] at parsed
  split at parsed
  next isEmpty => exact List.isEmpty_iff.1 isEmpty
  next => cases parsed

theorem noted_of_error {depth : Nat} {tokens : List Token} {noted : List Diagnostic}
    (rejected : parseWithin depth tokens = .error noted) :
    noted ≠ [] ∧ noted = (readAll depth tokens).2.noted := by
  rcases read : readAll depth tokens with ⟨expr, cursor⟩
  simp only [parseWithin, verdict, read] at rejected
  split at rejected
  next => cases rejected
  next present =>
    cases rejected
    exact ⟨by simpa using present, rfl⟩

variable {tokens : List Token} {noted : List Diagnostic}

theorem first_diagnostic [Stack] (rejected : parse tokens = .error noted)
    (unbroken : ¬ BreaksOff Stack.nesting tokens) (size : Nat) {deep : Nat} (room : Stack.nesting ≤ deep) :
    ∃ first used mid, tokens = used ++ mid ∧ noted.head? = some first ∧ Extensible used ∧
      Locates first used mid.head? ∧ ∀ other expr, other.head? = mid.head? →
        (used ++ other).length ≤ size → expr.height ≤ deep →
          ¬ Derives (used ++ other) [] (.expression expr) := by
  have tracks := (layer_deepens size room).expression
  have sound := (layer_sound Stack.nesting).expression
  obtain ⟨present, same⟩ := noted_of_error rejected
  rcases run : (layer Stack.nesting).expression.run.run ⟨tokens, []⟩ with ⟨stop | value, rest, gained⟩
  next => simp [BreaksOff, readAll, run] at unbroken
  next =>
    rw [readAll_of_run run] at same
    cases gained with
    | cons first more =>
      obtain ⟨used, mid, rfl, broken, again⟩ := tracks.stuck tokens [] first _ rest more trivial run
      refine ⟨first, used, mid, rfl, by simp [same], broken.extensible, broken.locates, ?_⟩
      intro other expr next short low derived
      have noteless := again other [] next short
      rw [derived.run low] at noteless
      exact noteless rfl
    | nil =>
      -- Nothing was noted while an expression was read, so the note is about what is left over.
      cases rest with
      | nil => exact absurd same present
      | cons token rest =>
        obtain ⟨used, split⟩ := sound.passes ⟨tokens, []⟩
        rw [run] at split
        obtain rfl : used ++ token :: rest = tokens := split
        have makes := (sound.means _ _ _ _ run).makes_front
        have used_extensible : Extensible used := extensible_of_makes (by rwa [List.append_nil])
        refine ⟨_, used, token :: rest, rfl, by rw [same]; rfl, used_extensible, ?_, ?_⟩
        · exact ⟨fun command awaits => (awaits.absurd_whole makes.whole).elim, fun _ => rfl⟩
        · intro other expr next _ low derived
          have again := tracks.clean used (token :: rest) [] value trivial run other [] next
          rw [derived.run low] at again
          have ended : [] = other :=
            congrArg (fun result : Except Stop Expr × Cursor => result.2.rest) again
          simp [← ended] at next

theorem extensible_nil : Extensible [] := by
  obtain ⟨expr, makes⟩ := isExpression_sample
  exact extensible_of_makes makes

theorem exists_longest_extensible (tokens : List Token) :
    ∃ k, IsGreatest {n | n ≤ tokens.length ∧ Extensible (tokens.take n)} k := by
  have bounded : BddAbove {n | n ≤ tokens.length ∧ Extensible (tokens.take n)} :=
    ⟨tokens.length, fun _ member => member.1⟩
  have inhabited : {n | n ≤ tokens.length ∧ Extensible (tokens.take n)}.Nonempty :=
    ⟨0, Nat.zero_le _, extensible_nil⟩
  exact ⟨_, Nat.sSup_mem inhabited bounded, fun _ member => le_csSup bounded member⟩

theorem first_diagnostic_located [Stack] (rejected : parse tokens = .error noted)
    (unbroken : ¬ BreaksOff Stack.nesting tokens) :
    ∃ k first, IsGreatest {n | n ≤ tokens.length ∧ Extensible (tokens.take n)} k ∧
      noted.head? = some first ∧ Locates first (tokens.take k) tokens[k]? := by
  obtain ⟨k, greatest⟩ := exists_longest_extensible tokens
  obtain ⟨within, more, depth, expr, parsed⟩ := greatest.1
  obtain ⟨first, used, mid, rfl, isFirst, extensible, locates, never⟩ :=
    first_diagnostic rejected unbroken ((tokens.take k) ++ more).length
      (le_max_left Stack.nesting expr.height)
  -- The diagnostic is about some place. That is not before the longest part ends, nor behind it.
  have short : used.length ≤ k := greatest.2 ⟨by simp, by simpa using extensible⟩
  obtain ⟨extra, rfl⟩ := Nat.exists_eq_add_of_le short
  have front : (used ++ mid).take (used.length + extra) = used ++ mid.take extra :=
    List.take_length_add_append extra
  rw [front, List.append_assoc] at parsed
  cases extra with
  | zero =>
    refine ⟨used.length, first, greatest, isFirst, ?_⟩
    simpa [List.getElem?_append, List.head?_eq_getElem?] using locates
  | succ extra =>
    -- An accepted list would go on with the token that the diagnostic is about.
    have next : (mid.take (extra + 1) ++ more).head? = mid.head? := by
      cases mid with
      | nil =>
        rw [List.append_nil] at within
        omega
      | cons token mid => rfl
    have longEnough : (used ++ (mid.take (extra + 1) ++ more)).length ≤
        ((used ++ mid).take (used.length + (extra + 1)) ++ more).length := by
      rw [front, List.append_assoc]
    exact absurd (derives_of_parseWithin parsed) (never _ expr next longEnough (le_max_right _ _))

theorem missing_denominator_located :
    ∃ k first, IsGreatest {n | n ≤ (Token.scan "\\frac\x7b1\x7d+2").length ∧
        Extensible ((Token.scan "\\frac\x7b1\x7d+2").take n)} k ∧
      [Diagnostic.mk .noDenominator (some ⟨.command, "\\frac", some 0⟩)].head? = some first ∧
        Locates first ((Token.scan "\\frac\x7b1\x7d+2").take k) (Token.scan "\\frac\x7b1\x7d+2")[k]? :=
  have noted : (readAll Stack.nesting (Token.scan "\\frac\x7b1\x7d+2")).2.noted =
      [⟨.noDenominator, some ⟨.command, "\\frac", some 0⟩⟩] := by decide +kernel
  have rejected : parse (Token.scan "\\frac\x7b1\x7d+2") =
      .error [⟨.noDenominator, some ⟨.command, "\\frac", some 0⟩⟩] := by
    simp [parse, parseWithin, verdict, noted]
  first_diagnostic_located rejected (by simp [BreaksOff, noted])

end FormulaCalculator.Grammar
