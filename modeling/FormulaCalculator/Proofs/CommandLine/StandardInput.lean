import FormulaCalculator.Proofs.CommandLine.Effects
import FormulaCalculator.Proofs.Text.Lines

set_option autoImplicit false

namespace FormulaCalculator.CommandLine

/-- What is read of an input: all of it up to its end, and what an interrupt leaves of it. -/
inductive Delivers : Input → List Char → Prop
  | atEnd (text : String) : Delivers ⟨text, false⟩ text.toList
  | atInterrupt {text : String} {told : List Char} (cut : Text.Settled text.toList told) :
      Delivers ⟨text, true⟩ told

theorem delivers_iff {input : Input} {told : List Char} : Delivers input told ↔ told = input.delivered := by
  constructor
  · rintro (_ | cut)
    · rfl
    · exact Text.settled_iff.1 cut
  · rintro rfl
    obtain ⟨text, interrupted⟩ := input
    cases interrupted with
    | false => exact .atEnd text
    | true => exact .atInterrupt (Text.settled_settled text.toList)

theorem entered_expressions {input : Input} {texts : List String} :
    Text.Entered input.delivered (texts.map String.toList) ↔ texts = input.expressions := by
  have same : input.expressions.map String.toList =
      ((Text.lines input.delivered).map Text.strip).filter (· ≠ []) := by
    unfold Input.expressions
    induction (Text.lines input.delivered).map Text.strip with
    | nil => rfl
    | cons line lines ih => cases line <;> simp_all
  rw [Text.entered_iff, ← same]
  exact (List.map_injective_iff.2 fun _ _ => String.toList_injective).eq_iff

theorem runBy_congr [Stack] (evaluator : Evaluator) (settings : Settings) (debugVariable : Option String)
    {args others : List String} {flags : List Flag} {texts more : List String} {input unread : Input}
    (read : readOptions args = .ok (flags, texts)) (also : readOptions others = .ok (flags, more))
    (same : input.unless texts = unread.unless more) :
    runBy evaluator settings debugVariable args input =
      runBy evaluator settings debugVariable others unread := by
  unfold runBy
  rw [read, also]
  simp only [same]

theorem lines_as_arguments [Stack] (evaluator : Evaluator) (settings : Settings)
    (debugVariable : Option String) {options : List String} {flags : List Flag}
    (given : Options options flags) (input : Input)
    (typed : ∃ c ∈ input.delivered, Text.isBlank c = false) :
    (∀ told, Delivers input told ↔ told = input.delivered) ∧
    ∃ texts : List String,
      (∀ other : List String,
        Text.Entered input.delivered (other.map String.toList) ↔ other = texts) ∧
      texts ≠ [] ∧
      ∀ unread : Input,
        runBy evaluator settings debugVariable options input =
          runBy evaluator settings debugVariable (options ++ "--" :: texts) unread := by
  obtain ⟨c, inside, visible⟩ := typed
  have entered : Text.Entered input.delivered (input.expressions.map String.toList) :=
    entered_expressions.2 rfl
  have filled : input.expressions ≠ [] := by simpa using entered.ne_nil inside visible
  refine ⟨fun _ => delivers_iff, input.expressions, fun _ => entered_expressions, filled, ?_⟩
  intro unread
  have bare : readOptions options = .ok (flags, []) := by simpa using given.readOptions_eq .done
  have marked := given.readOptions_eq (.mark input.expressions)
  have taken : input.unless [] = unread.unless input.expressions := by simp [Input.unless, filled]
  exact runBy_congr evaluator settings debugVariable bare marked taken

-- An interrupt takes the bracket away, which has no line end yet.
theorem ragged_lines_as_arguments :
    Options ["-c"] [.calc] ∧
      (∃ c ∈ (Input.mk "1+\r\n \u2003\r\n\t2x \n\r(" true).delivered, Text.isBlank c = false) ∧
      (∀ unread : Input,
        runBy typesetValue {} none ["-c"] ⟨"1+\r\n \u2003\r\n\t2x \n\r(", true⟩ =
          runBy typesetValue {} none ["-c", "--", "1+", "2x"] unread) ∧
      ∀ unread : Input,
        runBy typesetValue {} none ["-c"] ⟨"1+\r\n \u2003\r\n\t2x \n\r(", false⟩ =
          runBy typesetValue {} none ["-c", "--", "1+", "2x", "("] unread := by
  have given : Options ["-c"] [.calc] := by decide
  have typed (interrupted : Bool) :
      ∃ c ∈ (Input.mk "1+\r\n \u2003\r\n\t2x \n\r(" interrupted).delivered, Text.isBlank c = false :=
    ⟨'1', by cases interrupted <;> decide, by decide⟩
  obtain ⟨-, cut, enteredCut, -, sameCut⟩ := lines_as_arguments typesetValue {} none given _ (typed true)
  obtain ⟨-, whole, entered, -, same⟩ := lines_as_arguments typesetValue {} none given _ (typed false)
  obtain rfl : ["1+", "2x"] = cut := (enteredCut _).1 (Text.entered_iff.2 (by decide))
  obtain rfl : ["1+", "2x", "("] = whole := (entered _).1 (Text.entered_iff.2 (by decide))
  exact ⟨given, typed true, sameCut, same⟩

end FormulaCalculator.CommandLine
